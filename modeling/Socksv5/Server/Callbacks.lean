import Socksv5.Server.Serving

/-!
# Callbacks and live sessions

In every run of the main loop the slots that are registered with the callbacks
of sessions carry sessions that have not been destroyed, and so does the key of
each callback of a session: also the key that was made before the callback for
reading, when that callback has ended the session.
-/

namespace Socksv5

open Support FdSelector

/-! ## Starting -/

/-- Only listening sockets are registered, which are among these. -/
structure FdSelector.Listening (s : FdSelector) (fds : List ℤ) : Prop where
  slotted : s.Slotted
  slots : ∀ i, s.registration i = {} ∨ (i : ℤ) ∈ fds ∧ ∃ handler,
    (handler = .socksv5Passive ∨ handler = .adminPassive) ∧
      s.registration i = ⟨i, some handler, none⟩

theorem registerListening_listening {fd : ℤ} {fds : List ℤ}
    {handler : FdHandler} {s s' : FdSelector} {failed : Bool}
    (hs : s.Listening fds)
    (hhandler : handler = .socksv5Passive ∨ handler = .adminPassive)
    (h : registerListening fd handler s = .ok (failed, s')) :
    s'.Listening (fd :: fds) := by
  have hmore : s.Listening (fd :: fds) := by
    refine ⟨hs.slotted, fun i => (hs.slots i).imp_right ?_⟩
    exact fun hslot => ⟨List.mem_cons_of_mem _ hslot.1, hslot.2⟩
  unfold registerListening at h
  by_cases hfd : fd ≠ -1
  · rw [if_pos hfd] at h
    obtain ⟨⟨ret, s₁⟩, hregister, h⟩ := bind_eq_ok.mp h
    cases h
    rcases selectorRegister_registration hs.slotted hregister with
      ⟨-, rfl, -⟩ | ⟨-, hvalid, -, hsize, -, hslots⟩
    · exact hmore
    · refine ⟨hs.slotted.filled hsize hvalid rfl (by simp) hslots, fun i => ?_⟩
      have hpos := (invalidFd_eq_false_iff.mp hvalid).1
      rw [hslots]
      by_cases hi : i = fd.toNat
      · subst hi
        rw [Function.update_self, Int.toNat_of_nonneg hpos]
        exact .inr ⟨List.mem_cons_self, handler, hhandler, rfl⟩
      · rw [Function.update_of_ne hi]
        exact hmore.slots i
  · rw [if_neg hfd] at h
    cases h
    exact hmore

theorem registerAllFds_listening {fd1 fd2 fd3 fd4 : ℤ} {s : FdSelector}
    {ok : Bool} (h : registerAllFds fd1 fd2 fd3 fd4 (selectorNew 1024) =
      .ok (ok, s)) : s.Listening [fd4, fd3, fd2, fd1] := by
  obtain ⟨⟨b1, s1⟩, h1, h⟩ := bind_eq_ok.mp h
  obtain ⟨⟨b2, s2⟩, h2, h⟩ := bind_eq_ok.mp h
  obtain ⟨⟨b3, s3⟩, h3, h⟩ := bind_eq_ok.mp h
  obtain ⟨⟨b4, s4⟩, h4, h⟩ := bind_eq_ok.mp h
  cases h
  have hempty : (selectorNew 1024).Listening [] :=
    ⟨slotted_new, fun _ => .inl rfl⟩
  have hs1 := registerListening_listening hempty (.inl rfl) h1
  have hs2 := registerListening_listening hs1 (.inl rfl) h2
  have hs3 := registerListening_listening hs2 (.inr rfl) h3
  exact registerListening_listening hs3 (.inr rfl) h4

/-- What is registered is one of the sockets. -/
theorem FdSelector.Listening.mem {s : FdSelector} {fds : List ℤ} {fd : ℤ}
    (h : s.Listening fds) (hfd : s.Registered fd) : 0 ≤ fd ∧ fd ∈ fds := by
  obtain ⟨hpos, hused⟩ := (h.slotted.registered_iff fd).mp hfd
  refine ⟨hpos, ?_⟩
  rw [FdSelector.used_iff] at hused
  rcases h.slots fd.toNat with hnone | ⟨hmem, -⟩
  · rw [hnone] at hused
    exact absurd rfl hused
  · rwa [Int.toNat_of_nonneg hpos] at hmem

namespace Running

variable {x y : Running}

/-- There are no sessions yet. -/
theorem Starts.wired (hx : x.Starts) : x.Wired := by
  obtain ⟨srv, opened, ⟨fd1, fd2, fd3, fd4, s, hs, rfl⟩, hopened, rfl⟩ := hx
  have hlistening := registerAllFds_listening hs
  refine ⟨hlistening.slotted, ?_, ?_, ?_, ?_, ?_⟩
  · intro i hi
    refine hopened i ((hlistening.slotted.registered_iff i).mpr
      ⟨Int.natCast_nonneg i, ?_⟩)
    rw [Int.toNat_natCast, FdSelector.used_iff]
    rcases hlistening.slots i with hnone | ⟨-, handler, -, hslot⟩
    · exact absurd hnone hi
    · rw [hslot]
      exact fun h => by cases h
  · intro i data hi
    rcases hlistening.slots i with hnone | ⟨-, handler, hhandler, hslot⟩
    · cases hnone.symm.trans hi
    · cases hslot.symm.trans hi
      rcases hhandler with h | h <;> cases h
  · intro i _
    rcases hlistening.slots i with hnone | ⟨-, handler, -, hslot⟩
    · exact congrArg Registration.data hnone
    · exact congrArg Registration.data hslot
  · intro a session stm ha
    cases ha
  · rintro a (ha | ha) <;> exact absurd rfl ha

/-! ## The key of a callback -/

/-- The loop is where it is with a key that fits. -/
structure Serving (x : Running) : Prop where
  wired : x.Wired
  cached : ∀ rep n i key, x.point = .writing rep n i key →
    x.slots i ≠ {} → key = x.key i

theorem slots_eq (hx : x.Wired) {i : ℕ} {handler : FdHandler}
    (h : (x.item i).handler = some handler) :
    x.slots i = ⟨i, some handler, (x.key i).data⟩ ∧ (x.key i).fd = i := by
  have hfd := (hx.slot_lt (Registration.ne_of_handler h)).1
  refine ⟨?_, hfd⟩
  rw [← hfd, ← h]
  rfl

/-- A callback is called with what its slot carries, and for no slot that is
free. -/
theorem Serving.due_key (hx : x.Serving) {r : Ready} {handler : FdHandler}
    {key : SelectorKey} (h : x.due = some (r, some handler, key)) :
    ∃ i : ℕ, key.fd = i ∧ x.slots i = ⟨i, some handler, key.data⟩ := by
  unfold due at h
  split at h
  · cases h
  · rename_i rep n i _
    split at h
    · simp only [Option.some.injEq, Prod.mk.injEq] at h
      obtain ⟨-, hhandler, rfl⟩ := h
      obtain ⟨hslot, hfd⟩ := slots_eq hx.wired hhandler
      exact ⟨i, hfd, hslot⟩
    · cases h
  · rename_i rep n i cached hpoint
    split at h
    · simp only [Option.some.injEq, Prod.mk.injEq] at h
      obtain ⟨-, hhandler, rfl⟩ := h
      obtain ⟨hslot, hfd⟩ := slots_eq hx.wired hhandler
      have hcached := hx.cached rep n i cached hpoint
        (Registration.ne_of_handler hhandler)
      subst hcached
      exact ⟨i, hfd, hslot⟩
    · cases h
  · split at h
    · cases h
    · rename_i fd _ _
      split at h
      · simp only [Option.some.injEq, Prod.mk.injEq] at h
        obtain ⟨-, hhandler, rfl⟩ := h
        obtain ⟨hslot, hfd⟩ := slots_eq hx.wired hhandler
        exact ⟨fd.toNat, hfd, hslot⟩
      · cases h

/-! ## Steps -/

theorem taken_slots (x : Running) : x.taken.slots = x.slots := by
  unfold taken
  split <;> rfl

/-- Taking a notification from the queue changes nothing else. -/
theorem Wired.taken_advances (hx : x.Wired) : x.Advances x.taken := by
  refine hx.advances_of_same ?_ x.taken_slots ?_ (fun fd => ?_) ?_ ?_ ?_
    fun a ha => ?_
  all_goals
    unfold taken
    split <;> first | rfl | exact ha

theorem Advances.of_taken (h : x.taken.Advances y) (point : LoopPoint) :
    x.Advances { y with point := point } := by
  obtain ⟨hy, hkept, hchanges, hallocated⟩ := h
  rw [taken_slots] at hkept
  refine ⟨?_, hkept, ?_, ?_⟩
  · exact hy.of_same rfl rfl rfl (fun _ => Iff.rfl) rfl fun _ ha => ha
  · unfold taken at hchanges
    split at hchanges
    all_goals
      cases hchanges with
      | same hconnected hconcurrent hhistorical haccepted =>
          exact .same hconnected hconcurrent hhistorical haccepted
      | joins hnot ha hconnected hroom hmetrics haccepted =>
          exact .joins hnot ha hconnected hroom hmetrics haccepted
      | leaves ha hconnected hconcurrent hhistorical haccepted =>
          exact .leaves ha hconnected hconcurrent hhistorical haccepted
  · unfold taken at hallocated
    split at hallocated <;> exact hallocated

/-- A callback that is called with what its slot carries. -/
theorem Calls.advances (hx : x.Wired) {handler : FdHandler} {r : Ready}
    {key : SelectorKey} {i : ℕ} (hfd : key.fd = i)
    (hslot : x.slots i = ⟨i, some handler, key.data⟩)
    (h : x.Calls handler r key y) : x.Advances y := by
  have hhandler : (x.slots i).handler = some handler :=
    congrArg Registration.handler hslot
  have hdata : (x.slots i).data = key.data := congrArg Registration.data hslot
  cases h with
  | session ha hnode hfresh hdispatch hl =>
      obtain ⟨b, session, stm, hb, hbody, hattached, howns⟩ := hx.attached hslot
      rw [ha] at hb
      cases hb
      have hbody' := SessionList.body_of_heap hnode
      cases hbody.symm.trans hbody'
      rw [hfd] at hdispatch
      exact (hattached.attended hx hslot howns hfresh hdispatch hl).advances hx
        hbody hattached
  | accept hgrants haccept =>
      have hkey : key.data = none := hdata ▸ hx.passive i (.inl hhandler)
      obtain ⟨hadmits, hsize⟩ := hgrants.admits hx hkey haccept
      exact hadmits.advances hx hgrants hsize
  | adminAccept hgrants haccept =>
      have hkey : key.data = none := hdata ▸ hx.passive i (.inr hhandler)
      exact hgrants.adminAdvances hx hkey haccept
  | admin hhosts hdispatch hlive => exact hhosts.advances hx hdispatch hlive
  | adminEnds hhosts hdispatch hended _ _ =>
      exact hhosts.advances_of_ended hx hdispatch hended hfd hhandler _

theorem key_eq {i : ℕ} (h : y.slots i = x.slots i) : y.key i = x.key i := by
  have hfd : (y.item i).fd = (x.item i).fd := congrArg Registration.fd h
  have hdata : (y.item i).data = (x.item i).data := congrArg Registration.data h
  rw [key, key, hfd, hdata]

/-- The key that is made between reading and writing is that of the slot. -/
theorem Serving.next (hx : x.Serving) (h : x.Advances y)
    (hpoint : y.point = x.next) : y.Serving := by
  refine ⟨h.wired, ?_⟩
  intro rep n i key hwriting hi
  rw [hpoint] at hwriting
  unfold Running.next at hwriting
  split at hwriting
  · cases hwriting
  · split at hwriting
    · cases hwriting
    · split at hwriting
      · rename_i hused
        cases hwriting
        have hslot := (hx.wired.used_iff i).mp hused
        exact (key_eq (h.kept i hslot hi)).symm
      · cases hwriting
  · cases hwriting
  · split at hwriting <;> cases hwriting

/-- Nothing has happened to the slots while the loop has stayed where it is. -/
theorem Serving.stays (hx : x.Serving) (h : x.Advances y)
    (hslots : y.slots = x.slots) (hpoint : y.point = x.point) : y.Serving := by
  refine ⟨h.wired, ?_⟩
  intro rep n i key hwriting hi
  rw [hpoint] at hwriting
  rw [hslots] at hi
  rw [hx.cached rep n i key hwriting hi]
  exact (key_eq (by rw [hslots])).symm

/-- One step of the loop or of a thread. -/
theorem Serving.step (hx : x.Serving) {e : LoopEvent} (h : Step x e y) :
    x.Advances y ∧ y.Serving := by
  have htaken := hx.wired.taken_advances.wired
  cases h with
  | selects rep _ =>
      have hadvances := hx.wired.advances_of_same (y := { x with
        point := .reading rep x.server.selector.maxFd.toNat 0 }) rfl rfl rfl
        (fun _ => Iff.rfl) rfl rfl rfl fun _ ha => ha
      exact ⟨hadvances, hadvances.wired, nofun⟩
  | interrupted _ =>
      have hadvances := hx.wired.advances_of_same (y := { x with
        point := .notifying }) rfl rfl rfl (fun _ => Iff.rfl) rfl rfl rfl
        fun _ ha => ha
      exact ⟨hadvances, hadvances.wired, nofun⟩
  | calls hdue _ hcall =>
      obtain ⟨i, hfd, hslot⟩ := hx.due_key hdue
      rw [← x.taken_slots] at hslot
      have hadvances := (hcall.advances htaken hfd hslot).of_taken x.next
      exact ⟨hadvances, hx.next hadvances rfl⟩
  | passes _ _ =>
      have hsame : x.taken.Advances x.taken := htaken.advances_of_same rfl rfl rfl
        (fun _ => Iff.rfl) rfl rfl rfl fun _ ha => ha
      have hadvances := hsame.of_taken x.next
      exact ⟨hadvances, hx.next hadvances rfl⟩
  | starts hfd =>
      have hadvances := hx.wired.starts hfd
      exact ⟨hadvances, hx.stays hadvances rfl rfl⟩
  | finds addrs hfd =>
      have hadvances := hx.wired.finds hfd addrs
      exact ⟨hadvances, hx.stays hadvances rfl rfl⟩
  | @notifies fd alloc _ _ =>
      have hslots : (selectorNotifyBlock x.server.selector fd
          alloc).2.registration = x.slots := by
        cases alloc <;> rfl
      have hsize : (selectorNotifyBlock x.server.selector fd alloc).2.fdSize =
          x.server.selector.fdSize := by
        cases alloc <;> rfl
      have hadvances := hx.wired.advances_of_same (y := { x with
        server := { x.server with
          selector := (selectorNotifyBlock x.server.selector fd alloc).2 }
        notices := x.notices.erase fd }) hsize hslots rfl (fun _ => Iff.rfl) rfl
        rfl rfl fun _ ha => ha
      exact ⟨hadvances, hx.stays hadvances hslots rfl⟩

theorem Starts.serving (hx : x.Starts) : x.Serving := by
  refine ⟨hx.wired, ?_⟩
  obtain ⟨srv, opened, -, -, rfl⟩ := hx
  exact nofun

/-- A whole run of the main loop. -/
theorem Serving.run {x₀ x : Running} {tr : List (Running × LoopEvent)}
    (h₀ : x₀.Starts) (hrun : Run Step x₀ tr x) : x.Serving :=
  hrun.invariant h₀.serving fun _ _ _ hx hstep => (hx.step hstep).2

/-- The pointer is to a session that has not been destroyed, and the descriptor
is one of its two. -/
def Points (x : Running) (data : Option ℕ) (fd : ℤ) : Prop :=
  ∃ a node, data = some a ∧ x.server.sessions.heap a = some node ∧
    (node.session.clientFd = fd ∨ node.session.originFd = fd)

theorem Wired.points (hx : x.Wired) {i : ℕ} {data : Option ℕ}
    (h : x.slots i = ⟨i, some .socksv5Active, data⟩) : x.Points data i := by
  obtain ⟨a, session, stm, hdata, hbody, -, howns⟩ := hx.active i data h
  obtain ⟨node, hnode, rfl, -⟩ := SessionList.exists_node_of_body hbody
  exact ⟨a, node, hdata, hnode, howns.imp Eq.symm Eq.symm⟩

/-- In every run of the main loop, every slot in use with the callbacks of
sessions carries a session that has not been destroyed and has the descriptor of
the slot; and so does the key of every callback of a session that is due. -/
theorem no_callback_on_dead_session {x₀ x : Running}
    {tr : List (Running × LoopEvent)} (h₀ : x₀.Starts)
    (hrun : Run Step x₀ tr x) :
    (∀ i, (x.item i).used = true → (x.item i).handler = some .socksv5Active →
      (x.item i).fd = i ∧ x.Points (x.item i).data i) ∧
    ∀ r key, x.due = some (r, some .socksv5Active, key) →
      x.Points key.data key.fd := by
  have hx := Serving.run h₀ hrun
  constructor
  · intro i _ hhandler
    obtain ⟨hslot, hfd⟩ := slots_eq hx.wired hhandler
    exact ⟨hfd, hx.wired.points hslot⟩
  · intro r key hdue
    obtain ⟨i, hfd, hslot⟩ := hx.due_key hdue
    rw [hfd]
    exact hx.wired.points hslot

/-! ## A run that can be computed -/

/-- `pselect` reports descriptors to be read, the loop goes past a point, accepts a
connection, or calls a session. -/
inductive Move
  | selects (fds : List ℕ)
  | passes
  | accepts (sys : AcceptSys)
  | client (sys : Sys)

/-- What a callback of a session leads to, when no socket can be made. -/
def callSession (x : Running) (r : Ready) (key : SelectorKey) (sys : Sys) :
    Option Running :=
  key.data.bind fun a => (x.server.sessions.heap a).bind fun node =>
    (dispatch r key.fd { sys with attempts := fun _ => {} }
      ⟨node.stm, x.world a node.session⟩).toOption.bind fun c =>
        let l := x.server.sessions.put a
          { node with session := c.world.session, stm := c.stm }
        (if c.world.destroyed then (l.socksv5Destroy (some a)).toOption
          else some l).map (x.afterSession a c.world)

theorem callSession_calls {x y : Running} {r : Ready} {key : SelectorKey} {sys : Sys}
    (h : x.callSession r key sys = some y) : x.Calls .socksv5Active r key y := by
  obtain ⟨a, ha, h⟩ := Option.bind_eq_some_iff.mp h
  obtain ⟨node, hnode, h⟩ := Option.bind_eq_some_iff.mp h
  obtain ⟨c, hc, h⟩ := Option.bind_eq_some_iff.mp h
  obtain ⟨l, hl, rfl⟩ := Option.map_eq_some_iff.mp h
  have hnone : ∀ (k n : ℕ), (none : Option ℕ) = some n → (n : ℤ) ∉ x.opened := by
    intro _ n hn
    cases hn
  refine .session ha hnode hnone (toOption_eq_some.mp hc) ?_
  rw [SessionList.Becomes]
  by_cases hdestroyed : c.world.destroyed = true
  · rw [if_pos hdestroyed] at hl ⊢
    exact toOption_eq_some.mp hl
  · rw [if_neg hdestroyed] at hl ⊢
    exact (Option.some.inj hl).symm

/-- What the move does, if it can be made. -/
def Move.perform (x : Running) : Move → Option (LoopEvent × Running)
  | .selects fds =>
      let rep : Reported := { slaveR := fun fd => decide (fd ∈ fds) }
      match x.point with
      | .selecting => some (.selects rep, { x with
          point := .reading rep x.server.selector.maxFd.toNat 0 })
      | _ => none
  | .passes =>
      match x.point, x.due with
      | .selecting, _ | _, some _ => none
      | _, none => some (.passes, { x.taken with point := x.next })
  | .accepts sys =>
      match x.due with
      | some (.read, some .socksv5Passive, key) =>
          if (∀ n, sys.accept = some n → (n : ℤ) ∉ x.taken.opened) ∧
              ∀ a, sys.address = some a → a ∉ x.taken.allocated then
            (socksv5PassiveAccept 8 sys key x.taken.server).toOption.map
              fun srv => (.calls .socksv5Passive .read key,
                { x.taken.afterAccept sys srv with point := x.next })
          else none
      | _ => none
  | .client sys =>
      match x.due with
      | some (r, some .socksv5Active, key) => (x.taken.callSession r key sys).map
          fun y => (.calls .socksv5Active r key, { y with point := x.next })
      | _ => none

theorem Move.perform_step (x : Running) (m : Move) (e : LoopEvent) (y : Running)
    (h : m.perform x = some (e, y)) : Step x e y := by
  cases m with
  | selects fds =>
      simp only [Move.perform] at h
      split at h
      · rename_i hpoint
        cases h
        exact .selects _ hpoint
      · cases h
  | passes =>
      simp only [Move.perform] at h
      split at h
      · cases h
      · cases h
      · rename_i hdue hpoint
        cases h
        exact .passes hpoint hdue
  | accepts sys =>
      simp only [Move.perform] at h
      split at h
      · rename_i key hdue
        split at h
        · rename_i hgrants
          obtain ⟨srv, hsrv, heq⟩ := Option.map_eq_some_iff.mp h
          cases heq
          exact .calls hdue rfl
            (.accept ⟨hgrants.1, hgrants.2⟩ (toOption_eq_some.mp hsrv))
        · cases h
      · cases h
  | client sys =>
      simp only [Move.perform] at h
      split at h
      · rename_i r key hdue
        obtain ⟨y', hy, heq⟩ := Option.map_eq_some_iff.mp h
        cases heq
        have hhandles : FdHandler.socksv5Active.handles r = true := by cases r <;> rfl
        exact .calls hdue hhandles (callSession_calls hy)
      · cases h

/-- The listening sockets are 3 and 4; a client is accepted at 5, its session is
allocated at `a`, and the loop gets to it when it has been reported ready to be
read. -/
def acceptsClient (a : ℕ) : List Move :=
  [.selects [3], .passes, .passes, .passes, .accepts ⟨some 5, true, some a, true⟩,
    .passes, .passes, .passes, .passes, .passes, .selects [5], .passes, .passes,
    .passes, .passes, .passes, .passes, .passes]

/-- A server that listens at two sockets. -/
theorem starts_of_sockets {s : FdSelector}
    (hs : registerAllFds 3 (-1) 4 (-1) (selectorNew 1024) = .ok (true, s)) :
    Starts { server := { selector := s }, opened := [3, 4] } := by
  refine ⟨_, _, ⟨3, -1, 4, -1, s, hs, rfl⟩, fun fd hfd => ?_, rfl⟩
  obtain ⟨hpos, hmem⟩ := (registerAllFds_listening hs).mem hfd
  simp only [List.mem_cons, List.not_mem_nil, or_false] at hmem ⊢
  omega

/-- Moves that such a server can make. -/
theorem exists_moves {ms : List Move} {check : Running → Bool}
    (h : (registerAllFds 3 (-1) 4 (-1) (selectorNew 1024)).toOption.any
      (fun r => r.1 && (moves (fun x (m : Move) => m.perform x)
        { server := { selector := r.2 }, opened := [3, 4] } ms).any check) = true) :
    ∃ x₀ x : Running, x₀.Starts ∧
      moves (fun x (m : Move) => m.perform x) x₀ ms = some x ∧ check x = true := by
  obtain ⟨⟨ok, s⟩, hs, h⟩ := (Option.any_eq_true _ _).mp h
  have hs := toOption_eq_some.mp hs
  rw [Bool.and_eq_true] at h
  obtain ⟨rfl, h⟩ := h
  obtain ⟨x, hx, hcheck⟩ := (Option.any_eq_true _ _).mp h
  exact ⟨_, x, starts_of_sockets hs, hx, hcheck⟩

theorem exists_accepted : ∃ x₀ x : Running, x₀.Starts ∧
    moves (fun x (m : Move) => m.perform x) x₀ (acceptsClient 0) = some x ∧
    (x.item 5).handler = some .socksv5Active ∧
    x.due = some (.read, some .socksv5Active, ⟨5, some 0⟩) := by
  have hplay : (registerAllFds 3 (-1) 4 (-1) (selectorNew 1024)).toOption.any
      (fun r => r.1 && (moves (fun x (m : Move) => m.perform x)
        { server := { selector := r.2 }, opened := [3, 4] } (acceptsClient 0)).any
          fun x => decide ((x.item 5).handler = some .socksv5Active ∧
            x.due = some (.read, some .socksv5Active, ⟨5, some 0⟩))) = true := by
    decide +kernel
  obtain ⟨x₀, x, h₀, hx, hchecks⟩ := exists_moves hplay
  exact ⟨x₀, x, h₀, hx, of_decide_eq_true hchecks⟩

/-- The client closes the connection, and another one is accepted at 5. -/
def acceptsAnother : List Move :=
  acceptsClient 0 ++ [.client { recv := .received [] }, .passes, .passes, .passes] ++
    acceptsClient 1

theorem exists_accepted_another : ∃ x₀ x : Running, x₀.Starts ∧
    moves (fun x (m : Move) => m.perform x) x₀ acceptsAnother = some x ∧
    (x.item 5).handler = some .socksv5Active ∧
    x.due = some (.read, some .socksv5Active, ⟨5, some 1⟩) ∧
    x.server.sessions.heap 0 = none ∧ 0 ∈ x.accepted := by
  have hplay : (registerAllFds 3 (-1) 4 (-1) (selectorNew 1024)).toOption.any
      (fun r => r.1 && (moves (fun x (m : Move) => m.perform x)
        { server := { selector := r.2 }, opened := [3, 4] } acceptsAnother).any
          fun x => decide ((x.item 5).handler = some .socksv5Active ∧
            x.due = some (.read, some .socksv5Active, ⟨5, some 1⟩) ∧
            (x.server.sessions.heap 0).isNone ∧ 0 ∈ x.accepted)) = true := by
    decide +kernel
  obtain ⟨x₀, x, h₀, hx, hchecks⟩ := exists_moves hplay
  obtain ⟨hhandler, hdue, hgone, hmem⟩ := of_decide_eq_true hchecks
  exact ⟨x₀, x, h₀, hx, hhandler, hdue, Option.isNone_iff_eq_none.mp hgone, hmem⟩

/-- The session at 0 has ended; the one that has been accepted at the same
descriptor is there when it is to be read. -/
theorem no_callback_on_dead_session_of_accepted : ∃ x₀ x : Running,
    x₀.Starts ∧ (∃ tr, Run Step x₀ tr x) ∧ x.server.sessions.heap 0 = none ∧
    ((x.item 5).fd = 5 ∧ x.Points (x.item 5).data 5) ∧
    x.due = some (.read, some .socksv5Active, ⟨5, some 1⟩) ∧
    x.Points (some 1) 5 := by
  obtain ⟨x₀, x, h₀, hx, hhandler, hdue, hgone, -⟩ := exists_accepted_another
  obtain ⟨tr, hrun⟩ := Run.of_moves (fun x m e y => Move.perform_step x m e y) hx
  obtain ⟨hslots, hcallbacks⟩ := no_callback_on_dead_session h₀ hrun
  have hused := ((Serving.run h₀ hrun).wired.used_iff 5).mpr
    (Registration.ne_of_handler hhandler)
  exact ⟨x₀, x, h₀, ⟨tr, hrun⟩, hgone, hslots 5 hused hhandler, hdue,
    hcallbacks _ _ hdue⟩

end Running

end Socksv5
