import Socksv5.Server.Administrators
import Socksv5.Session.Leaks

/-!
# What the server opens and closes

A step of a running server opens only descriptors that are not open, and closes
only descriptors that are, each once.  The sockets that it listens at are never
among those that it closes, and keep their callbacks.
-/

namespace Socksv5

open Support

/-! ## Accepting -/

/-- `socksv5_passive_accept` closes at most the descriptor that it has
accepted. -/
theorem socksv5PassiveAccept_closed {fuel : ℕ} {sys : AcceptSys}
    {key : SelectorKey} {srv srv' : Server} (hkey : key.data = none)
    (h : socksv5PassiveAccept fuel sys key srv = .ok srv') :
    srv'.closed = srv.closed ∨ ∃ n : ℕ, sys.accept = some n ∧
      srv.metrics.getConcurrentConnections < maxConcurrentConnections ∧
        srv'.closed = srv.closed ++ [(n : ℤ)] := by
  have hfinally {clientSock socksv5 : Option ℕ} {srv : Server}
      (h : socksv5AcceptFinally key clientSock socksv5 srv = .ok srv') :
      srv'.closed = srv.closed ++ (clientSock.toList.map fun n : ℕ => (n : ℤ)) := by
    unfold socksv5AcceptFinally at h
    rw [hkey] at h
    cases clientSock <;> cases socksv5 <;> cases h <;>
      simp [Server.close]
  unfold socksv5PassiveAccept at h
  split at h
  · rename_i hroom
    cases haccept : sys.accept with
    | none =>
        rw [haccept] at h
        refine .inl ?_
        simpa using hfinally h
    | some n =>
        simp only [haccept] at h
        split at h
        · exact .inr ⟨n, rfl, hroom, hfinally h⟩
        · obtain ⟨⟨socksv5, l⟩, -, h⟩ := bind_eq_ok.mp h
          dsimp only at h
          split at h
          · exact .inr ⟨n, rfl, hroom, hfinally h⟩
          · obtain ⟨⟨ret, s⟩, -, h⟩ := bind_eq_ok.mp h
            dsimp only at h
            split at h
            · exact .inr ⟨n, rfl, hroom, hfinally h⟩
            · cases h
              exact .inl rfl
  · cases h
    exact .inl rfl

/-- `admin_passive_accept`, likewise. -/
theorem adminPassiveAccept_closed {fuel : ℕ} {sys : AcceptSys}
    {key : SelectorKey} {srv srv' : Server} (hkey : key.data = none)
    (h : adminPassiveAccept fuel sys key srv = .ok srv') :
    srv'.closed = srv.closed ∨
      ∃ n : ℕ, sys.accept = some n ∧ srv'.closed = srv.closed ++ [(n : ℤ)] := by
  unfold adminPassiveAccept at h
  cases haccept : sys.accept with
  | none =>
      simp only [haccept] at h
      cases h
      exact .inl rfl
  | some n =>
      simp only [haccept] at h
      split at h
      · cases h
        exact .inr ⟨n, rfl, rfl⟩
      · obtain ⟨⟨ad, l⟩, -, h⟩ := bind_eq_ok.mp h
        dsimp only at h
        split at h
        · cases h
          exact .inr ⟨n, rfl, rfl⟩
        · rename_i had
          obtain ⟨⟨ret, s⟩, -, h⟩ := bind_eq_ok.mp h
          dsimp only at h
          split at h
          · rw [adminAcceptFinally, if_pos had] at h
            exact absurd h (destroyAdmin_ne_ok hkey)
          · cases h
            exact .inl rfl

namespace Running

variable {x y : Running}

/-! ## One step -/

/-- What is opened was not open; what is closed was open, or has been opened, and
is closed once. -/
structure Exchanges (x y : Running) (fresh part : List ℤ) : Prop where
  closed : y.server.closed = x.server.closed ++ part
  unopened : ∀ fd ∈ fresh, fd ∉ x.opened
  once : part.Nodup
  held : ∀ fd ∈ part, fd ∈ fresh ∨ fd ∈ x.opened
  opened : ∀ fd, fd ∈ y.opened ↔ (fd ∈ fresh ∨ fd ∈ x.opened) ∧ fd ∉ part

theorem Exchanges.of_same (hclosed : y.server.closed = x.server.closed)
    (hopened : y.opened = x.opened) : x.Exchanges y [] [] where
  closed := by rw [hclosed, List.append_nil]
  unopened := nofun
  once := List.nodup_nil
  held := nofun
  opened := by simp [hopened]

/-- A callback that has opened and closed descriptors. -/
theorem exchanges_after {srv : Server} {fresh part : List ℤ}
    (hclosed : srv.closed = x.server.closed ++ part)
    (hfresh : ∀ fd ∈ fresh, fd ∉ x.opened) (honce : part.Nodup)
    (hheld : ∀ fd ∈ part, fd ∈ fresh ∨ fd ∈ x.opened) :
    x.Exchanges (x.after srv fresh) fresh part where
  closed := hclosed
  unopened := hfresh
  once := honce
  held := hheld
  opened := by
    intro fd
    rw [mem_opened_after, hclosed, List.drop_left]

theorem exchanges_of_accept {sys : AcceptSys} (hsys : x.Grants sys) {srv : Server}
    {fresh : List ℤ} (hfresh : ∀ fd ∈ fresh, ∃ n : ℕ, sys.accept = some n ∧ fd = n)
    (h : srv.closed = x.server.closed ∨
      ∃ fd ∈ fresh, srv.closed = x.server.closed ++ [fd]) :
    ∃ part, x.Exchanges (x.after srv fresh) fresh part := by
  have hnot : ∀ fd ∈ fresh, fd ∉ x.opened := by
    intro fd hfd
    obtain ⟨n, hn, rfl⟩ := hfresh fd hfd
    exact hsys.accept n hn
  rcases h with hsame | ⟨fd, hfd, hclosed⟩
  · refine ⟨[], exchanges_after ?_ hnot List.nodup_nil nofun⟩
    rw [hsame, List.append_nil]
  · refine ⟨[fd], exchanges_after hclosed hnot (List.nodup_singleton fd) ?_⟩
    intro fd' hfd'
    rw [List.mem_singleton.mp hfd']
    exact .inl hfd

theorem Exchanges.of_eq {z : Running} {fresh part : List ℤ}
    (h : x.Exchanges y fresh part) (hclosed : z.server.closed = y.server.closed)
    (hopened : z.opened = y.opened) : x.Exchanges z fresh part where
  closed := hclosed.trans h.closed
  unopened := h.unopened
  once := h.once
  held := h.held
  opened := by
    rw [hopened]
    exact h.opened

/-- A session that ends closes its client's descriptor and, if it has one, that of
its origin. -/
theorem Replaced.held (hx : x.Wired) {a : ℕ} {session : Session} {stm : Machine}
    (h : x.Attached a session stm) {w : World} (hw : x.Replaced a session w) :
    w.session.closes.Nodup ∧
      ∀ fd ∈ w.session.closes, fd ∈ w.opened ∨ fd ∈ x.opened := by
  have hclient : w.session.clientFd ∈ x.opened := by
    rw [hw.clientFd]
    exact h.owned_opened hx ⟨h.nonneg, .inl rfl⟩
  have hdistinct : w.session.clientFd ≠ w.session.originFd := by
    rcases hw.origin with heq | heq | hmem
    · rw [heq, hw.clientFd]
      exact h.distinct.symm
    · rw [heq, hw.clientFd]
      have hpos := h.nonneg
      omega
    · intro heq
      exact (hw.opened _ hmem).2 (heq ▸ hclient)
  constructor
  · apply List.Nodup.filter
    simpa using hdistinct
  · intro fd hfd
    simp only [Session.closes, List.mem_filter, List.mem_cons, List.not_mem_nil,
      or_false, decide_eq_true_eq] at hfd
    obtain ⟨rfl | rfl, hne⟩ := hfd
    · exact .inr hclient
    · rcases hw.origin with heq | heq | hmem
      · rcases h.origin with hnone | ⟨-, hopened, -⟩
        · exact absurd (heq.trans hnone) hne
        · exact .inr (heq ▸ hopened)
      · exact absurd heq hne
      · exact .inl hmem

theorem Attached.exchanges (hx : x.Wired) {a : ℕ} {node : SessionNode}
    (h : x.Attached a node.session node.stm) {i : ℕ} {data : Option ℕ}
    (hslot : x.slots i = ⟨i, some .socksv5Active, data⟩)
    (howns : node.session.Owns i) {sys : Sys}
    (hfresh : ∀ k n, (sys.attempts k).socket = some n → (n : ℤ) ∉ x.opened)
    {r : Ready} {c : Config}
    (hdispatch : dispatch r i sys ⟨node.stm, x.world a node.session⟩ = .ok c)
    (l : SessionList) :
    x.Exchanges (x.afterSession a c.world l) c.world.opened c.world.closed := by
  have hreg : x.server.selector.Registered i := by
    rw [hx.registered_iff, Int.toNat_natCast, hslot]
    exact ⟨Int.natCast_nonneg i, Registration.ne_of_handler rfl⟩
  obtain ⟨vs, hvs, hasked⟩ := h.asked
  have hdispatched := dispatched_of_owned hvs hasked hx.slotted rfl howns hreg
    (h.kernel hx hfresh) hdispatch
  have hafter (hunopened : ∀ fd ∈ c.world.opened, fd ∉ x.opened)
      (honce : c.world.closed.Nodup)
      (hheld : ∀ fd ∈ c.world.closed, fd ∈ c.world.opened ∨ fd ∈ x.opened) :
      x.Exchanges (x.afterSession a c.world l) c.world.opened c.world.closed :=
    (exchanges_after rfl hunopened honce hheld).of_eq rfl rfl
  have hfreed := hdispatched.freed
  cases hdispatched.handled with
  | lives hw =>
      have hw := h.replaced hx hfresh hw hfreed
      refine hafter (fun fd hfd => (hw.opened fd hfd).2) ?_ ?_
      · rw [hw.closed]
        exact List.nodup_nil
      · rw [hw.closed]
        exact nofun
  | @ends w₁ _ hw hdone =>
      rw [socksv5Done_session hdone] at hfreed
      have hw := h.replaced hx hfresh hw hfreed
      have hopened := (socksv5Done_spec hdone).opened
      have hclosed := socksv5Done_closed hdone
      rw [hw.closed, List.nil_append] at hclosed
      obtain ⟨honce, hheld⟩ := hw.held hx h
      refine hafter (fun fd hfd => ?_) ?_ ?_
      · rw [hopened] at hfd
        exact (hw.opened fd hfd).2
      · rw [hclosed]
        exact honce
      · rw [hclosed, hopened]
        exact hheld

theorem Calls.exchanges (hx : x.Wired) {handler : FdHandler} {r : Ready}
    {key : SelectorKey} {i : ℕ} (hfd : key.fd = i)
    (hslot : x.slots i = ⟨i, some handler, key.data⟩)
    (h : x.Calls handler r key y) : ∃ fresh part, x.Exchanges y fresh part := by
  have hhandler : (x.slots i).handler = some handler :=
    congrArg Registration.handler hslot
  have hdata : (x.slots i).data = key.data := congrArg Registration.data hslot
  cases h with
  | @session _ _ a node sys c l ha hnode hfresh hdispatch hl =>
      obtain ⟨b, session, stm, hb, hbody, hattached, howns⟩ := hx.attached hslot
      rw [ha] at hb
      cases hb
      cases hbody.symm.trans (SessionList.body_of_heap hnode)
      rw [hfd] at hdispatch
      exact ⟨_, _, hattached.exchanges hx hslot howns hfresh hdispatch l⟩
  | @accept _ sys fuel srv hgrants haccept =>
      have hkey : key.data = none := hdata ▸ hx.passive i (.inl hhandler)
      let fresh : List ℤ := if x.server.metrics.getConcurrentConnections <
        maxConcurrentConnections then sys.opens else []
      have hfresh : ∀ fd ∈ fresh, ∃ n : ℕ, sys.accept = some n ∧ fd = n := by
        intro fd hmem
        have hmem : fd ∈ sys.opens := by
          by_cases hroom : x.server.metrics.getConcurrentConnections <
              maxConcurrentConnections
          · simpa [fresh, hroom] using hmem
          · simp [fresh, hroom] at hmem
        simp only [AcceptSys.opens, List.mem_map, Option.mem_toList] at hmem
        obtain ⟨n, hn, rfl⟩ := hmem
        exact ⟨n, hn, rfl⟩
      have hclosed : srv.closed = x.server.closed ∨
          ∃ fd ∈ fresh, srv.closed = x.server.closed ++ [fd] := by
        refine (socksv5PassiveAccept_closed hkey haccept).imp_right ?_
        rintro ⟨n, hn, hroom, hclosed⟩
        exact ⟨n, by simp [fresh, hroom, AcceptSys.opens, hn], hclosed⟩
      obtain ⟨part, hpart⟩ := exchanges_of_accept hgrants hfresh hclosed
      exact ⟨_, _, hpart.of_eq rfl rfl⟩
  | @adminAccept _ sys fuel srv hgrants haccept =>
      have hkey : key.data = none := hdata ▸ hx.passive i (.inr hhandler)
      have hfresh : ∀ fd ∈ sys.opens, ∃ n : ℕ, sys.accept = some n ∧ fd = n := by
        intro fd hmem
        simp only [AcceptSys.opens, List.mem_map, Option.mem_toList] at hmem
        obtain ⟨n, hn, rfl⟩ := hmem
        exact ⟨n, hn, rfl⟩
      have hclosed : srv.closed = x.server.closed ∨
          ∃ fd ∈ sys.opens, srv.closed = x.server.closed ++ [fd] := by
        refine (adminPassiveAccept_closed hkey haccept).imp_right ?_
        rintro ⟨n, hn, hclosed⟩
        exact ⟨n, by simp [AcceptSys.opens, hn], hclosed⟩
      obtain ⟨part, hpart⟩ := exchanges_of_accept hgrants hfresh hclosed
      exact ⟨_, _, hpart.of_eq rfl rfl⟩
  | admin hhosts hdispatch hlive =>
      exact ⟨_, _, exchanges_after (List.append_nil _).symm (List.forall_mem_nil _)
        List.nodup_nil (List.forall_mem_nil _)⟩
  | adminEnds hhosts hdispatch hended had hremove =>
      refine ⟨_, _, exchanges_after rfl (List.forall_mem_nil _)
        (List.nodup_singleton key.fd) ?_⟩
      intro fd hmem
      rw [List.mem_singleton.mp hmem, hfd]
      exact .inr (hx.opened i (Registration.ne_of_handler hhandler))

theorem taken_opened (x : Running) : x.taken.opened = x.opened := by
  unfold taken
  split <;> rfl

theorem taken_closed (x : Running) : x.taken.server.closed = x.server.closed := by
  unfold taken
  split <;> rfl

theorem Exchanges.of_taken {fresh part : List ℤ}
    (h : x.taken.Exchanges y fresh part) (point : LoopPoint) :
    x.Exchanges { y with point := point } fresh part where
  closed := by
    rw [← x.taken_closed]
    exact h.closed
  unopened := by
    rw [← x.taken_opened]
    exact h.unopened
  once := h.once
  held := by
    rw [← x.taken_opened]
    exact h.held
  opened := by
    rw [← x.taken_opened]
    exact h.opened

theorem Step.exchanges (hx : x.Serving) {e : LoopEvent} (h : Step x e y) :
    ∃ fresh part, x.Exchanges y fresh part := by
  cases h with
  | calls hdue _ hcall =>
      obtain ⟨i, hfd, hslot⟩ := hx.due_key hdue
      rw [← x.taken_slots] at hslot
      obtain ⟨fresh, part, hpart⟩ :=
        hcall.exchanges hx.wired.taken_advances.wired hfd hslot
      exact ⟨fresh, part, hpart.of_taken x.next⟩
  | passes => exact ⟨[], [], .of_same x.taken_closed x.taken_opened⟩
  | selects | interrupted | notifies | starts | finds =>
      exact ⟨[], [], .of_same rfl rfl⟩

/-- A slot that is not of a session, and not of an administrator, stays. -/
theorem Tends.kept (h : x.Tends y) {i : ℕ} (hi : (x.slots i).Sessionless)
    (hadmin : (x.slots i).handler ≠ some .adminActive) : y.slots i = x.slots i := by
  cases h with
  | same hslots _ => exact hslots i (.inl hi)
  | @joins n a fuel fd p hempty hslots _ _ _ =>
      have hin : i ≠ n := by
        rintro rfl
        exact hi.ne hempty
      rw [hslots, Function.update_of_ne hin]
  | @leaves j a fuel hj hslots _ =>
      have hij : i ≠ j := by
        rintro rfl
        rw [hj] at hadmin
        exact hadmin rfl
      rw [hslots, Function.update_of_ne hij]

/-- The callbacks of a socket that the server listens at. -/
def Passive (reg : Registration) : Prop :=
  reg.handler = some .socksv5Passive ∨ reg.handler = some .adminPassive

theorem Starts.passive {x₀ : Running} (h₀ : x₀.Starts) {i : ℕ}
    (hi : x₀.slots i ≠ {}) : Passive (x₀.slots i) := by
  obtain ⟨srv, opened, ⟨fd1, fd2, fd3, fd4, s, hs, rfl⟩, -, rfl⟩ := h₀
  rcases (registerAllFds_listening hs).slots i with
    hempty | ⟨-, handler, hhandler, hslot⟩
  · exact absurd hempty hi
  · have hslot : s.registration i = ⟨i, some handler, none⟩ := hslot
    change Passive (s.registration i)
    rw [hslot]
    exact hhandler.imp (congrArg some) (congrArg some)

/-- In every run of the main loop, the sockets that the server listens at keep
their slots with their callbacks, are open, and are not among what it has
closed. -/
theorem listens {x₀ x : Running} {tr : List (Running × LoopEvent)}
    (h₀ : x₀.Starts) (hrun : Run Step x₀ tr x) {i : ℕ} (hi : x₀.slots i ≠ {}) :
    x.slots i = x₀.slots i ∧ (i : ℤ) ∈ x.opened ∧ (i : ℤ) ∉ x.server.closed := by
  have hpassive := h₀.passive hi
  have hsessionless : (x₀.slots i).Sessionless := by
    rcases hpassive with h | h
    · exact Registration.sessionless_of_handler h (by decide)
    · exact Registration.sessionless_of_handler h (by decide)
  have hadmin : (x₀.slots i).handler ≠ some .adminActive := by
    rcases hpassive with h | h
    · simp [h]
    · simp [h]
  induction hrun with
  | nil =>
      refine ⟨rfl, h₀.serving.wired.opened i hi, ?_⟩
      obtain ⟨srv, opened, ⟨fd1, fd2, fd3, fd4, s, -, rfl⟩, -, rfl⟩ := h₀
      exact List.not_mem_nil
  | @snoc tr x y e hrun hstep ih =>
      obtain ⟨hslot, hopened, hclosed⟩ := ih
      have hserving := Serving.run h₀ hrun
      have hkept : y.slots i = x.slots i := by
        apply (hstep.tends hserving).kept
        · rw [hslot]
          exact hsessionless
        · rw [hslot]
          exact hadmin
      have hslot := hkept.trans hslot
      have hopened : (i : ℤ) ∈ y.opened := by
        apply (hserving.step hstep).2.wired.opened i
        rw [hslot]
        exact hi
      obtain ⟨fresh, part, hpart⟩ := hstep.exchanges hserving
      refine ⟨hslot, hopened, ?_⟩
      rw [hpart.closed, List.mem_append]
      rintro (hold | hnew)
      · exact hclosed hold
      · exact ((hpart.opened i).mp hopened).2 hnew

end Running

end Socksv5
