import Socksv5.Server.Attachments

/-!
# Steps of the main loop

A callback leaves the slots that stay in use as they are, and the key that
`handle_iteration` has made for a slot fits until the slot is free.  A callback
adds one session to those whose clients are registered, ends one, or leaves
them as they are, and the counters follow.
-/

namespace Socksv5

open Support FdSelector

namespace Running

variable {x y : Running}

/-! ## Connected sessions -/

/-- The clients of the sessions in the list. -/
def client (x : Running) (a : ℕ) : Option ℤ :=
  (x.body a).map fun p => p.1.clientFd

/-- The session is in the list, and its `client_fd` is registered with the
callbacks of sessions. -/
def Connected (x : Running) (a : ℕ) : Prop :=
  ∃ node data, x.server.sessions.heap a = some node ∧
    x.slots node.session.clientFd.toNat =
      ⟨node.session.clientFd, some .socksv5Active, data⟩

theorem Wired.connected_iff (hx : x.Wired) (a : ℕ) :
    x.Connected a ↔ ∃ fd, x.client a = some fd ∧ fd < 1024 := by
  constructor
  · rintro ⟨node, data, hnode, hslot⟩
    have hne : x.slots node.session.clientFd.toNat ≠ {} :=
      Registration.ne_of_handler (by rw [hslot])
    obtain ⟨hfd, hlt⟩ := hx.slot_lt hne
    rw [hslot] at hfd
    have hfd : node.session.clientFd = node.session.clientFd.toNat := hfd
    refine ⟨node.session.clientFd, ?_, by omega⟩
    rw [client, body, SessionList.body_of_heap hnode]
    rfl
  · rintro ⟨fd, hclient, hlt⟩
    obtain ⟨⟨session, stm⟩, hbody, rfl⟩ := Option.map_eq_some_iff.mp hclient
    obtain ⟨node, hnode, rfl, rfl⟩ := SessionList.exists_node_of_body hbody
    rcases hx.sessions a _ _ hbody with ⟨hlarge, -⟩ | hattached
    · exact absurd hlt (Int.not_lt.mpr hlarge)
    · exact ⟨node, some a, hnode, hattached.client⟩

/-- The session that a slot carries is connected. -/
theorem Wired.connected_of_slot (hx : x.Wired) {i a : ℕ}
    (h : x.slots i = ⟨i, some .socksv5Active, some a⟩) : x.Connected a := by
  obtain ⟨b, session, stm, hdata, hbody, hattached, -⟩ := hx.attached h
  cases hdata
  obtain ⟨node, hnode, rfl, -⟩ := SessionList.exists_node_of_body hbody
  exact ⟨node, some a, hnode, hattached.client⟩

/-- The clients of one session may have changed, but not whether it is
connected. -/
theorem connected_congr (hx : x.Wired) (hy : y.Wired)
    (h : ∀ a, (∃ fd, y.client a = some fd ∧ fd < 1024) ↔
      ∃ fd, x.client a = some fd ∧ fd < 1024) (a : ℕ) :
    y.Connected a ↔ x.Connected a := by
  rw [hy.connected_iff, hx.connected_iff, h]

theorem client_update {b : ℕ} {value : Option (Session × Machine)}
    (h : y.body = Function.update x.body b value) :
    y.client = Function.update x.client b (value.map fun p => p.1.clientFd) := by
  funext a
  unfold client
  rw [h]
  by_cases hab : a = b
  · subst hab
    rw [Function.update_self, Function.update_self]
  · rw [Function.update_of_ne hab, Function.update_of_ne hab]

/-! ## What a step changes -/

/-- What a step changes of the connected sessions and of the counters. -/
inductive Changes (x y : Running) : Prop
  | same : (∀ a, y.Connected a ↔ x.Connected a) →
      y.server.metrics.concurrentConnections =
        x.server.metrics.concurrentConnections →
      y.server.metrics.historicalConnections =
        x.server.metrics.historicalConnections →
      y.accepted = x.accepted → Changes x y
  | joins {a : ℕ} : a ∉ x.allocated → a ∈ y.allocated →
      (∀ b, y.Connected b ↔ b = a ∨ x.Connected b) →
      x.server.metrics.getConcurrentConnections < maxConcurrentConnections →
      y.server.metrics = x.server.metrics.addConnection →
      y.accepted = a :: x.accepted → Changes x y
  | leaves {a : ℕ} : x.Connected a →
      (∀ b, y.Connected b ↔ b ≠ a ∧ x.Connected b) →
      y.server.metrics.concurrentConnections =
        x.server.metrics.concurrentConnections - 1 →
      y.server.metrics.historicalConnections =
        x.server.metrics.historicalConnections →
      y.accepted = x.accepted → Changes x y

/-- What a step does. -/
structure Advances (x y : Running) : Prop where
  wired : y.Wired
  kept : ∀ i, x.slots i ≠ {} → y.slots i ≠ {} → y.slots i = x.slots i
  changes : x.Changes y
  allocated : ∀ a ∈ x.allocated, a ∈ y.allocated

/-- Nothing that is registered has changed. -/
theorem Wired.advances_of_same (hx : x.Wired)
    (hsize : y.server.selector.fdSize = x.server.selector.fdSize)
    (hslots : y.slots = x.slots) (hbody : y.body = x.body)
    (hopened : ∀ fd, fd ∈ y.opened ↔ fd ∈ x.opened)
    (hthreads : y.threads = x.threads)
    (hmetrics : y.server.metrics = x.server.metrics)
    (haccepted : y.accepted = x.accepted)
    (hallocated : ∀ a ∈ x.allocated, a ∈ y.allocated) : x.Advances y := by
  have hy := hx.of_same hsize hslots hbody hopened hthreads hallocated
  refine ⟨hy, fun i _ _ => by rw [hslots], ?_, hallocated⟩
  refine .same (connected_congr hx hy fun a => ?_) (by rw [hmetrics])
    (by rw [hmetrics]) haccepted
  unfold client
  rw [hbody]

/-! ## Callbacks of sessions -/

theorem Attached.client_lt (hx : x.Wired) {a : ℕ} {session : Session}
    {stm : Machine} (h : x.Attached a session stm) :
    session.clientFd < 1024 := by
  have hne : x.slots session.clientFd.toNat ≠ {} := by
    rw [h.client]
    exact seat_ne _ _
  have hlt := (hx.slot_lt hne).2
  omega

theorem Attended.advances (hx : x.Wired) {a : ℕ} {session : Session}
    {stm : Machine} (hbody : x.body a = some (session, stm))
    (h : x.Attached a session stm) {c : Config} {l : SessionList}
    (hc : x.Attended a session c l) : x.Advances (x.afterSession a c.world l) := by
  have hy := hc.wired hx hbody h
  have hclient : x.client a = some session.clientFd := by
    rw [client, hbody]
    rfl
  have hconnected : x.Connected a :=
    (hx.connected_iff a).mpr ⟨session.clientFd, hclient, h.client_lt hx⟩
  cases hc with
  | goesOn hw _ hl =>
      refine ⟨hy, ?_, .same (connected_congr hx hy fun b => ?_) hw.concurrent
        hw.historical rfl, fun _ ha => ha⟩
      · intro i hxi hyi
        rcases hw.slot_cases hyi with ⟨-, hold⟩ | ⟨hnot, -⟩
        · exact hold
        · exact absurd (hx.opened i hxi) hnot
      · rw [client_update (y := x.afterSession a c.world l) hl, Option.map_some,
          hw.clientFd, ← hclient, Function.update_eq_self]
  | ends hw hend hl =>
      have hclients : (x.afterSession a c.world l).client =
        Function.update x.client a none :=
          client_update (y := x.afterSession a c.world l) hl
      refine ⟨hy, fun i _ hyi => (hw.spared h hend hyi).2.1,
        .leaves hconnected (fun b => ?_) ?_ ?_ rfl, fun _ ha => ha⟩
      · rw [hy.connected_iff, hx.connected_iff, hclients]
        by_cases hba : b = a
        · subst hba
          rw [Function.update_self]
          simp
        · rw [Function.update_of_ne hba]
          simp [hba]
      · exact hend.concurrent.trans (congrArg (· - 1) hw.concurrent)
      · exact hend.historical.trans hw.historical

/-! ## Accepting -/

section Accepting

variable {sys : AcceptSys} {srv : Server}

/-- An address that the allocation returns is not that of a session. -/
theorem Grants.fresh (hx : x.Wired) (hsys : x.Grants sys) {a : ℕ}
    (ha : sys.address = some a) :
    a ∉ x.allocated ∧ x.body a = none ∧ x.threads a = [] := by
  have hnot := hsys.address a ha
  refine ⟨hnot, ?_, ?_⟩
  · by_contra hbody
    exact hnot (hx.allocated a (.inl hbody))
  · by_contra hthreads
    exact hnot (hx.allocated a (.inr hthreads))

/-- What a session is when its client has been accepted. -/
theorem attached_new {a n : ℕ} (hslot : y.slots n = seat n a)
    (hthreads : y.threads a = []) : y.Attached a (newSocksv5 n) {} where
  nonneg := Int.natCast_nonneg n
  client := hslot
  origin := .inl rfl
  distinct := by
    intro heq
    have heq : (-1 : ℤ) = n := heq
    omega
  asked := by
    refine ⟨[], ⟨rfl, rfl⟩, fun _ => ⟨rfl, rfl, hthreads⟩, ?_, fun _ => rfl, ?_⟩
    · change (y.threads a).length ≤ 1
      rw [hthreads]
      exact Nat.zero_le 1
    · have hneg : (-1 : ℤ) < 0 := by decide
      exact fun _ => not_registered_of_neg hneg

theorem Admits.advances (hx : x.Wired) (hsys : x.Grants sys)
    (hsize : srv.selector.fdSize = x.server.selector.fdSize)
    (h : x.Admits sys (x.afterAccept sys srv)) :
    x.Advances (x.afterAccept sys srv) := by
  let y := x.afterAccept sys srv
  have hallocated : ∀ a ∈ x.allocated, a ∈ y.allocated :=
    fun a ha => List.mem_append_right _ ha
  have hnew {a : ℕ} (ha : sys.address = some a) : a ∈ y.allocated :=
    List.mem_append_left _ (by rw [ha]; exact List.mem_singleton_self a)
  have hkeeps {a : ℕ} {value : Option (Session × Machine)}
      (hnone : x.body a = none) (hbody : y.body = Function.update x.body a value)
      (b : ℕ) (old : Session × Machine) (hb : x.body b = some old) :
      y.body b = some old := by
    have hba : b ≠ a := by
      rintro rfl
      rw [hnone] at hb
      cases hb
    rw [hbody, Function.update_of_ne hba]
    exact hb
  cases h with
  | refuses hslots hbody hopened hmetrics haccepted =>
      exact hx.advances_of_same hsize hslots hbody hopened rfl hmetrics haccepted
        hallocated
  | @strays a n haddress hlarge hslots hbody hopened hmetrics haccepted =>
      obtain ⟨-, hnone, -⟩ := hsys.fresh hx haddress
      have hy : y.Wired := by
        refine hx.of_slots hsize hslots hopened rfl (hkeeps hnone hbody) ?_
          hallocated
        intro b session stm hb
        rw [hbody] at hb
        by_cases hba : b = a
        · subst hba
          rw [Function.update_self] at hb
          cases hb
          exact .inr ⟨⟨Int.ofNat_le.mpr hlarge, rfl⟩, hnew haddress⟩
        · rw [Function.update_of_ne hba] at hb
          exact .inl hb
      refine ⟨hy, fun i _ _ => by rw [hslots], .same (connected_congr hx hy
        fun b => ?_) (by rw [hmetrics]) (by rw [hmetrics]) haccepted, hallocated⟩
      rw [client_update hbody]
      by_cases hba : b = a
      · subst hba
        have hclient : x.client b = none := by
          rw [client, hnone]
          rfl
        rw [Function.update_self, hclient]
        constructor
        · rintro ⟨fd, heq, hlt⟩
          cases heq
          exact absurd hlt (Int.not_lt.mpr (Int.ofNat_le.mpr hlarge))
        · rintro ⟨fd, heq, -⟩
          cases heq
      · rw [Function.update_of_ne hba]
  | @admits a n haccept haddress hlt hslots hbody hopened hroom hmetrics
      haccepted =>
      obtain ⟨hnot, hnone, hthreads⟩ := hsys.fresh hx haddress
      have hn := hsys.accept n haccept
      have hself : y.slots n = seat n a := by
        rw [hslots, Function.update_self]
      have hbodies : y.body a = some (newSocksv5 n, {}) := by
        rw [hbody, Function.update_self]
      have hy : y.Wired := by
        refine hx.fills hn hlt rfl (by simp [seat]) hsize hslots hopened rfl
          (hkeeps hnone hbody) ?_ ?_ ?_ hallocated
        · intro b session stm hb
          by_cases hba : b = a
          · subst hba
            rw [hbodies] at hb
            cases hb
            exact .inr ⟨attached_new hself hthreads, hnew haddress⟩
          · rw [hbody, Function.update_of_ne hba] at hb
            exact .inl hb
        · intro data hreg
          cases hreg
          exact ⟨a, _, _, rfl, hbodies, Int.natCast_nonneg n, .inl rfl⟩
        · rintro (heq | heq) <;> cases heq
      refine ⟨hy, ?_, .joins hnot (hnew haddress) (fun b => ?_) hroom hmetrics
        haccepted, hallocated⟩
      · intro i hi _
        rw [hslots, hx.update_slot_of_ne hn hi]
      · rw [hy.connected_iff, hx.connected_iff, client_update hbody]
        by_cases hba : b = a
        · subst hba
          rw [Function.update_self]
          simp only [true_or, iff_true]
          exact ⟨n, rfl, Int.ofNat_lt.mpr hlt⟩
        · rw [Function.update_of_ne hba]
          simp [hba]

theorem Grants.adminAdvances (hx : x.Wired) (hsys : x.Grants sys) {fuel : ℕ}
    {key : SelectorKey} (hkey : key.data = none)
    (h : adminPassiveAccept fuel sys key x.server = .ok srv) :
    x.Advances (x.afterAdminAccept sys srv) := by
  have hallocated {srv : Server} : ∀ a ∈ x.allocated,
      a ∈ (x.afterAdminAccept sys srv).allocated :=
    fun a ha => List.mem_append_right _ ha
  have hsame {srv : Server} (hselector : srv.selector = x.server.selector)
      (hsessions : srv.sessions = x.server.sessions)
      (hmetrics : srv.metrics = x.server.metrics)
      (hopened : ∀ fd, fd ∈ (x.after srv sys.opens).opened ↔ fd ∈ x.opened) :
      x.Advances (x.afterAdminAccept sys srv) := by
    refine hx.advances_of_same (by rw [← hselector]; rfl) ?_ ?_ hopened rfl
      hmetrics rfl hallocated
    · change srv.selector.registration = _
      rw [hselector]
      rfl
    · change srv.sessions.body = _
      rw [hsessions]
      rfl
  unfold adminPassiveAccept at h
  cases haccept : sys.accept with
  | none =>
      simp only [haccept] at h
      cases h
      refine hsame rfl rfl rfl fun fd => ?_
      rw [mem_opened_kept rfl, AcceptSys.opens, haccept]
      simp
  | some n =>
      have hopen : sys.opens = [(n : ℤ)] := by
        rw [AcceptSys.opens, haccept]
        rfl
      have hn := hsys.accept n haccept
      simp only [haccept] at h
      by_cases hnio : sys.nio = false
      · rw [if_pos hnio] at h
        cases h
        refine hsame rfl rfl rfl fun fd => ?_
        rw [hopen]
        exact mem_opened_closed hn rfl fd
      · rw [if_neg hnio] at h
        obtain ⟨⟨ad, l⟩, hnew, h⟩ := bind_eq_ok.mp h
        obtain rfl := newAdmin_address hnew
        cases haddress : sys.address with
        | none =>
            rw [haddress] at h
            rw [if_pos rfl] at h
            cases h
            refine hsame rfl rfl rfl fun fd => ?_
            rw [hopen]
            exact mem_opened_closed hn rfl fd
        | some a =>
            rw [haddress] at h
            rw [if_neg (by simp)] at h
            obtain ⟨⟨ret, s⟩, hregister, h⟩ := bind_eq_ok.mp h
            dsimp only at h
            rcases selectorRegister_registration hx.slotted hregister with
              ⟨hret, -, -⟩ | ⟨rfl, hvalid, -, hsize, -, hslots⟩
            · rw [if_pos hret] at h
              simp only [adminAcceptFinally, ne_eq, reduceCtorEq,
                not_false_eq_true, if_true] at h
              exact absurd h (destroyAdmin_ne_ok hkey)
            · rw [if_neg (by simp)] at h
              cases h
              have hlt := (invalidFd_eq_false_iff.mp hvalid).2
              let srv' : Server := { x.server with selector := s, admins := l }
              let y := x.afterAdminAccept sys srv'
              have hslots : y.slots =
                Function.update x.slots n ⟨n, some .adminActive, some a⟩ := hslots
              have hy : y.Wired := by
                refine hx.fills hn (by omega) rfl (by simp) hsize hslots
                  (fun fd => ?_) rfl (fun _ _ hb => hb) (fun _ _ _ hb => .inl hb)
                  ?_ ?_ hallocated
                · change fd ∈ (x.after srv' sys.opens).opened ↔ _
                  rw [hopen]
                  exact (mem_opened_kept rfl fd).trans (by simp)
                · intro data hreg
                  cases hreg
                · rintro (heq | heq) <;> cases heq
              refine ⟨hy, ?_, .same (connected_congr hx hy fun _ => Iff.rfl) rfl rfl
                rfl, hallocated⟩
              intro i hi _
              rw [hslots, hx.update_slot_of_ne hn hi]

end Accepting

/-! ## Administrators -/

/-- The slot of an administrator is cleared. -/
theorem Wired.empties (hx : x.Wired) {i : ℕ}
    (hi : (x.slots i).handler = some .adminActive)
    (hsize : y.server.selector.fdSize = x.server.selector.fdSize)
    (hslots : y.slots = Function.update x.slots i {}) (hbody : y.body = x.body)
    (hopened : ∀ fd, fd ∈ y.opened ↔ fd ∈ x.opened ∧ fd ≠ i)
    (hthreads : y.threads = x.threads) (hallocated : y.allocated = x.allocated) :
    y.Wired := by
  have hsame (j : ℕ) (hj : y.slots j ≠ {}) : j ≠ i ∧ y.slots j = x.slots j := by
    have hji : j ≠ i := by
      rintro rfl
      rw [hslots, Function.update_self] at hj
      exact hj rfl
    rw [hslots, Function.update_of_ne hji]
    exact ⟨hji, rfl⟩
  have hslotted : y.server.selector.Slotted :=
    hx.slotted.emptied hsize fun j hj => (hsame j hj).2
  refine ⟨hslotted, ?_, ?_, ?_, ?_, ?_⟩
  · intro j hj
    obtain ⟨hji, heq⟩ := hsame j hj
    rw [heq] at hj
    exact (hopened _).mpr ⟨hx.opened j hj, fun h => hji (Int.ofNat_inj.mp h)⟩
  · intro j data hj
    have hne : y.slots j ≠ {} := Registration.ne_of_handler (by rw [hj])
    rw [(hsame j hne).2] at hj
    rw [hbody]
    exact hx.active j data hj
  · intro j hj
    by_cases hne : y.slots j = {}
    · rw [hne]
    · rw [(hsame j hne).2] at hj ⊢
      exact hx.passive j hj
  · intro a session stm ha
    rw [hbody] at ha
    refine (hx.sessions a session stm ha).imp_right fun h => ?_
    have hapart (fd : ℤ) (howns : session.Owns fd) : fd.toNat ≠ i := by
      refine h.ne_of_slot howns (Registration.ne_of_handler hi) ?_
      rw [hi]
      exact nofun
    refine h.of_spared hx.slotted hslotted (fun fd howns => ?_)
      (fun howns => (hopened _).mpr ⟨h.owned_opened hx howns, ?_⟩) (by rw [hthreads])
    · rw [hslots, Function.update_of_ne (hapart fd howns)]
    · intro heq
      apply hapart _ howns
      rw [heq, Int.toNat_natCast]
  · intro a ha
    rw [hbody, hthreads] at ha
    rw [hallocated]
    exact hx.allocated a ha

section Admins

variable {r : Ready} {key : SelectorKey} {sys : AdminSys} {c c' : AdminConfig}

theorem Hosts.advances (hx : x.Wired) (hc : x.Hosts key c)
    (hdispatch : adminDispatch r sys c = .ok c')
    (hlive : c'.world.destroyed = false) :
    x.Advances (x.after { x.server with
      selector := c'.world.selector
      metrics := c'.world.globals.metrics } []) := by
  rcases adminDispatch_quiet hdispatch with h | h
  · refine hx.advances_of_same ?_ ?_ rfl (fun fd => ?_) rfl ?_ rfl fun _ ha => ha
    · exact h.fdSize.trans (congrArg FdSelector.fdSize hc.selector)
    · exact h.registration.trans (congrArg FdSelector.registration hc.selector)
    · exact (mem_opened_kept rfl fd).trans (by simp)
    · exact h.metrics.trans hc.metrics
  · rw [h.destroyed] at hlive
    cases hlive

theorem Hosts.advances_of_ended (hx : x.Wired) (hc : x.Hosts key c)
    (hdispatch : adminDispatch r sys c = .ok c')
    (hended : c'.world.destroyed = true) {i : ℕ} (hfd : key.fd = i)
    (hi : (x.slots i).handler = some .adminActive) (l : AdminList) :
    x.Advances (x.after { x.server with
      selector := c'.world.selector
      admins := l
      metrics := c'.world.globals.metrics
      closed := x.server.closed ++ [key.fd] } []) := by
  rcases adminDispatch_quiet hdispatch with h | h
  · rw [h.destroyed, hc.live] at hended
    cases hended
  · let y := x.after { x.server with
      selector := c'.world.selector
      admins := l
      metrics := c'.world.globals.metrics
      closed := x.server.closed ++ [key.fd] } []
    have hslots : y.slots = Function.update x.slots i {} := by
      have hregistration : y.slots =
          Function.update c.world.selector.registration c.world.fd.toNat {} :=
        h.registration
      rw [hregistration, hc.selector, hc.fd, hfd, Int.toNat_natCast]
      rfl
    have hy : y.Wired := by
      refine hx.empties hi ?_ hslots rfl (fun fd => ?_) rfl rfl
      · exact h.fdSize.trans (congrArg FdSelector.fdSize hc.selector)
      · refine mem_opened_after.trans ?_
        rw [List.drop_left, hfd]
        simp
    have hmetrics : y.server.metrics = x.server.metrics :=
      h.metrics.trans hc.metrics
    refine ⟨hy, fun j _ hj => ?_, .same (connected_congr hx hy fun _ => Iff.rfl)
      (by rw [hmetrics]) (by rw [hmetrics]) rfl, fun _ ha => ha⟩
    have hji : j ≠ i := by
      rintro rfl
      rw [hslots, Function.update_self] at hj
      exact hj rfl
    rw [hslots, Function.update_of_ne hji]

end Admins

end Running

/-! ## Threads -/

theorem SessionList.setResolution_body (l : SessionList) (a : ℕ)
    (addrs : List SockAddr) : (l.setResolution a addrs).body =
      Function.update l.body a ((l.body a).map fun p =>
        ({ p.1 with originResolution := addrs }, p.2)) := by
  unfold setResolution
  cases hnode : l.heap a with
  | none =>
      have hnone : l.body a = none := by
        rw [body, hnode]
        rfl
      rw [hnone, Option.map_none, ← hnone, Function.update_eq_self]
  | some node => rw [body_put, body_of_heap hnode, Option.map_some]

namespace Running

variable {x y : Running}

/-- A thread has stored addresses where its session is. -/
theorem Wired.resolves (hx : x.Wired) {a : ℕ} {addrs : List SockAddr}
    (hsize : y.server.selector.fdSize = x.server.selector.fdSize)
    (hslots : y.slots = x.slots)
    (hbody : y.body = Function.update x.body a ((x.body a).map fun p =>
      ({ p.1 with originResolution := addrs }, p.2)))
    (hopened : y.opened = x.opened)
    (hothers : ∀ b, b ≠ a → y.threads b = x.threads b)
    (hthreads : y.threads a ≠ [] → x.threads a ≠ [])
    (hallocated : y.allocated = x.allocated)
    (hasked : ∀ s session, AskedOnce s (x.world a session) →
      AskedOnce s (y.world a { session with originResolution := addrs })) :
    y.Wired := by
  have hslotted := hx.slotted.of_registration hsize hslots
  refine ⟨hslotted, ?_, ?_, ?_, ?_, ?_⟩
  · rw [hslots, hopened]
    exact hx.opened
  · intro i data hi
    rw [hslots] at hi
    obtain ⟨b, session, stm, hdata, hb, howns⟩ := hx.active i data hi
    rw [hbody]
    by_cases hba : b = a
    · subst hba
      refine ⟨b, { session with originResolution := addrs }, stm, hdata, ?_,
        howns⟩
      rw [Function.update_self, hb]
      rfl
    · exact ⟨b, session, stm, hdata, by rw [Function.update_of_ne hba]; exact hb,
        howns⟩
  · rw [hslots]
    exact hx.passive
  · intro b session stm hb
    rw [hbody] at hb
    by_cases hba : b = a
    · subst hba
      rw [Function.update_self, Option.map_eq_some_iff] at hb
      obtain ⟨⟨old, stm⟩, hold, heq⟩ := hb
      cases heq
      refine (hx.sessions b old stm hold).imp_right fun h => ?_
      obtain ⟨vs, hvs, hvisited⟩ := h.asked
      refine ⟨h.nonneg, ?_, ?_, h.distinct, vs, hvs, hasked _ _ hvisited⟩
      · rw [hslots]
        exact h.client
      · rw [hslots, hopened]
        exact h.origin
    · rw [Function.update_of_ne hba] at hb
      refine (hx.sessions b session stm hb).imp_right fun h => ?_
      exact h.of_spared hx.slotted hslotted (fun fd _ => by rw [hslots])
        (fun howns => by rw [hopened]; exact h.owned_opened hx howns)
        (hothers b hba)
  · intro b hb
    rw [hallocated]
    by_cases hba : b = a
    · subst hba
      refine hx.allocated b (hb.imp (fun h hnone => h ?_) hthreads)
      rw [hbody, Function.update_self, hnone]
      rfl
    · rw [hbody, Function.update_of_ne hba, hothers b hba] at hb
      exact hx.allocated b hb

/-- The clients are the same. -/
theorem Wired.advances_of_resolves (hx : x.Wired) (hy : y.Wired) {a : ℕ}
    {addrs : List SockAddr} (hslots : y.slots = x.slots)
    (hbody : y.body = Function.update x.body a ((x.body a).map fun p =>
      ({ p.1 with originResolution := addrs }, p.2)))
    (hmetrics : y.server.metrics = x.server.metrics)
    (haccepted : y.accepted = x.accepted)
    (hallocated : y.allocated = x.allocated) : x.Advances y := by
  refine ⟨hy, fun i _ _ => by rw [hslots], .same (connected_congr hx hy
    fun b => ?_) (by rw [hmetrics]) (by rw [hmetrics]) haccepted, ?_⟩
  · have hclient : (x.body a).map (fun p => p.1.clientFd) = x.client a := rfl
    rw [client_update hbody, Option.map_map]
    change (∃ fd, Function.update x.client a
      ((x.body a).map fun p => p.1.clientFd) b = some fd ∧ fd < 1024) ↔ _
    rw [hclient, Function.update_eq_self]
  · rw [hallocated]
    exact fun _ ha => ha

/-- A thread that starts: its session has no addresses. -/
theorem Wired.starts (hx : x.Wired) {a : ℕ} {fd : ℤ} (hfd : fd ∈ x.threads a) :
    x.Advances { x with server := { x.server with
      sessions := x.server.sessions.setResolution a [] } } := by
  let y : Running := { x with server := { x.server with
    sessions := x.server.sessions.setResolution a [] } }
  have hbody := x.server.sessions.setResolution_body a []
  have hy : y.Wired := by
    refine hx.resolves rfl rfl hbody rfl (fun _ _ => rfl) id rfl ?_
    intro s session h
    have hnone : session.originResolution = [] :=
      h.asked (List.ne_nil_of_mem hfd)
    rw [← hnone]
    exact h.of_same rfl rfl id
  exact hx.advances_of_resolves hy rfl hbody rfl rfl rfl

/-- A thread that is done. -/
theorem Wired.finds (hx : x.Wired) {a : ℕ} {fd : ℤ} (hfd : fd ∈ x.threads a)
    (addrs : List SockAddr) : x.Advances (x.found a fd addrs) := by
  have hbody := x.server.sessions.setResolution_body a addrs
  have hself : (x.found a fd addrs).threads a = (x.threads a).erase fd :=
    Function.update_self ..
  have hy : (x.found a fd addrs).Wired := by
    refine hx.resolves rfl rfl hbody rfl
      (fun b hba => Function.update_of_ne hba ..)
      (fun _ => List.ne_nil_of_mem hfd) rfl ?_
    intro s session h
    exact (h.resolved hfd addrs false).of_same rfl hself id
  exact hx.advances_of_resolves hy rfl hbody rfl rfl rfl

end Running

end Socksv5
