import Socksv5.Admin.Quiet
import Socksv5.Server.Accepting
import Socksv5.Server.Loop

/-!
# The sessions that the slots carry

A slot that is registered with the callbacks of a session carries a session
that is in the list and owns the descriptor of the slot.  The descriptors that a
session owns are open, so that no descriptor that the kernel returns is one of
them; a session that asks for a name replaces the descriptor of its origin only
when it is not registered; and the end of a session clears its slots.
-/

namespace Socksv5

open Support FdSelector

/-- The slot of a descriptor, when a session has been registered for it. -/
def seat (fd : ℤ) (a : ℕ) : Registration := ⟨fd, some .socksv5Active, some a⟩

namespace Running

/-- What the slots hold. -/
def slots (x : Running) : ℕ → Registration := x.server.selector.registration

/-- The sessions in the list. -/
def body (x : Running) : ℕ → Option (Session × Machine) := x.server.sessions.body

/-- A session whose client is registered: its descriptors are its own. -/
structure Attached (x : Running) (a : ℕ) (session : Session) (stm : Machine) :
    Prop where
  nonneg : 0 ≤ session.clientFd
  client : x.slots session.clientFd.toNat = seat session.clientFd a
  origin : session.originFd = -1 ∨ 0 ≤ session.originFd ∧
    session.originFd ∈ x.opened ∧ (x.slots session.originFd.toNat = {} ∨
      x.slots session.originFd.toNat = seat session.originFd a)
  distinct : session.originFd ≠ session.clientFd
  asked : ∃ vs, Config.Visited ⟨stm, x.world a session⟩ vs ∧
    AskedOnce (Config.state ⟨stm, x.world a session⟩) (x.world a session)

/-- A session whose descriptor is past the table, which has remained in the
list. -/
def Stray (session : Session) : Prop :=
  1024 ≤ session.clientFd ∧ session.originFd = -1

/-- The slots, the sessions and what is open fit together. -/
structure Wired (x : Running) : Prop where
  slotted : x.server.selector.Slotted
  opened : ∀ i, x.slots i ≠ {} → (i : ℤ) ∈ x.opened
  active : ∀ i data, x.slots i = ⟨i, some .socksv5Active, data⟩ →
    ∃ a session stm, data = some a ∧ x.body a = some (session, stm) ∧
      session.Owns i
  passive : ∀ i, (x.slots i).handler = some .socksv5Passive ∨
    (x.slots i).handler = some .adminPassive → (x.slots i).data = none
  sessions : ∀ a session stm, x.body a = some (session, stm) →
    Stray session ∨ x.Attached a session stm
  allocated : ∀ a, x.body a ≠ none ∨ x.threads a ≠ [] → a ∈ x.allocated

variable {x y : Running}

/-! ## Slots -/

theorem Wired.slot_lt (hx : x.Wired) {i : ℕ} (hi : x.slots i ≠ {}) :
    (x.slots i).fd = i ∧ i < 1024 := by
  rcases hx.slotted.slots i with hnone | ⟨hfd, -, hlt⟩
  · exact absurd hnone hi
  · exact ⟨hfd, hlt⟩

/-- A slot in use, in terms of its item. -/
theorem Wired.used_iff (hx : x.Wired) (i : ℕ) :
    (x.item i).used = true ↔ x.slots i ≠ {} := by
  rw [item, FdSelector.used_iff]
  constructor
  · intro hne hnone
    have hslot : x.server.selector.registration i = {} := hnone
    rw [hslot] at hne
    exact hne rfl
  · intro hne
    have hfd : (x.server.selector.registration i).fd = i := (hx.slot_lt hne).1
    rw [hfd]
    omega

theorem Wired.registered_iff (hx : x.Wired) (fd : ℤ) :
    x.server.selector.Registered fd ↔ 0 ≤ fd ∧ x.slots fd.toNat ≠ {} := by
  rw [hx.slotted.registered_iff, ← hx.used_iff]
  rfl

theorem seat_ne (fd : ℤ) (a : ℕ) : seat fd a ≠ {} :=
  Registration.ne_of_handler rfl

/-- The slot of a descriptor that the kernel returns is empty. -/
theorem Wired.slot_eq_empty (hx : x.Wired) {n : ℕ} (hn : (n : ℤ) ∉ x.opened) :
    x.slots n = {} := by
  by_contra hne
  exact hn (hx.opened n hne)

/-- Filling that slot leaves the slots in use as they are. -/
theorem Wired.update_slot_of_ne (hx : x.Wired) {n i : ℕ}
    (hn : (n : ℤ) ∉ x.opened) (hi : x.slots i ≠ {}) (slot : Registration) :
    Function.update x.slots n slot i = x.slots i := by
  have hin : i ≠ n := by
    rintro rfl
    exact hi (hx.slot_eq_empty hn)
  exact Function.update_of_ne hin ..

/-- The session that an active slot carries is registered. -/
theorem Wired.attached (hx : x.Wired) {i : ℕ} {data : Option ℕ}
    (h : x.slots i = ⟨i, some .socksv5Active, data⟩) :
    ∃ a session stm, data = some a ∧ x.body a = some (session, stm) ∧
      x.Attached a session stm ∧ session.Owns i := by
  obtain ⟨a, session, stm, hdata, hbody, howns⟩ := hx.active i data h
  refine ⟨a, session, stm, hdata, hbody, ?_, howns⟩
  rcases hx.sessions a session stm hbody with hstray | hattached
  · have hne : x.slots i ≠ {} := Registration.ne_of_handler (by rw [h])
    have hlt := (hx.slot_lt hne).2
    obtain ⟨hclient, horigin⟩ := hstray
    rcases howns with ⟨-, hfd | hfd⟩ <;> omega
  · exact hattached

namespace Attached

variable {a : ℕ} {session : Session} {stm : Machine}

/-- The client's descriptor is open. -/
theorem client_opened (hx : x.Wired) (h : x.Attached a session stm) :
    session.clientFd ∈ x.opened := by
  have hne : x.slots session.clientFd.toNat ≠ {} := by
    rw [h.client]
    exact seat_ne _ _
  have hopened := hx.opened _ hne
  rwa [Int.toNat_of_nonneg h.nonneg] at hopened

/-- A descriptor that the session owns, if it is one. -/
theorem owned_opened (hx : x.Wired) (h : x.Attached a session stm) {fd : ℤ}
    (howns : session.Owns fd) : fd ∈ x.opened := by
  rcases howns with ⟨hpos, rfl | rfl⟩
  · exact h.client_opened hx
  · rcases h.origin with hnone | ⟨-, hopened, -⟩
    · omega
    · exact hopened

/-- The slots of the descriptors that the session owns are its own. -/
theorem owned_slot (h : x.Attached a session stm) {fd : ℤ}
    (howns : session.Owns fd) :
    x.slots fd.toNat = {} ∨ x.slots fd.toNat = seat fd a := by
  rcases howns with ⟨hpos, rfl | rfl⟩
  · exact .inr h.client
  · rcases h.origin with hnone | ⟨-, -, hslot⟩
    · omega
    · exact hslot

/-- What another slot holds does not concern the session. -/
theorem ne_of_slot (h : x.Attached a session stm) {fd : ℤ} {i : ℕ}
    (howns : session.Owns fd) (hi : x.slots i ≠ {})
    (hdata : (x.slots i).handler = some .socksv5Active →
      (x.slots i).data ≠ some a) : fd.toNat ≠ i := by
  rintro rfl
  rcases h.owned_slot howns with hslot | hslot
  · exact hi hslot
  · rw [hslot] at hdata
    exact hdata rfl rfl

/-- The session is registered as before where its slots and threads are as
before, and its descriptors open. -/
theorem of_spared (h : x.Attached a session stm)
    (hx : x.server.selector.Slotted) (hy : y.server.selector.Slotted)
    (hslots : ∀ fd, session.Owns fd → y.slots fd.toNat = x.slots fd.toNat)
    (hopened : session.Owns session.originFd → session.originFd ∈ y.opened)
    (hthreads : y.threads a = x.threads a) : y.Attached a session stm where
  nonneg := h.nonneg
  client := by
    rw [hslots _ ⟨h.nonneg, .inl rfl⟩]
    exact h.client
  origin := by
    rcases h.origin with hnone | ⟨hpos, -, hslot⟩
    · exact .inl hnone
    · have howns : session.Owns session.originFd := ⟨hpos, .inr rfl⟩
      refine .inr ⟨hpos, hopened howns, ?_⟩
      rw [hslots _ howns]
      exact hslot
  distinct := h.distinct
  asked := by
    obtain ⟨vs, hvs, hasked⟩ := h.asked
    refine ⟨vs, hvs, hasked.of_same rfl hthreads fun hreg => ?_⟩
    have hreg : y.server.selector.Registered session.originFd := hreg
    rw [hy.registered_iff, FdSelector.used_iff] at hreg
    change x.server.selector.Registered session.originFd
    rw [hx.registered_iff, FdSelector.used_iff]
    refine ⟨hreg.1, ?_⟩
    have hslot := hslots _ ⟨hreg.1, .inr rfl⟩
    unfold slots at hslot
    rw [← hslot]
    exact hreg.2

end Attached

/-- The slots are the same, and the only new sessions are past the table. -/
theorem Wired.of_slots (hx : x.Wired)
    (hsize : y.server.selector.fdSize = x.server.selector.fdSize)
    (hslots : y.slots = x.slots)
    (hopened : ∀ fd, fd ∈ y.opened ↔ fd ∈ x.opened)
    (hthreads : y.threads = x.threads)
    (hbody : ∀ a body, x.body a = some body → y.body a = some body)
    (hnew : ∀ a session stm, y.body a = some (session, stm) →
      x.body a = some (session, stm) ∨ Stray session ∧ a ∈ y.allocated)
    (hallocated : ∀ a ∈ x.allocated, a ∈ y.allocated) : y.Wired := by
  have hslotted := hx.slotted.of_registration hsize hslots
  refine ⟨hslotted, ?_, ?_, ?_, ?_, ?_⟩
  · intro i hi
    rw [hslots] at hi
    exact (hopened _).mpr (hx.opened i hi)
  · intro i data hi
    rw [hslots] at hi
    obtain ⟨a, session, stm, hdata, ha, howns⟩ := hx.active i data hi
    exact ⟨a, session, stm, hdata, hbody _ _ ha, howns⟩
  · rw [hslots]
    exact hx.passive
  · intro a session stm ha
    rcases hnew a session stm ha with hold | ⟨hstray, -⟩
    · refine (hx.sessions a session stm hold).imp_right fun h => ?_
      exact h.of_spared hx.slotted hslotted (fun fd _ => by rw [hslots])
        (fun howns => (hopened _).mpr (h.owned_opened hx howns))
        (by rw [hthreads])
    · exact .inl hstray
  · intro a ha
    rw [hthreads] at ha
    rcases ha with ha | ha
    · obtain ⟨⟨session, stm⟩, hsome⟩ := Option.ne_none_iff_exists'.mp ha
      rcases hnew a session stm hsome with hold | ⟨-, hmem⟩
      · exact hallocated a (hx.allocated a (.inl (by simp [hold])))
      · exact hmem
    · exact hallocated a (hx.allocated a (.inr ha))

/-- The point of the loop, the queue and the notices do not matter. -/
theorem Wired.of_same (hx : x.Wired)
    (hsize : y.server.selector.fdSize = x.server.selector.fdSize)
    (hslots : y.slots = x.slots) (hbody : y.body = x.body)
    (hopened : ∀ fd, fd ∈ y.opened ↔ fd ∈ x.opened)
    (hthreads : y.threads = x.threads)
    (hallocated : ∀ a ∈ x.allocated, a ∈ y.allocated) : y.Wired := by
  refine hx.of_slots hsize hslots hopened hthreads ?_ ?_ hallocated
  · intro a body ha
    rw [hbody]
    exact ha
  · intro a session stm ha
    rw [hbody] at ha
    exact .inl ha

/-! ## Callbacks of a session -/

theorem mem_opened_after {srv : Server} {opened : List ℤ} {fd : ℤ} :
    fd ∈ (x.after srv opened).opened ↔ (fd ∈ opened ∨ fd ∈ x.opened) ∧
      fd ∉ srv.closed.drop x.server.closed.length := by
  unfold after
  rw [List.mem_filter, List.mem_append, decide_eq_true_iff]

theorem mem_opened_afterSession {a : ℕ} {w : World} {l : SessionList} {fd : ℤ} :
    fd ∈ (x.afterSession a w l).opened ↔
      (fd ∈ w.opened ∨ fd ∈ x.opened) ∧ fd ∉ w.closed := by
  refine mem_opened_after.trans ?_
  rw [List.drop_left]

section Sessions

variable {a : ℕ} {session : Session} {stm : Machine} {sys : Sys}

/-- What the kernel returns is not a descriptor of the session. -/
theorem Attached.kernel (hx : x.Wired) (h : x.Attached a session stm)
    (hfresh : ∀ k n, (sys.attempts k).socket = some n → (n : ℤ) ∉ x.opened) :
    (x.world a session).Kernel sys where
  fresh := by
    intro k n hn
    have hnot := hfresh k n hn
    refine ⟨fun hreg => ?_, ?_⟩
    · exact ((hx.registered_iff n).mp hreg).2 (hx.slot_eq_empty hnot)
    · rintro heq
      rw [heq] at hnot
      exact hnot (h.client_opened hx)
  soError := nofun

/-- A world that a callback of the session has left: the slots of descriptors
that were open are as they were, and one that was not may carry the session. -/
structure Replaced (x : Running) (a : ℕ) (session : Session) (w : World) :
    Prop where
  slotted : w.selector.Slotted
  clientFd : w.session.clientFd = session.clientFd
  old : ∀ i : ℕ, (i : ℤ) ∈ x.opened → w.selector.registration i = x.slots i
  new : ∀ i : ℕ, (i : ℤ) ∉ x.opened → w.selector.registration i = {} ∨
    (i : ℤ) ∈ w.opened ∧ w.session.originFd = i ∧
      w.selector.registration i = seat i a
  origin : w.session.originFd = session.originFd ∨ w.session.originFd = -1 ∨
    w.session.originFd ∈ w.opened
  opened : ∀ fd ∈ w.opened, 0 ≤ fd ∧ fd ∉ x.opened
  freed : w.session.originFd = session.originFd ∨ session.originFd < 0 ∨
    x.slots session.originFd.toNat = {}
  closed : w.closed = []
  historical : w.metrics.historicalConnections =
    x.server.metrics.historicalConnections
  concurrent : w.metrics.concurrentConnections =
    x.server.metrics.concurrentConnections

theorem Attached.replaced (hx : x.Wired) (h : x.Attached a session stm)
    (hfresh : ∀ k n, (sys.attempts k).socket = some n → (n : ℤ) ∉ x.opened)
    {w : World} (hw : Reseats sys (x.world a session) w)
    (hfreed : w.session.originFd = session.originFd ∨
      ¬ x.server.selector.Registered session.originFd) :
    x.Replaced a session w := by
  have hopened : ∀ fd ∈ w.opened, 0 ≤ fd ∧ fd ∉ x.opened := by
    intro fd hfd
    rcases hw.fresh fd hfd with hnone | ⟨k, n, hn, rfl⟩
    · cases hnone
    · exact ⟨Int.natCast_nonneg n, hfresh k n hn⟩
  have hslots : (∀ i, w.selector.registration i = x.slots i) ∨
      ∃ n : ℕ, (n : ℤ) ∉ x.opened ∧ n < 1024 ∧ w.session.originFd = n ∧
        w.selector.registration = Function.update x.slots n (seat n a) := by
    rcases hw.slots with hslots | ⟨hvalid, ⟨k, n, hn, horigin⟩, hslots⟩
    · exact .inl fun i => congrFun hslots i
    · have hlt := (invalidFd_eq_false_iff.mp hvalid).2
      refine .inr ⟨n, hfresh k n hn, by omega, horigin, ?_⟩
      rw [hslots, World.seats, horigin, hw.address, Int.toNat_natCast]
      rfl
  refine ⟨?_, hw.clientFd, ?_, ?_, hw.origin, hopened, ?_, hw.closed,
    hw.historical, hw.concurrent⟩
  · rcases hslots with hslots | ⟨n, -, hlt, -, hslots⟩
    · exact hx.slotted.of_registration hw.fdSize (funext hslots)
    · have hvalid : invalidFd n = false :=
        invalidFd_eq_false_iff.mpr ⟨Int.natCast_nonneg n, by omega⟩
      have hfd : (seat n a).fd = n := rfl
      exact hx.slotted.filled hw.fdSize hvalid hfd (by simp [seat]) hslots
  · intro i hi
    rcases hslots with hslots | ⟨n, hn, -, -, hslots⟩
    · exact hslots i
    · rw [hslots]
      refine Function.update_of_ne ?_ ..
      rintro rfl
      exact hn hi
  · intro i hi
    rcases hslots with hslots | ⟨n, hn, -, horigin, hslots⟩
    · rw [hslots]
      exact .inl (hx.slot_eq_empty hi)
    · by_cases heq : i = n
      · subst heq
        have hmem : (i : ℤ) ∈ w.opened := by
          rw [← horigin]
          rcases hw.origin with hsame | hnone | hmem
          · exfalso
            rw [hsame] at horigin
            refine hi (h.owned_opened hx ?_)
            exact ⟨Int.natCast_nonneg i, .inr horigin.symm⟩
          · omega
          · exact hmem
        refine .inr ⟨hmem, horigin, ?_⟩
        rw [hslots, Function.update_self]
      · rw [hslots, Function.update_of_ne heq]
        exact .inl (hx.slot_eq_empty hi)
  · rcases hfreed with hsame | hfree
    · exact .inl hsame
    · right
      rw [hx.registered_iff, not_and_or, Int.not_le, not_not] at hfree
      exact hfree

namespace Replaced

variable {w : World}

/-- A slot in use is one that was, or the one of the new descriptor. -/
theorem slot_cases (hw : x.Replaced a session w) {i : ℕ}
    (hi : w.selector.registration i ≠ {}) :
    ((i : ℤ) ∈ x.opened ∧ w.selector.registration i = x.slots i) ∨
      ((i : ℤ) ∉ x.opened ∧ (i : ℤ) ∈ w.opened ∧ w.session.originFd = i ∧
        w.selector.registration i = seat i a) := by
  by_cases hopened : (i : ℤ) ∈ x.opened
  · exact .inl ⟨hopened, hw.old i hopened⟩
  · rcases hw.new i hopened with hnone | ⟨hmem, horigin, hslot⟩
    · exact absurd hnone hi
    · exact .inr ⟨hopened, hmem, horigin, hslot⟩

/-- The slots of what another session owns are as they were. -/
theorem owned_eq (hx : x.Wired) (hw : x.Replaced a session w) {b : ℕ}
    {other : Session} {stm' : Machine} (h : x.Attached b other stm') {fd : ℤ}
    (howns : other.Owns fd) :
    w.selector.registration fd.toNat = x.slots fd.toNat := by
  refine hw.old _ ?_
  rw [Int.toNat_of_nonneg howns.1]
  exact h.owned_opened hx howns

/-- A slot in use that carried the session is one of its own. -/
theorem owns (hw : x.Replaced a session w) {i : ℕ} (hi : x.slots i ≠ {})
    (howns : session.Owns i) : w.session.Owns i := by
  refine ⟨howns.1, ?_⟩
  rcases howns.2 with hclient | horigin
  · exact .inl (hclient.trans hw.clientFd.symm)
  · rcases hw.freed with hsame | hneg | hempty
    · exact .inr (horigin.trans hsame.symm)
    · omega
    · rw [← horigin, Int.toNat_natCast] at hempty
      exact absurd hempty hi

end Replaced

/-- A callback that goes on with the session. -/
theorem Wired.goesOn (hx : x.Wired) (hbody : x.body a = some (session, stm))
    (h : x.Attached a session stm) {c : Config} {l : SessionList}
    (hw : x.Replaced a session c.world)
    (hasked : ∃ vs, c.Visited vs ∧ AskedOnce c.state c.world)
    (hl : l.body = Function.update x.body a
      (some (c.world.session, c.stm))) :
    (x.afterSession a c.world l).Wired := by
  let y := x.afterSession a c.world l
  have hslots : y.slots = c.world.selector.registration := rfl
  have hbodies : y.body = Function.update x.body a
    (some (c.world.session, c.stm)) := hl
  have hthreads : y.threads = Function.update x.threads a c.world.threads := rfl
  have hmem (fd : ℤ) : fd ∈ y.opened ↔ fd ∈ c.world.opened ∨ fd ∈ x.opened := by
    rw [mem_opened_afterSession, hw.closed]
    simp
  have hattached : y.Attached a c.world.session c.stm := by
    refine ⟨?_, ?_, ?_, ?_, ?_⟩
    · rw [hw.clientFd]
      exact h.nonneg
    · rw [hw.clientFd, hslots, hw.owned_eq hx h ⟨h.nonneg, .inl rfl⟩]
      exact h.client
    · rcases hw.origin with hsame | hnone | hnew
      · rw [hsame]
        rcases h.origin with hnone | ⟨hpos, hopened, hslot⟩
        · exact .inl hnone
        · refine .inr ⟨hpos, (hmem _).mpr (.inr hopened), ?_⟩
          rw [hslots, hw.owned_eq hx h ⟨hpos, .inr rfl⟩]
          exact hslot
      · exact .inl hnone
      · obtain ⟨hpos, hnot⟩ := hw.opened _ hnew
        refine .inr ⟨hpos, (hmem _).mpr (.inl hnew), ?_⟩
        have hcast := Int.toNat_of_nonneg hpos
        rw [← hcast] at hnot
        refine (hw.new _ hnot).imp_right fun hslot => ?_
        rw [hslots, hslot.2.2, hcast]
    · rw [hw.clientFd]
      rcases hw.origin with hsame | hnone | hnew
      · rw [hsame]
        exact h.distinct
      · have hpos := h.nonneg
        omega
      · intro heq
        rw [heq] at hnew
        exact (hw.opened _ hnew).2 (h.client_opened hx)
    · obtain ⟨vs, hvs, hstate⟩ := hasked
      refine ⟨vs, hvs, hstate.of_same rfl ?_ id⟩
      exact Function.update_self ..
  refine ⟨hw.slotted, ?_, ?_, ?_, ?_, ?_⟩
  · intro i hi
    rcases hw.slot_cases hi with ⟨hopened, -⟩ | ⟨-, hnew, -⟩
    · exact (hmem _).mpr (.inr hopened)
    · exact (hmem _).mpr (.inl hnew)
  · intro i data hi
    have hne : y.slots i ≠ {} := Registration.ne_of_handler (by rw [hi])
    rw [hbodies]
    rcases hw.slot_cases hne with ⟨-, hold⟩ | ⟨-, -, horigin, hslot⟩
    · have hbefore : x.slots i = ⟨i, some .socksv5Active, data⟩ :=
        hold.symm.trans hi
      obtain ⟨b, other, stm', hdata, hb, howns⟩ := hx.active i data hbefore
      by_cases hba : b = a
      · subst hba
        rw [hbody] at hb
        cases hb
        refine ⟨b, _, _, hdata, Function.update_self .., hw.owns ?_ howns⟩
        rw [← hold]
        exact hne
      · exact ⟨b, other, stm', hdata, by rw [Function.update_of_ne hba]; exact hb,
          howns⟩
    · have hslot := hslot.symm.trans hi
      cases hslot
      exact ⟨a, _, _, rfl, Function.update_self ..,
        Int.natCast_nonneg i, .inr horigin.symm⟩
  · intro i hi
    by_cases hne : y.slots i = {}
    · rw [hne]
    · rcases hw.slot_cases hne with ⟨-, hold⟩ | ⟨-, -, -, hslot⟩
      · rw [hslots, hold] at hi ⊢
        exact hx.passive i hi
      · rw [hslots, hslot] at hi
        rcases hi with hi | hi <;> cases hi
  · intro b other stm' hb
    rw [hbodies] at hb
    by_cases hba : b = a
    · subst hba
      rw [Function.update_self] at hb
      cases hb
      exact .inr hattached
    · rw [Function.update_of_ne hba] at hb
      refine (hx.sessions b other stm' hb).imp_right fun hother => ?_
      refine hother.of_spared hx.slotted hw.slotted
        (fun fd howns => hw.owned_eq hx hother howns)
        (fun howns => (hmem _).mpr (.inr (hother.owned_opened hx howns))) ?_
      exact Function.update_of_ne hba ..
  · intro b hb
    by_cases hba : b = a
    · subst hba
      exact hx.allocated b (.inl (by simp [hbody]))
    · rw [hbodies, hthreads, Function.update_of_ne hba,
        Function.update_of_ne hba] at hb
      exact hx.allocated b hb

/-- The two descriptors that the end of a session closes are in use, so no other
session owns them. -/
theorem Replaced.not_owned (hx : x.Wired) (h : x.Attached a session stm)
    {w w' : World} (hw : x.Replaced a session w) (hend : Ended w w') {b : ℕ}
    (hba : b ≠ a) {other : Session} {stm' : Machine}
    (hother : x.Attached b other stm') {fd : ℤ} (howns : other.Owns fd) :
    fd ≠ w.session.clientFd ∧ fd ≠ w.session.originFd := by
  have hapart (i : ℕ) (hi : x.slots i = seat i a) : fd.toNat ≠ i := by
    refine hother.ne_of_slot howns ?_ ?_
    · rw [hi]
      exact seat_ne _ _
    · rw [hi]
      exact fun _ heq => hba (Option.some.inj heq).symm
  constructor
  · rintro rfl
    rw [hw.clientFd] at howns
    refine hapart session.clientFd.toNat ?_ (by rw [hw.clientFd])
    rw [Int.toNat_of_nonneg h.nonneg]
    exact h.client
  · rintro rfl
    have hpos := howns.1
    obtain ⟨-, hused⟩ := hend.origin (by omega)
    rw [FdSelector.used_iff, hw.owned_eq hx hother howns] at hused
    have hopened := hother.owned_opened hx howns
    rcases hw.origin with hsame | hnone | hnew
    · have hown : session.Owns w.session.originFd := ⟨hpos, .inr hsame⟩
      rcases h.owned_slot hown with hslot | hslot
      · rw [hslot] at hused
        exact hused rfl
      · refine hapart _ ?_ rfl
        rw [Int.toNat_of_nonneg hpos]
        exact hslot
    · omega
    · exact (hw.opened _ hnew).2 hopened

theorem cleared_of_ne {slots : ℕ → Registration} {fd : ℤ} {i : ℕ}
    (h : (i : ℤ) ≠ fd) (hfd : fd = -1 ∨ 0 ≤ fd) : cleared slots fd i = slots i := by
  unfold cleared
  split
  · rfl
  · refine Function.update_of_ne ?_ ..
    omega

theorem cleared_self {slots : ℕ → Registration} {i : ℕ} :
    cleared slots (i : ℤ) i = {} := by
  unfold cleared
  rw [if_neg (by omega), Int.toNat_natCast, Function.update_self]

theorem cleared_eq {slots : ℕ → Registration} {fd : ℤ} {i : ℕ}
    (hi : cleared slots fd i ≠ {}) (hfd : fd = -1 ∨ 0 ≤ fd) :
    cleared slots fd i = slots i ∧ (i : ℤ) ≠ fd := by
  have hne : (i : ℤ) ≠ fd := by
    rintro rfl
    exact hi cleared_self
  exact ⟨cleared_of_ne hne hfd, hne⟩

/-- The descriptors of a session that ends, or the number for none. -/
theorem Replaced.nonneg (h : x.Attached a session stm) {w w' : World}
    (hw : x.Replaced a session w) (hend : Ended w w') :
    0 ≤ w.session.clientFd ∧
      (w.session.originFd = -1 ∨ 0 ≤ w.session.originFd) := by
  constructor
  · rw [hw.clientFd]
    exact h.nonneg
  · by_cases hnone : w.session.originFd = -1
    · exact .inl hnone
    · exact .inr (hend.origin hnone).1

/-- The slots that a callback leaves in use when it ends the session were in
use before, and are not the session's. -/
theorem Replaced.spared (h : x.Attached a session stm) {w w' : World}
    (hw : x.Replaced a session w) (hend : Ended w w') {i : ℕ}
    (hi : w'.selector.registration i ≠ {}) : (i : ℤ) ∈ x.opened ∧
      w'.selector.registration i = x.slots i ∧
        (i : ℤ) ≠ w.session.clientFd ∧ (i : ℤ) ≠ w.session.originFd := by
  obtain ⟨hpos, horigin⟩ := hw.nonneg h hend
  rw [hend.slots] at hi ⊢
  obtain ⟨heq, hneo⟩ := cleared_eq hi horigin
  rw [heq] at hi ⊢
  obtain ⟨heq, hnec⟩ := cleared_eq hi (.inr hpos)
  rw [heq] at hi ⊢
  rcases hw.slot_cases hi with ⟨hopened, hold⟩ | ⟨-, -, hnew, -⟩
  · exact ⟨hopened, hold, hnec, hneo⟩
  · exact absurd hnew.symm hneo

/-- A callback that ends the session. -/
theorem Wired.ends (hx : x.Wired) (hbody : x.body a = some (session, stm))
    (h : x.Attached a session stm) {w w' : World} {l : SessionList}
    (hw : x.Replaced a session w) (hend : Ended w w')
    (hl : l.body = Function.update x.body a none) :
    (x.afterSession a w' l).Wired := by
  let y := x.afterSession a w' l
  obtain ⟨hpos, horigin⟩ := hw.nonneg h hend
  have hbodies : y.body = Function.update x.body a none := hl
  have hthreads : y.threads = Function.update x.threads a w'.threads := rfl
  have hslots : y.slots = cleared
      (cleared w.selector.registration w.session.clientFd) w.session.originFd :=
    hend.slots
  have hclosed : ∀ fd ∈ w'.closed, fd = w.session.clientFd ∨
      fd = w.session.originFd := by
    intro fd hfd
    rcases hend.closed fd hfd with hbefore | hown
    · rw [hw.closed] at hbefore
      cases hbefore
    · exact hown
  have hsame (i : ℕ) (hi : y.slots i ≠ {}) : (i : ℤ) ∈ x.opened ∧
      y.slots i = x.slots i ∧ (i : ℤ) ≠ w.session.clientFd ∧
        (i : ℤ) ≠ w.session.originFd := hw.spared h hend hi
  have hslotted : y.server.selector.Slotted := by
    refine hx.slotted.emptied ?_ fun i hi => (hsame i hi).2.1
    exact hend.fdSize.trans (hw.slotted.size.trans hx.slotted.size.symm)
  refine ⟨hslotted, ?_, ?_, ?_, ?_, ?_⟩
  · intro i hi
    obtain ⟨hopened, -, hnec, hneo⟩ := hsame i hi
    refine mem_opened_afterSession.mpr ⟨.inr hopened, fun hmem => ?_⟩
    exact (hclosed _ hmem).elim hnec hneo
  · intro i data hi
    have hne : y.slots i ≠ {} := Registration.ne_of_handler (by rw [hi])
    obtain ⟨-, hold, hnec, hneo⟩ := hsame i hne
    obtain ⟨b, other, stm', hdata, hb, howns⟩ :=
      hx.active i data (hold.symm.trans hi)
    rw [hbodies]
    have hba : b ≠ a := by
      rintro rfl
      rw [hbody] at hb
      cases hb
      rw [hold] at hne
      exact (hw.owns hne howns).2.elim hnec hneo
    exact ⟨b, other, stm', hdata, by rw [Function.update_of_ne hba]; exact hb,
      howns⟩
  · intro i hi
    by_cases hne : y.slots i = {}
    · rw [hne]
    · rw [(hsame i hne).2.1] at hi ⊢
      exact hx.passive i hi
  · intro b other stm' hb
    have hba : b ≠ a := by
      rintro rfl
      rw [hbodies, Function.update_self] at hb
      cases hb
    rw [hbodies, Function.update_of_ne hba] at hb
    refine (hx.sessions b other stm' hb).imp_right fun hother => ?_
    refine hother.of_spared hx.slotted hslotted (fun fd howns => ?_)
      (fun howns => ?_) (Function.update_of_ne hba ..)
    · obtain ⟨hnec, hneo⟩ := hw.not_owned hx h hend hba hother howns
      have hcast := Int.toNat_of_nonneg howns.1
      rw [hslots, cleared_of_ne (by rwa [hcast]) horigin,
        cleared_of_ne (by rwa [hcast]) (.inr hpos)]
      exact hw.owned_eq hx hother howns
    · obtain ⟨hnec, hneo⟩ := hw.not_owned hx h hend hba hother howns
      refine mem_opened_afterSession.mpr
        ⟨.inr (hother.owned_opened hx howns), fun hmem => ?_⟩
      exact (hclosed _ hmem).elim hnec hneo
  · intro b hb
    by_cases hba : b = a
    · subst hba
      exact hx.allocated b (.inl (by simp [hbody]))
    · rw [hbodies, hthreads, Function.update_of_ne hba,
        Function.update_of_ne hba] at hb
      exact hx.allocated b hb

/-- What a callback of the session leaves of it and of the list. -/
inductive Attended (x : Running) (a : ℕ) (session : Session) :
    Config → SessionList → Prop
  | goesOn {c : Config} {l : SessionList} : x.Replaced a session c.world →
      (∃ vs, c.Visited vs ∧ AskedOnce c.state c.world) →
      l.body = Function.update x.body a (some (c.world.session, c.stm)) →
      Attended x a session c l
  | ends {c : Config} {w : World} {l : SessionList} :
      x.Replaced a session w → Ended w c.world →
      l.body = Function.update x.body a none → Attended x a session c l

theorem Attended.wired (hx : x.Wired) (hbody : x.body a = some (session, stm))
    (h : x.Attached a session stm) {c : Config} {l : SessionList}
    (hc : x.Attended a session c l) : (x.afterSession a c.world l).Wired := by
  cases hc with
  | goesOn hw hasked hl => exact hx.goesOn hbody h hw hasked hl
  | ends hw hend hl => exact hx.ends hbody h hw hend hl

theorem Attached.attended (hx : x.Wired) {node : SessionNode}
    (h : x.Attached a node.session node.stm) {i : ℕ} {data : Option ℕ}
    (hslot : x.slots i = ⟨i, some .socksv5Active, data⟩)
    (howns : node.session.Owns i)
    (hfresh : ∀ k n, (sys.attempts k).socket = some n → (n : ℤ) ∉ x.opened)
    {r : Ready} {c : Config} {l : SessionList}
    (hdispatch : dispatch r i sys ⟨node.stm, x.world a node.session⟩ = .ok c)
    (hl : x.server.sessions.Becomes a node c l) :
    x.Attended a node.session c l := by
  have hreg : x.server.selector.Registered i := by
    rw [hx.registered_iff, Int.toNat_natCast, hslot]
    exact ⟨Int.natCast_nonneg i, Registration.ne_of_handler rfl⟩
  obtain ⟨vs, hvs, hasked⟩ := h.asked
  have hdispatched := dispatched_of_owned hvs hasked hx.slotted rfl howns hreg
    (h.kernel hx hfresh) hdispatch
  have hput : (x.server.sessions.put a { node with
      session := c.world.session, stm := c.stm }).body =
        Function.update x.body a (some (c.world.session, c.stm)) :=
    x.server.sessions.body_put a _
  unfold SessionList.Becomes at hl
  cases hdispatched.handled with
  | lives hw =>
      have hlive : c.world.destroyed = false := hw.destroyed
      rw [hlive] at hl
      have hl : l = _ := hl
      rw [← hl] at hput
      exact .goesOn (h.replaced hx hfresh hw hdispatched.freed)
        (hdispatched.goesOn hlive) hput
  | @ends w₁ _ hw hdone =>
      have hdestroyed := socksv5Done_destroyed hdone
      have hfreed := hdispatched.freed
      rw [socksv5Done_session hdone] at hfreed
      rw [hdestroyed, if_pos rfl] at hl
      refine .ends (h.replaced hx hfresh hw hfreed) (socksv5Done_spec hdone) ?_
      rw [SessionList.socksv5Destroy_body hl, hput, Function.update_idem]

end Sessions

/-! ## Accepting -/

/-- The slot of a descriptor that has been accepted is filled. -/
theorem Wired.fills (hx : x.Wired) {n : ℕ} {reg : Registration}
    (hn : (n : ℤ) ∉ x.opened) (hlt : n < 1024) (hfd : reg.fd = n)
    (hhandler : reg.handler ≠ none)
    (hsize : y.server.selector.fdSize = x.server.selector.fdSize)
    (hslots : y.slots = Function.update x.slots n reg)
    (hopened : ∀ fd, fd ∈ y.opened ↔ fd = n ∨ fd ∈ x.opened)
    (hthreads : y.threads = x.threads)
    (hbody : ∀ a body, x.body a = some body → y.body a = some body)
    (hnew : ∀ a session stm, y.body a = some (session, stm) →
      x.body a = some (session, stm) ∨
        y.Attached a session stm ∧ a ∈ y.allocated)
    (hactive : ∀ data, reg = ⟨n, some .socksv5Active, data⟩ →
      ∃ a session stm, data = some a ∧ y.body a = some (session, stm) ∧
        session.Owns n)
    (hpassive : reg.handler = some .socksv5Passive ∨
      reg.handler = some .adminPassive → reg.data = none)
    (hallocated : ∀ a ∈ x.allocated, a ∈ y.allocated) : y.Wired := by
  have hvalid : invalidFd n = false :=
    invalidFd_eq_false_iff.mpr ⟨Int.natCast_nonneg n, by omega⟩
  have hslotted : y.server.selector.Slotted :=
    hx.slotted.filled hsize hvalid hfd hhandler hslots
  have hself : y.slots n = reg := by
    rw [hslots, Function.update_self]
  have hothers : ∀ i, i ≠ n → y.slots i = x.slots i := by
    intro i hi
    rw [hslots, Function.update_of_ne hi]
  have howned (a : ℕ) (session : Session) (stm : Machine)
      (h : x.Attached a session stm) (fd : ℤ) (howns : session.Owns fd) :
      y.slots fd.toNat = x.slots fd.toNat := by
    refine hothers _ ?_
    rintro rfl
    rw [Int.toNat_of_nonneg howns.1] at hn
    exact hn (h.owned_opened hx howns)
  refine ⟨hslotted, ?_, ?_, ?_, ?_, ?_⟩
  · intro i hi
    by_cases heq : i = n
    · subst heq
      exact (hopened _).mpr (.inl rfl)
    · rw [hothers i heq] at hi
      exact (hopened _).mpr (.inr (hx.opened i hi))
  · intro i data hi
    by_cases heq : i = n
    · subst heq
      exact hactive data (hself.symm.trans hi)
    · rw [hothers i heq] at hi
      obtain ⟨a, session, stm, hdata, ha, howns⟩ := hx.active i data hi
      exact ⟨a, session, stm, hdata, hbody _ _ ha, howns⟩
  · intro i hi
    by_cases heq : i = n
    · subst heq
      rw [hself] at hi ⊢
      exact hpassive hi
    · rw [hothers i heq] at hi ⊢
      exact hx.passive i hi
  · intro a session stm ha
    rcases hnew a session stm ha with hold | ⟨hattached, -⟩
    · refine (hx.sessions a session stm hold).imp_right fun h => ?_
      exact h.of_spared hx.slotted hslotted (howned a session stm h)
        (fun howns => (hopened _).mpr (.inr (h.owned_opened hx howns)))
        (by rw [hthreads])
    · exact .inr hattached
  · intro a ha
    rw [hthreads] at ha
    rcases ha with ha | ha
    · obtain ⟨⟨session, stm⟩, hsome⟩ := Option.ne_none_iff_exists'.mp ha
      rcases hnew a session stm hsome with hold | ⟨-, hmem⟩
      · exact hallocated a (hx.allocated a (.inl (by simp [hold])))
      · exact hmem
    · exact hallocated a (hx.allocated a (.inr ha))

/-- What `socksv5_passive_accept` does. -/
inductive Admits (x : Running) (sys : AcceptSys) (y : Running) : Prop
  | refuses : y.slots = x.slots → y.body = x.body →
      (∀ fd, fd ∈ y.opened ↔ fd ∈ x.opened) →
      y.server.metrics = x.server.metrics → y.accepted = x.accepted →
      Admits x sys y
  | strays {a n : ℕ} : sys.address = some a → 1024 ≤ n →
      y.slots = x.slots →
      y.body = Function.update x.body a (some (newSocksv5 n, {})) →
      (∀ fd, fd ∈ y.opened ↔ fd ∈ x.opened) →
      y.server.metrics = x.server.metrics → y.accepted = x.accepted →
      Admits x sys y
  | admits {a n : ℕ} : sys.accept = some n → sys.address = some a → n < 1024 →
      y.slots = Function.update x.slots n (seat n a) →
      y.body = Function.update x.body a (some (newSocksv5 n, {})) →
      (∀ fd, fd ∈ y.opened ↔ fd = n ∨ fd ∈ x.opened) →
      x.server.metrics.getConcurrentConnections < maxConcurrentConnections →
      y.server.metrics = x.server.metrics.addConnection →
      y.accepted = a :: x.accepted → Admits x sys y

/-- A descriptor that has been accepted and closed again. -/
theorem mem_opened_closed {n : ℕ} (hn : (n : ℤ) ∉ x.opened) {srv : Server}
    (hclosed : srv.closed = x.server.closed ++ [(n : ℤ)]) (fd : ℤ) :
    fd ∈ (x.after srv [(n : ℤ)]).opened ↔ fd ∈ x.opened := by
  rw [mem_opened_after, hclosed, List.drop_left, List.mem_singleton]
  constructor
  · rintro ⟨heq | hmem, hne⟩
    · exact absurd heq hne
    · exact hmem
  · intro hmem
    refine ⟨.inr hmem, ?_⟩
    rintro rfl
    exact hn hmem

/-- Nothing has been closed. -/
theorem mem_opened_kept {srv : Server} {opened : List ℤ}
    (hclosed : srv.closed = x.server.closed) (fd : ℤ) :
    fd ∈ (x.after srv opened).opened ↔ fd ∈ opened ∨ fd ∈ x.opened := by
  rw [mem_opened_after, hclosed, List.drop_length]
  simp

theorem registers_eq_nil {sys : AcceptSys} {s : FdSelector}
    (h : ∀ n, sys.accept = some n → s.registration n = {}) :
    sys.registers s = [] := by
  unfold AcceptSys.registers
  split
  · rename_i n a haccept _
    rw [h n haccept, if_neg (Registration.ne_of_handler rfl).symm]
  · rfl

theorem Grants.admits (hx : x.Wired) {sys : AcceptSys} (hsys : x.Grants sys)
    {fuel : ℕ} {key : SelectorKey} {srv : Server} (hkey : key.data = none)
    (h : socksv5PassiveAccept fuel sys key x.server = .ok srv) :
    x.Admits sys (x.afterAccept sys srv) ∧
      srv.selector.fdSize = x.server.selector.fdSize := by
  have hslot : ∀ n, sys.accept = some n → x.slots n = {} := fun n hn =>
    hx.slot_eq_empty (hsys.accept n hn)
  have hrefuses {srv : Server} (hselector : srv.selector = x.server.selector)
      (hsessions : srv.sessions = x.server.sessions)
      (hmetrics : srv.metrics = x.server.metrics)
      (hopened : ∀ fd, fd ∈ (x.afterAccept sys srv).opened ↔ fd ∈ x.opened) :
      x.Admits sys (x.afterAccept sys srv) ∧
        srv.selector.fdSize = x.server.selector.fdSize := by
    refine ⟨.refuses ?_ ?_ hopened hmetrics ?_, by rw [hselector]⟩
    · change srv.selector.registration = _
      rw [hselector]
      rfl
    · change srv.sessions.body = _
      rw [hsessions]
      rfl
    · change sys.registers srv.selector ++ x.accepted = x.accepted
      rw [hselector, registers_eq_nil hslot]
      rfl
  unfold socksv5PassiveAccept at h
  by_cases hroom :
      x.server.metrics.getConcurrentConnections < maxConcurrentConnections
  · rw [if_pos hroom] at h
    have hopens (srv : Server) : (x.afterAccept sys srv).opened =
        (x.after srv sys.opens).opened := by
      unfold afterAccept
      rw [if_pos hroom]
    cases haccept : sys.accept with
    | none =>
        simp only [haccept] at h
        cases h
        refine hrefuses rfl rfl rfl fun fd => ?_
        rw [hopens, mem_opened_kept rfl, AcceptSys.opens, haccept]
        simp
    | some n =>
        have hopen : sys.opens = [(n : ℤ)] := by
          rw [AcceptSys.opens, haccept]
          rfl
        have hn := hsys.accept n haccept
        simp only [haccept] at h
        by_cases hnio : sys.nio = false
        · rw [if_pos hnio] at h
          cases h
          refine hrefuses rfl rfl rfl fun fd => ?_
          rw [hopens, hopen]
          exact mem_opened_closed hn rfl fd
        · rw [if_neg hnio] at h
          cases haddress : sys.address with
          | none =>
              simp only [haddress] at h
              cases h
              refine hrefuses rfl rfl rfl fun fd => ?_
              rw [hopens, hopen]
              exact mem_opened_closed hn rfl fd
          | some a =>
              rw [haddress] at h
              obtain ⟨⟨p, l⟩, hnew, h⟩ := bind_eq_ok.mp h
              obtain ⟨rfl, hbody⟩ := SessionList.newSocksv5_body hnew
              rw [if_neg (by simp)] at h
              obtain ⟨⟨ret, s⟩, hregister, h⟩ := bind_eq_ok.mp h
              dsimp only at h
              rcases selectorRegister_registration hx.slotted hregister with
                ⟨hret, rfl, hwhy⟩ | ⟨rfl, hvalid, -, hsize, -, hslots⟩
              · rw [if_pos hret] at h
                simp only [socksv5AcceptFinally, hkey, ne_eq, reduceCtorEq,
                  not_false_eq_true, if_true] at h
                cases h
                have hlarge : 1024 ≤ n := by
                  have hunused : ¬ (x.item n).used = true := by
                    rw [hx.used_iff, not_not]
                    exact hslot n haccept
                  have hinvalid := hwhy.resolve_right hunused
                  have hvalid := invalidFd_eq_false_iff.not.mp
                    (by rw [hinvalid]; simp)
                  omega
                refine ⟨.strays haddress hlarge rfl hbody (fun fd => ?_) rfl ?_,
                  rfl⟩
                · rw [hopens, hopen]
                  exact mem_opened_closed hn rfl fd
                · exact congrArg (· ++ x.accepted) (registers_eq_nil hslot)
              · rw [if_neg (by simp)] at h
                cases h
                have hlt := (invalidFd_eq_false_iff.mp hvalid).2
                have hfilled : s.registration =
                    Function.update x.slots n (seat n a) := hslots
                refine ⟨.admits haccept haddress (by omega) hfilled hbody
                  (fun fd => ?_) hroom rfl ?_, hsize⟩
                · rw [hopens, hopen]
                  exact (mem_opened_kept rfl fd).trans (by simp)
                · have hregisters : sys.registers s = [a] := by
                    simp [AcceptSys.registers, haccept, haddress, hfilled, seat]
                  exact congrArg (· ++ x.accepted) hregisters
  · rw [if_neg hroom] at h
    cases h
    refine hrefuses rfl rfl rfl fun fd => ?_
    unfold afterAccept
    rw [if_neg hroom]
    exact (mem_opened_kept rfl fd).trans (by simp)

end Running

end Socksv5
