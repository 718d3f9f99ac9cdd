import Socksv5.Fault
import Socksv5.Support.Partial

/-!
# The state machine engine

`stm.c`, for any table of states and any family of callbacks.  A callback is a
function of the world it changes, which stands for the `selector_key`; it may
fault.  The recursion of `jump` is over the chain of arrivals, which need not
end: it is given fuel, and runs out of it exactly when the chain is longer.

The engine returns what the ready callback returned.  The last section says
when that is the state the machine is in afterwards.
-/

namespace Socksv5

open Support

/-- The events a machine is told of. -/
inductive Ready
  | read
  | write
  | block
deriving DecidableEq, Repr

/-- `struct state_definition`; `onReady` collects `on_read_ready`,
`on_write_ready` and `on_block_ready`. -/
structure StateDefinition (W : Type) where
  state : ℕ
  onArrival : Option (ℕ → W → Except Fault (ℕ × W)) := none
  onDeparture : Option (ℕ → W → Except Fault W) := none
  onReady : Ready → Option (W → Except Fault (ℕ × W)) := fun _ => none

/-- The constant part of `struct state_machine`. -/
structure StateTable (W : Type) where
  initial : ℕ
  maxState : ℕ
  states : ℕ → StateDefinition W

/-- The changing part of `struct state_machine`: `current` is the index of the
current state, `none` for `NULL`.  `trail` is not in the source; it records
the states that were made current, oldest first. -/
structure Machine where
  current : Option ℕ := none
  trail : List ℕ := []
deriving DecidableEq, Repr

/-- `stm->current = stm->states + next` -/
def Machine.enter (m : Machine) (next : ℕ) : Machine where
  current := some next
  trail := m.trail ++ [next]

variable {W : Type} (t : StateTable W)

/-- What `stm_init` checks of a table. -/
structure StateTable.Accepted : Prop where
  state_eq : ∀ i ≤ t.maxState, (t.states i).state = i
  initial_lt : t.initial < t.maxState

/-- `stm_init` -/
def stmInit : Except Fault Machine :=
  if (∀ i < t.maxState + 1, (t.states i).state = i) ∧ t.initial < t.maxState
  then .ok {}
  else .error .abort

theorem stmInit_ok_iff : stmInit t = .ok {} ↔ t.Accepted := by
  unfold stmInit
  constructor
  · intro h
    split at h
    case isTrue hc =>
      exact ⟨fun i hi => hc.1 i (Nat.lt_succ_of_le hi), hc.2⟩
    case isFalse => cases h
  · intro h
    rw [if_pos ⟨fun i hi => h.state_eq i (Nat.le_of_lt_succ hi), h.initial_lt⟩]

/-- Run `on_arrival` of state `s`, which stays in `s` where there is none. -/
def arrive (s : ℕ) (w : W) : Except Fault (ℕ × W) :=
  match (t.states s).onArrival with
  | some f => f (t.states s).state w
  | none => .ok ((t.states s).state, w)

/-- Run `on_departure` of state `s`. -/
def depart (s : ℕ) (w : W) : Except Fault W :=
  match (t.states s).onDeparture with
  | some f => f (t.states s).state w
  | none => .ok w

/-- `handle_first` -/
def handleFirst (m : Machine) (w : W) : Except Fault (ℕ × Machine × W) :=
  match m.current with
  | none => do
      let (ret, w) ← arrive t t.initial w
      .ok (ret, m.enter t.initial, w)
  | some c => .ok ((t.states c).state, m, w)

/-- `on_departure` of the state the machine is in, if it is in one. -/
def departCurrent (m : Machine) (w : W) : Except Fault W :=
  match m.current with
  | some c => depart t c w
  | none => .ok w

/-- `jump`; the first argument bounds the chain of arrivals. -/
def jump : ℕ → ℕ → Machine → W → Except Fault (Machine × W)
  | 0, _, _, _ => .error .diverges
  | fuel + 1, next, m, w =>
      if t.maxState < next then .error .abort
      else if m.current = some next then .ok (m, w)
      else do
        let w ← departCurrent t m w
        let (ret, w) ← arrive t next w
        if ret ≠ (t.states next).state then jump fuel ret (m.enter next) w
        else .ok (m.enter next, w)

/-- `stm_handler_read`, `stm_handler_write` and `stm_handler_block`, which
differ in the callback they run. -/
def stmHandler (r : Ready) (fuel : ℕ) (m : Machine) (w : W) :
    Except Fault (ℕ × Machine × W) := do
  let (first, m, w) ← handleFirst t m w
  match m.current with
  | none => .error .nullDereference
  | some c =>
      if first ≠ (t.states c).state then .ok (first, m, w)
      else
        match (t.states c).onReady r with
        | none => .error .abort
        | some f => do
            let (ret, w) ← f w
            let (m, w) ← jump t fuel ret m w
            .ok (ret, m, w)

/-- `stm_handler_read` -/
def stmHandlerRead := stmHandler t .read

/-- `stm_handler_write` -/
def stmHandlerWrite := stmHandler t .write

/-- `stm_handler_block` -/
def stmHandlerBlock := stmHandler t .block

/-- `stm_state` -/
def stmState (m : Machine) : ℕ :=
  match m.current with
  | some c => (t.states c).state
  | none => t.initial

/-! ## Where a chain of arrivals ends -/

/-- `ArrivesAt t s w e`: when state `s` is made current in the world `w`, the
arrivals redirect from state to state until `e`, which does not redirect. -/
inductive ArrivesAt : ℕ → W → ℕ → Prop
  | stay {s : ℕ} {w w' : W} : arrive t s w = .ok (s, w') → ArrivesAt s w s
  | redirect {s s' e : ℕ} {w w₁ w₂ : W} :
      arrive t s w = .ok (s', w₁) → s' ≠ s → depart t s w₁ = .ok w₂ →
      ArrivesAt s' w₂ e → ArrivesAt s w e

variable {t}

theorem ArrivesAt.unique {s e e' : ℕ} {w : W} (h : ArrivesAt t s w e)
    (h' : ArrivesAt t s w e') : e = e' := by
  induction h with
  | stay harr =>
      cases h' with
      | stay _ => rfl
      | redirect harr' hne _ _ =>
          rw [harr] at harr'
          cases harr'
          exact absurd rfl hne
  | redirect harr hne hdep _ ih =>
      cases h' with
      | stay harr' =>
          rw [harr] at harr'
          cases harr'
          exact absurd rfl hne
      | redirect harr' _ hdep' hrest =>
          rw [harr] at harr'
          cases harr'
          rw [hdep] at hdep'
          cases hdep'
          exact ih hrest

/-- A jump to another state ends where the chain of arrivals ends. -/
theorem jump_arrivesAt (ht : t.Accepted) {fuel next : ℕ} {m m' : Machine}
    {w w' : W} (h : jump t fuel next m w = .ok (m', w'))
    (hne : m.current ≠ some next) :
    ∃ w₁ e, departCurrent t m w = .ok w₁ ∧ ArrivesAt t next w₁ e ∧
      m'.current = some e ∧ e ≤ t.maxState := by
  induction fuel generalizing next m w with
  | zero => cases h
  | succ fuel ih =>
      rw [jump] at h
      by_cases hle : t.maxState < next
      · rw [if_pos hle] at h
        cases h
      · rw [if_neg hle, if_neg hne] at h
        rw [Nat.not_lt] at hle
        obtain ⟨w₁, hdep, h⟩ := bind_eq_ok.mp h
        obtain ⟨⟨ret, w₂⟩, harr, h⟩ := bind_eq_ok.mp h
        refine ⟨w₁, ?_⟩
        simp only [ht.state_eq next hle] at h
        by_cases hret : ret = next
        · subst hret
          rw [if_neg (by simp)] at h
          cases h
          exact ⟨ret, hdep, .stay harr, rfl, hle⟩
        · rw [if_pos hret] at h
          have hcur : (m.enter next).current ≠ some ret := by
            intro heq
            exact hret (Option.some.inj heq).symm
          obtain ⟨w₃, e, hdep', hchain, hend⟩ := ih h hcur
          exact ⟨e, hdep, .redirect harr hret hdep' hchain, hend⟩

/-! ## What the engine reports -/

/-- The ready callback of state `c` returns `c` itself, or a state at which the
chain of arrivals that starts there ends. -/
def SettlesAt (t : StateTable W) (r : Ready) (c : ℕ) (w : W) : Prop :=
  ∀ f ret w₁, (t.states c).onReady r = some f → f w = .ok (ret, w₁) →
    ret = c ∨ ∃ w₂, depart t c w₁ = .ok w₂ ∧ ArrivesAt t ret w₂ ret

/-- What the callbacks have to do for an event: a machine that has not started
is not redirected by the arrival at its initial state, and the ready callback
names the state its arrivals settle at. -/
def CallbacksSettle (t : StateTable W) (r : Ready) (m : Machine) (w : W) :
    Prop :=
  match m.current with
  | none => ∀ ret w₁, arrive t t.initial w = .ok (ret, w₁) →
      ret = t.initial ∧ SettlesAt t r t.initial w₁
  | some c => SettlesAt t r c w

/-- The part of a handler after `handle_first`, from state `c`. -/
theorem ready_reports_iff (ht : t.Accepted) {r : Ready} {fuel c : ℕ}
    {m m' : Machine} {w w' : W} {ret : ℕ} {f : W → Except Fault (ℕ × W)}
    (hc : c ≤ t.maxState) (hm : m.current = some c)
    (hf : (t.states c).onReady r = some f) {w₁ : W}
    (hready : f w = .ok (ret, w₁))
    (hjump : jump t fuel ret m w₁ = .ok (m', w')) :
    ret = stmState t m' ↔ SettlesAt t r c w := by
  by_cases hret : ret = c
  · subst hret
    have hm' : m' = m := by
      cases fuel with
      | zero => cases hjump
      | succ fuel =>
          rw [jump, if_neg (Nat.not_lt.mpr hc), if_pos hm] at hjump
          cases hjump
          rfl
    subst hm'
    refine iff_of_true ?_ ?_
    · rw [stmState, hm]
      exact (ht.state_eq ret hc).symm
    · intro f' ret' w₂ hf' hready'
      rw [hf] at hf'
      cases hf'
      rw [hready] at hready'
      cases hready'
      exact Or.inl rfl
  · have hne : m.current ≠ some ret := by
      rw [hm]
      intro heq
      exact hret (Option.some.inj heq).symm
    obtain ⟨w₂, e, hdep, hchain, hcur, he⟩ := jump_arrivesAt ht hjump hne
    have hdep' : depart t c w₁ = .ok w₂ := by
      simpa only [departCurrent, hm] using hdep
    have hstate : stmState t m' = e := by
      rw [stmState, hcur]
      exact ht.state_eq e he
    rw [hstate]
    constructor
    · rintro rfl
      intro f' ret' w₃ hf' hready'
      rw [hf] at hf'
      cases hf'
      rw [hready] at hready'
      cases hready'
      exact Or.inr ⟨w₂, hdep', hchain⟩
    · intro hsettles
      rcases hsettles f ret w₁ hf hready with heq | ⟨w₃, hdep₃, hchain₃⟩
      · exact absurd heq hret
      · rw [hdep'] at hdep₃
        cases hdep₃
        exact hchain₃.unique hchain

/-- The value a handler returns is the state the machine is in afterwards
exactly when the callbacks settle. -/
theorem stmHandler_reports_state_iff (t : StateTable W) (ht : t.Accepted)
    (r : Ready) (fuel : ℕ) (m m' : Machine) (w w' : W) (ret : ℕ)
    (hm : ∀ c, m.current = some c → c ≤ t.maxState)
    (h : stmHandler t r fuel m w = .ok (ret, m', w')) :
    ret = stmState t m' ↔ CallbacksSettle t r m w := by
  unfold stmHandler at h
  obtain ⟨⟨first, m₁, w₁⟩, hfirst, h⟩ := bind_eq_ok.mp h
  unfold handleFirst at hfirst
  unfold CallbacksSettle
  cases hcur : m.current with
  | none =>
      simp only [hcur] at hfirst
      obtain ⟨⟨ret₀, w₀⟩, harr, heq⟩ := bind_eq_ok.mp hfirst
      cases heq
      have hle : t.initial ≤ t.maxState := Nat.le_of_lt ht.initial_lt
      simp only [Machine.enter, ht.state_eq _ hle] at h
      by_cases hredirect : ret₀ = t.initial
      · subst hredirect
        simp only [ne_eq, not_true_eq_false, if_false] at h
        cases hf : (t.states t.initial).onReady r with
        | none => simp [hf] at h
        | some f =>
            simp only [hf] at h
            obtain ⟨⟨ret₁, w₂⟩, hready, h⟩ := bind_eq_ok.mp h
            obtain ⟨⟨m₂, w₃⟩, hjump, heq⟩ := bind_eq_ok.mp h
            cases heq
            rw [ready_reports_iff ht hle rfl hf hready hjump]
            constructor
            · intro hs ret' w' harr'
              rw [harr] at harr'
              cases harr'
              exact ⟨rfl, hs⟩
            · intro hs
              exact (hs _ _ harr).2
      · rw [if_pos hredirect] at h
        cases h
        refine iff_of_false ?_ ?_
        · simpa only [stmState, ht.state_eq _ hle] using hredirect
        · intro hs
          exact hredirect (hs _ _ harr).1
  | some c =>
      simp only [hcur] at hfirst
      cases hfirst
      simp only [hcur, ne_eq, not_true_eq_false, if_false] at h
      cases hf : (t.states c).onReady r with
      | none => simp [hf] at h
      | some f =>
          simp only [hf] at h
          obtain ⟨⟨ret₁, w₂⟩, hready, h⟩ := bind_eq_ok.mp h
          obtain ⟨⟨m₂, w₃⟩, hjump, heq⟩ := bind_eq_ok.mp h
          cases heq
          exact ready_reports_iff ht (hm c hcur) hcur hf hready hjump

/-- Three states: a read in state 0 leads to state 1, whose arrival redirects
to state 2. -/
def redirectingTable : StateTable Unit where
  initial := 0
  maxState := 2
  states
    | 0 => { state := 0, onReady := fun _ => some fun w => .ok (1, w) }
    | 1 => { state := 1, onArrival := some fun _ w => .ok (2, w) }
    | s => { state := s }

theorem redirectingTable_accepted : redirectingTable.Accepted :=
  (stmInit_ok_iff _).mp (by decide)

theorem stmHandlerRead_redirectingTable :
    stmHandlerRead redirectingTable 2 {} () =
      .ok (1, { current := some 2, trail := [0, 1, 2] }, ()) := by
  decide

/-- The engine may report a state other than the one the machine is in. -/
theorem stmHandler_misreports :
    ¬ ∀ (t : StateTable Unit) (r : Ready) (fuel : ℕ) (m m' : Machine)
        (ret : ℕ), t.Accepted → (∀ c, m.current = some c → c ≤ t.maxState) →
      stmHandler t r fuel m () = .ok (ret, m', ()) → ret = stmState t m' := by
  intro h
  have hrun := h redirectingTable .read 2 {}
    { current := some 2, trail := [0, 1, 2] } 1 redirectingTable_accepted
    (by rintro c ⟨⟩) stmHandlerRead_redirectingTable
  exact absurd hrun (by decide)

theorem redirectingTable_reports_iff :
    (1 = stmState redirectingTable { current := some 2, trail := [0, 1, 2] }) ↔
      CallbacksSettle redirectingTable .read {} () :=
  stmHandler_reports_state_iff redirectingTable redirectingTable_accepted
    .read 2 {} { current := some 2, trail := [0, 1, 2] } () () 1
    (by rintro c ⟨⟩) stmHandlerRead_redirectingTable

end Socksv5
