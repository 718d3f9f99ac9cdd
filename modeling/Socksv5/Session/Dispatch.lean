import Socksv5.Session.Copy
import Socksv5.Session.Handshake
import Socksv5.Session.OriginConnect
import Socksv5.Stm

/-!
# Dispatching an event to a session

`socksv5_stm.c` and the callbacks of `socksv5_server.c`: the table of states,
the end of a session, and what the selector calls for a descriptor.  The
engine is that of `Stm`; `Moves` says what it does with this table.
-/

namespace Socksv5

open Support

/-- A callback. -/
abbrev Callback := World → Except Fault (GlobalState × World)

/-- The `on_arrival` column of `global_states_definition`. -/
def onArrival (sys : Sys) (fd : ℤ) : GlobalState → Option Callback
  | .greetingRead => some fun w => .ok (.greetingRead, greetingInit w)
  | .authRead => some fun w => .ok (.authRead, authInit w)
  | .requestRead => some fun w => .ok (.requestRead, requestReadInit w)
  | .originConnect => some (connectOriginInit sys fd)
  | .copy => some fun w => .ok (.copy, copyInit w)
  | _ => none

/-- The columns of `global_states_definition` for the events. -/
def onReady (sys : Sys) (fd : ℤ) : GlobalState → Ready → Option Callback
  | .greetingRead, .read => some (greetingRead sys fd)
  | .greetingWrite, .write => some (greetingWrite sys fd)
  | .authRead, .read => some (authRead sys fd)
  | .authWrite, .write => some (authWrite sys fd)
  | .requestRead, .read => some (requestRead sys fd)
  | .requestWrite, .write => some (requestWrite sys fd)
  | .originConnect, .block => some (connectOriginBlock sys fd)
  | .originConnect, .write => some (verifyConnection sys fd)
  | .copy, .read => some (copyRead sys fd)
  | .copy, .write => some (copyWrite sys fd)
  | _, _ => none

/-- The state that has a number. -/
def GlobalState.ofId : ℕ → Option GlobalState
  | 0 => some .greetingRead
  | 1 => some .greetingWrite
  | 2 => some .authRead
  | 3 => some .authWrite
  | 4 => some .requestRead
  | 5 => some .requestWrite
  | 6 => some .originConnect
  | 7 => some .copy
  | 8 => some .done
  | 9 => some .error
  | _ => none

/-- A callback, as the engine calls it. -/
def Callback.numbered (f : Callback) (w : World) : Except Fault (ℕ × World) := do
  let (s, w) ← f w
  .ok (s.id, w)

/-- `global_states_definition` -/
def globalStatesDefinition (sys : Sys) (fd : ℤ) (i : ℕ) :
    StateDefinition World :=
  match GlobalState.ofId i with
  | some s =>
      { state := s.id
        onArrival := (onArrival sys fd s).map fun f _ => f.numbered
        onReady := fun r => (onReady sys fd s r).map Callback.numbered }
  | none => { state := i }

/-- The table of a session, as `new_socksv5` sets it. -/
def sessionTable (sys : Sys) (fd : ℤ) : StateTable World where
  initial := GlobalState.greetingRead.id
  maxState := GlobalState.error.id
  states := globalStatesDefinition sys fd

/-- The body of the loop of `socksv5_done`. -/
def closeDescriptor (w : World) (fd : ℤ) : Except Fault World :=
  if fd ≠ -1 then do
    let (ret, s) ← selectorUnregisterFd w.selector fd
    if ret ≠ .success then .error .abort
    else .ok ({ w with selector := s }.record (.close fd))
  else .ok w

/-- `socksv5_done`, with `socksv5_destroy` -/
def socksv5Done (w : World) : Except Fault World := do
  let clientFd := w.session.clientFd
  let originFd := w.session.originFd
  let w ← closeDescriptor w clientFd
  let w ← closeDescriptor w originFd
  .ok { w with metrics := w.metrics.removeConnection, destroyed := true }

/-- A session's machine and its world. -/
structure Config where
  stm : Machine := {}
  world : World

/-- How many arrivals a jump of a session can take: the arrival at
`ORIGIN_CONNECT` redirects once, and the one after it stays. -/
def arrivalFuel : ℕ := 2

/-- `socksv5_read`, `socksv5_write` and `socksv5_block` -/
def dispatch (r : Ready) (fd : ℤ) (sys : Sys) (c : Config) :
    Except Fault Config := do
  let (state, stm, w) ←
    stmHandler (sessionTable sys fd) r arrivalFuel c.stm c.world
  if state = GlobalState.error.id ∨ state = GlobalState.done.id then do
    let w ← socksv5Done w
    .ok ⟨stm, w⟩
  else .ok ⟨stm, w⟩

/-- `socksv5_read` -/
def socksv5Read := dispatch .read

/-- `socksv5_write` -/
def socksv5Write := dispatch .write

/-- `socksv5_block` -/
def socksv5Block := dispatch .block

/-! ## What a dispatch does -/

theorem GlobalState.ofId_id (s : GlobalState) : ofId s.id = some s := by
  cases s <;> rfl

theorem GlobalState.id_injective : Function.Injective GlobalState.id := by
  intro s s' h
  apply Option.some.inj
  rw [← ofId_id, h, ofId_id]

theorem GlobalState.id_le (s : GlobalState) : s.id ≤ GlobalState.error.id := by
  cases s <;> decide

theorem sessionTable_states (sys : Sys) (fd : ℤ) (s : GlobalState) :
    (sessionTable sys fd).states s.id =
      { state := s.id
        onArrival := (onArrival sys fd s).map fun f _ => f.numbered
        onReady := fun r => (onReady sys fd s r).map Callback.numbered } := by
  simp only [sessionTable, globalStatesDefinition, GlobalState.ofId_id]

/-- The table is accepted, so that creating a session does not abort. -/
theorem sessionTable_accepted (sys : Sys) (fd : ℤ) :
    (sessionTable sys fd).Accepted where
  state_eq := by
    intro i _
    match i with
    | 0 | 1 | 2 | 3 | 4 | 5 | 6 | 7 | 8 | 9 => rfl
    | _ + 10 => rfl
  initial_lt := Nat.succ_pos _

/-- The world after the arrival at a state other than `ORIGIN_CONNECT`. -/
def arrived : GlobalState → World → World
  | .greetingRead, w => greetingInit w
  | .authRead, w => authInit w
  | .requestRead, w => requestReadInit w
  | .copy, w => copyInit w
  | _, w => w

/-- `Outcome sys fd s ret w via w'`: a callback of state `s` has returned `ret`
and left the world `w`; then the states `via` are entered, and the dispatch
ends in the world `w'`. -/
inductive Outcome (sys : Sys) (fd : ℤ) (s : GlobalState) :
    GlobalState → World → List GlobalState → World → Prop
  | stays {w : World} : Outcome sys fd s s w [] w
  | enters {ret : GlobalState} {w : World} : ret ≠ s → ret ≠ .originConnect →
      ret ≠ .done → ret ≠ .error → Outcome sys fd s ret w [ret] (arrived ret w)
  | connects {w w' : World} : s ≠ .originConnect →
      connectOriginInit sys fd w = .ok (.originConnect, w') →
      Outcome sys fd s .originConnect w [.originConnect] w'
  | redirected {ret : GlobalState} {w w' : World} : s ≠ .originConnect →
      connectOriginInit sys fd w = .ok (ret, w') →
      ret = .requestWrite ∨ ret = .error →
      Outcome sys fd s .originConnect w [.originConnect, ret] w'
  | ends {ret : GlobalState} {w w' : World} : ret = .done ∨ ret = .error →
      socksv5Done w = .ok w' → Outcome sys fd s ret w [ret] w'

/-- The machine after entering states one after the other. -/
def Machine.enterAll (m : Machine) (via : List GlobalState) : Machine :=
  via.foldl (fun m s => m.enter s.id) m

theorem connectFailed_state {fd : ℤ} {w w' : World} {ret : GlobalState}
    (h : connectFailed fd w = .ok (ret, w')) :
    ret = .requestWrite ∨ ret = .error := by
  obtain ⟨⟨status, w₁⟩, -, h⟩ := bind_eq_ok.mp h
  dsimp only at h
  split at h <;> cases h
  · exact Or.inr rfl
  · exact Or.inl rfl

theorem connectThroughIp_state {a : Attempt} {realloc wasFqdn : Bool} {fd : ℤ}
    {w w' : World} {ret : GlobalState}
    (h : connectThroughIp a realloc fd wasFqdn w = .ok (ret, w')) :
    ret = .originConnect ∨ ret = .requestWrite ∨ ret = .error := by
  unfold connectThroughIp at h
  dsimp only at h
  split at h
  · exact Or.inr (connectFailed_state h)
  · split at h
    · exact Or.inr (connectFailed_state h)
    · obtain ⟨w₁, -, h⟩ := bind_eq_ok.mp h
      split at h
      · cases h
        exact Or.inl rfl
      · obtain ⟨⟨status, s⟩, -, h⟩ := bind_eq_ok.mp h
        dsimp only at h
        split at h <;> cases h
        · exact Or.inr (Or.inr rfl)
        · exact Or.inl rfl
      · exact Or.inr (connectFailed_state h)

theorem connectOriginInit_state {sys : Sys} {fd : ℤ} {w w' : World}
    {ret : GlobalState} (h : connectOriginInit sys fd w = .ok (ret, w')) :
    ret = .originConnect ∨ ret = .requestWrite ∨ ret = .error := by
  unfold connectOriginInit connectToOrigin at h
  dsimp only at h
  split at h
  · split at h
    · exact connectThroughIp_state h
    · unfold connectThroughFqdn at h
      split at h
      · cases h
        exact Or.inr (Or.inr rfl)
      · split at h
        · cases h
          exact Or.inr (Or.inr rfl)
        · obtain ⟨⟨status, w₁⟩, -, h⟩ := bind_eq_ok.mp h
          cases h
          exact Or.inl rfl
  · cases h
    exact Or.inl rfl

theorem arrive_sessionTable (sys : Sys) (fd : ℤ) (s : GlobalState) (w : World) :
    arrive (sessionTable sys fd) s.id w =
      match onArrival sys fd s with
      | some f => f.numbered w
      | none => .ok (s.id, w) := by
  rw [arrive, sessionTable_states]
  cases onArrival sys fd s <;> rfl

theorem departCurrent_sessionTable {sys : Sys} {fd : ℤ} {s : GlobalState}
    {m : Machine} (hm : m.current = some s.id) (w : World) :
    departCurrent (sessionTable sys fd) m w = .ok w := by
  rw [departCurrent, hm]
  simp only [depart, sessionTable_states]

/-- A jump to another state is the arrival there, and from there on where the
arrival redirects. -/
theorem jump_sessionTable {sys : Sys} {fd : ℤ} {s ret : GlobalState}
    {m : Machine} {w : World} (fuel : ℕ) (hm : m.current = some s.id)
    (hne : ret ≠ s) :
    jump (sessionTable sys fd) (fuel + 1) ret.id m w =
      (arrive (sessionTable sys fd) ret.id w >>= fun x =>
        if x.1 ≠ ret.id then
          jump (sessionTable sys fd) fuel x.1 (m.enter ret.id) x.2
        else .ok (m.enter ret.id, x.2)) := by
  have hle : ¬ (sessionTable sys fd).maxState < ret.id :=
    Nat.not_lt.mpr ret.id_le
  have hcur : m.current ≠ some ret.id := by
    rw [hm]
    intro heq
    exact hne (GlobalState.id_injective (Option.some.inj heq)).symm
  rw [jump, if_neg hle, if_neg hcur, departCurrent_sessionTable hm]
  simp only [sessionTable_states]
  rfl

/-- `Lands sys fd ret w via w'`: a jump to `ret` enters the states `via`. -/
inductive Lands (sys : Sys) (fd : ℤ) :
    GlobalState → World → List GlobalState → World → Prop
  | enters {ret : GlobalState} {w : World} : ret ≠ .originConnect →
      Lands sys fd ret w [ret] (arrived ret w)
  | connects {w w' : World} :
      connectOriginInit sys fd w = .ok (.originConnect, w') →
      Lands sys fd .originConnect w [.originConnect] w'
  | redirected {ret : GlobalState} {w w' : World} :
      connectOriginInit sys fd w = .ok (ret, w') →
      ret = .requestWrite ∨ ret = .error →
      Lands sys fd .originConnect w [.originConnect, ret] w'

theorem jump_lands {sys : Sys} {fd : ℤ} {s ret : GlobalState}
    {m m' : Machine} {w w' : World} (hm : m.current = some s.id)
    (hne : ret ≠ s)
    (h : jump (sessionTable sys fd) arrivalFuel ret.id m w = .ok (m', w')) :
    ∃ via, Lands sys fd ret w via w' ∧ m' = m.enterAll via := by
  rw [arrivalFuel, jump_sessionTable 1 hm hne, arrive_sessionTable] at h
  by_cases hoc : ret = .originConnect
  · subst hoc
    obtain ⟨⟨i, w₁⟩, harr, h⟩ := bind_eq_ok.mp h
    obtain ⟨⟨ret', w₂⟩, hinit, heq⟩ := bind_eq_ok.mp harr
    cases heq
    by_cases hret : ret' = .originConnect
    · subst hret
      simp only [ne_eq, not_true_eq_false, if_false] at h
      cases h
      exact ⟨[.originConnect], .connects hinit, rfl⟩
    · have hid : ret'.id ≠ GlobalState.originConnect.id := fun heq =>
        hret (GlobalState.id_injective heq)
      have hstate : ret' = .requestWrite ∨ ret' = .error :=
        (connectOriginInit_state hinit).resolve_left hret
      simp only [ne_eq, hid, not_false_eq_true, if_true] at h
      rw [jump_sessionTable (s := .originConnect) 0 rfl hret,
        arrive_sessionTable] at h
      refine ⟨[.originConnect, ret'], ?_⟩
      rcases hstate with rfl | rfl
      · cases h
        exact ⟨.redirected hinit (Or.inl rfl), rfl⟩
      · cases h
        exact ⟨.redirected hinit (Or.inr rfl), rfl⟩
  · refine ⟨[ret], ?_⟩
    cases ret with
    | originConnect => exact absurd rfl hoc
    | greetingRead | greetingWrite | authRead | authWrite | requestRead
    | requestWrite | copy | done | error =>
        cases h
        exact ⟨.enters hoc, rfl⟩

/-- What the engine does for a session in state `s`: it calls the callback of
the state, returns what that returned, and jumps there. -/
theorem stmHandler_lands {r : Ready} {fd : ℤ} {sys : Sys} {s : GlobalState}
    {m m' : Machine} {w w' : World} {i : ℕ} (hm : m.current = some s.id)
    (h : stmHandler (sessionTable sys fd) r arrivalFuel m w = .ok (i, m', w')) :
    ∃ f ret w₁ via, onReady sys fd s r = some f ∧ f w = .ok (ret, w₁) ∧
      i = ret.id ∧ (ret = s ∧ via = [] ∧ w' = w₁ ∨
        ret ≠ s ∧ Lands sys fd ret w₁ via w') ∧ m' = m.enterAll via := by
  unfold stmHandler handleFirst at h
  simp only [hm] at h
  obtain ⟨⟨first, m₀, w₀⟩, heq, h⟩ := bind_eq_ok.mp h
  cases heq
  simp only [hm, sessionTable_states, ne_eq, not_true_eq_false, if_false] at h
  cases hf : onReady sys fd s r with
  | none => simp [hf] at h
  | some f =>
      simp only [hf, Option.map_some] at h
      obtain ⟨⟨j, w₁⟩, hnumbered, h⟩ := bind_eq_ok.mp h
      obtain ⟨⟨ret, w₂⟩, hcall, heq⟩ := bind_eq_ok.mp hnumbered
      cases heq
      obtain ⟨⟨m₁, w₃⟩, hjump, heq⟩ := bind_eq_ok.mp h
      cases heq
      refine ⟨f, ret, w₁, ?_⟩
      by_cases hstay : ret = s
      · subst hstay
        have hle : ¬ (sessionTable sys fd).maxState < ret.id :=
          Nat.not_lt.mpr ret.id_le
        rw [arrivalFuel, jump, if_neg hle, if_pos hm] at hjump
        cases hjump
        exact ⟨[], rfl, hcall, rfl, Or.inl ⟨rfl, rfl, rfl⟩, rfl⟩
      · obtain ⟨via, hlands, rfl⟩ := jump_lands hm hstay hjump
        exact ⟨via, rfl, hcall, rfl, Or.inr ⟨hstay, hlands⟩, rfl⟩

theorem GlobalState.id_eq_end_iff {s : GlobalState} :
    (s.id = GlobalState.error.id ∨ s.id = GlobalState.done.id) ↔
      s = .done ∨ s = .error := by
  cases s <;> decide

theorem onReady_live {sys : Sys} {fd : ℤ} {s : GlobalState} {r : Ready}
    {f : Callback} (hf : onReady sys fd s r = some f) :
    ¬ (s = .done ∨ s = .error) := by
  rintro (rfl | rfl) <;> cases hf

/-- What a dispatch to a session in state `s` does: the callback of the state,
and what follows from the state it returned. -/
theorem dispatch_outcome {r : Ready} {fd : ℤ} {sys : Sys} {s : GlobalState}
    {c c' : Config} (hc : c.stm.current = some s.id)
    (h : dispatch r fd sys c = .ok c') :
    ∃ f ret w via, onReady sys fd s r = some f ∧ f c.world = .ok (ret, w) ∧
      Outcome sys fd s ret w via c'.world ∧ c'.stm = c.stm.enterAll via := by
  obtain ⟨⟨i, m, w'⟩, hstm, h⟩ := bind_eq_ok.mp h
  obtain ⟨f, ret, w₁, via, hf, hcall, rfl, hland, rfl⟩ :=
    stmHandler_lands hc hstm
  refine ⟨f, ret, w₁, via, hf, hcall, ?_⟩
  dsimp only at h
  rcases hland with ⟨rfl, rfl, rfl⟩ | ⟨hstay, hlands⟩
  · rw [if_neg (GlobalState.id_eq_end_iff.not.mpr (onReady_live hf))] at h
    cases h
    exact ⟨.stays, rfl⟩
  · by_cases hend : ret = .done ∨ ret = .error
    · rw [if_pos (GlobalState.id_eq_end_iff.mpr hend)] at h
      obtain ⟨w₄, hdone, heq⟩ := bind_eq_ok.mp h
      cases heq
      cases hlands with
      | enters _ =>
          rcases hend with rfl | rfl <;> exact ⟨.ends (by simp) hdone, rfl⟩
      | connects _ => simp at hend
      | redirected _ _ => simp at hend
    · rw [if_neg (GlobalState.id_eq_end_iff.not.mpr hend)] at h
      cases h
      rw [not_or] at hend
      cases hlands with
      | enters hoc => exact ⟨.enters hstay hoc hend.1 hend.2, rfl⟩
      | connects hinit => exact ⟨.connects (Ne.symm hstay) hinit, rfl⟩
      | redirected hinit hret =>
          exact ⟨.redirected (Ne.symm hstay) hinit hret, rfl⟩

/-- The session once its machine has been started. -/
def Config.start (c : Config) : Config :=
  ⟨c.stm.enter GlobalState.greetingRead.id, greetingInit c.world⟩

/-- The first event starts the machine. -/
theorem stmHandler_start {r : Ready} {fd : ℤ} {sys : Sys} {c : Config}
    (hc : c.stm.current = none) :
    stmHandler (sessionTable sys fd) r arrivalFuel c.stm c.world =
      stmHandler (sessionTable sys fd) r arrivalFuel c.start.stm
        c.start.world := by
  have harr := arrive_sessionTable sys fd .greetingRead c.world
  unfold stmHandler handleFirst
  simp only [hc, Config.start, Machine.enter]
  rw [show (sessionTable sys fd).initial = GlobalState.greetingRead.id from rfl,
    harr, sessionTable_states]
  rfl

/-- A callback that stays in its state. -/
theorem dispatch_stays {r : Ready} {fd : ℤ} {sys : Sys} {s : GlobalState}
    {f : Callback} {c : Config} {w : World} (hc : c.stm.current = some s.id)
    (hf : onReady sys fd s r = some f) (h : f c.world = .ok (s, w)) :
    dispatch r fd sys c = .ok ⟨c.stm, w⟩ := by
  have hle : ¬ (sessionTable sys fd).maxState < s.id :=
    Nat.not_lt.mpr s.id_le
  have hlive := GlobalState.id_eq_end_iff.not.mpr (onReady_live hf)
  unfold dispatch stmHandler handleFirst
  simp [hc, sessionTable_states, hf, Callback.numbered, h, arrivalFuel, jump,
    hle, hlive]

/-- A callback that goes to a state whose arrival does not redirect. -/
theorem dispatch_enters {r : Ready} {fd : ℤ} {sys : Sys} {s ret : GlobalState}
    {f : Callback} {c : Config} {w : World} (hc : c.stm.current = some s.id)
    (hf : onReady sys fd s r = some f) (h : f c.world = .ok (ret, w))
    (hne : ret ≠ s) (hoc : ret ≠ .originConnect)
    (hlive : ¬ (ret = .done ∨ ret = .error)) :
    dispatch r fd sys c = .ok ⟨c.stm.enter ret.id, arrived ret w⟩ := by
  have harrive : arrive (sessionTable sys fd) ret.id w =
      .ok (ret.id, arrived ret w) := by
    rw [arrive_sessionTable]
    cases ret <;> first | rfl | exact absurd rfl hoc
  have hend := GlobalState.id_eq_end_iff.not.mpr hlive
  have hjump := @jump_sessionTable sys fd s ret c.stm w 1 hc hne
  unfold dispatch stmHandler handleFirst
  simp [hc, sessionTable_states, hf, Callback.numbered, h, arrivalFuel, hjump,
    harrive, hend]

/-- A callback that returns `DONE` or `ERROR` ends the session. -/
theorem dispatch_ends {r : Ready} {fd : ℤ} {sys : Sys} {s ret : GlobalState}
    {f : Callback} {c : Config} {w w' : World} (hc : c.stm.current = some s.id)
    (hf : onReady sys fd s r = some f) (h : f c.world = .ok (ret, w))
    (hend : ret = .done ∨ ret = .error) (hdone : socksv5Done w = .ok w') :
    dispatch r fd sys c = .ok ⟨c.stm.enter ret.id, w'⟩ := by
  have harrive : arrive (sessionTable sys fd) ret.id w = .ok (ret.id, w) := by
    rw [arrive_sessionTable]
    rcases hend with rfl | rfl <;> rfl
  have hne : ret ≠ s := by
    rintro rfl
    exact onReady_live hf hend
  have hid := GlobalState.id_eq_end_iff.mpr hend
  have hjump := @jump_sessionTable sys fd s ret c.stm w 1 hc hne
  unfold dispatch stmHandler handleFirst
  simp [hc, sessionTable_states, hf, Callback.numbered, h, arrivalFuel, hjump,
    harrive, hid, hdone]

theorem dispatch_of_unstarted {r : Ready} {fd : ℤ} {c : Config} (sys : Sys)
    (hc : c.stm.current = none) :
    dispatch r fd sys c = dispatch r fd sys c.start := by
  rw [dispatch, stmHandler_start hc]
  rfl

/-- The state of the machine has no number: nothing can be dispatched. -/
theorem dispatch_of_unknown {r : Ready} {fd : ℤ} {c : Config} (sys : Sys) {i : ℕ}
    (hc : c.stm.current = some i) (hi : GlobalState.ofId i = none) :
    dispatch r fd sys c = .error .abort := by
  have hstates : (sessionTable sys fd).states i = { state := i } := by
    simp only [sessionTable, globalStatesDefinition, hi]
  unfold dispatch stmHandler handleFirst
  simp only [hc, hstates, ok_bind, ne_eq, not_true_eq_false, if_false]
  rfl

theorem GlobalState.eq_id_of_ofId {i : ℕ} {s : GlobalState} (h : ofId i = some s) :
    i = s.id := by
  unfold ofId at h
  split at h <;> cases h <;> rfl

end Socksv5
