import Socksv5.Session.Run
import Mathlib.Data.List.GetD

/-!
# Runs by execution

A script is a list of events for a session.  Playing it checks, event by event,
that the event can happen, and computes the configuration it leads to.
-/

namespace Socksv5

open Support

/-- An event; the results for the addresses of a list are a list. -/
inductive Act
  | dispatch (r : Ready) (fd : ℤ) (sys : Sys) (attempts : List Attempt)
  | connectionEnds (ok : Bool)
  | resolved (fd : ℤ) (addrs : List SockAddr) (alloc : Bool := true)

/-- The results `attempts`, for the addresses in order. -/
def Sys.withAttempts (sys : Sys) (attempts : List Attempt) : Sys :=
  { sys with attempts := fun k => attempts.getD k {} }

/-- The event that an act stands for. -/
def Act.event : Act → Event
  | .dispatch r fd sys attempts => .dispatch r fd (sys.withAttempts attempts)
  | .connectionEnds ok => .connectionEnds ok
  | .resolved fd addrs alloc => .resolved fd addrs alloc

/-- The selector may hand the event to the session. -/
def World.hands (company : Company) (w : World) (r : Ready) (fd : ℤ) : Bool :=
  decide (0 ≤ fd ∧ (fd = w.session.clientFd ∨ fd = w.session.originFd)) &&
    (w.selector.interest? fd).isSome &&
    match company, r with
    | .crowded, _ => true
    | .alone, .block => decide (fd ∈ w.selector.resolutionJobs)
    | .alone, r => (w.selector.interest? fd).any fun i => i.includes r

/-- What the kernel returns agrees with the world. -/
def World.kernel (w : World) (sys : Sys) (attempts : List Attempt) : Bool :=
  (attempts.all fun a => a.socket.all fun n =>
    (w.selector.interest? n).isNone && decide ((n : ℤ) ≠ w.session.clientFd)) &&
  decide (w.conn = .failed → sys.soError ≠ some 0)

theorem World.hands_spec {company : Company} {w : World} {r : Ready} {fd : ℤ}
    (h : w.hands company r fd = true) : w.Hands company r fd := by
  simp only [World.hands, Bool.and_eq_true, decide_eq_true_iff] at h
  obtain ⟨⟨howns, hreg⟩, hready⟩ := h
  refine ⟨howns, Option.isSome_iff_ne_none.mp hreg, ?_⟩
  cases company with
  | crowded => trivial
  | alone =>
      cases r with
      | block => simpa using hready
      | read | write =>
          simp only [Option.any_eq_true_iff_get] at hready
          obtain ⟨hsome, hi⟩ := hready
          exact ⟨_, (Option.some_get hsome).symm, hi⟩

theorem World.kernel_spec {w : World} {sys : Sys} {attempts : List Attempt}
    (h : w.kernel sys attempts = true) :
    w.Kernel (sys.withAttempts attempts) := by
  simp only [World.kernel, Bool.and_eq_true, decide_eq_true_iff,
    List.all_eq_true] at h
  obtain ⟨hfresh, hso⟩ := h
  refine ⟨fun k n hk => ?_, hso⟩
  by_cases hlt : k < attempts.length
  · have hget : (sys.withAttempts attempts).attempts k = attempts[k] :=
      List.getD_eq_getElem _ _ hlt
    have := hfresh _ (List.getElem_mem hlt)
    rw [← hget, hk] at this
    simpa [FdSelector.Registered] using this
  · have hget : (sys.withAttempts attempts).attempts k = {} :=
      List.getD_eq_default _ _ (Nat.le_of_not_lt hlt)
    rw [hget] at hk
    cases hk

/-- The configuration that an act leads to, if it can happen. -/
def Act.perform (company : Company) (c : Config) : Act → Option Config
  | .dispatch r fd sys attempts =>
      if c.world.destroyed = false ∧ c.world.hands company r fd = true ∧
          c.world.kernel sys attempts = true then
        (Socksv5.dispatch r fd (sys.withAttempts attempts)
          ⟨c.stm, c.world.delivered r fd⟩).toOption
      else none
  | .connectionEnds ok =>
      if c.world.destroyed = false ∧ c.world.conn = .connecting then
        some ⟨c.stm, { c.world with
          conn := if ok then .connected else .failed }⟩
      else none
  | .resolved fd addrs alloc =>
      if c.world.destroyed = false ∧ fd ∈ c.world.threads then
        some ⟨c.stm, connectOriginThread fd addrs alloc c.world⟩
      else none

theorem Act.perform_step {company : Company} {c c' : Config} {a : Act}
    (h : a.perform company c = some c') : Step company c a.event c' := by
  cases a with
  | dispatch r fd sys attempts =>
      simp only [Act.perform] at h
      split at h
      · rename_i hok
        refine .dispatch hok.1 (World.hands_spec hok.2.1)
          (World.kernel_spec hok.2.2) ?_
        exact toOption_eq_some.mp h
      · cases h
  | connectionEnds ok =>
      simp only [Act.perform] at h
      split at h
      · rename_i hok
        cases h
        exact .connectionEnds ok hok.1 hok.2
      · cases h
  | resolved fd addrs alloc =>
      simp only [Act.perform] at h
      split at h
      · rename_i hok
        cases h
        exact .resolved addrs alloc hok.1 hok.2
      · cases h

/-- The configuration that a script leads to, if it can be played. -/
def play (company : Company) : Config → List Act → Option Config
  | c, [] => some c
  | c, a :: acts => (a.perform company c).bind fun c' => play company c' acts

/-- The steps of a script. -/
def playTrace (company : Company) : Config → List Act → List (Config × Event)
  | _, [] => []
  | c, a :: acts => (c, a.event) ::
      match a.perform company c with
      | some c' => playTrace company c' acts
      | none => []

/-- A script that can be played is a run. -/
theorem play_run {company : Company} {c c' : Config} {acts : List Act}
    (h : play company c acts = some c') :
    Run (Step company) c (playTrace company c acts) c' := by
  induction acts generalizing c with
  | nil =>
      cases h
      exact .nil
  | cons a acts ih =>
      obtain ⟨c₁, hperform, hrest⟩ := Option.bind_eq_some_iff.mp h
      have hrun := ih hrest
      simp only [playTrace, hperform]
      exact (Run.single (Act.perform_step hperform)).append hrun

/-- The selector of `main`, with one descriptor that reads. -/
def acceptingSelector (clientFd : ℤ) : FdSelector :=
  let s := selectorNew 1024
  match selectorRegister s clientFd (some .socksv5Active) .read (some 1) true with
  | .ok (_, s) => s
  | .error _ => s

/-- A session that has just been accepted, on its own in the server. -/
def accepted (clientFd : ℤ) : Config :=
  newSession 1 clientFd (acceptingSelector clientFd) {}

theorem accepted_initial {clientFd : ℤ}
    (h : (acceptingSelector clientFd).interest? clientFd = some .read)
    (hjobs : clientFd ∉ (acceptingSelector clientFd).resolutionJobs) :
    Initial (accepted clientFd) :=
  ⟨1, clientFd, acceptingSelector clientFd, {}, rfl, h, hjobs⟩

/-- What a script leads to is reachable. -/
theorem reachable_of_play {company : Company} {c c' : Config} {acts : List Act}
    (hc : Initial c) (h : play company c acts = some c') :
    Reachable company c' :=
  ⟨c, playTrace company c acts, hc, play_run h⟩

/-- A client that asks for an IPv4 address, for which the attempt goes as
given. -/
def addressClient (a : Attempt) : List Act :=
  [.dispatch .read 5 { recv := .received [5, 1, 0] } [],
    .dispatch .write 5 { send := .accepted 1 } [],
    .dispatch .read 5 { recv := .received [5, 1, 0, 1, 10, 0, 0, 1, 0, 80] } [a]]

end Socksv5
