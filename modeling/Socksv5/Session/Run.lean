import Socksv5.Session.Dispatch
import Socksv5.Support.Run

/-!
# Runs of a session

A session lives through events: the selector hands it reads, writes and block
notifications, the kernel finishes its connection attempt, its resolver thread
finishes, and the rest of the server does something to the selector.  A run is
any sequence of these.

A session is `alone` when its interests are changed by its own callbacks only,
so that it is handed the events it asked for.  In a `crowded` server any event
may be handed to it at any time.
-/

namespace Socksv5

open Support

/-- What can happen to a session. -/
inductive Event
  | dispatch (r : Ready) (fd : ℤ) (sys : Sys)
  | connectionEnds (ok : Bool)
  | resolved (fd : ℤ) (addrs : List SockAddr) (alloc : Bool)
  | others (s : FdSelector) (m : Metrics)

/-- Who else changes the interests of the session's descriptors. -/
inductive Company
  | alone
  | crowded
deriving DecidableEq, Repr

/-- The descriptor is one of the session's. -/
def Session.Owns (s : Session) (fd : ℤ) : Prop :=
  0 ≤ fd ∧ (fd = s.clientFd ∨ fd = s.originFd)

/-- The selector may hand the event to the session. -/
def World.Hands (company : Company) (w : World) (r : Ready) (fd : ℤ) : Prop :=
  w.session.Owns fd ∧ w.selector.Registered fd ∧
    match company, r with
    | .crowded, _ => True
    | .alone, .block => fd ∈ w.selector.resolutionJobs
    | .alone, r => ∃ i, w.selector.interest? fd = some i ∧ i.includes r = true

/-- What the kernel is relied on for: it returns no descriptor that is open,
and reports the error of a connection attempt that failed. -/
structure World.Kernel (w : World) (sys : Sys) : Prop where
  fresh : ∀ k n, (sys.attempts k).socket = some n →
    ¬ w.selector.Registered n ∧ (n : ℤ) ≠ w.session.clientFd
  soError : w.conn = .failed → sys.soError ≠ some 0

/-- What the rest of the server leaves as it is: the descriptors of the session
stay registered, or not; and when the session is alone, with their interests
and notifications. -/
def World.Undisturbed (company : Company) (w : World) (s : FdSelector) : Prop :=
  ∀ fd, w.session.Owns fd → (s.Registered fd ↔ w.selector.Registered fd) ∧
    (company = .alone → s.interest? fd = w.selector.interest? fd ∧
      s.resolutionJobs.count fd = w.selector.resolutionJobs.count fd)

/-- A notification is taken from the queue when it is delivered. -/
def World.delivered (w : World) (r : Ready) (fd : ℤ) : World :=
  match r with
  | .block => { w with selector := { w.selector with
      resolutionJobs := w.selector.resolutionJobs.erase fd } }
  | _ => w

theorem World.delivered_eq {w : World} {r : Ready} (hr : r ≠ .block) (fd : ℤ) :
    w.delivered r fd = w := by
  cases r with
  | block => exact absurd rfl hr
  | read | write => rfl

/-- `Step company c e c'`: the event `e` takes the session from `c` to `c'`. -/
inductive Step (company : Company) : Config → Event → Config → Prop
  | dispatch {c c' : Config} {r : Ready} {fd : ℤ} {sys : Sys} :
      c.world.destroyed = false → c.world.Hands company r fd →
      c.world.Kernel sys →
      dispatch r fd sys ⟨c.stm, c.world.delivered r fd⟩ = .ok c' →
      Step company c (.dispatch r fd sys) c'
  | connectionEnds {c : Config} (ok : Bool) : c.world.destroyed = false →
      c.world.conn = .connecting →
      Step company c (.connectionEnds ok) ⟨c.stm, { c.world with
        conn := if ok then .connected else .failed }⟩
  | resolved {c : Config} {fd : ℤ} (addrs : List SockAddr) (alloc : Bool) :
      c.world.destroyed = false → fd ∈ c.world.threads →
      Step company c (.resolved fd addrs alloc)
        ⟨c.stm, connectOriginThread fd addrs alloc c.world⟩
  | others {c : Config} {s : FdSelector} (m : Metrics) :
      c.world.Undisturbed company s →
      Step company c (.others s m)
        ⟨c.stm, { c.world with selector := s, metrics := m }⟩

/-- `new_socksv5` -/
def newSocksv5 (clientFd : ℤ) : Session := { clientFd := clientFd }

/-- A session that `socksv5_passive_accept` has just registered, at an address
and in a selector. -/
def newSession (address : ℕ) (clientFd : ℤ) (s : FdSelector) (m : Metrics) :
    Config where
  world :=
    { address := address
      session := newSocksv5 clientFd
      selector := s
      metrics := m }

/-- The configurations that sessions start in. -/
def Initial (c : Config) : Prop :=
  ∃ address clientFd s m, c = newSession address clientFd s m ∧
    s.interest? clientFd = some .read ∧ clientFd ∉ s.resolutionJobs

/-- The configurations that a session can get to. -/
def Reachable (company : Company) (c : Config) : Prop :=
  ∃ c₀ tr, Initial c₀ ∧ Run (Step company) c₀ tr c

/-! ## The states visited -/

/-- The state that the machine of the session is in, or is about to start
in. -/
def Config.state (c : Config) : GlobalState :=
  match c.stm.current with
  | none => .greetingRead
  | some i => (GlobalState.ofId i).getD .error

/-- The states that have been entered, oldest first. -/
def Config.Visited (c : Config) (vs : List GlobalState) : Prop :=
  c.stm.trail = vs.map GlobalState.id ∧
    c.stm.current = vs.getLast?.map GlobalState.id

theorem Config.Visited.state_eq {c : Config} {vs : List GlobalState}
    (h : c.Visited vs) : c.state = vs.getLast?.getD .greetingRead := by
  rw [Config.state, h.2]
  cases vs.getLast? with
  | none => rfl
  | some s => simp [GlobalState.ofId_id]

theorem Config.Visited.unique {c : Config} {vs vs' : List GlobalState}
    (h : c.Visited vs) (h' : c.Visited vs') : vs = vs' :=
  List.map_injective_iff.mpr GlobalState.id_injective (h.1.symm.trans h'.1)

theorem Config.Visited.mem_iff {c : Config} {vs : List GlobalState}
    {s : GlobalState} (h : c.Visited vs) : s ∈ vs ↔ s.id ∈ c.stm.trail := by
  rw [h.1, List.mem_map_of_injective GlobalState.id_injective]

theorem Machine.enterAll_visited {c c' : Config} {vs via : List GlobalState}
    (h : c.Visited vs) (hc' : c'.stm = c.stm.enterAll via) :
    c'.Visited (vs ++ via) := by
  induction via using List.reverseRecOn generalizing c' with
  | nil =>
      rw [Config.Visited, hc', List.append_nil]
      exact h
  | append_singleton via s ih =>
      have hpre : Config.Visited ⟨c.stm.enterAll via, c'.world⟩ (vs ++ via) :=
        ih rfl
      have hstm : c'.stm = (c.stm.enterAll via).enter s.id := by
        rw [hc', Machine.enterAll, List.foldl_append]
        rfl
      constructor
      · rw [hstm, Machine.enter, hpre.1]
        simp
      · rw [hstm, Machine.enter, ← List.append_assoc, List.getLast?_concat]
        rfl

/-! ## Invariants of runs -/

/-- A predicate of the states visited, the state and the world. -/
abbrev Assertion := List GlobalState → GlobalState → World → Prop

/-- `Inductive company K C I`: where `K` holds, every event that meets `C`
preserves `I`. -/
structure Inductive (company : Company) (K : Assertion)
    (C : GlobalState → World → Event → Prop) (I : Assertion) : Prop where
  started : ∀ w, K [] .greetingRead w → I [] .greetingRead w →
    I [.greetingRead] .greetingRead (greetingInit w)
  startedCondition : ∀ w e, C .greetingRead w e →
    C .greetingRead (greetingInit w) e
  dispatched : ∀ {vs s r fd sys w f ret w₁ via w₂}, K vs s w → I vs s w →
    vs.getLast? = some s → C s w (.dispatch r fd sys) → w.destroyed = false →
    w.Hands company r fd → w.Kernel sys → onReady sys fd s r = some f →
    f (w.delivered r fd) = .ok (ret, w₁) → Outcome sys fd s ret w₁ via w₂ →
    I (vs ++ via) (via.getLastD s) w₂
  connectionEnds : ∀ {vs s w} ok, K vs s w → I vs s w →
    C s w (.connectionEnds ok) → w.conn = .connecting →
    I vs s { w with conn := if ok then .connected else .failed }
  resolved : ∀ {vs s w fd} addrs alloc, K vs s w → I vs s w →
    C s w (.resolved fd addrs alloc) → fd ∈ w.threads →
    I vs s (connectOriginThread fd addrs alloc w)
  others : ∀ {vs s w sel} m, K vs s w → I vs s w → C s w (.others sel m) →
    w.Undisturbed company sel →
    I vs s { w with selector := sel, metrics := m }

/-- Any event. -/
abbrev AnyEvent : GlobalState → World → Event → Prop := fun _ _ _ => True

/-- Nothing in particular. -/
abbrev Anything : Assertion := fun _ _ _ => True

/-- The configuration that an event finds: the machine has been started. -/
def Config.started (c : Config) : Config :=
  match c.stm.current with
  | none => c.start
  | some _ => c

theorem Config.started_of_none {c : Config} (h : c.stm.current = none) :
    c.started = c.start := by
  rw [Config.started, h]

theorem Config.started_of_some {c : Config} {i : ℕ}
    (h : c.stm.current = some i) : c.started = c := by
  rw [Config.started, h]

/-- Starting the machine changes the parser of the greeting only. -/
theorem Config.started_world (c : Config) :
    c.started.world = c.world ∨ c.started.world = greetingInit c.world := by
  unfold Config.started
  split
  · exact Or.inr rfl
  · exact Or.inl rfl

theorem Config.started_hands {c : Config} {company : Company} {r : Ready}
    {fd : ℤ} (h : c.world.Hands company r fd) :
    c.started.world.Hands company r fd := by
  rcases c.started_world with heq | heq <;> rw [heq] <;> exact h

theorem Config.started_kernel {c : Config} {sys : Sys}
    (h : c.world.Kernel sys) : c.started.world.Kernel sys := by
  rcases c.started_world with heq | heq <;> rw [heq]
  · exact h
  · exact ⟨h.fresh, h.soError⟩

theorem Config.started_destroyed (c : Config) :
    c.started.world.destroyed = c.world.destroyed := by
  rcases c.started_world with heq | heq <;> rw [heq]
  rfl

theorem stmHandler_started (r : Ready) (fd : ℤ) (sys : Sys) (c : Config) :
    stmHandler (sessionTable sys fd) r arrivalFuel c.stm
        (c.world.delivered r fd) =
      stmHandler (sessionTable sys fd) r arrivalFuel c.started.stm
        (c.started.world.delivered r fd) := by
  cases hc : c.stm.current with
  | none =>
      have hstart : stmHandler (sessionTable sys fd) r arrivalFuel c.stm
          (c.world.delivered r fd) = _ :=
        stmHandler_start (c := ⟨c.stm, c.world.delivered r fd⟩) hc
      rw [Config.started_of_none hc, hstart]
      cases r <;> rfl
  | some i => rw [Config.started_of_some hc]

theorem dispatch_started (r : Ready) (fd : ℤ) (sys : Sys) (c : Config) :
    dispatch r fd sys ⟨c.stm, c.world.delivered r fd⟩ =
      dispatch r fd sys ⟨c.started.stm, c.started.world.delivered r fd⟩ := by
  unfold dispatch
  dsimp only
  rw [stmHandler_started]

theorem Machine.enterAll_current {m : Machine} {s : GlobalState}
    (h : m.current = some s.id) (via : List GlobalState) :
    (m.enterAll via).current = some (via.getLastD s).id := by
  induction via generalizing m s with
  | nil => exact h
  | cons v via ih =>
      rw [List.getLastD_cons]
      exact ih (m := m.enter v.id) rfl

theorem Config.state_of_current {c : Config} {s : GlobalState}
    (h : c.stm.current = some s.id) : c.state = s := by
  rw [Config.state, h]
  simp [GlobalState.ofId_id]

/-- An event finds the machine in the state of the session. -/
theorem Config.Visited.started_current {c : Config} {vs : List GlobalState}
    (h : c.Visited vs) : c.started.stm.current = some c.state.id := by
  cases hc : c.stm.current with
  | none =>
      rw [Config.started_of_none hc, Config.state, hc]
      rfl
  | some i =>
      have hlast := h.2
      rw [hc] at hlast
      cases hs : vs.getLast? with
      | none =>
          rw [hs] at hlast
          cases hlast
      | some s =>
          rw [hs] at hlast
          cases hlast
          rw [Config.started_of_some hc, hc, Config.state_of_current hc]

/-- What an event that is dispatched does to the session. -/
theorem Config.Visited.dispatched {c c' : Config} {vs : List GlobalState}
    {r : Ready} {fd : ℤ} {sys : Sys} (hvs : c.Visited vs)
    (h : dispatch r fd sys ⟨c.stm, c.world.delivered r fd⟩ = .ok c') :
    ∃ f ret w via, onReady sys fd c.state r = some f ∧
      f (c.started.world.delivered r fd) = .ok (ret, w) ∧
      Outcome sys fd c.state ret w via c'.world ∧
      c'.state = via.getLastD c.state := by
  rw [dispatch_started] at h
  obtain ⟨f, ret, w, via, hf, hcall, hout, hstm⟩ := dispatch_outcome
    (c := ⟨c.started.stm, c.started.world.delivered r fd⟩) hvs.started_current h
  refine ⟨f, ret, w, via, hf, hcall, hout, Config.state_of_current ?_⟩
  rw [hstm]
  exact Machine.enterAll_current hvs.started_current via

namespace Inductive

variable {company : Company} {C : GlobalState → World → Event → Prop}
  {K I : Assertion}

/-- What is preserved anywhere is preserved where `K` holds. -/
theorem given (hI : Inductive company Anything C I) :
    Inductive company K C I where
  started := fun w _ h => hI.started w trivial h
  startedCondition := hI.startedCondition
  dispatched := fun _ => hI.dispatched trivial
  connectionEnds := fun ok _ => hI.connectionEnds ok trivial
  resolved := fun addrs alloc _ => hI.resolved addrs alloc trivial
  others := fun m _ => hI.others m trivial

/-- An invariant, with one that holds where it does. -/
theorem and (hK : Inductive company Anything AnyEvent K)
    (hI : Inductive company K C I) :
    Inductive company Anything C fun vs s w => K vs s w ∧ I vs s w where
  started := fun w _ h =>
    ⟨hK.started w trivial h.1, hI.started w h.1 h.2⟩
  startedCondition := hI.startedCondition
  dispatched := fun _ h hs hC hlive hhands hkernel hf hcall hout =>
    ⟨hK.dispatched trivial h.1 hs trivial hlive hhands hkernel hf hcall hout,
      hI.dispatched h.1 h.2 hs hC hlive hhands hkernel hf hcall hout⟩
  connectionEnds := fun ok _ h hC hconn =>
    ⟨hK.connectionEnds ok trivial h.1 trivial hconn,
      hI.connectionEnds ok h.1 h.2 hC hconn⟩
  resolved := fun addrs alloc _ h hC hthread =>
    ⟨hK.resolved addrs alloc trivial h.1 trivial hthread,
      hI.resolved addrs alloc h.1 h.2 hC hthread⟩
  others := fun m _ h hC hsame =>
    ⟨hK.others m trivial h.1 trivial hsame, hI.others m h.1 h.2 hC hsame⟩

/-- What an event finds. -/
theorem atEvent (hI : Inductive company Anything C I) {c : Config} {e : Event}
    (hC : C c.state c.world e)
    (hc : ∃ vs, c.Visited vs ∧ I vs c.state c.world) :
    ∃ vs s, c.started.Visited vs ∧ vs.getLast? = some s ∧
      c.started.stm.current = some s.id ∧ I vs s c.started.world ∧
      C s c.started.world e := by
  obtain ⟨vs, hvs, hpre⟩ := hc
  have hstate := hvs.state_eq
  rcases hlast : vs.getLast? with - | s
  · obtain rfl := List.getLast?_eq_none_iff.mp hlast
    rw [hstate] at hpre hC
    rw [Config.started_of_none hvs.2]
    refine ⟨[.greetingRead], .greetingRead, ⟨?_, rfl⟩, rfl, rfl,
      hI.started _ trivial hpre, hI.startedCondition _ _ hC⟩
    simp [Config.start, Machine.enter, hvs.1]
  · have hcur : c.stm.current = some s.id := by rw [hvs.2, hlast]; rfl
    rw [hstate, hlast] at hpre hC
    rw [Config.started_of_some hcur]
    exact ⟨vs, s, hvs, hlast, hcur, hpre, hC⟩

/-- One event preserves the predicate. -/
theorem step (hI : Inductive company Anything C I) {c c' : Config} {e : Event}
    (h : Step company c e c') (hC : C c.state c.world e)
    (hc : ∃ vs, c.Visited vs ∧ I vs c.state c.world) :
    ∃ vs, c'.Visited vs ∧ I vs c'.state c'.world := by
  cases h with
  | @dispatch c' r fd sys hlive hhands hkernel hdispatch =>
      obtain ⟨vs, s, hvs, hlast, hcur, hpre, hC'⟩ := hI.atEvent hC hc
      rw [dispatch_started] at hdispatch
      obtain ⟨f, ret, w₁, via, hf, hcall, hout, hstm⟩ :=
        dispatch_outcome
          (c := ⟨c.started.stm, c.started.world.delivered r fd⟩) hcur hdispatch
      have hbefore : Config.Visited
          ⟨c.started.stm, c.started.world.delivered r fd⟩ vs := hvs
      have hvisited := Machine.enterAll_visited hbefore hstm
      refine ⟨_, hvisited, ?_⟩
      rw [hvisited.state_eq]
      have hpost := hI.dispatched trivial hpre hlast hC'
        (c.started_destroyed.trans hlive) (c.started_hands hhands)
        (c.started_kernel hkernel) hf hcall hout
      rcases via with - | ⟨v, via⟩
      · rw [List.append_nil, hlast]
        rwa [List.append_nil] at hpost
      · rw [List.getLast?_append_of_ne_nil _ (by simp), List.getLast?_cons,
          Option.getD_some, ← List.getLastD_eq_getLast?]
        rwa [List.getLastD_cons] at hpost
  | connectionEnds ok hlive hconn =>
      obtain ⟨vs, hvs, hpre⟩ := hc
      exact ⟨vs, hvs, hI.connectionEnds ok trivial hpre hC hconn⟩
  | resolved addrs alloc hlive hthread =>
      obtain ⟨vs, hvs, hpre⟩ := hc
      exact ⟨vs, hvs, hI.resolved addrs alloc trivial hpre hC hthread⟩
  | others m hsame =>
      obtain ⟨vs, hvs, hpre⟩ := hc
      exact ⟨vs, hvs, hI.others m trivial hpre hC hsame⟩

/-- The predicate holds at the end of every run of such events. -/
theorem run (hI : Inductive company Anything C I) {c₀ c : Config}
    {tr : List (Config × Event)} (hrun : Run (Step company) c₀ tr c)
    (hC : ∀ x ∈ tr, C x.1.state x.1.world x.2) (hstm : c₀.stm = {})
    (h₀ : I [] .greetingRead c₀.world) :
    ∃ vs, c.Visited vs ∧ I vs c.state c.world := by
  refine hrun.invariant_of (C := fun c e => C c.state c.world e)
    (I := fun c => ∃ vs, c.Visited vs ∧ I vs c.state c.world) hC ?_ ?_
  · refine ⟨[], ⟨?_, ?_⟩, ?_⟩
    · rw [hstm]; rfl
    · rw [hstm]; rfl
    · rw [Config.state, hstm]
      exact h₀
  · intro c₁ e c₂ hc hC' hstep
    exact hI.step hstep hC' hc

end Inductive

end Socksv5
