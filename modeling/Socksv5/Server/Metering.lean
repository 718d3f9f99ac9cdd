import Socksv5.Admin.Answers
import Socksv5.Server.Accounting
import Socksv5.Session.RelayCalls
import Mathlib.Algebra.GroupWithZero.Nat

/-!
# The bytes that the metrics count

`total_bytes_transferred` counts what all the sessions of the server have
received for the relay, whichever of them the main loop calls and whatever else
happens between.  Only the callbacks of `COPY` add to it, and each adds what its
`recv` has returned.
-/

namespace Socksv5

open Support

/-! ## A server whose calls are recorded -/

namespace Running

/-- `Recorded x handler r key calls y`: a callback of the table leads from `x` to
`y` and has made the calls, when it is one of a session. -/
inductive Recorded (x : Running) :
    FdHandler → Ready → SelectorKey → List Call → Running → Prop
  | session {r : Ready} {key : SelectorKey} {a : ℕ} {node : SessionNode}
      {sys : Sys} {c : Config} {l : SessionList} : key.data = some a →
      x.server.sessions.heap a = some node →
      (∀ k n, (sys.attempts k).socket = some n → (n : ℤ) ∉ x.opened) →
      dispatch r key.fd sys ⟨node.stm, x.world a node.session⟩ = .ok c →
      x.server.sessions.Becomes a node c l →
      Recorded x .socksv5Active r key c.world.log (x.afterSession a c.world l)
  | others {handler : FdHandler} {r : Ready} {key : SelectorKey} {y : Running} :
      handler ≠ .socksv5Active → x.Calls handler r key y →
      Recorded x handler r key [] y

/-- A step, with the calls that a session has made in it. -/
inductive RecordedStep : Running → LoopEvent × List Call → Running → Prop
  | calls {x y : Running} {handler : FdHandler} {r : Ready} {key : SelectorKey}
      {calls : List Call} : x.due = some (r, some handler, key) →
      handler.handles r = true → x.taken.Recorded handler r key calls y →
      RecordedStep x (.calls handler r key, calls) { y with point := x.next }
  | others {x y : Running} {e : LoopEvent} :
      (∀ handler r key, e ≠ .calls handler r key) → Step x e y →
      RecordedStep x (e, []) y

variable {x y : Running}

theorem Recorded.calls {handler : FdHandler} {r : Ready} {key : SelectorKey}
    {calls : List Call} (h : x.Recorded handler r key calls y) :
    x.Calls handler r key y := by
  cases h with
  | session hdata hnode hfresh hdispatch hl =>
      exact .session hdata hnode hfresh hdispatch hl
  | others _ h => exact h

theorem Calls.exists_recorded {handler : FdHandler} {r : Ready} {key : SelectorKey}
    (h : x.Calls handler r key y) : ∃ calls, x.Recorded handler r key calls y := by
  by_cases hsession : handler = .socksv5Active
  · subst hsession
    cases h with
    | session hdata hnode hfresh hdispatch hl =>
        exact ⟨_, .session hdata hnode hfresh hdispatch hl⟩
  · exact ⟨[], .others hsession h⟩

theorem RecordedStep.step {e : LoopEvent × List Call} (h : RecordedStep x e y) :
    Step x e.1 y := by
  cases h with
  | calls hdue hhandles h => exact .calls hdue hhandles h.calls
  | others _ h => exact h

theorem Step.exists_recorded {e : LoopEvent} (h : Step x e y) :
    ∃ l, l.1 = e ∧ RecordedStep x l y := by
  cases h with
  | calls hdue hhandles h =>
      obtain ⟨calls, hrecorded⟩ := h.exists_recorded
      exact ⟨(_, calls), rfl, .calls hdue hhandles hrecorded⟩
  | selects rep h => exact ⟨(_, []), rfl, .others nofun (.selects rep h)⟩
  | interrupted h => exact ⟨(_, []), rfl, .others nofun (.interrupted h)⟩
  | passes h hdue => exact ⟨(_, []), rfl, .others nofun (.passes h hdue)⟩
  | starts h => exact ⟨(_, []), rfl, .others nofun (.starts h)⟩
  | finds addrs h => exact ⟨(_, []), rfl, .others nofun (.finds addrs h)⟩
  | notifies alloc h hpoint =>
      exact ⟨(_, []), rfl, .others nofun (.notifies alloc h hpoint)⟩

/-- Every run can be recorded. -/
theorem exists_recorded_run {tr : List (Running × LoopEvent)}
    (h : Run Step x tr y) : ∃ tr', Run RecordedStep x tr' y ∧
      (tr'.map fun p => (p.1, p.2.1)) = tr :=
  h.exists_annotated (f := Prod.fst) fun _ _ _ hstep => hstep.exists_recorded

theorem recorded_run {tr : List (Running × LoopEvent × List Call)}
    (h : Run RecordedStep x tr y) : Run Step x (tr.map fun p => (p.1, p.2.1)) y :=
  h.forget (f := Prod.fst) fun _ _ _ hstep => hstep.step

end Running

/-! ## What the other callbacks add -/

theorem destroyAdmin_metrics {fuel : ℕ} {key : SelectorKey} {srv srv' : Server}
    (h : destroyAdmin fuel key srv = .ok srv') : srv'.metrics = srv.metrics := by
  obtain ⟨⟨ret, s⟩, -, h⟩ := bind_eq_ok.mp h
  dsimp only at h
  split at h
  · cases h
  · cases hdata : key.data with
    | none => simp only [hdata] at h; cases h
    | some ad =>
        simp only [hdata] at h
        obtain ⟨l, -, h⟩ := bind_eq_ok.mp h
        cases h
        split <;> rfl

theorem adminAcceptFinally_metrics {fuel : ℕ} {key : SelectorKey}
    {clientSock ad : Option ℕ} {srv srv' : Server}
    (h : adminAcceptFinally fuel key clientSock ad srv = .ok srv') :
    srv'.metrics = srv.metrics := by
  unfold adminAcceptFinally at h
  cases clientSock with
  | none =>
      dsimp only at h
      split at h
      · exact destroyAdmin_metrics h
      · cases h
        rfl
  | some fd =>
      dsimp only at h
      split at h
      · exact (destroyAdmin_metrics h).trans rfl
      · cases h
        rfl

theorem adminPassiveAccept_metrics {fuel : ℕ} {sys : AcceptSys} {key : SelectorKey}
    {srv srv' : Server} (h : adminPassiveAccept fuel sys key srv = .ok srv') :
    srv'.metrics = srv.metrics := by
  unfold adminPassiveAccept at h
  cases haccept : sys.accept with
  | none =>
      rw [haccept] at h
      exact adminAcceptFinally_metrics h
  | some n =>
      simp only [haccept] at h
      split at h
      · exact adminAcceptFinally_metrics h
      · obtain ⟨⟨ad, l⟩, -, h⟩ := bind_eq_ok.mp h
        dsimp only at h
        split at h
        · exact (adminAcceptFinally_metrics h).trans rfl
        · obtain ⟨⟨ret, s⟩, -, h⟩ := bind_eq_ok.mp h
          dsimp only at h
          split at h
          · exact (adminAcceptFinally_metrics h).trans rfl
          · cases h
            rfl

/-! ## What is counted -/

/-- The bytes that the calls of a log add to the metrics. -/
def metered (log : List Call) : ℕ := (log.map Call.metered).sum

theorem metered_cons (c : Call) (log : List Call) :
    metered (c :: log) = c.metered + metered log :=
  List.sum_cons

theorem metered_append (log calls : List Call) :
    metered (log ++ calls) = metered log + metered calls := by
  simp [metered]

theorem metered_relayed (log : List Call) : metered (relayed log) = metered log := by
  induction log with
  | nil => rfl
  | cons c log ih =>
      rw [metered_cons, ← ih]
      cases hc : c.relays with
      | true => rw [relayed, List.filter_cons_of_pos hc, metered_cons, relayed]
      | false =>
          have hzero : c.metered = 0 := by
            unfold Call.metered
            split <;> first | rfl | cases hc
          rw [relayed, List.filter_cons_of_neg (by simp [hc]), hzero, Nat.zero_add,
            relayed]

namespace Running

variable {x y : Running}

/-- `total_bytes_transferred` -/
def bytes (x : Running) : ℕ := x.server.metrics.totalBytesTransferred

theorem Wired.registered_of_slot (hx : x.Wired) {key : SelectorKey} {i : ℕ}
    {handler : FdHandler} (hfd : key.fd = i)
    (hslot : x.slots i = ⟨i, some handler, key.data⟩) :
    x.server.selector.Registered key.fd := by
  rw [hfd, hx.slotted.registered_iff]
  refine ⟨Int.natCast_nonneg i, ?_⟩
  rw [Int.toNat_natCast]
  exact (hx.used_iff i).mpr (by rw [hslot]; exact Registration.ne_of_handler rfl)

/-- The other callbacks count nothing. -/
theorem Calls.bytes_eq (hx : x.Wired) {handler : FdHandler} {r : Ready}
    {key : SelectorKey} {i : ℕ} (hslot : x.slots i = ⟨i, some handler, key.data⟩)
    (hsession : handler ≠ .socksv5Active) (h : x.Calls handler r key y) :
    y.bytes = x.bytes := by
  cases h with
  | session => exact absurd rfl hsession
  | accept hgrants haccept =>
      have hkey : key.data = none := by
        have hpassive := hx.passive i (.inl (by rw [hslot]))
        rwa [hslot] at hpassive
      cases (hgrants.admits hx hkey haccept).1 with
      | refuses _ _ _ hmetrics | strays _ _ _ _ _ hmetrics =>
          exact congrArg Metrics.totalBytesTransferred hmetrics
      | admits _ _ _ _ _ _ _ hmetrics =>
          exact (congrArg Metrics.totalBytesTransferred hmetrics).trans rfl
  | adminAccept hgrants haccept =>
      exact congrArg Metrics.totalBytesTransferred
        (adminPassiveAccept_metrics haccept)
  | admin hhosts hdispatch hlive | adminEnds hhosts hdispatch hended =>
      rcases adminDispatch_quiet hdispatch with hquiet | hquiet <;>
        exact congrArg Metrics.totalBytesTransferred
          (hquiet.metrics.trans hhosts.metrics)

/-- What a callback adds is what its calls have received for the relay. -/
theorem Recorded.bytes_eq (hx : x.Wired) {handler : FdHandler} {r : Ready}
    {key : SelectorKey} {i : ℕ} {calls : List Call} (hfd : key.fd = i)
    (hslot : x.slots i = ⟨i, some handler, key.data⟩)
    (h : x.Recorded handler r key calls y) (hbound : x.bytes < 2 ^ 64) :
    y.bytes = (x.bytes + metered calls) % 2 ^ 64 := by
  cases h with
  | session hdata hnode hfresh hdispatch hl =>
      have hrelayed := dispatch_relayed (hx.registered_of_slot hfd hslot) hdispatch
      have hlog := hrelayed.log
      rw [World.tally, world] at hlog
      have hcalls := congrArg metered hlog
      rw [metered_relayed] at hcalls
      rw [hcalls]
      exact hrelayed.bytes hbound
  | others hsession h =>
      rw [h.bytes_eq hx hslot hsession]
      exact (Nat.mod_eq_of_lt hbound).symm

theorem RecordedStep.bytes_eq (hx : x.Serving) {e : LoopEvent × List Call}
    (h : RecordedStep x e y) (hbound : x.bytes < 2 ^ 64) :
    y.bytes = (x.bytes + metered e.2) % 2 ^ 64 := by
  cases h with
  | calls hdue _ h =>
      obtain ⟨i, hfd, hslot⟩ := hx.due_key hdue
      rw [← x.taken_slots] at hslot
      have htaken : x.taken.bytes = x.bytes := by
        unfold taken
        split <;> rfl
      rw [← htaken] at hbound ⊢
      have hbytes := h.bytes_eq hx.wired.taken_advances.wired hfd hslot hbound
      exact hbytes
  | others hcalls h =>
      have hsame : y.bytes = x.bytes := by
        cases h with
        | calls => exact absurd rfl (hcalls _ _ _)
        | passes =>
            unfold taken
            split <;> rfl
        | selects | interrupted | starts | finds | notifies => rfl
      rw [hsame]
      exact (Nat.mod_eq_of_lt hbound).symm

/-- The calls that the sessions have made in a run. -/
def callsOf (tr : List (Running × LoopEvent × List Call)) : List Call :=
  tr.flatMap fun p => p.2.2

theorem run_bytes {x₀ x : Running} {tr : List (Running × LoopEvent × List Call)}
    (h₀ : x₀.Starts) (hrun : Run RecordedStep x₀ tr x) :
    x.bytes = metered (callsOf tr) % 2 ^ 64 := by
  induction hrun with
  | nil =>
      obtain ⟨srv, opened, ⟨fd1, fd2, fd3, fd4, s, hs, rfl⟩, -, rfl⟩ := h₀
      rfl
  | @snoc tr x y e hrun hstep ih =>
      have hserving := Serving.run h₀ (recorded_run hrun)
      have hbound : x.bytes < 2 ^ 64 := by
        rw [ih]
        exact Nat.mod_lt _ (by decide)
      have hcalls : callsOf (tr ++ [(x, e)]) = callsOf tr ++ e.2 := by
        simp [callsOf]
      rw [hstep.bytes_eq hserving hbound, ih, hcalls, metered_append, Nat.mod_add_mod]

/-- What an administrator who asks for the metrics is answered, at any moment of
a run of the server: how many sessions have been connected so far, how many are,
and how many bytes their calls have received for the relay, as far as 64 bits
tell. -/
theorem metrics_reported {x₀ x : Running}
    {tr : List (Running × LoopEvent × List Call)} (h₀ : x₀.Starts)
    (hrun : Run RecordedStep x₀ tr x) :
    ∃ past now : List ℕ, past.Nodup ∧ now.Nodup ∧
      (∀ a, a ∈ past ↔ x.Connected a ∨ ∃ p ∈ tr, p.1.Connected a) ∧
      (∀ a, a ∈ now ↔ x.Connected a) ∧
      ∀ (key : SelectorKey) (c : AdminConfig), x.Hosts key c →
        (Command.metrics.outcome c.world.globals).answer c.world.globals =
          ascii "\nHistorical connections: " ++ decimal past.length ++
            ascii "\nConcurrent connections: " ++ decimal now.length ++
            ascii "\nTotal bytes transfered: " ++
            decimal (asSigned (metered (callsOf tr) % 2 ^ 64)) ++ ascii "\n" := by
  obtain ⟨⟨now, hnow⟩, hmem, -⟩ := Accounted.run h₀ (recorded_run hrun)
  refine ⟨x.accepted, now, hnow.once, hnow.nodup, fun a => ?_, hnow.mem,
    fun key c hc => ?_⟩
  · rw [hmem]
    simp
  · have hanswer : (Command.metrics.outcome c.world.globals).answer
        c.world.globals = metricsText c.world.globals.metrics := rfl
    have hbytes : x.server.metrics.totalBytesTransferred =
        metered (callsOf tr) % 2 ^ 64 := run_bytes h₀ hrun
    rw [hanswer, hc.metrics, metricsText, hnow.historical,
      hnow.getConcurrentConnections_eq, hnow.concurrent, hbytes]

/-- The client that has been accepted is reported. -/
theorem metrics_reported_of_accepted : ∃ (x₀ x : Running) (past now : List ℕ),
    x₀.Starts ∧ (∃ tr, Run RecordedStep x₀ tr x) ∧ 0 ∈ past ∧ 0 ∈ now := by
  obtain ⟨x₀, x, h₀, hx, -, hdue⟩ := exists_accepted
  obtain ⟨tr, hrun⟩ := Run.of_moves (fun x m e y => Move.perform_step x m e y) hx
  obtain ⟨i, -, hslot⟩ := (Serving.run h₀ hrun).due_key hdue
  have hconnected := (Serving.run h₀ hrun).wired.connected_of_slot hslot
  obtain ⟨tr', hrun', -⟩ := exists_recorded_run hrun
  obtain ⟨past, now, -, -, hpast, hnow, -⟩ := metrics_reported h₀ hrun'
  exact ⟨x₀, x, past, now, h₀, ⟨tr', hrun'⟩, (hpast 0).mpr (.inl hconnected),
    (hnow 0).mpr hconnected⟩

end Running

end Socksv5
