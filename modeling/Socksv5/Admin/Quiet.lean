import Socksv5.Admin.Run
import Socksv5.Selector.Registration

/-!
# What the callbacks of an administrator leave alone

A callback of an administrator's connection changes the interest in its own
descriptor, the users and the buffer size; when it ends the connection, the slot
of the descriptor is cleared as well.  The metrics are read only.
-/

namespace Socksv5

open Support

/-- Nothing has happened that concerns the descriptors or the metrics. -/
structure AdminQuiet (w w' : AdminWorld) : Prop where
  fd : w'.fd = w.fd
  destroyed : w'.destroyed = w.destroyed
  fdSize : w'.selector.fdSize = w.selector.fdSize
  jobs : w'.selector.resolutionJobs = w.selector.resolutionJobs
  registration : w'.selector.registration = w.selector.registration
  metrics : w'.globals.metrics = w.globals.metrics

namespace AdminQuiet

variable {w w₁ w' : AdminWorld}

theorem trans (h : AdminQuiet w w₁) (h' : AdminQuiet w₁ w') :
    AdminQuiet w w' where
  fd := h'.fd.trans h.fd
  destroyed := h'.destroyed.trans h.destroyed
  fdSize := h'.fdSize.trans h.fdSize
  jobs := h'.jobs.trans h.jobs
  registration := h'.registration.trans h.registration
  metrics := h'.metrics.trans h.metrics

/-- The connection and the log may change. -/
theorem of_rest (w : AdminWorld) (admin : Admin) (log : List AdminCall) :
    AdminQuiet w { w with admin := admin, log := log } :=
  ⟨rfl, rfl, rfl, rfl, rfl, rfl⟩

end AdminQuiet

/-! ## The calls -/

theorem AdminWorld.setInterestKey_quiet {w w' : AdminWorld} {i : FdInterest}
    {ret : SelectorStatus} (h : w.setInterestKey i = .ok (ret, w')) :
    AdminQuiet w w' := by
  obtain ⟨⟨ret, s⟩, hs, h⟩ := bind_eq_ok.mp h
  cases h
  rw [selectorSetInterestKey_eq] at hs
  have hchange := updateInterest_spec hs
  exact ⟨rfl, rfl, hchange.fdSize_eq, hchange.jobs_eq,
    hchange.registration_eq, rfl⟩

theorem AdminWorld.recvInto_quiet {w w' : AdminWorld} {state : AdminState}
    {sys : AdminSys} {b : Buffer} {r : Option Buffer}
    (h : w.recvInto state sys b = .ok (r, w')) : AdminQuiet w w' := by
  obtain ⟨bs, -, rfl⟩ := AdminWorld.recvInto_spec h
  exact .of_rest w _ _

theorem AdminWorld.sendFrom_quiet {w w' : AdminWorld} {state : AdminState}
    {sys : AdminSys} {b : Buffer} {r : Option Buffer}
    (h : w.sendFrom state sys b = .ok (r, w')) : AdminQuiet w w' := by
  obtain ⟨bs, -, rfl⟩ := AdminWorld.sendFrom_spec h
  exact .of_rest w _ _

theorem judge_quiet {w w' : AdminWorld} (h : judge w = .ok w') :
    AdminQuiet w w' := by
  rcases judge_cases h with ⟨-, -, -, -, -, -, -, rfl⟩ | ⟨-, rfl⟩
  · exact .of_rest w _ _
  · exact .of_rest w _ _

theorem performCommand_metrics {b b' : Buffer} {p : ReqParser}
    {g g' : Globals} {aux aux' : Option Block} {m : Mallocs}
    {performed : Option Performed}
    (h : performCommand b p g aux m = .ok (b', aux', g', performed)) :
    g'.metrics = g.metrics := by
  unfold performCommand at h
  split at h
  · obtain ⟨aux₁, -, h⟩ := bind_eq_ok.mp h
    obtain ⟨b₁, -, h⟩ := bind_eq_ok.mp h
    cases h
    rfl
  · split at h
    · obtain ⟨⟨b₁, aux₁⟩, -, h⟩ := bind_eq_ok.mp h
      cases h
      rfl
    · split at h
      · obtain ⟨⟨ret, parameters⟩, -, h⟩ := bind_eq_ok.mp h
        obtain ⟨aux₁, -, h⟩ := bind_eq_ok.mp h
        obtain ⟨b₁, -, h⟩ := bind_eq_ok.mp h
        cases h
        rfl
      · split at h
        · obtain ⟨⟨b₁, aux₁⟩, -, h⟩ := bind_eq_ok.mp h
          cases h
          rfl
        · split at h
          · obtain ⟨⟨ret, size⟩, -, h⟩ := bind_eq_ok.mp h
            obtain ⟨aux₁, -, h⟩ := bind_eq_ok.mp h
            obtain ⟨b₁, -, h⟩ := bind_eq_ok.mp h
            cases h
            rfl
          · cases h
            rfl

/-- No command changes the metrics. -/
theorem adminReqFillMsg_metrics {b b' : Buffer} {p p' : ReqParser}
    {g g' : Globals} {m : Mallocs} {performed : Option Performed}
    (h : adminReqFillMsg b p g m = .ok (b', p', g', performed)) :
    g'.metrics = g.metrics := by
  unfold adminReqFillMsg at h
  split at h
  · cases h
    rfl
  · obtain ⟨⟨b₁, aux, g₁, performed₁⟩, hperform, h⟩ := bind_eq_ok.mp h
    obtain ⟨n, -, h⟩ := bind_eq_ok.mp h
    obtain ⟨b₂, -, h⟩ := bind_eq_ok.mp h
    cases h
    exact performCommand_metrics hperform

/-! ## The callbacks -/

theorem adminAuthRead_quiet {sys : AdminSys} {w w' : AdminWorld}
    {ret : AdminState} (h : adminAuthRead sys w = .ok (ret, w')) :
    AdminQuiet w w' := by
  unfold adminAuthRead at h
  obtain ⟨⟨received, w₁⟩, hrecv, h⟩ := bind_eq_ok.mp h
  have hq := AdminWorld.recvInto_quiet hrecv
  cases received with
  | none =>
      cases h
      exact hq
  | some rb =>
      obtain ⟨⟨rb', parser, a⟩, -, h⟩ := bind_eq_ok.mp h
      have hparsed := hq.trans (.of_rest w₁ { w₁.admin with
        readBuffer := rb', authParser := parser } w₁.log)
      dsimp only at h
      split at h
      · obtain ⟨w₂, hjudge, h⟩ := bind_eq_ok.mp h
        obtain ⟨⟨status, w₃⟩, hset, h⟩ := bind_eq_ok.mp h
        have hset := (hparsed.trans (judge_quiet hjudge)).trans
          (AdminWorld.setInterestKey_quiet hset)
        dsimp only at h
        split at h <;> cases h <;> exact hset
      · cases h
        exact hparsed

theorem adminAuthWrite_quiet {sys : AdminSys} {w w' : AdminWorld}
    {ret : AdminState} (h : adminAuthWrite sys w = .ok (ret, w')) :
    AdminQuiet w w' := by
  unfold adminAuthWrite at h
  obtain ⟨filled, -, h⟩ := bind_eq_ok.mp h
  obtain ⟨⟨sent, w₁⟩, hsend, h⟩ := bind_eq_ok.mp h
  have hq := AdminWorld.sendFrom_quiet hsend
  cases sent with
  | none =>
      cases h
      exact hq
  | some wb =>
      have hsent := hq.trans (.of_rest w₁ { w₁.admin with
        writeBuffer := wb } w₁.log)
      dsimp only at h
      split at h
      · cases h
        exact hsent
      · obtain ⟨⟨status, w₂⟩, hset, h⟩ := bind_eq_ok.mp h
        have hset := hsent.trans (AdminWorld.setInterestKey_quiet hset)
        dsimp only at h
        split at h
        · cases h
          exact hset
        · split at h <;> cases h <;> exact hset

theorem adminRequestRead_quiet {sys : AdminSys} {w w' : AdminWorld}
    {ret : AdminState} (h : adminRequestRead sys w = .ok (ret, w')) :
    AdminQuiet w w' := by
  unfold adminRequestRead at h
  obtain ⟨⟨received, w₁⟩, hrecv, h⟩ := bind_eq_ok.mp h
  have hq := AdminWorld.recvInto_quiet hrecv
  cases received with
  | none =>
      cases h
      exact hq
  | some rb =>
      obtain ⟨⟨rb', parser, m⟩, -, h⟩ := bind_eq_ok.mp h
      have hparsed := hq.trans (.of_rest w₁ { w₁.admin with
        readBuffer := rb', reqParser := parser } w₁.log)
      obtain ⟨⟨status, w₂⟩, hset, h⟩ := bind_eq_ok.mp h
      have hset := hparsed.trans (AdminWorld.setInterestKey_quiet hset)
      dsimp only at h
      split at h <;> cases h <;> exact hset

theorem adminRequestWrite_quiet {sys : AdminSys} {w w' : AdminWorld}
    {ret : AdminState} (h : adminRequestWrite sys w = .ok (ret, w')) :
    AdminQuiet w w' := by
  unfold adminRequestWrite at h
  obtain ⟨⟨wb, parser, g, performed⟩, hfill, h⟩ := bind_eq_ok.mp h
  have hmetrics := adminReqFillMsg_metrics hfill
  obtain ⟨⟨sent, w₁⟩, hsend, h⟩ := bind_eq_ok.mp h
  have hfilled : AdminQuiet w ({ w with
      admin := { w.admin with writeBuffer := wb, reqParser := parser }
      globals := g }.performed performed) := by
    cases performed <;> exact ⟨rfl, rfl, rfl, rfl, rfl, hmetrics⟩
  have hq := hfilled.trans (AdminWorld.sendFrom_quiet hsend)
  cases sent with
  | none =>
      cases h
      exact hq
  | some wb' =>
      have hsent := hq.trans (.of_rest w₁ { w₁.admin with
        writeBuffer := wb' } w₁.log)
      dsimp only at h
      split at h
      · cases h
        exact hsent
      · obtain ⟨⟨status, w₂⟩, hset, h⟩ := bind_eq_ok.mp h
        have hset := hsent.trans (AdminWorld.setInterestKey_quiet hset)
        dsimp only at h
        split at h <;> cases h <;> exact hset

theorem adminOnReady_quiet {sys : AdminSys} {s ret : AdminState} {r : Ready}
    {f : AdminCallback} {w w' : AdminWorld} (hf : adminOnReady sys s r = some f)
    (h : f w = .ok (ret, w')) : AdminQuiet w w' := by
  cases s <;> cases r <;> cases hf
  case auth.read => exact adminAuthRead_quiet h
  case auth.write => exact adminAuthWrite_quiet h
  case request.read => exact adminRequestRead_quiet h
  case request.write => exact adminRequestWrite_quiet h

/-! ## Dispatches -/

/-- The end of a connection. -/
structure AdminEnded (w w' : AdminWorld) : Prop where
  destroyed : w'.destroyed = true
  fdSize : w'.selector.fdSize = w.selector.fdSize
  jobs : w'.selector.resolutionJobs = w.selector.resolutionJobs
  registration : w'.selector.registration =
    Function.update w.selector.registration w.fd.toNat {}
  metrics : w'.globals.metrics = w.globals.metrics

theorem adminArrived_quiet (s : AdminState) (w : AdminWorld) :
    AdminQuiet w (adminArrived s w) := by
  cases s
  case auth => exact .of_rest w _ _
  case request => exact .of_rest w _ _
  all_goals exact ⟨rfl, rfl, rfl, rfl, rfl, rfl⟩

/-- A dispatch leaves the descriptors alone, or ends the connection. -/
theorem adminDispatch_quiet {r : Ready} {sys : AdminSys} {c c' : AdminConfig}
    (h : adminDispatch r sys c = .ok c') :
    AdminQuiet c.world c'.world ∨ AdminEnded c.world c'.world := by
  obtain ⟨f, ret, w, hf, hcall, hout, -, -⟩ := adminDispatch_cases h
  have hfound : AdminQuiet c.world c.found := by
    unfold AdminConfig.found
    split
    · exact .of_rest _ _ _
    · exact ⟨rfl, rfl, rfl, rfl, rfl, rfl⟩
  have hcalled := hfound.trans (adminOnReady_quiet hf hcall)
  generalize c'.world = w' at hout ⊢
  cases hout with
  | stays => exact .inl hcalled
  | arrives => exact .inl (hcalled.trans (adminArrived_quiet ret w))
  | ends _ hend =>
      right
      obtain ⟨⟨status, s⟩, hunregister, hend⟩ := bind_eq_ok.mp hend
      by_cases hstatus : status = .success
      · subst hstatus
        cases hend
        obtain ⟨-, -, hsize, hjobs, hslots⟩ :=
          selectorUnregisterFd_registration hunregister
        refine ⟨rfl, hsize.trans hcalled.fdSize, hjobs.trans hcalled.jobs, ?_,
          hcalled.metrics⟩
        rw [← hcalled.registration, ← hcalled.fd]
        exact hslots
      · simp [hstatus] at hend

end Socksv5
