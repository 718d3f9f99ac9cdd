import Socksv5.Session.Reply

/-!
# Waiting for the resolver

A session that asks for a name starts at most one thread, which notifies it at
most once.  Until it is notified it has no connection, and nobody waits to
write to its client.
-/

namespace Socksv5

open Support

/-- The states before any attempt to connect. -/
def GlobalState.Early (s : GlobalState) : Prop :=
  s.rank < GlobalState.originConnect.rank

instance (s : GlobalState) : Decidable s.Early :=
  inferInstanceAs (Decidable (_ < _))

/-- Nothing has been asked of the resolver. -/
structure Unasked (w : World) : Prop where
  threads : w.threads = []
  jobs : w.selector.resolutionJobs.count w.session.clientFd = 0
  conn : w.conn = .none

/-- At most one answer is to come, and nothing is done before. -/
structure Resolving (w : World) : Prop where
  once : w.threads.length +
    w.selector.resolutionJobs.count w.session.clientFd ≤ 1
  idle : w.threads ≠ [] ∨
      w.session.clientFd ∈ w.selector.resolutionJobs →
    w.conn = .none ∧ w.session.originFd = -1 ∧
      w.selector.Unwritten w.session.clientFd

/-- What holds of the resolver in every run. -/
structure Asks (s : GlobalState) (w : World) : Prop where
  early : s.Early → Unasked w
  connecting : s = .originConnect → Resolving w

theorem asks_of_late {s : GlobalState} (w : World) (hs : ¬ s.Early)
    (hne : s ≠ .originConnect) : Asks s w :=
  ⟨fun h => absurd h hs, fun h => absurd h hne⟩

theorem Unasked.asks {s : GlobalState} {w : World} (hw : Unasked w)
    (hs : s.Early) : Asks s w := by
  refine ⟨fun _ => hw, ?_⟩
  rintro rfl
  exact absurd hs (by decide)

theorem Unasked.resolving {w : World} (hw : Unasked w) : Resolving w := by
  refine ⟨by rw [hw.threads, hw.jobs]; decide, fun h => ?_⟩
  rcases h with h | h
  · exact absurd hw.threads h
  · exact absurd (List.count_pos_iff.mpr h) (by rw [hw.jobs]; decide)

theorem Unasked.of_quiet {w w' : World} (hw : Unasked w) (h : Quiet w w') :
    Unasked w' where
  threads := h.threads.trans hw.threads
  jobs := by rw [h.jobs, h.clientFd]; exact hw.jobs
  conn := h.conn.trans hw.conn

/-- What no attempt to connect concerns is the same. -/
structure SameRest (w w' : World) : Prop where
  threads : w'.threads = w.threads
  jobs : w'.selector.resolutionJobs = w.selector.resolutionJobs
  clientFd : w'.session.clientFd = w.session.clientFd
  destroyed : w'.destroyed = w.destroyed

theorem Attempted.sameRest {a : Attempt} {realloc : Bool} {fd : ℤ}
    {w w' : World} {ret : GlobalState} (h : Attempted a realloc fd w ret w') :
    SameRest w w' := by
  cases h with
  | noSocket _ hs => exact ⟨rfl, hs.jobs_eq, rfl, rfl⟩
  | noNio _ _ hs => exact ⟨rfl, hs.jobs_eq, rfl, rfl⟩
  | refused _ _ _ _ hs => exact ⟨rfl, hs.jobs_eq, rfl, rfl⟩
  | connected => exact ⟨rfl, rfl, rfl, rfl⟩
  | inProgress _ _ _ _ hregister =>
      rcases selectorRegister_cases hregister with ⟨-, -, hj⟩ | ⟨-, -, -, -, hj⟩
      · exact ⟨rfl, hj, rfl, rfl⟩
      · exact ⟨rfl, hj, rfl, rfl⟩

theorem Resolves.sameRest {sys : Sys} {fd : ℤ} {k : ℕ} {addrs : List SockAddr}
    {w w' : World} {ret : GlobalState} (h : Resolves sys fd k addrs w ret w') :
    SameRest w w' := by
  induction h with
  | exhausted h =>
      cases h with
      | failed _ hs => exact ⟨rfl, hs.jobs_eq, rfl, rfl⟩
      | answers hs => exact ⟨rfl, hs.jobs_eq, rfl, rfl⟩
  | settles h =>
      obtain ⟨hthreads, hjobs, hclient, hdestroyed⟩ := h.sameRest
      exact ⟨hthreads, hjobs, hclient, hdestroyed⟩
  | breaks h =>
      obtain ⟨hthreads, hjobs, hclient, hdestroyed⟩ := h.sameRest
      exact ⟨hthreads, hjobs, hclient, hdestroyed⟩
  | goesOn h _ ih =>
      have hrest := h.sameRest
      exact ⟨ih.threads.trans hrest.threads, ih.jobs.trans hrest.jobs,
        ih.clientFd.trans hrest.clientFd, ih.destroyed.trans hrest.destroyed⟩

theorem Connects.destroyed_eq {sys : Sys} {fd : ℤ} {w w' : World}
    {ret : GlobalState} (h : Connects sys fd w ret w') :
    w'.destroyed = w.destroyed := by
  cases h with
  | already => rfl
  | noThread => rfl
  | address _ _ h => exact h.sameRest.destroyed
  | name _ _ _ _ => rfl

/-- A session is destroyed in its last states only. -/
theorem Outcome.ended {sys : Sys} {fd : ℤ} {s ret : GlobalState}
    {via : List GlobalState} {w w' : World} (h : Outcome sys fd s ret w via w')
    (hlive : w.destroyed = false) (hdestroyed : w'.destroyed = true) :
    via.getLastD s = .done ∨ via.getLastD s = .error := by
  cases h with
  | stays =>
      rw [hlive] at hdestroyed
      cases hdestroyed
  | enters =>
      rw [(arrived_quiet _ _).destroyed, hlive] at hdestroyed
      cases hdestroyed
  | connects _ hinit | redirected _ hinit =>
      rw [(connectOriginInit_spec hinit).destroyed_eq, hlive] at hdestroyed
      cases hdestroyed
  | ends hend => exact hend

/-- No callback destroys the session. -/
theorem onReady_destroyed {sys : Sys} {fd : ℤ} {s ret : GlobalState} {r : Ready}
    {f : Callback} {w w' : World} (hf : onReady sys fd s r = some f)
    (h : f w = .ok (ret, w')) : w'.destroyed = w.destroyed := by
  by_cases hr : r = .block
  · subst hr
    cases s <;> cases hf
    exact (connectOriginBlock_spec h).sameRest.destroyed
  · exact (onReady_quiet hf hr h).destroyed

/-- Asking for a name starts a thread at most. -/
theorem Connects.resolving {sys : Sys} {w w' : World} {ret : GlobalState}
    (h : Connects sys w.session.clientFd w ret w') (hseated : Seated w)
    (horigin : w.session.originFd = -1) (hw : Unasked w) : Resolving w' := by
  cases h with
  | already => exact hw.resolving
  | noThread => exact hw.resolving
  | address _ _ h =>
      obtain ⟨hthreads, hjobs, hclient, -⟩ := h.sameRest
      refine ⟨?_, fun hpending => ?_⟩
      · rw [hthreads, hjobs, hclient]
        exact hw.resolving.once
      · rw [hthreads, hjobs, hclient, hw.threads] at hpending
        rcases hpending with hpending | hpending
        · exact absurd rfl hpending
        · exact absurd (List.count_pos_iff.mpr hpending) (by rw [hw.jobs]; decide)
  | name _ _ hcalls hs =>
      obtain rfl := hs.success_of_registered hseated.client
      refine ⟨?_, fun _ => ⟨hw.conn, horigin, hs.unwritten rfl⟩⟩
      rw [hs.jobs_eq, hw.jobs]
      rcases hcalls with ⟨rfl, -⟩ | ⟨rfl, -⟩ <;> simp [hw.threads]

/-- Once there is nothing to come. -/
theorem resolving_of_idle {w : World} (hthreads : w.threads = [])
    (hjobs : w.session.clientFd ∉ w.selector.resolutionJobs) :
    Resolving w := by
  refine ⟨?_, fun h => ?_⟩
  · rw [hthreads, List.count_eq_zero.mpr hjobs]
    decide
  · rcases h with h | h
    · exact absurd hthreads h
    · exact absurd h hjobs

/-- When a session is notified, or some descriptor number of its origin is, no
answer is to come. -/
theorem Resolving.delivered {w : World} {fd : ℤ} (hw : Resolving w)
    (hhands : w.Hands .alone .block fd) :
    (w.delivered .block fd).threads = [] ∧
      w.session.clientFd ∉ (w.delivered .block fd).selector.resolutionJobs := by
  have hjobs : fd ∈ w.selector.resolutionJobs := hhands.2.2
  rcases hhands.1 with ⟨hpos, rfl | rfl⟩
  · have honce := hw.once
    have hcount := List.count_pos_iff.mpr hjobs
    have herase := List.count_erase_self (a := w.session.clientFd)
      (l := w.selector.resolutionJobs)
    refine ⟨List.eq_nil_iff_length_eq_zero.mpr ?_, ?_⟩
    · change w.threads.length = 0
      omega
    · change _ ∉ w.selector.resolutionJobs.erase w.session.clientFd
      rw [← List.count_eq_zero]
      omega
  · have hidle : ¬ (w.threads ≠ [] ∨
        w.session.clientFd ∈ w.selector.resolutionJobs) := by
      intro hpending
      have := (hw.idle hpending).2.1
      omega
    rw [not_or, not_not] at hidle
    exact ⟨hidle.1, fun hmem => hidle.2 (List.mem_of_mem_erase hmem)⟩

theorem asks_of_end {s : GlobalState} (w : World)
    (hs : s = .requestWrite ∨ s = .done ∨ s = .error) : Asks s w := by
  rcases hs with rfl | rfl | rfl <;> exact asks_of_late w (by decide) (by decide)

/-- A dispatch before any attempt to connect. -/
theorem Unasked.dispatched {sys : Sys} {fd : ℤ} {s ret : GlobalState}
    {r : Ready} {f : Callback} {vs via : List GlobalState} {w w₁ w₂ : World}
    (hw : Unasked w) (hs : s.Early) (hgate : Gate vs s w) (hseated : Seated w)
    (hhands : w.Hands .alone r fd) (hf : onReady sys fd s r = some f)
    (h : f (w.delivered r fd) = .ok (ret, w₁))
    (hout : Outcome sys fd s ret w₁ via w₂) : Asks (via.getLastD s) w₂ := by
  have hr : r ≠ .block := by
    rintro rfl
    cases s <;> cases hf
    exact absurd hs (by decide)
  have hdelivered : w.delivered r fd = w := by
    cases r <;> first | rfl | exact absurd rfl hr
  rw [hdelivered] at h
  have hfollows := onReady_follows hf hhands.2.1 h
  have hquiet := onReady_quiet hf hr h
  have hunasked := hw.of_quiet hquiet
  cases hout with
  | stays => exact hunasked.asks hs
  | enters _ hne =>
      by_cases hret : ret.Early
      · exact (hunasked.of_quiet (arrived_quiet ret w₁)).asks hret
      · exact asks_of_late _ hret hne
  | connects hne hinit =>
      refine ⟨fun h => absurd h (by simp [GlobalState.Early]), fun _ => ?_⟩
      obtain rfl := (hfollows.resolve_left (Ne.symm hne)).eq_requestRead
      have horigin := hgate.understood.1
      obtain rfl := hhands.1.eq_clientFd horigin
      have hspec := connectOriginInit_spec hinit
      rw [← hquiet.clientFd] at hspec
      exact hspec.resolving (hseated.of_quiet hquiet)
        (hquiet.originFd.trans horigin) hunasked
  | redirected _ _ hto =>
      rcases hto with rfl | rfl <;> exact asks_of_end _ (by simp)
  | ends hend => rcases hend with rfl | rfl <;> exact asks_of_end _ (by simp)

/-- A dispatch in a later state. -/
theorem Asks.dispatched_late {sys : Sys} {fd : ℤ} {s ret : GlobalState}
    {r : Ready} {f : Callback} {via : List GlobalState} {w w₁ w₂ : World}
    (hw : Asks s w) (hs : ¬ s.Early) (hhands : w.Hands .alone r fd)
    (hf : onReady sys fd s r = some f)
    (h : f (w.delivered r fd) = .ok (ret, w₁))
    (hout : Outcome sys fd s ret w₁ via w₂) : Asks (via.getLastD s) w₂ := by
  have hreg : (w.delivered r fd).selector.Registered fd := by
    cases r <;> exact hhands.2.1
  have hlate : ret = s ∨ ¬ ret.Early ∧ ret ≠ .originConnect := by
    have hfollows := onReady_follows hf hreg h
    revert hs hfollows
    clear * -
    cases s <;> cases ret <;> decide
  cases hout with
  | enters hne => exact asks_of_late _ (hlate.resolve_left hne).1 ‹_›
  | connects hne => exact absurd rfl (hlate.resolve_left (Ne.symm hne)).2
  | redirected hne => exact absurd rfl (hlate.resolve_left (Ne.symm hne)).2
  | ends hend => rcases hend with rfl | rfl <;> exact asks_of_end _ (by simp)
  | stays =>
      by_cases hne : s = .originConnect
      · subst hne
        refine ⟨fun h => absurd h hs, fun _ => ?_⟩
        cases r with
        | read => cases hf
        | write =>
            cases hf
            cases verifyConnection_spec h
        | block =>
            cases hf
            obtain ⟨hthreads, hjobs⟩ := (hw.connecting rfl).delivered hhands
            obtain ⟨hthreads', hjobs', hclient, -⟩ :=
              (connectOriginBlock_spec h).sameRest
            refine resolving_of_idle (hthreads'.trans hthreads) ?_
            rw [hjobs', hclient]
            exact hjobs
      · exact asks_of_late _ hs hne

theorem asks_inductive : Inductive .alone Basics AnyEvent
    fun _ s w => w.destroyed = false → Asks s w where
  started := fun w _ hw hlive =>
    (((hw hlive).early (by decide)).of_quiet (arrived_quiet .greetingRead w)).asks
      (by decide)
  startedCondition := fun _ _ _ => trivial
  dispatched := by
    intro vs s r fd sys w f ret w₁ via w₂ hK hw _ _ hlive hhands _ hf h hout _
    by_cases hs : s.Early
    · exact ((hw hlive).early hs).dispatched hs hK.1 (hK.2 hlive) hhands hf h hout
    · exact (hw hlive).dispatched_late hs hhands hf h hout
  connectionEnds := by
    intro vs s w ok _ hw _ hconn hlive
    refine ⟨fun hs => ?_, fun hs => ?_⟩
    · have := ((hw hlive).early hs).conn
      rw [hconn] at this
      cases this
    · have hresolving := (hw hlive).connecting hs
      refine ⟨hresolving.once, fun hpending => ?_⟩
      have := (hresolving.idle hpending).1
      rw [hconn] at this
      cases this
  resolved := by
    intro vs s w fd addrs alloc _ hw _ hthread hlive
    have hpos : w.threads ≠ [] := List.ne_nil_of_mem hthread
    refine ⟨fun hs => absurd ((hw hlive).early hs).threads hpos, fun hs => ?_⟩
    have hresolving := (hw hlive).connecting hs
    refine ⟨?_, fun _ => ?_⟩
    swap
    · have hidle := hresolving.idle (Or.inl hpos)
      cases alloc <;> exact hidle
    have honce := hresolving.once
    have hlength := List.length_erase_of_mem hthread
    have hlt := List.length_pos_iff.mpr hpos
    have hcount := w.selector.count_notified_le fd w.session.clientFd alloc
    change (w.threads.erase fd).length + (selectorNotifyBlock w.selector fd
      alloc).2.resolutionJobs.count w.session.clientFd ≤ 1
    omega
  others := by
    intro vs s w sel m hK hw _ hsame hlive
    have hseated := hK.2 hlive
    obtain ⟨-, hsame⟩ := hsame _ ⟨hseated.nonneg, Or.inl rfl⟩
    obtain ⟨hinterest, hcount⟩ := hsame rfl
    refine ⟨fun hs => ?_, fun hs => ?_⟩
    · obtain ⟨hthreads, hjobs, hconn⟩ := (hw hlive).early hs
      exact ⟨hthreads, hcount.trans hjobs, hconn⟩
    · have hresolving := (hw hlive).connecting hs
      refine ⟨by rw [hcount]; exact hresolving.once, fun hpending => ?_⟩
      have hpending' := hpending.imp_right fun hmem =>
        List.count_pos_iff.mp (hcount ▸ List.count_pos_iff.mpr hmem)
      obtain ⟨hconn, horigin, hunwritten⟩ := hresolving.idle hpending'
      refine ⟨hconn, horigin, fun i hi => hunwritten i ?_⟩
      rwa [← hinterest]

theorem Initial.asks {c : Config} (h : Initial c) :
    Asks .greetingRead c.world := by
  obtain ⟨address, clientFd, s, m, rfl, -, hjobs⟩ := h
  exact Unasked.asks ⟨rfl, List.count_eq_zero.mpr hjobs, rfl⟩ (by decide)

/-- A session that is to be notified has done nothing since it asked. -/
theorem Reachable.resolving {c : Config} (h : Reachable .alone c)
    (hstate : c.state = .originConnect) (hlive : c.world.destroyed = false) :
    Resolving c.world ∧ Seated c.world := by
  obtain ⟨c₀, tr, hinit, hrun⟩ := h
  obtain ⟨vs, -, hbasics, hasks⟩ := ((basics_inductive .alone).and
    asks_inductive).run hrun (fun _ _ => trivial) hinit.stm_eq
    ⟨hinit.basics, fun _ => hinit.asks⟩
  exact ⟨(hasks hlive).connecting hstate, hbasics.2 hlive⟩

end Socksv5
