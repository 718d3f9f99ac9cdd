import Socksv5.Session.Answering
import Socksv5.Session.Callbacks

/-!
# The resolver's thread

`connect_origin_thread` holds a pointer to the session, and runs while the main
loop runs.  Here its steps are taken one at a time: it starts, it stores what
`getaddrinfo` found, and it queues its notification.  The callback that creates
it is in two parts, before and after `pthread_create` has returned, so that the
thread may finish before the callback has taken the interest from the client.
-/

namespace Socksv5

open Support

/-! ## What holds between events -/

/-- An answer is to come, or to be delivered. -/
def World.Pending (w : World) : Prop :=
  w.threads ≠ [] ∨ w.session.clientFd ∈ w.selector.resolutionJobs

/-- A session that waits for the resolver waits for nothing else. -/
structure AwaitsAnswer (s : GlobalState) (w : World) : Prop where
  settled : s ≠ .originConnect → Unnotified w
  nonneg : 0 ≤ w.session.clientFd
  owner : ∀ fd ∈ w.threads, fd = w.session.clientFd
  idle : w.Pending → w.destroyed = false ∧
    w.selector.interest? w.session.clientFd = some .noop ∧
    w.session.originFd = -1

theorem Unnotified.not_pending {w : World} (hw : Unnotified w) :
    ¬ w.Pending := by
  rintro (h | h)
  · exact h hw.threads
  · exact hw.client h

theorem Unnotified.awaits {w : World} (hw : Unnotified w)
    (hnonneg : 0 ≤ w.session.clientFd) (s : GlobalState) : AwaitsAnswer s w where
  settled := fun _ => hw
  nonneg := hnonneg
  owner := by
    rw [hw.threads]
    simp
  idle := fun h => absurd h hw.not_pending

theorem AwaitsAnswer.state_eq {s : GlobalState} {w : World} (hw : AwaitsAnswer s w)
    (h : w.Pending) : s = .originConnect := by
  by_contra hs
  exact (hw.settled hs).not_pending h

theorem closeDescriptor_sameRest {w w' : World} {fd : ℤ}
    (h : closeDescriptor w fd = .ok w') : SameRest w w' := by
  unfold closeDescriptor at h
  split at h
  · obtain ⟨⟨ret, s⟩, hs, h⟩ := bind_eq_ok.mp h
    dsimp only at h
    split at h <;> cases h
    rcases selectorUnregisterFd_cases hs with ⟨-, -, rfl⟩ | ⟨-, -, -, hjobs⟩
    · exact ⟨rfl, rfl, rfl, rfl⟩
    · exact ⟨rfl, hjobs, rfl, rfl⟩
  · cases h
    exact ⟨rfl, rfl, rfl, rfl⟩

theorem socksv5Done_unnotified {w w' : World} (h : socksv5Done w = .ok w')
    (hw : Unnotified w) : Unnotified w' := by
  obtain ⟨w₁, hclient, h⟩ := bind_eq_ok.mp h
  obtain ⟨w₂, horigin, h⟩ := bind_eq_ok.mp h
  cases h
  have hafter := (hw.of_same (closeDescriptor_sameRest hclient)).of_same
    (closeDescriptor_sameRest horigin)
  exact ⟨hafter.threads, hafter.client⟩

/-- Only asking for a name makes a session that awaits nothing await. -/
theorem Connects.awaits {sys : Sys} {w w' : World} {ret : GlobalState}
    (h : Connects sys w.session.clientFd w ret w') (hseated : Seated w)
    (horigin : w.session.originFd = -1) (hlive : w.destroyed = false)
    (hw : Unnotified w) : AwaitsAnswer ret w' := by
  cases h with
  | already => exact hw.awaits hseated.nonneg _
  | noThread => exact hw.awaits hseated.nonneg _
  | address _ _ h =>
      refine (hw.of_same h.sameRest).awaits ?_ _
      rw [h.sameRest.clientFd]
      exact hseated.nonneg
  | name _ _ hcalls hs =>
      obtain rfl := hs.success_of_registered hseated.client
      obtain ⟨_, -, hinterest⟩ := hs.interest_eq
      refine ⟨fun hne => absurd rfl hne, hseated.nonneg, ?_, fun _ => ?_⟩
      · intro fd hfd
        rcases hcalls with ⟨rfl, -⟩ | ⟨rfl, -⟩
        · rw [hw.threads] at hfd
          exact List.mem_singleton.mp hfd
        · rw [hw.threads] at hfd
          cases hfd
      · refine ⟨hlive, ?_, horigin⟩
        rw [hinterest, Function.update_self]
        rfl

theorem AwaitsAnswer.dispatched {sys : Sys} {fd : ℤ} {s ret : GlobalState} {r : Ready}
    {f : Callback} {vs via : List GlobalState} {w w₁ w₂ : World}
    (hw : AwaitsAnswer s w) (hgate : Gate vs s w) (hseated : Seated w)
    (hresolving : s = .originConnect → Resolving w)
    (hlive : w.destroyed = false) (hhands : w.Hands .alone r fd)
    (hkernel : w.Kernel sys) (hf : onReady sys fd s r = some f)
    (h : f (w.delivered r fd) = .ok (ret, w₁))
    (hout : Outcome sys fd s ret w₁ via w₂) : AwaitsAnswer (via.getLastD s) w₂ := by
  obtain ⟨hseated₁, hclient₁⟩ := onReady_seated hseated hkernel hf h
  have hlive₁ : w₁.destroyed = false := by
    rw [onReady_destroyed hf h]
    cases r <;> exact hlive
  have hunnotified : Unnotified w₁ := by
    by_cases hr : r = .block
    · subst hr
      cases s <;> cases hf
      obtain ⟨hthreads, hjobs⟩ := (hresolving rfl).delivered hhands
      have hbefore : Unnotified (w.delivered .block fd) := ⟨hthreads, hjobs⟩
      exact hbefore.of_same (connectOriginBlock_spec h).sameRest
    · rw [World.delivered_eq hr] at h
      have hbefore : Unnotified w := by
        by_cases hs : s = .originConnect
        · subst hs
          cases r with
          | read => cases hf
          | write => exact (hresolving rfl).unnotified hhands
          | block => exact absurd rfl hr
        · exact hw.settled hs
      exact hbefore.of_same (onReady_quiet hf hr h).sameRest
  have hconnects (ret' : GlobalState) (hs : s ≠ .originConnect)
      (heq : ret = .originConnect)
      (hinit : connectOriginInit sys fd w₁ = .ok (ret', w₂)) :
      AwaitsAnswer ret' w₂ := by
    subst heq
    have hreg : (w.delivered r fd).selector.Registered fd := by
      cases r <;> exact hhands.2.1
    obtain rfl :=
      ((onReady_follows hf hreg h).resolve_left (Ne.symm hs)).eq_requestRead
    cases r <;> cases hf
    have horigin : w.session.originFd = -1 := hgate.understood.1
    have hspec := connectOriginInit_spec hinit
    rw [hhands.1.eq_clientFd horigin, ← hclient₁] at hspec
    exact hspec.awaits hseated₁ ((requestRead_quiet h).originFd.trans horigin)
      hlive₁ hunnotified
  cases hout with
  | stays => exact hunnotified.awaits hseated₁.nonneg _
  | enters =>
      have hafter := arrived_quiet ret w₁
      refine (hunnotified.of_same hafter.sameRest).awaits ?_ _
      rw [hafter.clientFd]
      exact hseated₁.nonneg
  | connects hs hinit => exact hconnects _ hs rfl hinit
  | redirected hs hinit => exact hconnects _ hs rfl hinit
  | ends _ hdone =>
      refine (socksv5Done_unnotified hdone hunnotified).awaits ?_ _
      rw [socksv5Done_session hdone]
      exact hseated₁.nonneg

theorem awaits_inductive : Inductive .alone BasicsAsks AnyEvent
    fun _ s w => AwaitsAnswer s w where
  started := fun w _ hw =>
    ⟨fun hs => ⟨(hw.settled hs).threads, (hw.settled hs).client⟩, hw.nonneg,
      hw.owner, hw.idle⟩
  startedCondition := fun _ _ _ => trivial
  dispatched := fun hK hw _ _ hlive hhands hkernel hf h hout =>
    hw.dispatched hK.1.1 (hK.1.2 hlive) (hK.2 hlive).connecting hlive hhands
      hkernel hf h hout
  connectionEnds := fun _ _ hw _ _ =>
    ⟨fun hs => ⟨(hw.settled hs).threads, (hw.settled hs).client⟩, hw.nonneg,
      hw.owner, hw.idle⟩
  resolved := by
    intro vs s w fd addrs alloc _ hw _ hthread
    have hpending : w.Pending := .inl (List.ne_nil_of_mem hthread)
    refine ⟨fun hs => absurd (hw.state_eq hpending) hs, hw.nonneg,
      fun d hd => hw.owner d (List.mem_of_mem_erase hd), fun _ => ?_⟩
    obtain ⟨hlive, hnoop, horigin⟩ := hw.idle hpending
    refine ⟨hlive, ?_, horigin⟩
    change (selectorNotifyBlock w.selector fd alloc).2.interest? _ = _
    rw [w.selector.interest?_notified]
    exact hnoop
  others := by
    intro vs s w sel m _ hw _ hsame
    obtain ⟨-, hsame⟩ := hsame _ ⟨hw.nonneg, .inl rfl⟩
    obtain ⟨hinterest, hcount⟩ := hsame rfl
    have hqueue : w.session.clientFd ∈ sel.resolutionJobs ↔
        w.session.clientFd ∈ w.selector.resolutionJobs := by
      rw [← List.count_pos_iff, hcount, List.count_pos_iff]
    refine ⟨fun hs => ⟨(hw.settled hs).threads,
      hqueue.not.mpr (hw.settled hs).client⟩, hw.nonneg, hw.owner, fun h => ?_⟩
    obtain ⟨hlive, hnoop, horigin⟩ := hw.idle (h.imp_right hqueue.mp)
    exact ⟨hlive, hinterest.trans hnoop, horigin⟩

/-- What holds between the events of a session that is alone. -/
def Settled : Assertion := fun vs s w => BasicsAsks vs s w ∧ AwaitsAnswer s w

theorem settled_inductive : Inductive .alone Anything AnyEvent Settled :=
  basicsAsks_inductive.and awaits_inductive

theorem Initial.settled {c : Config} (h : Initial c) :
    Settled [] .greetingRead c.world := by
  refine ⟨⟨h.basics, fun _ => h.asks⟩, ?_⟩
  have hseated := h.basics.2
  have hanswerable := h.answerable
  obtain ⟨address, clientFd, s, m, rfl, -, -⟩ := h
  exact (hanswerable.unnotified (by decide)).awaits (hseated rfl).nonneg _

/-- No session goes back to a state before `ORIGIN_CONNECT`. -/
theorem late_inductive : Inductive .alone Anything AnyEvent
    fun _ s _ => ¬ s.Early where
  started := fun _ _ h => h
  startedCondition := fun _ _ _ => trivial
  dispatched := by
    intro vs s r fd sys w f ret w₁ via w₂ _ hs _ _ _ hhands _ hf h hout
    have hreg : (w.delivered r fd).selector.Registered fd := by
      cases r <;> exact hhands.2.1
    have hfollows := onReady_follows hf hreg h
    have hret : ¬ ret.Early := by
      rcases hfollows with rfl | hfollows
      · exact hs
      · exact fun hearly => hs (hfollows.rank_lt.trans hearly)
    cases hout with
    | stays => exact hs
    | enters => exact hret
    | connects => exact hret
    | redirected _ _ hto =>
        rw [List.getLastD_cons, List.getLastD_cons, List.getLastD_nil]
        rcases hto with rfl | rfl <;> decide
    | ends => exact hret
  connectionEnds := fun _ _ h _ _ => h
  resolved := fun _ _ _ h _ _ => h
  others := fun _ _ h _ _ => h

/-! ## The steps of the thread -/

/-- How far `connect_origin_thread` is. -/
inductive ResolverPhase
  | created
  | started
  | stored
deriving DecidableEq, Repr

/-- A session and its resolver's thread: which descriptor the thread is for,
with how far it is; and for which descriptor `pthread_create` has returned in a
callback that has not gone on.  `created` and `delivered` count the threads
created, and the notifications delivered. -/
structure Interleaved where
  config : Config
  thread : Option (ℤ × ResolverPhase) := none
  clearing : Option ℤ := none
  created : ℕ := 0
  delivered : ℕ := 0

/-- What is done next: an event of the main loop, a part of the callback that
creates the thread, or a step of the thread. -/
inductive Move
  | main (e : Event)
  | creates (sys : Sys)
  | clears
  | starts
  | stores (addrs : List SockAddr)
  | queues

/-- `socksv5->origin_resolution = addrs` -/
def World.setResolution (w : World) (addrs : List SockAddr) : World :=
  { w with session := { w.session with originResolution := addrs } }

/-- The world when `pthread_create` returns. -/
def World.withThread (w : World) (fd : ℤ) : World :=
  { w with threads := fd :: w.threads, log := w.log ++ [.thread fd] }

/-- A notification that is delivered to the client's descriptor. -/
def Event.notifies (e : Event) (clientFd : ℤ) : Bool :=
  match e with
  | .dispatch .block fd _ => decide (fd = clientFd)
  | _ => false

/-- `creates` and `clears` are the two parts of the callback that reads a
request for a name.  Allocation and thread creation succeed. -/
inductive Interleaved.Step : Interleaved → Move → Interleaved → Prop
  | main {x : Interleaved} {e : Event} {c' : Config} : x.clearing = none →
      Socksv5.Step .alone x.config e c' → (∀ fd addrs alloc,
        e ≠ .resolved fd addrs alloc) →
      c'.world.threads = x.config.world.threads →
      Step x (.main e) { x with
        config := c'
        delivered := x.delivered +
          (e.notifies x.config.world.session.clientFd).toNat }
  | creates {x : Interleaved} {fd : ℤ} {sys : Sys} {w : World} :
      x.clearing = none → x.config.world.destroyed = false →
      x.config.world.Hands .alone .read fd → x.config.world.Kernel sys →
      x.config.stm.current = some GlobalState.requestRead.id →
      requestRead sys fd x.config.world = .ok (.originConnect, w) →
      w.session.originFd < 0 → ¬ (w.session.request.parser.atyp = 1 ∨
        w.session.request.parser.atyp = 4) →
      sys.malloc = true → sys.pthreadCreate = 0 →
      Step x (.creates sys) { x with
        config := ⟨x.config.stm.enter GlobalState.originConnect.id,
          w.withThread fd⟩
        thread := some (fd, .created)
        clearing := some fd
        created := x.created + 1 }
  | clears {x : Interleaved} {fd : ℤ} {ret : SelectorStatus} {w : World} :
      x.clearing = some fd →
      x.config.world.setInterestKey fd .noop = .ok (ret, w) →
      Step x .clears { x with config := ⟨x.config.stm, w⟩, clearing := none }
  | starts {x : Interleaved} {fd : ℤ} : x.thread = some (fd, .created) →
      Step x .starts { x with
        config := ⟨x.config.stm, x.config.world.setResolution []⟩
        thread := some (fd, .started) }
  | stores {x : Interleaved} {fd : ℤ} (addrs : List SockAddr) :
      x.thread = some (fd, .started) →
      Step x (.stores addrs) { x with
        config := ⟨x.config.stm, x.config.world.setResolution addrs⟩
        thread := some (fd, .stored) }
  | queues {x : Interleaved} {fd : ℤ} : x.thread = some (fd, .stored) →
      Step x .queues { x with
        config := ⟨x.config.stm, connectOriginThread fd
          x.config.world.session.originResolution true x.config.world⟩
        thread := none }

/-- The two parts, one after the other, are the callback. -/
theorem dispatch_of_creates {fd : ℤ} {sys : Sys} {c : Config} {w w' : World}
    {ret : SelectorStatus}
    (hstate : c.stm.current = some GlobalState.requestRead.id)
    (h : requestRead sys fd c.world = .ok (.originConnect, w))
    (horigin : w.session.originFd < 0)
    (hatyp : ¬ (w.session.request.parser.atyp = 1 ∨
      w.session.request.parser.atyp = 4))
    (hmalloc : sys.malloc = true) (hcreate : sys.pthreadCreate = 0)
    (hclear : (w.withThread fd).setInterestKey fd .noop = .ok (ret, w')) :
    dispatch .read fd sys c =
      .ok ⟨c.stm.enter GlobalState.originConnect.id, w'⟩ := by
  have hinit : connectOriginInit sys fd w = .ok (.originConnect, w') := by
    rw [World.withThread] at hclear
    rw [connectOriginInit, if_pos horigin, connectToOrigin, if_neg hatyp,
      connectThroughFqdn]
    simp [hmalloc, hcreate, hclear, ok_bind]
  have harrive : arrive (sessionTable sys fd) GlobalState.originConnect.id w =
      .ok (GlobalState.originConnect.id, w') := by
    rw [arrive_sessionTable]
    simp [onArrival, Callback.numbered, hinit, ok_bind]
  have hjump := @jump_sessionTable sys fd .requestRead .originConnect c.stm w 1
    hstate (by decide)
  have hlive : ¬ (GlobalState.originConnect.id = GlobalState.error.id ∨
      GlobalState.originConnect.id = GlobalState.done.id) := by decide
  unfold dispatch stmHandler handleFirst
  simp [hstate, sessionTable_states, onReady, Callback.numbered, h, arrivalFuel,
    hjump, harrive, hlive]

/-! ## The thread and the callback change different things -/

theorem updateInterest_jobs {s s' : FdSelector} {fd : ℤ}
    {change : FdInterest → Option FdInterest} {ret : SelectorStatus}
    (h : updateInterest s fd change = .ok (ret, s')) (jobs : List ℤ) :
    updateInterest { s with resolutionJobs := jobs } fd change =
      .ok (ret, { s' with resolutionJobs := jobs }) := by
  unfold updateInterest at h ⊢
  by_cases hfd : invalidFd fd = true
  · rw [if_pos hfd] at h ⊢
    cases h
    rfl
  · rw [if_neg hfd] at h ⊢
    obtain ⟨item, hslot, h⟩ := bind_eq_ok.mp h
    have hslot' : FdSelector.slot { s with resolutionJobs := jobs } fd.toNat =
        .ok item := hslot
    rw [hslot', ok_bind]
    by_cases hused : item.used = true
    · simp only [hused, Bool.not_true, Bool.false_eq_true, if_false] at h ⊢
      cases hchange : change item.interest with
      | none =>
          simp only [hchange] at h ⊢
          cases h
          rfl
      | some i =>
          simp only [hchange] at h ⊢
          cases h
          rfl
    · simp only [hused, Bool.not_false, if_true] at h ⊢
      cases h
      rfl

theorem setInterestKey_setResolution {w w' : World} {fd : ℤ} {i : FdInterest}
    {ret : SelectorStatus} (h : w.setInterestKey fd i = .ok (ret, w'))
    (addrs : List SockAddr) :
    (w.setResolution addrs).setInterestKey fd i =
      .ok (ret, w'.setResolution addrs) := by
  obtain ⟨⟨ret, s⟩, hs, h⟩ := bind_eq_ok.mp h
  cases h
  have hs' : selectorSetInterestKey (w.setResolution addrs).selector fd i =
      .ok (ret, s) := hs
  rw [World.setInterestKey, hs', ok_bind]
  rfl

theorem setInterestKey_connectOriginThread {w w' : World} {fd : ℤ}
    {i : FdInterest} {ret : SelectorStatus}
    (h : w.setInterestKey fd i = .ok (ret, w')) (d : ℤ)
    (addrs : List SockAddr) :
    (connectOriginThread d addrs true w).setInterestKey fd i =
      .ok (ret, connectOriginThread d addrs true w') := by
  obtain ⟨⟨ret, s⟩, hs, h⟩ := bind_eq_ok.mp h
  cases h
  rw [selectorSetInterestKey_eq] at hs
  have hjobs := (updateInterest_spec hs).jobs_eq
  have hs' := updateInterest_jobs hs (d :: w.selector.resolutionJobs)
  have hthread : selectorSetInterestKey
      (connectOriginThread d addrs true w).selector fd i =
      .ok (ret, { s with resolutionJobs := d :: w.selector.resolutionJobs }) := by
    rw [selectorSetInterestKey_eq]
    exact hs'
  rw [World.setInterestKey, hthread, ok_bind, ← hjobs]
  rfl

theorem Settled.setResolution {vs : List GlobalState} {s : GlobalState}
    {w : World} (h : Settled vs s w) (addrs : List SockAddr) :
    Settled vs s (w.setResolution addrs) := by
  obtain ⟨⟨⟨hgate, hseated⟩, hasks⟩, hw⟩ := h
  refine ⟨⟨⟨?_, fun hlive => ?_⟩, fun hlive => ?_⟩, ?_⟩
  · refine hgate.unchanged ?_ rfl rfl
    have hunderstood := hgate.understood
    cases s <;> exact hunderstood
  · exact ⟨(hseated hlive).client, (hseated hlive).distinct⟩
  · refine ⟨fun hs => ?_, fun hs => ?_⟩
    · have hunasked := (hasks hlive).early hs
      exact ⟨hunasked.threads, hunasked.jobs, hunasked.conn⟩
    · have hresolving := (hasks hlive).connecting hs
      exact ⟨hresolving.once, hresolving.idle⟩
  · exact ⟨fun hs => ⟨(hw.settled hs).threads, (hw.settled hs).client⟩,
      hw.nonneg, hw.owner, hw.idle⟩

/-- No callback queues or takes a notification. -/
theorem Outcome.jobs_eq {sys : Sys} {fd : ℤ} {s ret : GlobalState}
    {via : List GlobalState} {w w' : World}
    (h : Outcome sys fd s ret w via w') :
    w'.selector.resolutionJobs = w.selector.resolutionJobs := by
  have hconnects {ret' : GlobalState}
      (hinit : connectOriginInit sys fd w = .ok (ret', w')) :
      w'.selector.resolutionJobs = w.selector.resolutionJobs := by
    cases connectOriginInit_spec hinit with
    | already => rfl
    | noThread => rfl
    | address _ _ h => exact h.sameRest.jobs
    | name _ _ _ hs => exact hs.jobs_eq
  cases h with
  | stays => rfl
  | enters => exact (arrived_quiet _ _).jobs
  | connects _ hinit => exact hconnects hinit
  | redirected _ hinit => exact hconnects hinit
  | ends _ hdone =>
      obtain ⟨w₁, hclient, hdone⟩ := bind_eq_ok.mp hdone
      obtain ⟨w₂, horigin, hdone⟩ := bind_eq_ok.mp hdone
      cases hdone
      exact (closeDescriptor_sameRest horigin).jobs.trans
        (closeDescriptor_sameRest hclient).jobs

theorem onReady_sameRest {sys : Sys} {fd : ℤ} {s ret : GlobalState} {r : Ready}
    {f : Callback} {w w' : World} (hf : onReady sys fd s r = some f)
    (h : f w = .ok (ret, w')) : SameRest w w' := by
  by_cases hr : r = .block
  · subst hr
    cases s <;> cases hf
    exact (connectOriginBlock_spec h).sameRest
  · exact (onReady_quiet hf hr h).sameRest

/-- An event leaves the client's descriptor, and takes the notification that it
delivers. -/
theorem Step.delivers {c c' : Config} {e : Event} {vs : List GlobalState}
    (h : Step .alone c e c') (hvs : c.Visited vs)
    (hthread : ∀ fd addrs alloc, e ≠ .resolved fd addrs alloc)
    (hnonneg : 0 ≤ c.world.session.clientFd) :
    c'.world.session.clientFd = c.world.session.clientFd ∧
      c'.world.selector.resolutionJobs.count c.world.session.clientFd +
          (e.notifies c.world.session.clientFd).toNat =
        c.world.selector.resolutionJobs.count c.world.session.clientFd := by
  cases h with
  | connectionEnds => exact ⟨rfl, rfl⟩
  | resolved addrs alloc => exact absurd rfl (hthread _ addrs alloc)
  | others m hsame =>
      exact ⟨rfl, ((hsame _ ⟨hnonneg, .inl rfl⟩).2 rfl).2⟩
  | @dispatch _ r fd sys hlive hhands hkernel hdispatch =>
      obtain ⟨f, ret, w₁, via, hf, hcall, hout, -⟩ := hvs.dispatched hdispatch
      have hrest := onReady_sameRest hf hcall
      have hstarted : c.started.world.session.clientFd =
            c.world.session.clientFd ∧
          c.started.world.selector = c.world.selector := by
        rcases c.started_world with heq | heq <;> rw [heq] <;> exact ⟨rfl, rfl⟩
      have hclient : (c.started.world.delivered r fd).session.clientFd =
          c.world.session.clientFd := by
        cases r <;> exact hstarted.1
      refine ⟨hout.silent.clientFd.trans (hrest.clientFd.trans hclient), ?_⟩
      rw [hout.jobs_eq, hrest.jobs]
      cases r with
      | read | write =>
          change c.started.world.selector.resolutionJobs.count _ + 0 = _
          rw [hstarted.2, Nat.add_zero]
      | block =>
          change (c.started.world.selector.resolutionJobs.erase fd).count _ +
            (decide (fd = c.world.session.clientFd)).toNat = _
          rw [hstarted.2]
          have hmem : fd ∈ c.world.selector.resolutionJobs := hhands.2.2
          by_cases hfd : fd = c.world.session.clientFd
          · rw [← hfd, List.count_erase_self, decide_eq_true rfl]
            exact Nat.sub_add_cancel (List.count_pos_iff.mpr hmem)
          · rw [List.count_erase_of_ne (Ne.symm hfd), decide_eq_false hfd]
            rfl

namespace Interleaved

/-- Where the session is when the callback that it is in has returned. -/
def Returns (x : Interleaved) (c : Config) : Prop :=
  match x.clearing with
  | none => c = x.config
  | some fd => c.stm = x.config.stm ∧
      x.config.world.setInterestKey fd .noop = .ok (.success, c.world)

/-- What holds in every run of the session and the thread. -/
structure Sound (x : Interleaved) : Prop where
  returns : ∃ c vs, x.Returns c ∧ c.Visited vs ∧ Settled vs c.state c.world
  noop : x.clearing ≠ none → x.config.world.selector.interest?
    x.config.world.session.clientFd = some .noop
  threads : x.config.world.threads = x.thread.toList.map Prod.fst
  counted : x.created = x.delivered + x.config.world.threads.length +
    x.config.world.selector.resolutionJobs.count
      x.config.world.session.clientFd
  late : 0 < x.created → ¬ x.config.state.Early
  once : x.created ≤ 1

/-- When the callback has returned, what it left to do has changed one interest
and the log. -/
theorem Returns.same {x : Interleaved} {c : Config} (h : x.Returns c) :
    c.stm = x.config.stm ∧ Quiet x.config.world c.world ∧
      c.world.session = x.config.world.session := by
  unfold Returns at h
  split at h
  · subst h
    exact ⟨rfl, .refl _, rfl⟩
  · obtain ⟨hstm, hclear⟩ := h
    obtain ⟨s, -, hw⟩ := World.setInterestKey_spec hclear
    exact ⟨hstm, setInterestKey_quiet hclear, by rw [hw]⟩

theorem state_of_stm {c c' : Config} (h : c.stm = c'.stm) :
    c.state = c'.state := by
  rw [Config.state, Config.state, h]

/-- Where a session is that has asked and has no answer yet. -/
theorem Sound.waiting {x : Interleaved} (hx : x.Sound)
    (h : x.config.world.Pending) :
    x.config.state = .originConnect ∧ x.config.world.destroyed = false ∧
      x.config.world.selector.interest? x.config.world.session.clientFd =
        some .noop ∧ x.config.world.session.originFd = -1 := by
  obtain ⟨c, vs, hreturns, -, -, hw⟩ := hx.returns
  obtain ⟨hstm, hquiet, hsession⟩ := hreturns.same
  have hpending : c.world.Pending := by
    rw [World.Pending, hquiet.threads, hquiet.jobs, hquiet.clientFd]
    exact h
  obtain ⟨hlive, hnoop, horigin⟩ := hw.idle hpending
  refine ⟨?_, hquiet.destroyed.symm.trans hlive, ?_,
    hquiet.originFd.symm.trans horigin⟩
  · rw [← state_of_stm hstm]
    exact hw.state_eq hpending
  · by_cases hclearing : x.clearing = none
    · rw [Returns, hclearing] at hreturns
      dsimp only at hreturns
      rw [← hreturns]
      exact hnoop
    · exact hx.noop hclearing

/-- An event of the main loop. -/
theorem Sound.main {x : Interleaved} {e : Event} {c' : Config} (hx : x.Sound)
    (hclearing : x.clearing = none) (h : Socksv5.Step .alone x.config e c')
    (hthread : ∀ fd addrs alloc, e ≠ .resolved fd addrs alloc)
    (hthreads : c'.world.threads = x.config.world.threads) :
    Sound { x with
      config := c'
      delivered := x.delivered +
        (e.notifies x.config.world.session.clientFd).toNat } := by
  obtain ⟨c, vs, hreturns, hvs, hsettled⟩ := hx.returns
  rw [Returns, hclearing] at hreturns
  dsimp only at hreturns
  subst hreturns
  obtain ⟨vs', hvs', hsettled'⟩ :=
    settled_inductive.step h trivial ⟨vs, hvs, hsettled⟩
  obtain ⟨hclient, hcount⟩ := h.delivers hvs hthread hsettled.2.nonneg
  refine ⟨⟨c', vs', ?_, hvs', hsettled'⟩, fun hne => absurd hclearing hne,
    hthreads.trans hx.threads, ?_, fun hpos => ?_, hx.once⟩
  · rw [Returns]
    simp only [hclearing]
  · have hcounted := hx.counted
    dsimp only
    rw [hclient, hthreads]
    omega
  · obtain ⟨-, -, hlate⟩ := late_inductive.step h trivial ⟨vs, hvs, hx.late hpos⟩
    exact hlate

/-- A request for a connection takes the interest from the client. -/
theorem requestRead_noop {sys : Sys} {w w' : World}
    (h : requestRead sys w.session.clientFd w = .ok (.originConnect, w')) :
    w'.selector.interest? w'.session.clientFd = some .noop := by
  cases requestRead_spec h with
  | decides _ _ hto hset =>
      obtain ⟨_, -, hs⟩ := hset.interest_eq
      rcases hto with ⟨-, -, rfl⟩ | ⟨-, hto, -⟩
      · dsimp only
        rw [hs, Function.update_self]
        rfl
      · cases hto

/-- The thread is created. -/
theorem Sound.creates {x : Interleaved} {fd : ℤ} {sys : Sys} {w : World}
    (hx : x.Sound) (hclearing : x.clearing = none)
    (hlive : x.config.world.destroyed = false)
    (hhands : x.config.world.Hands .alone .read fd)
    (hkernel : x.config.world.Kernel sys)
    (hstm : x.config.stm.current = some GlobalState.requestRead.id)
    (h : requestRead sys fd x.config.world = .ok (.originConnect, w))
    (horigin : w.session.originFd < 0)
    (hatyp : ¬ (w.session.request.parser.atyp = 1 ∨
      w.session.request.parser.atyp = 4))
    (hmalloc : sys.malloc = true) (hcreate : sys.pthreadCreate = 0) :
    Sound { x with
      config := ⟨x.config.stm.enter GlobalState.originConnect.id,
        w.withThread fd⟩
      thread := some (fd, .created)
      clearing := some fd
      created := x.created + 1 } := by
  obtain ⟨c, vs, hreturns, hvs, hsettled⟩ := hx.returns
  rw [Returns, hclearing] at hreturns
  dsimp only at hreturns
  subst hreturns
  have hstate : x.config.state = .requestRead := by
    rw [Config.state, hstm]
    rfl
  have hzero : x.created = 0 := by
    by_contra hne
    refine hx.late (Nat.pos_of_ne_zero hne) ?_
    rw [hstate]
    decide
  have hbefore := hsettled
  rw [hstate] at hbefore
  obtain ⟨⟨⟨hgate, hseated⟩, -⟩, hawaits⟩ := hbefore
  have hunnotified := hawaits.settled (by decide)
  obtain rfl := hhands.1.eq_clientFd hgate.understood.1
  have hquiet := requestRead_quiet h
  have hnoop := requestRead_noop h
  have hreg : (w.withThread x.config.world.session.clientFd).selector.Registered
      x.config.world.session.clientFd :=
    (hquiet.registered _).mpr (hseated hlive).client
  obtain ⟨s, hclear, -⟩ := World.exists_setInterest .noop hreg
  rw [← World.setInterestKey_eq] at hclear
  have hdispatch := dispatch_of_creates hstm h horigin hatyp hmalloc hcreate
    hclear
  obtain ⟨vs', hvs', hsettled'⟩ := settled_inductive.step
    (.dispatch hlive hhands hkernel hdispatch) trivial ⟨vs, hvs, hsettled⟩
  refine ⟨⟨_, vs', ?_, hvs', hsettled'⟩, fun _ => hnoop, ?_, ?_,
    fun _ => ?_, ?_⟩
  · exact ⟨rfl, hclear⟩
  · change _ :: w.threads = _
    rw [hquiet.threads, hunnotified.threads]
    rfl
  · have hcounted := hx.counted
    rw [hunnotified.threads] at hcounted
    change x.created + 1 = x.delivered + (_ :: w.threads).length +
      w.selector.resolutionJobs.count w.session.clientFd
    rw [hquiet.threads, hunnotified.threads, hquiet.jobs, hquiet.clientFd]
    simp only [List.length_nil, List.length_singleton] at hcounted ⊢
    omega
  · change ¬ GlobalState.originConnect.Early
    decide
  · change x.created + 1 ≤ 1
    rw [hzero]

/-- The callback that has created the thread goes on. -/
theorem Sound.clears {x : Interleaved} {fd : ℤ} {ret : SelectorStatus}
    {w : World} (hx : x.Sound) (hclearing : x.clearing = some fd)
    (h : x.config.world.setInterestKey fd .noop = .ok (ret, w)) :
    Sound { x with config := ⟨x.config.stm, w⟩, clearing := none } := by
  obtain ⟨c, vs, hreturns, hvs, hsettled⟩ := hx.returns
  have hquiet := setInterestKey_quiet h
  rw [Returns, hclearing] at hreturns
  obtain ⟨hstm, hclear⟩ := hreturns
  rw [h] at hclear
  cases hclear
  have hc : c = ⟨x.config.stm, c.world⟩ := by rw [← hstm]
  refine ⟨⟨c, vs, hc, hvs, hsettled⟩, fun hne => absurd rfl hne,
    hquiet.threads.trans hx.threads, ?_, fun hpos => ?_, hx.once⟩
  · dsimp only
    rw [hquiet.threads, hquiet.jobs, hquiet.clientFd]
    exact hx.counted
  · exact hx.late hpos

/-- The thread starts, or stores what it has found. -/
theorem Sound.resolves {x : Interleaved} {fd : ℤ} {phase phase' : ResolverPhase}
    (hx : x.Sound) (hthread : x.thread = some (fd, phase))
    (addrs : List SockAddr) :
    Sound { x with
      config := ⟨x.config.stm, x.config.world.setResolution addrs⟩
      thread := some (fd, phase') } := by
  obtain ⟨c, vs, hreturns, hvs, hsettled⟩ := hx.returns
  refine ⟨⟨⟨c.stm, c.world.setResolution addrs⟩, vs, ?_, hvs,
    hsettled.setResolution addrs⟩, hx.noop, ?_, hx.counted, hx.late, hx.once⟩
  · unfold Returns at hreturns ⊢
    cases hclearing : x.clearing with
    | none =>
        simp only [hclearing] at hreturns ⊢
        rw [hreturns]
    | some d =>
        simp only [hclearing] at hreturns ⊢
        exact ⟨hreturns.1, setInterestKey_setResolution hreturns.2 addrs⟩
  · have hthreads := hx.threads
    rw [hthread] at hthreads
    exact hthreads

/-- The thread queues its notification. -/
theorem Sound.queues {x : Interleaved} {fd : ℤ} {phase : ResolverPhase} (hx : x.Sound)
    (hthread : x.thread = some (fd, phase)) (addrs : List SockAddr) :
    Sound { x with
      config := ⟨x.config.stm,
        connectOriginThread fd addrs true x.config.world⟩
      thread := none } := by
  obtain ⟨c, vs, hreturns, hvs, hsettled⟩ := hx.returns
  obtain ⟨-, hquiet, -⟩ := hreturns.same
  have hthreads := hx.threads
  rw [hthread] at hthreads
  have hthreads : x.config.world.threads = [fd] := hthreads
  have hmem : fd ∈ c.world.threads := by
    rw [hquiet.threads, hthreads]
    exact List.mem_singleton_self fd
  obtain rfl : fd = x.config.world.session.clientFd := by
    rw [← hquiet.clientFd]
    exact hsettled.2.owner fd hmem
  refine ⟨⟨⟨c.stm, connectOriginThread _ addrs true c.world⟩, vs, ?_, hvs,
    settled_inductive.resolved addrs true trivial hsettled trivial hmem⟩, ?_, ?_,
    ?_, hx.late, hx.once⟩
  · unfold Returns at hreturns ⊢
    cases hclearing : x.clearing with
    | none =>
        simp only [hclearing] at hreturns ⊢
        rw [hreturns]
    | some d =>
        simp only [hclearing] at hreturns ⊢
        exact ⟨hreturns.1,
          setInterestKey_connectOriginThread hreturns.2 _ addrs⟩
  · intro hclearing
    exact hx.noop hclearing
  · change x.config.world.threads.erase _ = _
    rw [hthreads]
    simp
  · have hcounted := hx.counted
    change x.created = x.delivered + (x.config.world.threads.erase _).length +
      (x.config.world.session.clientFd ::
        x.config.world.selector.resolutionJobs).count
          x.config.world.session.clientFd
    rw [hthreads] at hcounted ⊢
    simp only [List.length_singleton, List.erase_cons_head, List.length_nil,
      List.count_cons_self] at hcounted ⊢
    omega

theorem Sound.step {x x' : Interleaved} {m : Move} (hx : x.Sound)
    (h : Interleaved.Step x m x') : x'.Sound := by
  cases h with
  | main hclearing hstep hthread hthreads =>
      exact hx.main hclearing hstep hthread hthreads
  | creates hclearing hlive hhands hkernel hstm hread horigin hatyp hmalloc
      hcreate =>
      exact hx.creates hclearing hlive hhands hkernel hstm hread horigin hatyp
        hmalloc hcreate
  | clears hclearing hclear => exact hx.clears hclearing hclear
  | starts hthread => exact hx.resolves hthread []
  | stores addrs hthread => exact hx.resolves hthread addrs
  | queues hthread => exact hx.queues hthread _

end Interleaved

theorem Initial.sound {c : Config} (h : Initial c) :
    Interleaved.Sound { config := c } := by
  have hsettled := h.settled
  have hvisited : c.Visited [] ∧ c.state = .greetingRead := by
    obtain ⟨address, clientFd, s, m, rfl, -, -⟩ := h
    exact ⟨⟨rfl, rfl⟩, rfl⟩
  have hunnotified : Unnotified c.world := hsettled.2.settled (by decide)
  refine ⟨⟨c, [], rfl, hvisited.1, by rw [hvisited.2]; exact hsettled⟩,
    fun hne => absurd rfl hne, hunnotified.threads, ?_,
    fun hpos => absurd hpos (Nat.lt_irrefl 0), Nat.zero_le 1⟩
  dsimp only
  rw [hunnotified.threads, List.count_eq_zero.mpr hunnotified.client]
  rfl

/-- From the creation of the resolver's thread until its notification is
delivered, a session that is alone stays in `ORIGIN_CONNECT`, with no interest
in its client and without an origin; and what is delivered to it is the one
notification of the one thread, for which it is there. -/
theorem waiting_of_interleaved {c₀ : Config} {x : Interleaved}
    {tr : List (Interleaved × Move)} (h₀ : Initial c₀)
    (hrun : Run Interleaved.Step { config := c₀ } tr x) :
    (x.config.world.Pending → x.config.state = .originConnect ∧
      x.config.world.destroyed = false ∧
      x.config.world.selector.interest? x.config.world.session.clientFd =
        some .noop ∧ x.config.world.session.originFd = -1) ∧
    x.created = x.delivered + x.config.world.threads.length +
      x.config.world.selector.resolutionJobs.count
        x.config.world.session.clientFd ∧ x.created ≤ 1 ∧
    (x.config.world.session.clientFd ∈
        x.config.world.selector.resolutionJobs →
      x.config.world.Hands .alone .block x.config.world.session.clientFd) := by
  have hx : x.Sound := hrun.invariant h₀.sound fun _ _ _ h hstep => h.step hstep
  refine ⟨hx.waiting, hx.counted, hx.once, fun hmem => ?_⟩
  obtain ⟨-, -, hnoop, -⟩ := hx.waiting (.inr hmem)
  have hreg : x.config.world.selector.Registered
      x.config.world.session.clientFd := by
    rw [FdSelector.Registered, hnoop]
    exact Option.some_ne_none _
  exact ⟨⟨hreg.nonneg, .inl rfl⟩, hreg, hmem⟩

/-! ## Runs by execution -/

/-- What is done next, with the results for the addresses as a list. -/
inductive Turn
  | main (a : Act)
  | creates (fd : ℤ) (sys : Sys)
  | clears
  | starts
  | stores (addrs : List SockAddr)
  | queues

/-- The act is the end of a thread. -/
def Act.resolves : Act → Bool
  | .resolved _ _ _ => true
  | _ => false

/-- Where a turn leads to, if it can be taken. -/
def Turn.perform (x : Interleaved) : Turn → Option (Move × Interleaved)
  | .main a => do
      let c ← a.perform .alone x.config
      if x.clearing = none ∧ a.resolves = false ∧
          c.world.threads = x.config.world.threads then
        some (.main a.event, { x with
          config := c
          delivered := x.delivered +
            (a.event.notifies x.config.world.session.clientFd).toNat })
      else none
  | .creates fd sys =>
      match requestRead sys fd x.config.world with
      | .ok (.originConnect, w) =>
          if x.clearing = none ∧ x.config.world.destroyed = false ∧
              x.config.world.hands .alone .read fd = true ∧
              x.config.world.kernel sys [] = true ∧
              x.config.stm.current = some GlobalState.requestRead.id ∧
              w.session.originFd < 0 ∧
              ¬ (w.session.request.parser.atyp = 1 ∨
                w.session.request.parser.atyp = 4) ∧
              sys.malloc = true ∧ sys.pthreadCreate = 0 then
            some (.creates (sys.withAttempts []), { x with
              config := ⟨x.config.stm.enter GlobalState.originConnect.id,
                w.withThread fd⟩
              thread := some (fd, .created)
              clearing := some fd
              created := x.created + 1 })
          else none
      | _ => none
  | .clears => do
      let fd ← x.clearing
      let y ← (x.config.world.setInterestKey fd .noop).toOption
      some (.clears, { x with config := ⟨x.config.stm, y.2⟩, clearing := none })
  | .starts =>
      match x.thread with
      | some (fd, .created) => some (.starts, { x with
          config := ⟨x.config.stm, x.config.world.setResolution []⟩
          thread := some (fd, .started) })
      | _ => none
  | .stores addrs =>
      match x.thread with
      | some (fd, .started) => some (.stores addrs, { x with
          config := ⟨x.config.stm, x.config.world.setResolution addrs⟩
          thread := some (fd, .stored) })
      | _ => none
  | .queues =>
      match x.thread with
      | some (fd, .stored) => some (.queues, { x with
          config := ⟨x.config.stm, connectOriginThread fd
            x.config.world.session.originResolution true x.config.world⟩
          thread := none })
      | _ => none

theorem Turn.perform_step {x x' : Interleaved} {t : Turn} {m : Move}
    (h : t.perform x = some (m, x')) : Interleaved.Step x m x' := by
  cases t with
  | main a =>
      obtain ⟨c, hc, h⟩ := Option.bind_eq_some_iff.mp h
      split at h
      · rename_i hok
        cases h
        refine .main hok.1 (Act.perform_step hc) ?_ hok.2.2
        intro fd addrs alloc heq
        cases a with
        | resolved => exact absurd hok.2.1 (by simp [Act.resolves])
        | dispatch | connectionEnds => cases heq
      · cases h
  | creates fd sys =>
      simp only [Turn.perform] at h
      split at h
      · rename_i w hread
        split at h
        · rename_i hok
          cases h
          obtain ⟨hclearing, hlive, hhands, hkernel, hstm, horigin, hatyp,
            hmalloc, hcreate⟩ := hok
          exact .creates hclearing hlive (World.hands_spec hhands)
            (World.kernel_spec hkernel) hstm hread horigin hatyp hmalloc hcreate
        · cases h
      · cases h
  | clears =>
      obtain ⟨fd, hclearing, h⟩ := Option.bind_eq_some_iff.mp h
      obtain ⟨y, hy, h⟩ := Option.bind_eq_some_iff.mp h
      cases h
      exact .clears hclearing (toOption_eq_some.mp hy)
  | starts =>
      simp only [Turn.perform] at h
      split at h
      · rename_i fd hthread
        cases h
        exact .starts hthread
      · cases h
  | stores addrs =>
      simp only [Turn.perform] at h
      split at h
      · rename_i fd hthread
        cases h
        exact .stores addrs hthread
      · cases h
  | queues =>
      simp only [Turn.perform] at h
      split at h
      · rename_i fd hthread
        cases h
        exact .queues hthread
      · cases h

/-- Where turns lead to, if they can be taken. -/
def takeTurns : Interleaved → List Turn → Option Interleaved
  | x, [] => some x
  | x, t :: turns => (t.perform x).bind fun y => takeTurns y.2 turns

theorem takeTurns_run {x x' : Interleaved} {turns : List Turn}
    (h : takeTurns x turns = some x') :
    ∃ tr, Run Interleaved.Step x tr x' := by
  induction turns generalizing x with
  | nil =>
      cases h
      exact ⟨[], .nil⟩
  | cons t turns ih =>
      obtain ⟨⟨m, x₁⟩, hperform, hrest⟩ := Option.bind_eq_some_iff.mp h
      obtain ⟨tr, hrun⟩ := ih hrest
      exact ⟨_, (Run.single (Turn.perform_step hperform)).append hrun⟩

/-- A client whose name is resolved before the callback has taken its
interest. -/
def hastyResolver : List Turn :=
  [.main (.dispatch .read 5 { recv := .received [5, 1, 0] } []),
    .main (.dispatch .write 5 { send := .accepted 1 } []),
    .creates 5 { recv := .received [5, 1, 0, 3, 1, 97, 0, 80] },
    .starts, .stores [⟨.inet, 80, [10, 0, 0, 1]⟩], .queues]

/-- It is notified once, and not before its callback has returned. -/
theorem waiting_of_hastyResolver :
    ∃ x, takeTurns { config := accepted 5 } hastyResolver = some x ∧
      x.clearing = some 5 ∧ x.config.state = .originConnect ∧
      x.config.world.session.originFd = -1 ∧
      x.config.world.Hands .alone .block 5 := by
  have hturns : (takeTurns { config := accepted 5 } hastyResolver).any (fun x =>
      decide (x.clearing = some 5 ∧ x.config.world.session.clientFd = 5 ∧
        5 ∈ x.config.world.selector.resolutionJobs)) = true := by decide
  obtain ⟨x, hx, hchecks⟩ := (Option.any_eq_true _ _).mp hturns
  obtain ⟨hclearing, hclient, hmem⟩ := of_decide_eq_true hchecks
  obtain ⟨tr, hrun⟩ := takeTurns_run hx
  obtain ⟨hwaiting, -, -, hhands⟩ :=
    waiting_of_interleaved (accepted_initial (by decide) (by decide)) hrun
  rw [← hclient] at hmem
  obtain ⟨hstate, -, -, horigin⟩ := hwaiting (.inr hmem)
  have hhanded := hhands hmem
  rw [hclient] at hhanded
  exact ⟨x, hx, hclearing, hstate, horigin, hhanded⟩

end Socksv5
