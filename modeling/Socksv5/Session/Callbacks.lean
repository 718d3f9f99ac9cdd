import Socksv5.Session.Resolving

/-!
# Every event has its callback

The table has few callbacks for each state, and the interests that decide which
of them are called are set by hand.  Whatever a session that is alone waits
for, in the state it is in, there is a callback for it.
-/

namespace Socksv5

open Support

/-- The state has a callback for the event. -/
def GlobalState.handles (s : GlobalState) (r : Ready) : Bool :=
  (onReady {} 0 s r).isSome

theorem onReady_isSome (sys : Sys) (fd : ℤ) (s : GlobalState) (r : Ready) :
    (onReady sys fd s r).isSome = s.handles r := by
  cases s <;> cases r <;> rfl

/-- The state has a callback for each event that the interest includes. -/
def Suits (s : GlobalState) (i : FdInterest) : Prop :=
  (i.reads = true → s.handles .read = true) ∧
    (i.writes = true → s.handles .write = true)

instance (s : GlobalState) (i : FdInterest) : Decidable (Suits s i) :=
  inferInstanceAs (Decidable (_ ∧ _))

theorem Suits.handles {s : GlobalState} {i : FdInterest} (h : Suits s i)
    {r : Ready} (hr : i.includes r = true) : s.handles r = true := by
  cases r with
  | read => exact h.1 hr
  | write => exact h.2 hr
  | block => cases hr

theorem suits_noop (s : GlobalState) : Suits s .noop :=
  ⟨fun h => (by cases h), fun h => (by cases h)⟩

theorem suits_copy (i : FdInterest) : Suits .copy i :=
  ⟨fun _ => rfl, fun _ => rfl⟩

/-- While it connects, a session waits for what it waits for while it
replies. -/
theorem Suits.requestWrite {i : FdInterest} (h : Suits .originConnect i) :
    Suits .requestWrite i := by
  revert h
  cases i <;> decide

theorem Suits.originConnect {i : FdInterest} (h : Suits .requestWrite i) :
    Suits .originConnect i := by
  revert h
  cases i <;> decide

/-- The event gives the session no descriptor that a notification is queued
for.  Nobody else's notification reaches a session that is alone. -/
def OwnNotifications (_ : GlobalState) (w : World) : Event → Prop
  | .dispatch _ _ sys => ∀ k n, (sys.attempts k).socket = some n →
      (n : ℤ) ∉ w.selector.resolutionJobs
  | _ => True

/-- What the descriptors wait for suits the state. -/
def Interested (s : GlobalState) (w : World) : Prop :=
  ∀ fd, w.session.Owns fd → ∀ i, w.selector.interest? fd = some i → Suits s i

/-- The session is not notified, and will not be. -/
structure Unnotified (w : World) : Prop where
  threads : w.threads = []
  client : w.session.clientFd ∉ w.selector.resolutionJobs

/-- No notification is queued for the origin's descriptor. -/
def OriginUnnotified (w : World) : Prop :=
  0 ≤ w.session.originFd → w.session.originFd ∉ w.selector.resolutionJobs

/-- What is waited for suits the state, and only a session that connects is
notified. -/
structure Answerable (s : GlobalState) (w : World) : Prop where
  interested : Interested s w
  unnotified : s ≠ .originConnect → Unnotified w
  origin : OriginUnnotified w

/-- What is handed to the session has a callback. -/
theorem Answerable.handles {s : GlobalState} {w : World} {r : Ready} {fd : ℤ}
    (hw : Answerable s w) (h : w.Hands .alone r fd) : s.handles r = true := by
  obtain ⟨howns, -, hready⟩ := h
  cases r with
  | read | write =>
      obtain ⟨i, hi, hincludes⟩ := hready
      exact (hw.interested fd howns i hi).handles hincludes
  | block =>
      by_cases hs : s = .originConnect
      · subst hs
        rfl
      · exfalso
        have hmem : fd ∈ w.selector.resolutionJobs := hready
        rcases howns with ⟨hpos, rfl | rfl⟩
        · exact (hw.unnotified hs).client hmem
        · exact hw.origin hpos hmem

/-! ## Interests -/

/-- What another interest leaves of a property of the interests. -/
theorem ChangesInterest.interest_all {P : FdInterest → Prop}
    {s s' : FdSelector} {fd d : ℤ} {i : FdInterest} {ret : SelectorStatus}
    (h : ChangesInterest s fd (fun _ => some i) ret s') (hi : P i)
    (hd : ∀ j, s.interest? d = some j → P j) :
    ∀ j, s'.interest? d = some j → P j := by
  intro j hj
  cases h with
  | refused => exact hd j hj
  | changed _ _ hs =>
      rw [hs] at hj
      by_cases hfd : d = fd
      · subst hfd
        rw [Function.update_self] at hj
        cases hj
        exact hi
      · rw [Function.update_of_ne hfd] at hj
        exact hd j hj

theorem Interested.of_same {s : GlobalState} {w w' : World}
    (hw : Interested s w) (hclient : w'.session.clientFd = w.session.clientFd)
    (horigin : w'.session.originFd = w.session.originFd)
    (hselector : w'.selector.interest? = w.selector.interest?) :
    Interested s w' := by
  intro fd howns i hi
  rw [hselector] at hi
  refine hw fd ?_ i hi
  rwa [Session.Owns, hclient, horigin] at howns

/-- Another interest is set, in whatever descriptor. -/
theorem Interested.of_changes {s : GlobalState} {w w' : World} {fd : ℤ}
    {i : FdInterest} {ret : SelectorStatus} (hw : Interested s w)
    (h : ChangesInterest w.selector fd (fun _ => some i) ret w'.selector)
    (hi : Suits s i) (hclient : w'.session.clientFd = w.session.clientFd)
    (horigin : w'.session.originFd = w.session.originFd) :
    Interested s w' := by
  intro d howns
  rw [Session.Owns, hclient, horigin] at howns
  exact h.interest_all hi (hw d howns)

/-- The interest in the client is set, before there is an origin. -/
theorem interested_of_client {s : GlobalState} {w : World} {s₀ : FdSelector}
    {i : FdInterest} (horigin : w.session.originFd = -1)
    (h : ChangesInterest s₀ w.session.clientFd (fun _ => some i) .success
      w.selector) (hi : Suits s i) : Interested s w := by
  intro fd howns j hj
  obtain rfl := howns.eq_clientFd horigin
  obtain ⟨_, -, hs⟩ := h.interest_eq
  rw [hs, Function.update_self] at hj
  cases hj
  exact hi

theorem interested_copy (w : World) : Interested .copy w :=
  fun _ _ i _ => suits_copy i

/-! ## The callbacks -/

/-- The handshake sets the interest that its next state waits for. -/
theorem onReady_interested {sys : Sys} {fd : ℤ} {s ret : GlobalState}
    {r : Ready} {f : Callback} {w w' : World} (hw : Interested s w)
    (hs : s ≠ .originConnect) (horigin : s.Early → w.session.originFd = -1)
    (howns : w.session.Owns fd) (hreg : w.selector.Registered fd)
    (hlive : ¬ (ret = .done ∨ ret = .error))
    (hf : onReady sys fd s r = some f) (h : f w = .ok (ret, w')) :
    Interested ret w' := by
  have hfollows := onReady_follows hf hreg h
  have hclient (hearly : s.Early) : fd = w.session.clientFd :=
    howns.eq_clientFd (horigin hearly)
  cases s <;> cases r <;> cases hf
  case greetingRead.read =>
      obtain rfl := hclient (by decide)
      cases greetingRead_spec h with
      | failed => exact absurd (.inr rfl) hlive
      | waits => exact hw.of_same rfl rfl rfl
      | answers _ _ _ _ hset =>
          exact interested_of_client (horigin (by decide)) hset (by decide)
  case greetingWrite.write =>
      obtain rfl := hclient (by decide)
      cases greetingWrite_spec h with
      | failed => exact absurd (.inr rfl) hlive
      | partly => exact hw.of_same rfl rfl rfl
      | wholly _ _ hset hto =>
          refine interested_of_client (horigin (by decide)) hset ?_
          rcases hto with ⟨rfl, -⟩ | ⟨rfl, -⟩ <;> decide
  case authRead.read =>
      obtain rfl := hclient (by decide)
      cases authRead_spec h with
      | failed => exact absurd (.inr rfl) hlive
      | waits => exact hw.of_same rfl rfl rfl
      | answers _ _ _ _ hset =>
          exact interested_of_client (horigin (by decide)) hset (by decide)
  case authWrite.write =>
      obtain rfl := hclient (by decide)
      cases authWrite_spec h with
      | failed => exact absurd (.inr rfl) hlive
      | partly => exact hw.of_same rfl rfl rfl
      | wholly _ _ hset hto =>
          refine interested_of_client (horigin (by decide)) hset ?_
          rcases hto with ⟨rfl, -⟩ | rfl
          · decide
          · exact absurd (.inl rfl) hlive
  case requestRead.read =>
      obtain rfl := hclient (by decide)
      cases requestRead_spec h with
      | failed => exact absurd (.inr rfl) hlive
      | waits => exact hw.of_same rfl rfl rfl
      | decides _ _ hto hset =>
          refine interested_of_client (horigin (by decide)) hset ?_
          rcases hto with ⟨-, rfl, rfl⟩ | ⟨-, rfl, rfl⟩ <;> decide
  case requestWrite.write =>
      cases requestWrite_spec h with
      | failed => exact absurd (.inr rfl) hlive
      | partly => exact hw.of_same rfl rfl rfl
      | refuses => exact absurd (.inl rfl) hlive
      | grants => exact interested_copy _
  case originConnect.write => exact absurd rfl hs
  case originConnect.block => exact absurd rfl hs
  case copy.read | copy.write =>
      rcases hfollows with rfl | hfollows
      · exact interested_copy _
      · cases ret <;> first | exact absurd hfollows (by decide) | simp at hlive

/-! ## Connecting -/

/-- What an attempt leaves the client waiting for, and its own descriptor. -/
theorem interested_of_attempt {w : World}
    (hclient : ∀ i, w.selector.interest? w.session.clientFd = some i →
      Suits .originConnect i)
    (horigin : ∀ i, 0 ≤ w.session.originFd →
      w.selector.interest? w.session.originFd = some i →
      Suits .originConnect i) : Interested .originConnect w := by
  intro fd howns i hi
  obtain ⟨hpos, rfl | rfl⟩ := howns
  · exact hclient i hi
  · exact horigin i hpos hi

theorem Attempted.interested {a : Attempt} {realloc : Bool} {fd : ℤ}
    {w w' : World} {ret : GlobalState} (h : Attempted a realloc fd w ret w')
    (hclient : 0 ≤ w.session.clientFd) (hw : Interested .originConnect w)
    (hfresh : ∀ n ∈ a.socket, ¬ w.selector.Registered n) :
    Interested .originConnect w' := by
  have hread (i : FdInterest)
      (hi : w.selector.interest? w.session.clientFd = some i) :
      Suits .originConnect i := hw _ ⟨hclient, .inl rfl⟩ i hi
  have hunregistered {n : ℕ} {status : SelectorStatus} {s : FdSelector}
      {i : FdInterest} (hsocket : a.socket = some n)
      (hs : ChangesInterest w.selector fd (fun _ => some .write) status s)
      (hi : s.interest? n = some i) : False := by
    refine (hs.registered_iff n).not.mpr (hfresh n hsocket) ?_
    rw [FdSelector.Registered, hi]
    exact Option.some_ne_none i
  cases h with
  | noSocket _ hs =>
      refine interested_of_attempt (hs.interest_all (by decide) hread) ?_
      intro i hpos _
      have hneg : (0 : ℤ) ≤ -1 := hpos
      omega
  | noNio hsocket _ hs =>
      exact interested_of_attempt (hs.interest_all (by decide) hread)
        fun i _ hi => (hunregistered hsocket hs hi).elim
  | refused hsocket _ _ _ hs =>
      exact interested_of_attempt (hs.interest_all (by decide) hread)
        fun i _ hi => (hunregistered hsocket hs hi).elim
  | @connected n _ _ hsocket =>
      have hnone : w.selector.interest? n = none :=
        not_not.mp (hfresh n hsocket)
      refine interested_of_attempt hread fun i _ hi => ?_
      have hi : w.selector.interest? n = some i := hi
      rw [hnone] at hi
      cases hi
  | @inProgress n _ _ _ s hsocket _ _ _ hregister =>
      have hnone : w.selector.interest? n = none :=
        not_not.mp (hfresh n hsocket)
      rcases selectorRegister_cases hregister with ⟨-, hs, -⟩ |
        ⟨-, -, -, hs, -⟩
      · refine interested_of_attempt ?_ ?_
        · intro i hi
          exact hread i (hs ▸ hi)
        · intro i _ hi
          have hi : s.interest? n = some i := hi
          rw [hs, hnone] at hi
          cases hi
      · have hwrites (d : ℤ) (hd : ∀ i, w.selector.interest? d = some i →
            Suits .originConnect i) (i : FdInterest)
            (hi : s.interest? d = some i) : Suits .originConnect i := by
          rw [hs] at hi
          by_cases hdn : d = n
          · rw [hdn, Function.update_self] at hi
            cases hi
            decide
          · rw [Function.update_of_ne hdn] at hi
            exact hd i hi
        refine interested_of_attempt (hwrites _ hread) fun i _ => ?_
        refine hwrites n (fun j hj => ?_) i
        rw [hnone] at hj
        cases hj

theorem Attempted.originFd_eq {a : Attempt} {realloc : Bool} {fd : ℤ}
    {w w' : World} {ret : GlobalState} (h : Attempted a realloc fd w ret w') :
    w'.session.originFd = socketFd a.socket := by
  cases h with
  | noSocket hsocket => rw [hsocket]; rfl
  | noNio hsocket => rw [hsocket]; rfl
  | refused hsocket => rw [hsocket]; rfl
  | connected hsocket => rw [hsocket]; rfl
  | inProgress hsocket => rw [hsocket]; rfl

theorem Attempted.originUnnotified {a : Attempt} {realloc : Bool} {fd : ℤ}
    {w w' : World} {ret : GlobalState} (h : Attempted a realloc fd w ret w')
    (hown : ∀ n, a.socket = some n → (n : ℤ) ∉ w.selector.resolutionJobs) :
    OriginUnnotified w' := by
  intro hpos
  rw [h.sameRest.jobs]
  rw [h.originFd_eq] at hpos ⊢
  cases hsocket : a.socket with
  | none =>
      rw [hsocket] at hpos
      exact absurd hpos (by decide)
  | some n => exact hown n hsocket

/-- An attempt that cannot be waited for leaves everybody as it was. -/
theorem Attempted.interest?_of_error {a : Attempt} {realloc : Bool} {fd : ℤ}
    {w w' : World} {ret : GlobalState} (h : Attempted a realloc fd w ret w')
    (hret : ret = .error) (hreg : w.selector.Registered fd) :
    w'.selector.interest? = w.selector.interest? ∧
      w'.session.clientFd = w.session.clientFd := by
  have hanswers {status : SelectorStatus} {s : FdSelector}
      (hs : ChangesInterest w.selector fd (fun _ => some .write) status s)
      (hret : afterInterest status .requestWrite = .error) : False := by
    rw [hs.success_of_registered hreg] at hret
    cases hret
  cases h with
  | noSocket _ hs => exact (hanswers hs hret).elim
  | noNio _ _ hs => exact (hanswers hs hret).elim
  | refused _ _ _ _ hs => exact (hanswers hs hret).elim
  | connected => cases hret
  | inProgress _ _ _ _ hregister =>
      rcases selectorRegister_cases hregister with ⟨-, hs, -⟩ | ⟨rfl, -⟩
      · exact ⟨hs, rfl⟩
      · cases hret

theorem Resolves.answerable {sys : Sys} {fd : ℤ} {k : ℕ} {addrs : List SockAddr}
    {w w' : World} {ret : GlobalState} (h : Resolves sys fd k addrs w ret w')
    (hclient : 0 ≤ w.session.clientFd) (hreg : w.selector.Registered fd)
    (hw : Interested .originConnect w) (horigin : OriginUnnotified w)
    (hfresh : ∀ k n, (sys.attempts k).socket = some n →
      ¬ w.selector.Registered n ∧ (n : ℤ) ∉ w.selector.resolutionJobs) :
    Interested .originConnect w' ∧ OriginUnnotified w' := by
  induction h with
  | exhausted h =>
      cases h with
      | failed _ hs =>
          refine ⟨hw.of_changes hs (by decide) rfl rfl, ?_⟩
          rw [OriginUnnotified, hs.jobs_eq]
          exact horigin
      | answers hs =>
          refine ⟨hw.of_changes hs (by decide) rfl rfl, ?_⟩
          rw [OriginUnnotified, hs.jobs_eq]
          exact horigin
  | @settles k addr rest w w' h =>
      have hafter := h.interested hclient (hw.of_same rfl rfl rfl)
        fun n hn => (hfresh k n hn).1
      exact ⟨hafter.of_same rfl rfl rfl,
        h.originUnnotified fun n hn => (hfresh k n hn).2⟩
  | @breaks k addr rest w w' h =>
      exact ⟨h.interested hclient (hw.of_same rfl rfl rfl)
        fun n hn => (hfresh k n hn).1,
        h.originUnnotified fun n hn => (hfresh k n hn).2⟩
  | @goesOn k addr rest w w₁ w' ret h _ ih =>
      have hfails : (sys.attempts k).failsAtOnce = true := by
        by_contra hnot
        exact h.ne_requestWrite (Bool.eq_false_iff.mpr hnot) rfl
      obtain ⟨-, hsame, hregistered, -⟩ := h.of_failsAtOnce hfails hreg
      refine ih ?_ ((hregistered fd).mpr hreg) ?_ ?_ ?_
      · rw [hsame]
        exact hclient
      · exact h.interested hclient (hw.of_same rfl rfl rfl)
          fun n hn => (hfresh k n hn).1
      · exact h.originUnnotified fun n hn => (hfresh k n hn).2
      · intro j n hn
        rw [hregistered, h.sameRest.jobs]
        exact hfresh j n hn

/-! ## Events -/

section Dispatch

variable {sys : Sys} {fd : ℤ} {s ret : GlobalState} {r : Ready} {f : Callback}
  {vs via : List GlobalState} {w w₁ w₂ : World}

theorem Unnotified.of_same (hw : Unnotified w) (h : SameRest w w₁) :
    Unnotified w₁ where
  threads := h.threads.trans hw.threads
  client := by
    rw [h.jobs, h.clientFd]
    exact hw.client

theorem Quiet.sameRest (h : Quiet w w₁) : SameRest w w₁ :=
  ⟨h.threads, h.jobs, h.clientFd, h.destroyed⟩

theorem OriginUnnotified.of_quiet (hw : OriginUnnotified w) (h : Quiet w w₁) :
    OriginUnnotified w₁ := by
  rw [OriginUnnotified, h.originFd, h.jobs]
  exact hw

theorem Interested.arrived {t : GlobalState} (hw : Interested s w) :
    Interested s (arrived t w) :=
  hw.of_same (arrived_quiet t w).clientFd (arrived_quiet t w).originFd
    (by rw [(arrived_selector t w).1])

/-- A request that is complete leaves nothing to wait for. -/
theorem requestRead_idle (horigin : w.session.originFd = -1)
    (hfd : fd = w.session.clientFd)
    (h : requestRead sys fd w = .ok (.originConnect, w₁)) :
    Interested s w₁ := by
  subst hfd
  cases requestRead_spec h with
  | decides _ _ hto hset =>
      refine interested_of_client horigin hset ?_
      rcases hto with ⟨-, -, rfl⟩ | ⟨-, hto, -⟩
      · exact suits_noop s
      · cases hto

/-- Where a session that has read its request gets to. -/
theorem connectOriginInit_answerable (hseated : Seated w)
    (hidle : ∀ s, Interested s w) (hw : Unnotified w)
    (horigin : OriginUnnotified w)
    (hfresh : ∀ n, (sys.attempts 0).socket = some n →
      ¬ w.selector.Registered n ∧ (n : ℤ) ∉ w.selector.resolutionJobs)
    (h : connectOriginInit sys w.session.clientFd w = .ok (ret, w₁)) :
    Answerable ret w₁ := by
  have hstate := connectOriginInit_state h
  cases connectOriginInit_spec h with
  | already => exact ⟨hidle _, fun _ => hw, horigin⟩
  | noThread => exact ⟨hidle _, fun _ => hw, horigin⟩
  | name _ _ _ hset =>
      refine ⟨(hidle _).of_changes hset (by decide) rfl rfl,
        fun hne => absurd rfl hne, ?_⟩
      rw [OriginUnnotified, hset.jobs_eq]
      exact horigin
  | address _ _ h =>
      refine ⟨?_, fun _ => hw.of_same h.sameRest,
        h.originUnnotified fun n hn => (hfresh n hn).2⟩
      have hafter := h.interested hseated.nonneg (hidle .originConnect)
        fun n hn => (hfresh n hn).1
      rcases hstate with rfl | rfl | rfl
      · exact hafter
      · exact fun d howns i hi => (hafter d howns i hi).requestWrite
      · obtain ⟨hinterest, hclient⟩ := h.interest?_of_error rfl hseated.client
        intro d howns i hi
        rw [hinterest] at hi
        obtain ⟨hpos, rfl | rfl⟩ := howns
        · rw [hclient] at hi hpos
          exact hidle .error _ ⟨hpos, .inl rfl⟩ i hi
        · rw [h.originFd_eq] at hi hpos
          cases hsocket : (sys.attempts 0).socket with
          | none =>
              rw [hsocket] at hpos
              exact absurd hpos (by decide)
          | some n =>
              refine absurd ?_ (hfresh n hsocket).1
              rw [hsocket, socketFd] at hi
              rw [FdSelector.Registered, hi]
              exact Option.some_ne_none i

/-- A dispatch in a state other than `ORIGIN_CONNECT`. -/
theorem Answerable.dispatched (hw : Answerable s w) (hs : s ≠ .originConnect)
    (hgate : Gate vs s w) (hseated : Seated w)
    (hown : OwnNotifications s w (.dispatch r fd sys))
    (hhands : w.Hands .alone r fd) (hkernel : w.Kernel sys)
    (hf : onReady sys fd s r = some f) (h : f w = .ok (ret, w₁))
    (hout : Outcome sys fd s ret w₁ via w₂) (hlive : w₂.destroyed = false) :
    Answerable (via.getLastD s) w₂ := by
  have hfollows := onReady_follows hf hhands.2.1 h
  have hquiet : Quiet w w₁ := by
    refine onReady_quiet hf ?_ h
    rintro rfl
    cases s <;> cases hf
    exact hs rfl
  have hunnotified : Unnotified w₁ := (hw.unnotified hs).of_same hquiet.sameRest
  have horigin : OriginUnnotified w₁ := hw.origin.of_quiet hquiet
  have hearly (hearly : s.Early) : w.session.originFd = -1 := by
    have hunderstood := hgate.understood
    cases s
    case greetingRead | greetingWrite | authRead | authWrite | requestRead =>
      exact hunderstood.1
    all_goals exact absurd hearly (by decide)
  have hcalled (hend : ¬ (ret = .done ∨ ret = .error)) : Interested ret w₁ :=
    onReady_interested hw.interested hs hearly hhands.1 hhands.2.1 hend hf h
  have hconnects (ret' : GlobalState) (hne : s ≠ .originConnect)
      (heq : ret = .originConnect)
      (hinit : connectOriginInit sys fd w₁ = .ok (ret', w₂)) :
      Answerable ret' w₂ := by
    subst heq
    obtain rfl := (hfollows.resolve_left (Ne.symm hne)).eq_requestRead
    cases r <;> cases hf
    have hnone := hearly (by decide)
    have hclient := hhands.1.eq_clientFd hnone
    rw [hclient, ← hquiet.clientFd] at hinit
    refine connectOriginInit_answerable (hseated.of_quiet hquiet)
      (fun _ => requestRead_idle hnone hclient h) hunnotified horigin ?_ hinit
    intro n hn
    rw [hquiet.registered, hquiet.jobs]
    exact ⟨(hkernel.fresh 0 n hn).1, hown 0 n hn⟩
  cases hout with
  | stays => exact ⟨hcalled (onReady_live hf), fun _ => hunnotified, horigin⟩
  | enters _ _ hdone herror =>
      have hafter := arrived_quiet ret w₁
      exact ⟨(hcalled fun hend => hend.elim hdone herror).arrived,
        fun _ => hunnotified.of_same hafter.sameRest, horigin.of_quiet hafter⟩
  | connects hne hinit => exact hconnects _ hne rfl hinit
  | redirected hne hinit => exact hconnects _ hne rfl hinit
  | ends _ hdone =>
      rw [socksv5Done_destroyed hdone] at hlive
      cases hlive

/-- A session that is to be notified is handed nothing else. -/
theorem Resolving.unnotified (hw : Resolving w)
    (hhands : w.Hands .alone .write fd) : Unnotified w := by
  by_cases hpending : w.threads ≠ [] ∨
      w.session.clientFd ∈ w.selector.resolutionJobs
  · obtain ⟨-, horigin, hunwritten⟩ := hw.idle hpending
    obtain rfl := hhands.1.eq_clientFd horigin
    exact absurd hunwritten hhands.not_unwritten
  · rw [not_or, not_not] at hpending
    exact ⟨hpending.1, hpending.2⟩

/-- A dispatch in `ORIGIN_CONNECT`. -/
theorem Answerable.connecting (hw : Answerable .originConnect w)
    (hresolving : Resolving w) (hseated : Seated w)
    (hown : OwnNotifications .originConnect w (.dispatch r fd sys))
    (hhands : w.Hands .alone r fd) (hkernel : w.Kernel sys)
    (hf : onReady sys fd .originConnect r = some f)
    (h : f (w.delivered r fd) = .ok (ret, w₁))
    (hout : Outcome sys fd .originConnect ret w₁ via w₂)
    (hlive : w₂.destroyed = false) :
    Answerable (via.getLastD .originConnect) w₂ := by
  have hcalled : ret = .error ∨ Interested .originConnect w₁ ∧ Unnotified w₁ ∧
      OriginUnnotified w₁ ∧ (ret = .originConnect ∨ ret = .requestWrite) := by
    cases r with
    | read => cases hf
    | write =>
        cases hf
        have hquiet := verifyConnection_quiet h
        have hunnotified := hresolving.unnotified hhands
        cases verifyConnection_spec h with
        | failed => exact .inl rfl
        | answers _ _ hset hset' =>
            refine .inr ⟨?_, hunnotified.of_same hquiet.sameRest,
              hw.origin.of_quiet hquiet, .inr rfl⟩
            intro d howns
            exact hset'.interest_all (by decide)
              (hset.interest_all (by decide) (hw.interested d howns))
    | block =>
        cases hf
        have hspec := connectOriginBlock_spec h
        obtain ⟨hthreads, hjobs⟩ := hresolving.delivered hhands
        have hunnotified : Unnotified (w.delivered .block fd) := ⟨hthreads, hjobs⟩
        obtain ⟨hinterested, horigin⟩ := hspec.answerable hseated.nonneg
          hhands.2.1 (hw.interested.of_same rfl rfl rfl)
          (fun hpos hmem => hw.origin hpos (List.mem_of_mem_erase hmem))
          fun k n hn => ⟨(hkernel.fresh k n hn).1,
            fun hmem => hown k n hn (List.mem_of_mem_erase hmem)⟩
        rcases hspec.state with hret | hret | hret
        · exact .inr ⟨hinterested, hunnotified.of_same hspec.sameRest, horigin,
            .inl hret⟩
        · exact .inr ⟨hinterested, hunnotified.of_same hspec.sameRest, horigin,
            .inr hret⟩
        · exact .inl hret
  cases hout with
  | stays =>
      rcases hcalled with hret | ⟨hinterested, hunnotified, horigin, -⟩
      · cases hret
      · exact ⟨hinterested, fun _ => hunnotified, horigin⟩
  | enters hne _ _ herror =>
      rcases hcalled with hret | ⟨hinterested, hunnotified, horigin, hret⟩
      · exact absurd hret herror
      · obtain rfl := hret.resolve_left hne
        exact ⟨fun d howns i hi => (hinterested d howns i hi).requestWrite,
          fun _ => hunnotified, horigin⟩
  | connects hne => exact absurd rfl hne
  | redirected hne => exact absurd rfl hne
  | ends _ hdone =>
      rw [socksv5Done_destroyed hdone] at hlive
      cases hlive

end Dispatch

/-- What is known of the resolver in every run. -/
def BasicsAsks : Assertion := fun vs s w =>
  Basics vs s w ∧ (w.destroyed = false → Asks s w)

theorem basicsAsks_inductive :
    Inductive .alone Anything AnyEvent BasicsAsks :=
  (basics_inductive .alone).and asks_inductive

theorem answerable_inductive : Inductive .alone BasicsAsks OwnNotifications
    fun _ s w => w.destroyed = false → Answerable s w where
  started := fun w _ hw hlive =>
    ⟨(hw hlive).interested,
      fun hs => ⟨((hw hlive).unnotified hs).threads,
        ((hw hlive).unnotified hs).client⟩, (hw hlive).origin⟩
  startedCondition := by
    intro w e he
    cases e <;> exact he
  dispatched := by
    intro vs s r fd sys w f ret w₁ via w₂ hK hw _ hown hlive hhands hkernel hf h
      hout hlive'
    obtain ⟨⟨hgate, hseated⟩, hasks⟩ := hK
    by_cases hs : s = .originConnect
    · subst hs
      exact (hw hlive).connecting ((hasks hlive).connecting rfl) (hseated hlive)
        hown hhands hkernel hf h hout hlive'
    · have hr : r ≠ .block := by
        rintro rfl
        cases s <;> cases hf
        exact hs rfl
      rw [World.delivered_eq hr] at h
      exact (hw hlive).dispatched hs hgate (hseated hlive) hown hhands hkernel hf
        h hout hlive'
  connectionEnds := by
    intro vs s w ok _ hw _ _ hlive
    exact ⟨(hw hlive).interested, fun hs => ⟨((hw hlive).unnotified hs).threads,
      ((hw hlive).unnotified hs).client⟩, (hw hlive).origin⟩
  resolved := by
    intro vs s w fd addrs alloc hK hw _ hthread hlive
    have hpos : w.threads ≠ [] := List.ne_nil_of_mem hthread
    obtain rfl : s = .originConnect := by
      by_contra hs
      exact hpos ((hw hlive).unnotified hs).threads
    have horigin : w.session.originFd = -1 :=
      (((hK.2 hlive).connecting rfl).idle (.inl hpos)).2.1
    refine ⟨(hw hlive).interested.of_same rfl rfl ?_,
      fun hne => absurd rfl hne, fun hneg => ?_⟩
    · exact w.selector.interest?_notified fd alloc
    · have hneg : 0 ≤ w.session.originFd := hneg
      rw [horigin] at hneg
      exact absurd hneg (by decide)
  others := by
    intro vs s w sel m hK hw _ hsame hlive
    have hseated := hK.1.2 hlive
    have hanswerable := hw hlive
    have hqueue {d : ℤ} (howns : w.session.Owns d)
        (h : d ∉ w.selector.resolutionJobs) : d ∉ sel.resolutionJobs := by
      rw [← List.count_eq_zero, ((hsame d howns).2 rfl).2]
      exact List.count_eq_zero.mpr h
    refine ⟨?_, fun hs => ⟨(hanswerable.unnotified hs).threads, ?_⟩, ?_⟩
    · intro d howns i hi
      rw [((hsame d howns).2 rfl).1] at hi
      exact hanswerable.interested d howns i hi
    · exact hqueue ⟨hseated.nonneg, .inl rfl⟩ (hanswerable.unnotified hs).client
    · exact fun hpos => hqueue ⟨hpos, .inr rfl⟩ (hanswerable.origin hpos)

theorem Initial.answerable {c : Config} (h : Initial c) :
    Answerable .greetingRead c.world := by
  obtain ⟨address, clientFd, s, m, rfl, hs, hjobs⟩ := h
  refine ⟨?_, fun _ => ⟨rfl, hjobs⟩, ?_⟩
  · intro fd howns i hi
    rw [howns.eq_clientFd rfl] at hi
    have hi : s.interest? clientFd = some i := hi
    rw [hs] at hi
    cases hi
    decide
  · intro hpos
    have hpos : (0 : ℤ) ≤ -1 := hpos
    exact absurd hpos (by decide)

/-! ## The engine -/

/-- With a callback, the engine calls it and jumps to the state it returns. -/
theorem stmHandler_of_onReady {r : Ready} {fd : ℤ} {sys : Sys} {s : GlobalState}
    {m : Machine} {w : World} {f : Callback} (hm : m.current = some s.id)
    (hf : onReady sys fd s r = some f) :
    stmHandler (sessionTable sys fd) r arrivalFuel m w =
      f w >>= fun x =>
        jump (sessionTable sys fd) arrivalFuel x.1.id m x.2 >>= fun y =>
          .ok (x.1.id, y.1, y.2) := by
  unfold stmHandler handleFirst
  simp only [hm, ok_bind, sessionTable_states, ne_eq, not_true_eq_false,
    if_false, hf, Option.map_some, Callback.numbered, bind_assoc]

/-- Whatever event a session that is alone is handed, its state has a callback
for it, which the engine calls. -/
theorem exists_onReady_of_hands {c₀ c : Config} {tr : List (Config × Event)}
    {r : Ready} {fd : ℤ} (h₀ : Initial c₀) (hrun : Run (Step .alone) c₀ tr c)
    (hown : ∀ x ∈ tr, OwnNotifications x.1.state x.1.world x.2)
    (hlive : c.world.destroyed = false) (hhands : c.world.Hands .alone r fd)
    (sys : Sys) :
    ∃ f, onReady sys fd c.state r = some f ∧
      stmHandler (sessionTable sys fd) r arrivalFuel c.stm
          (c.world.delivered r fd) =
        f (c.started.world.delivered r fd) >>= fun x =>
          jump (sessionTable sys fd) arrivalFuel x.1.id c.started.stm x.2 >>=
            fun y => .ok (x.1.id, y.1, y.2) := by
  obtain ⟨vs, hvs, -, hanswerable⟩ :=
    (basicsAsks_inductive.and answerable_inductive).run hrun hown h₀.stm_eq
      ⟨⟨h₀.basics, fun _ => h₀.asks⟩, fun _ => h₀.answerable⟩
  have hhandles : (onReady sys fd c.state r).isSome = true := by
    rw [onReady_isSome]
    exact (hanswerable hlive).handles hhands
  obtain ⟨f, hf⟩ := Option.isSome_iff_exists.mp hhandles
  refine ⟨f, hf, ?_⟩
  rw [stmHandler_started]
  exact stmHandler_of_onReady hvs.started_current hf

/-- The callback that a client's origin has when it is connected. -/
theorem exists_onReady_addressClient :
    ∃ c, play .alone (accepted 5)
        (addressClient { socket := some 6, connect := .inProgress }) = some c ∧
      ∃ f, onReady {} 6 c.state .write = some f := by
  have hplay : (play .alone (accepted 5)
      (addressClient { socket := some 6, connect := .inProgress })).any (fun c =>
        decide (c.world.destroyed = false ∧
          c.world.hands .alone .write 6 = true)) = true := by decide
  have hqueue : ∀ x ∈ playTrace .alone (accepted 5)
      (addressClient { socket := some 6, connect := .inProgress }),
      x.1.world.selector.resolutionJobs = [] := by decide
  obtain ⟨c, hc, hchecks⟩ := (Option.any_eq_true _ _).mp hplay
  obtain ⟨hlive, hhands⟩ := of_decide_eq_true hchecks
  refine ⟨c, hc, ?_⟩
  have hown (x : Config × Event) (hx : x ∈ playTrace .alone (accepted 5)
      (addressClient { socket := some 6, connect := .inProgress })) :
      OwnNotifications x.1.state x.1.world x.2 := by
    cases he : x.2 with
    | dispatch =>
        intro k n _
        rw [hqueue x hx]
        exact List.not_mem_nil
    | connectionEnds | resolved | others => trivial
  obtain ⟨f, hf, -⟩ := exists_onReady_of_hands
    (accepted_initial (by decide) (by decide)) (play_run hc) hown hlive
    (World.hands_spec hhands) {}
  exact ⟨f, hf⟩

end Socksv5
