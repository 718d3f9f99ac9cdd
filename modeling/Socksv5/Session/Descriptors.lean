import Socksv5.Selector.Registration
import Socksv5.Session.Resolving

/-!
# What a session does to the descriptors

An event of a session may replace `origin_fd`, and register the new descriptor
with the session; the slots of all other descriptors stay as they are.  When it
ends the session, the slots of its two descriptors are cleared.
-/

namespace Socksv5

open Support FdSelector

/-- The descriptor that a call opens. -/
def Call.opened : Call → Option ℤ
  | .socket (some n) => some n
  | _ => none

/-- The descriptors opened and closed by the calls of a world. -/
def World.opened (w : World) : List ℤ := w.log.filterMap Call.opened

def World.closed (w : World) : List ℤ := w.log.filterMap Call.closed

/-- The slot of `origin_fd`, filled with the session. -/
def World.seats (w : World) : Registration :=
  ⟨w.session.originFd, some .socksv5Active, some w.address⟩

/-- What a callback of a session does to the descriptors. -/
structure Reseats (sys : Sys) (w w' : World) : Prop where
  address : w'.address = w.address
  clientFd : w'.session.clientFd = w.session.clientFd
  destroyed : w'.destroyed = w.destroyed
  historical : w'.metrics.historicalConnections =
    w.metrics.historicalConnections
  concurrent : w'.metrics.concurrentConnections =
    w.metrics.concurrentConnections
  fdSize : w'.selector.fdSize = w.selector.fdSize
  jobs : w'.selector.resolutionJobs = w.selector.resolutionJobs
  closed : w'.closed = w.closed
  kept : ∀ fd ∈ w.opened, fd ∈ w'.opened
  fresh : ∀ fd ∈ w'.opened, fd ∈ w.opened ∨
    ∃ k n, (sys.attempts k).socket = some n ∧ fd = n
  origin : w'.session.originFd = w.session.originFd ∨
    w'.session.originFd = -1 ∨ w'.session.originFd ∈ w'.opened
  slots : w'.selector.registration = w.selector.registration ∨
    (invalidFd w'.session.originFd = false ∧
      (∃ k n, (sys.attempts k).socket = some n ∧ w'.session.originFd = n) ∧
      w'.selector.registration = Function.update w.selector.registration
        w'.session.originFd.toNat w'.seats)

theorem Quiet.opened_eq {w w' : World} (h : Quiet w w') :
    w'.opened = w.opened := by
  obtain ⟨calls, hlog, hcalls⟩ := h.log
  have hnone : calls.filterMap Call.opened = [] := by
    rw [List.filterMap_eq_nil_iff]
    intro c hc
    have hconnects := hcalls c hc
    cases c with
    | socket result => cases hconnects
    | recv | send | shutdown | authenticate | connect | getsockopt | thread
      | setInterest | addInterest | reduceInterest | close => rfl
  rw [World.opened, hlog, List.filterMap_append, hnone, List.append_nil]
  rfl

namespace Reseats

variable {sys : Sys} {w w₁ w' : World}

theorem of_quiet (sys : Sys) (h : Quiet w w') : Reseats sys w w' where
  address := h.address
  clientFd := h.clientFd
  destroyed := h.destroyed
  historical := h.historical
  concurrent := h.concurrent
  fdSize := h.fdSize
  jobs := h.jobs
  closed := h.closed
  kept := by
    intro fd hfd
    rw [h.opened_eq]
    exact hfd
  fresh := by
    intro fd hfd
    rw [h.opened_eq] at hfd
    exact .inl hfd
  origin := .inl h.originFd
  slots := .inl h.registration

/-- Going on from where the slots are as they were. -/
theorem trans (h : Reseats sys w w₁)
    (hslots : w₁.selector.registration = w.selector.registration)
    (h' : Reseats sys w₁ w') : Reseats sys w w' where
  address := h'.address.trans h.address
  clientFd := h'.clientFd.trans h.clientFd
  destroyed := h'.destroyed.trans h.destroyed
  historical := h'.historical.trans h.historical
  concurrent := h'.concurrent.trans h.concurrent
  fdSize := h'.fdSize.trans h.fdSize
  jobs := h'.jobs.trans h.jobs
  closed := h'.closed.trans h.closed
  kept := fun fd hfd => h'.kept fd (h.kept fd hfd)
  fresh := by
    intro fd hfd
    rcases h'.fresh fd hfd with hfd | hfd
    · exact h.fresh fd hfd
    · exact .inr hfd
  origin := by
    rcases h'.origin with heq | heq | heq
    · rw [heq]
      rcases h.origin with h₁ | h₁ | h₁
      · exact .inl h₁
      · exact .inr (.inl h₁)
      · exact .inr (.inr (h'.kept _ h₁))
    · exact .inr (.inl heq)
    · exact .inr (.inr heq)
  slots := by
    rw [← hslots]
    exact h'.slots

/-- Going on without touching the descriptors. -/
theorem trans_same (h : Reseats sys w w₁) (h' : Reseats sys w₁ w')
    (horigin : w'.session.originFd = w₁.session.originFd)
    (hslots : w'.selector.registration = w₁.selector.registration) :
    Reseats sys w w' where
  address := h'.address.trans h.address
  clientFd := h'.clientFd.trans h.clientFd
  destroyed := h'.destroyed.trans h.destroyed
  historical := h'.historical.trans h.historical
  concurrent := h'.concurrent.trans h.concurrent
  fdSize := h'.fdSize.trans h.fdSize
  jobs := h'.jobs.trans h.jobs
  closed := h'.closed.trans h.closed
  kept := fun fd hfd => h'.kept fd (h.kept fd hfd)
  fresh := by
    intro fd hfd
    rcases h'.fresh fd hfd with hfd | hfd
    · exact h.fresh fd hfd
    · exact .inr hfd
  origin := by
    rw [horigin]
    exact h.origin.imp_right fun h₁ => h₁.imp_right (h'.kept _)
  slots := by
    rw [World.seats, horigin, hslots, h'.address]
    exact h.slots

end Reseats

/-! ## Connecting -/

theorem World.opened_of_log {w w' : World} {calls : List Call}
    (h : w'.log = w.log ++ calls) :
    w'.opened = w.opened ++ calls.filterMap Call.opened := by
  rw [World.opened, h, List.filterMap_append]
  rfl

theorem World.closed_of_log {w w' : World} {calls : List Call}
    (h : w'.log = w.log ++ calls) :
    w'.closed = w.closed ++ calls.filterMap Call.closed := by
  rw [World.closed, h, List.filterMap_append]
  rfl

/-- What the fields of the world say about an attempt. -/
theorem Reseats.of_attempt {sys : Sys} {k : ℕ} {w w' : World}
    {calls : List Call} (haddress : w'.address = w.address)
    (hclient : w'.session.clientFd = w.session.clientFd)
    (hdestroyed : w'.destroyed = w.destroyed) (hmetrics : w'.metrics = w.metrics)
    (hsize : w'.selector.fdSize = w.selector.fdSize)
    (hjobs : w'.selector.resolutionJobs = w.selector.resolutionJobs)
    (hlog : w'.log = w.log ++ calls)
    (hclosed : calls.filterMap Call.closed = [])
    (hopened : calls.filterMap Call.opened =
      (sys.attempts k).socket.toList.map fun n : ℕ => (n : ℤ))
    (horigin : w'.session.originFd = socketFd (sys.attempts k).socket)
    (hslots : w'.selector.registration = w.selector.registration ∨
      (invalidFd w'.session.originFd = false ∧ w'.selector.registration =
        Function.update w.selector.registration w'.session.originFd.toNat
          w'.seats)) :
    Reseats sys w w' := by
  have hw := World.opened_of_log hlog
  have hw' := World.closed_of_log hlog
  rw [hopened] at hw
  rw [hclosed, List.append_nil] at hw'
  refine ⟨haddress, hclient, hdestroyed, by rw [hmetrics], by rw [hmetrics],
    hsize, hjobs, hw', ?_, ?_, ?_, ?_⟩
  · intro fd hfd
    rw [hw]
    exact List.mem_append_left _ hfd
  · intro fd hfd
    rw [hw] at hfd
    rcases List.mem_append.mp hfd with hfd | hfd
    · exact .inl hfd
    · obtain ⟨n, hn, rfl⟩ := List.mem_map.mp hfd
      exact .inr ⟨k, n, Option.mem_toList.mp hn, rfl⟩
  · cases hsocket : (sys.attempts k).socket with
    | none =>
        rw [hsocket] at horigin
        exact .inr (.inl horigin)
    | some n =>
        rw [hsocket] at horigin hw
        refine .inr (.inr ?_)
        rw [hw, horigin]
        simp [socketFd]
  · rcases hslots with hslots | ⟨hvalid, hslots⟩
    · exact .inl hslots
    · refine .inr ⟨hvalid, ?_, hslots⟩
      cases hsocket : (sys.attempts k).socket with
      | none =>
          rw [horigin, hsocket] at hvalid
          cases hvalid
      | some n =>
          rw [hsocket] at horigin
          exact ⟨k, n, hsocket, horigin⟩

theorem Attempted.reseats {sys : Sys} {k : ℕ} {realloc : Bool} {fd : ℤ}
    {w w' : World} {ret : GlobalState} (hs : w.selector.Slotted)
    (h : Attempted (sys.attempts k) realloc fd w ret w') :
    Reseats sys w w' := by
  have hsome : ∀ n, (sys.attempts k).socket = some n → [(n : ℤ)] =
      (sys.attempts k).socket.toList.map fun n : ℕ => (n : ℤ) := by
    intro n hn
    rw [hn]
    rfl
  have hfd : ∀ n, (sys.attempts k).socket = some n →
      (n : ℤ) = socketFd (sys.attempts k).socket := by
    intro n hn
    rw [hn]
    rfl
  cases h with
  | noSocket hsocket hset =>
      refine .of_attempt (k := k) rfl rfl rfl rfl hset.fdSize_eq hset.jobs_eq
        (List.append_assoc _ _ _) rfl ?_ ?_ (.inl hset.registration_eq)
      · rw [hsocket]
        rfl
      · rw [hsocket]
        rfl
  | noNio hsocket _ hset =>
      exact .of_attempt rfl rfl rfl rfl hset.fdSize_eq hset.jobs_eq
        (List.append_assoc _ _ _) rfl (hsome _ hsocket) (hfd _ hsocket)
        (.inl hset.registration_eq)
  | @refused n request addr status s hsocket _ _ _ hset =>
      have hlog : w.log ++ [.socket (some n)] ++ [.connect n addr .failed] ++
          [.setInterest fd .write] = w.log ++ [.socket (some n),
            .connect n addr .failed, .setInterest fd .write] := by
        simp
      exact .of_attempt rfl rfl rfl rfl hset.fdSize_eq hset.jobs_eq hlog rfl
        (hsome _ hsocket) (hfd _ hsocket) (.inl hset.registration_eq)
  | connected hsocket =>
      exact .of_attempt rfl rfl rfl rfl rfl rfl (List.append_assoc _ _ _) rfl
        (hsome _ hsocket) (hfd _ hsocket) (.inl rfl)
  | inProgress hsocket _ _ _ hregister =>
      rcases selectorRegister_registration hs hregister with
        ⟨-, rfl, -⟩ | ⟨-, hvalid, -, hsize, hjobs, hslots⟩
      · exact .of_attempt rfl rfl rfl rfl rfl rfl (List.append_assoc _ _ _) rfl
          (hsome _ hsocket) (hfd _ hsocket) (.inl rfl)
      · exact .of_attempt rfl rfl rfl rfl hsize hjobs (List.append_assoc _ _ _)
          rfl (hsome _ hsocket) (hfd _ hsocket) (.inr ⟨hvalid, hslots⟩)

/-- An attempt that leads to an answer changes no slot. -/
theorem Attempted.registration_eq {a : Attempt} {realloc : Bool} {fd : ℤ}
    {w w' : World} {ret : GlobalState} (h : Attempted a realloc fd w ret w')
    (hret : ret = .requestWrite) :
    w'.selector.registration = w.selector.registration := by
  cases h with
  | noSocket _ hset => exact hset.registration_eq
  | noNio _ _ hset => exact hset.registration_eq
  | refused _ _ _ _ hset => exact hset.registration_eq
  | connected => rfl
  | inProgress =>
      rcases afterInterest_state _ .originConnect with h | h <;>
        rw [h] at hret <;> cases hret

theorem GivesUp.quiet {w w' : World} {ret : GlobalState}
    (h : GivesUp w ret w') : Quiet w w' := by
  cases h with
  | failed _ hset => exact .of_interest hset rfl rfl
  | answers hset =>
      have hquiet := Quiet.of_interest (c := .setInterest w.session.clientFd
        .write) hset rfl rfl
      exact hquiet.trans (.of_session _ _ rfl rfl rfl)

/-- What touches no descriptor. -/
theorem Reseats.of_calls {sys : Sys} {w w' : World} {calls : List Call}
    (haddress : w'.address = w.address)
    (hclient : w'.session.clientFd = w.session.clientFd)
    (horigin : w'.session.originFd = w.session.originFd)
    (hdestroyed : w'.destroyed = w.destroyed) (hmetrics : w'.metrics = w.metrics)
    (hsize : w'.selector.fdSize = w.selector.fdSize)
    (hjobs : w'.selector.resolutionJobs = w.selector.resolutionJobs)
    (hslots : w'.selector.registration = w.selector.registration)
    (hlog : w'.log = w.log ++ calls)
    (hopened : calls.filterMap Call.opened = [])
    (hclosed : calls.filterMap Call.closed = []) : Reseats sys w w' := by
  have hw := World.opened_of_log hlog
  have hw' := World.closed_of_log hlog
  rw [hopened, List.append_nil] at hw
  rw [hclosed, List.append_nil] at hw'
  refine ⟨haddress, hclient, hdestroyed, by rw [hmetrics], by rw [hmetrics],
    hsize, hjobs, hw', ?_, ?_, .inl horigin, .inl hslots⟩
  · intro fd hfd
    rw [hw]
    exact hfd
  · intro fd hfd
    rw [hw] at hfd
    exact .inl hfd

theorem Connects.reseats {sys : Sys} {fd : ℤ} {w w' : World}
    {ret : GlobalState} (hs : w.selector.Slotted)
    (h : Connects sys fd w ret w') : Reseats sys w w' := by
  cases h with
  | already | noThread => exact .of_quiet sys (.refl w)
  | address _ _ h => exact h.reseats hs
  | name _ _ hthreads hset =>
      rcases hthreads with ⟨-, rfl⟩ | ⟨-, rfl⟩
      · exact .of_calls rfl rfl rfl rfl rfl hset.fdSize_eq hset.jobs_eq
          hset.registration_eq (List.append_assoc _ _ _) rfl rfl
      · exact .of_calls rfl rfl rfl rfl rfl hset.fdSize_eq hset.jobs_eq
          hset.registration_eq (List.append_assoc _ _ _) rfl rfl

/-- Changing the session, its descriptors excepted. -/
theorem Reseats.of_session {sys : Sys} (w : World) {session : Session}
    (hclient : session.clientFd = w.session.clientFd)
    (horigin : session.originFd = w.session.originFd) :
    Reseats sys w { w with session := session } :=
  .of_calls rfl hclient horigin rfl rfl rfl rfl rfl (List.append_nil _).symm rfl
    rfl

theorem Resolves.reseats {sys : Sys} {fd : ℤ} {k : ℕ} {addrs : List SockAddr}
    {w w' : World} {ret : GlobalState} (hs : w.selector.Slotted)
    (h : Resolves sys fd k addrs w ret w') : Reseats sys w w' := by
  induction h with
  | @exhausted k w w' ret h =>
      have hfree : Reseats sys w (freeResolution w) := .of_session w rfl rfl
      exact hfree.trans rfl (.of_quiet sys h.quiet)
  | @settles k addr rest w w' h =>
      have hbefore : Reseats sys w (useAddress addr w) := .of_session w rfl rfl
      have hfree : Reseats sys w' (freeResolution w') := .of_session w' rfl rfl
      exact (hbefore.trans rfl (h.reseats hs)).trans_same hfree rfl rfl
  | @breaks k addr rest w w' h =>
      have hbefore : Reseats sys w (useAddress addr w) := .of_session w rfl rfl
      exact hbefore.trans rfl (h.reseats hs)
  | @goesOn k addr rest w w₁ w' ret h _ ih =>
      have hbefore : Reseats sys w (useAddress addr w) := .of_session w rfl rfl
      have hattempt := hbefore.trans rfl (h.reseats hs)
      have hslots : w₁.selector.registration = w.selector.registration :=
        h.registration_eq rfl
      exact hattempt.trans hslots
        (ih (hs.of_registration hattempt.fdSize hslots))

/-! ## Events -/

/-- A callback, before the session is ended. -/
theorem onReady_reseats {sys : Sys} {fd : ℤ} {s ret : GlobalState} {r : Ready}
    {f : Callback} {w w' : World} (hs : w.selector.Slotted)
    (hf : onReady sys fd s r = some f) (h : f w = .ok (ret, w')) :
    Reseats sys w w' := by
  by_cases hr : r = .block
  · subst hr
    cases s <;> cases hf
    exact (connectOriginBlock_spec h).reseats hs
  · exact .of_quiet sys (onReady_quiet hf hr h)

/-- Only `REQUEST_READ` leads to `ORIGIN_CONNECT`, and it is no callback for
notifications. -/
theorem onReady_quiet_of_connects {sys : Sys} {fd : ℤ} {s : GlobalState}
    {r : Ready} {f : Callback} {w w' : World} (hne : s ≠ .originConnect)
    (hf : onReady sys fd s r = some f)
    (h : f w = .ok (.originConnect, w')) : Quiet w w' := by
  refine onReady_quiet hf ?_ h
  rintro rfl
  cases s <;> cases hf
  exact hne rfl

/-- What an event does: it goes on with the session, or ends it. -/
inductive Handled (sys : Sys) (w : World) : World → Prop
  | lives {w' : World} : Reseats sys w w' → Handled sys w w'
  | ends {w₁ w' : World} : Reseats sys w w₁ → socksv5Done w₁ = .ok w' →
      Handled sys w w'

theorem Outcome.handled {sys : Sys} {fd : ℤ} {s ret : GlobalState} {r : Ready}
    {f : Callback} {via : List GlobalState} {w w₁ w₂ : World}
    (hs : w.selector.Slotted) (hf : onReady sys fd s r = some f)
    (hcall : f w = .ok (ret, w₁)) (hout : Outcome sys fd s ret w₁ via w₂) :
    Handled sys w w₂ := by
  have hcalled := onReady_reseats hs hf hcall
  cases hout with
  | stays => exact .lives hcalled
  | enters =>
      have hquiet := arrived_quiet ret w₁
      exact .lives (hcalled.trans_same (.of_quiet sys hquiet) hquiet.originFd
        hquiet.registration)
  | connects hne hinit | redirected hne hinit =>
      have hquiet := onReady_quiet_of_connects hne hf hcall
      have hs₁ := hs.of_registration hquiet.fdSize hquiet.registration
      exact .lives (hcalled.trans hquiet.registration
        ((connectOriginInit_spec hinit).reseats hs₁))
  | ends _ hdone => exact .ends hcalled hdone

/-! ## The end of a session -/

/-- What closing a descriptor of a session, if it is one, does. -/
structure Closed (w : World) (fd : ℤ) (w' : World) : Prop where
  address : w'.address = w.address
  session : w'.session = w.session
  metrics : w'.metrics = w.metrics
  fdSize : w'.selector.fdSize = w.selector.fdSize
  jobs : w'.selector.resolutionJobs = w.selector.resolutionJobs
  slots : w'.selector.registration = cleared w.selector.registration fd
  opened : w'.opened = w.opened
  closed : w'.closed = w.closed ++ if fd = -1 then [] else [fd]
  used : fd ≠ -1 → 0 ≤ fd ∧ (w.selector.fds fd.toNat).used = true

theorem closeDescriptor_spec {w w' : World} {fd : ℤ}
    (h : closeDescriptor w fd = .ok w') : Closed w fd w' := by
  unfold closeDescriptor at h
  by_cases hne : fd ≠ -1
  · rw [if_pos hne] at h
    obtain ⟨⟨ret, s⟩, hunregister, h⟩ := bind_eq_ok.mp h
    dsimp only at h
    by_cases hret : ret = .success
    · subst hret
      rw [if_neg (by simp)] at h
      cases h
      obtain ⟨hvalid, hused, hsize, hjobs, hslots⟩ :=
        selectorUnregisterFd_registration hunregister
      have hpos := (invalidFd_eq_false_iff.mp hvalid).1
      refine ⟨rfl, rfl, rfl, hsize, hjobs, ?_, ?_, ?_, fun _ => ⟨hpos, hused⟩⟩
      · rw [cleared, if_neg hne]
        exact hslots
      · refine (World.opened_of_log (w := w) rfl).trans ?_
        exact List.append_nil _
      · have hlog : ({ w with selector := s }.record (.close fd)).log =
            w.log ++ [.close fd] := rfl
        rw [if_neg hne]
        exact (World.closed_of_log hlog).trans rfl
    · rw [if_pos hret] at h
      cases h
  · rw [if_neg hne] at h
    cases h
    rw [not_not] at hne
    refine ⟨rfl, rfl, rfl, rfl, rfl, ?_, rfl, ?_, fun h => absurd hne h⟩
    · rw [cleared, if_pos hne]
    · rw [if_pos hne, List.append_nil]

/-- What `socksv5_done` does. -/
structure Ended (w w' : World) : Prop where
  address : w'.address = w.address
  destroyed : w'.destroyed = true
  historical : w'.metrics.historicalConnections =
    w.metrics.historicalConnections
  concurrent : w'.metrics.concurrentConnections =
    w.metrics.concurrentConnections - 1
  fdSize : w'.selector.fdSize = w.selector.fdSize
  jobs : w'.selector.resolutionJobs = w.selector.resolutionJobs
  slots : w'.selector.registration = cleared
    (cleared w.selector.registration w.session.clientFd) w.session.originFd
  opened : w'.opened = w.opened
  closed : ∀ fd ∈ w'.closed, fd ∈ w.closed ∨
    fd = w.session.clientFd ∨ fd = w.session.originFd
  origin : w.session.originFd ≠ -1 → 0 ≤ w.session.originFd ∧
    (w.selector.fds w.session.originFd.toNat).used = true

theorem socksv5Done_spec {w w' : World} (h : socksv5Done w = .ok w') :
    Ended w w' := by
  obtain ⟨w₁, hclient, h⟩ := bind_eq_ok.mp h
  obtain ⟨w₂, horigin, h⟩ := bind_eq_ok.mp h
  cases h
  have hclient := closeDescriptor_spec hclient
  have horigin := closeDescriptor_spec horigin
  refine ⟨horigin.address.trans hclient.address, rfl, ?_, ?_,
    horigin.fdSize.trans hclient.fdSize, horigin.jobs.trans hclient.jobs,
    ?_, ?_, ?_, ?_⟩
  · change w₂.metrics.historicalConnections = _
    rw [horigin.metrics, hclient.metrics]
  · change w₂.metrics.concurrentConnections - 1 = _
    rw [horigin.metrics, hclient.metrics]
  · change w₂.selector.registration = _
    rw [horigin.slots, hclient.slots]
  · exact horigin.opened.trans hclient.opened
  · intro fd hfd
    have hfd : fd ∈ w₂.closed := hfd
    rw [horigin.closed, hclient.closed] at hfd
    rcases List.mem_append.mp hfd with hfd | hfd
    · rcases List.mem_append.mp hfd with hfd | hfd
      · exact .inl hfd
      · split at hfd
        · cases hfd
        · exact .inr (.inl (List.mem_singleton.mp hfd))
    · split at hfd
      · cases hfd
      · exact .inr (.inr (List.mem_singleton.mp hfd))
  · intro hne
    obtain ⟨hpos, hused⟩ := horigin.used hne
    refine ⟨hpos, ?_⟩
    rw [used_iff, hclient.slots, cleared] at hused
    rw [used_iff]
    split at hused
    · exact hused
    · by_cases heq : w.session.originFd.toNat = w.session.clientFd.toNat
      · rw [heq, Function.update_self] at hused
        exact absurd rfl hused
      · rw [Function.update_of_ne heq] at hused
        exact hused

/-! ## Asking the resolver once -/

/-- A session asks the resolver once at most, and has no registered connection
as long as it has not gone through what was found. -/
structure AskedOnce (s : GlobalState) (w : World) : Prop where
  early : s.Early → w.session.originFd = -1 ∧
    w.session.originResolution = [] ∧ w.threads = []
  once : w.threads.length ≤ 1
  asked : w.threads ≠ [] → w.session.originResolution = []
  free : w.threads ≠ [] ∨ w.session.originResolution ≠ [] →
    ¬ w.selector.Registered w.session.originFd

theorem not_registered_of_neg {s : FdSelector} {fd : ℤ} (h : fd < 0) :
    ¬ s.Registered fd :=
  fun hreg => Int.not_le.mpr h hreg.nonneg

namespace AskedOnce

variable {s : GlobalState} {w w' : World}

theorem of_quiet (hw : AskedOnce s w) (h : Quiet w w') : AskedOnce s w' where
  early := by
    rw [h.originFd, h.resolution, h.threads]
    exact hw.early
  once := by
    rw [h.threads]
    exact hw.once
  asked := by
    rw [h.threads, h.resolution]
    exact hw.asked
  free := by
    rw [h.threads, h.resolution, h.originFd, h.registered]
    exact hw.free

/-- Nothing has been found that is left to go through. -/
theorem of_answered (hs : ¬ s.Early) (hthreads : w.threads = [])
    (hres : w.session.originResolution = []) : AskedOnce s w where
  early := fun h => absurd h hs
  once := by
    rw [hthreads]
    exact Nat.zero_le 1
  asked := fun h => absurd hthreads h
  free := fun h => absurd h (by simp [hthreads, hres])

/-- The state may change to a later one. -/
theorem later {s' : GlobalState} (hw : AskedOnce s w)
    (h : s'.Early → s.Early) : AskedOnce s' w where
  early := fun hs => hw.early (h hs)
  once := hw.once
  asked := hw.asked
  free := hw.free

end AskedOnce

theorem Attempted.resolution_eq {a : Attempt} {realloc : Bool} {fd : ℤ}
    {w w' : World} {ret : GlobalState} (h : Attempted a realloc fd w ret w') :
    w'.session.originResolution = w.session.originResolution := by
  cases h <;> rfl

/-- The list is gone through to its end, or to an address that is connected
to. -/
theorem Resolves.resolution {sys : Sys} {fd : ℤ} {k : ℕ} {addrs : List SockAddr}
    {w w' : World} {ret : GlobalState} (h : Resolves sys fd k addrs w ret w')
    (hret : ret ≠ .error) : w'.session.originResolution = [] := by
  induction h with
  | exhausted h => cases h <;> rfl
  | settles => rfl
  | breaks => exact absurd rfl hret
  | goesOn _ _ ih => exact ih hret

/-- What `connect_origin_init` does for a session that has not asked yet. -/
theorem Connects.askedOnce {sys : Sys} {fd : ℤ} {w w' : World}
    {s ret : GlobalState} (h : Connects sys fd w ret w') (hs : ¬ s.Early)
    (horigin : w.session.originFd = -1)
    (hres : w.session.originResolution = []) (hthreads : w.threads = []) :
    AskedOnce s w' := by
  cases h with
  | already | noThread => exact .of_answered hs hthreads hres
  | address _ _ h =>
      exact .of_answered hs (h.sameRest.threads.trans hthreads)
        (h.resolution_eq.trans hres)
  | name _ _ hcalls _ =>
      refine ⟨fun h => absurd h hs, ?_, fun _ => hres, fun _ => ?_⟩
      · rcases hcalls with ⟨rfl, -⟩ | ⟨rfl, -⟩ <;> simp [hthreads]
      · refine not_registered_of_neg ?_
        rw [horigin]
        decide

theorem AskedOnce.dispatched {sys : Sys} {fd : ℤ} {s ret : GlobalState}
    {r : Ready} {f : Callback} {via : List GlobalState} {w w₁ w₂ : World}
    (hw : AskedOnce s w) (hreg : w.selector.Registered fd)
    (hf : onReady sys fd s r = some f) (h : f w = .ok (ret, w₁))
    (hout : Outcome sys fd s ret w₁ via w₂) (hlive : w₂.destroyed = false) :
    AskedOnce (via.getLastD s) w₂ := by
  have hfollows := onReady_follows hf hreg h
  have hmono : ret.Early → s.Early := by
    intro hret
    rcases hfollows with rfl | hfollows
    · exact hret
    · exact hfollows.rank_lt.trans hret
  have hcalled : ret ≠ .error → AskedOnce s w₁ := by
    intro hret
    by_cases hr : r = .block
    · subst hr
      cases s <;> cases hf
      have hspec := connectOriginBlock_spec h
      by_cases hres : w.session.originResolution = []
      · rw [hres] at hspec
        cases hspec with
        | exhausted hspec =>
            have hfree : Quiet w (freeResolution w) :=
              .of_session w _ rfl rfl hres.symm
            exact hw.of_quiet (hfree.trans hspec.quiet)
      · have hthreads : w.threads = [] := by
          by_contra hne
          exact hres (hw.asked hne)
        exact .of_answered (by decide) (hspec.sameRest.threads.trans hthreads)
          (hspec.resolution hret)
    · exact hw.of_quiet (onReady_quiet hf hr h)
  have hconnects (ret' : GlobalState) (hs : s ≠ .originConnect)
      (heq : ret = .originConnect) (hret' : ¬ ret'.Early)
      (hinit : connectOriginInit sys fd w₁ = .ok (ret', w₂)) :
      AskedOnce ret' w₂ := by
    subst heq
    obtain rfl := (hfollows.resolve_left (Ne.symm hs)).eq_requestRead
    obtain ⟨horigin, hres, hthreads⟩ :=
      (hcalled (by decide)).early (by decide)
    exact (connectOriginInit_spec hinit).askedOnce hret' horigin hres hthreads
  cases hout with
  | stays =>
      refine hcalled ?_
      rintro rfl
      exact onReady_live hf (.inr rfl)
  | enters _ _ _ hne =>
      exact ((hcalled hne).of_quiet (arrived_quiet ret w₁)).later hmono
  | connects hs hinit =>
      exact hconnects .originConnect hs rfl (by decide) hinit
  | @redirected ret' _ _ hs hinit hto =>
      refine hconnects ret' hs rfl ?_ hinit
      rcases hto with rfl | rfl <;> decide
  | ends _ hdone =>
      rw [socksv5Done_destroyed hdone] at hlive
      cases hlive

theorem AskedOnce.delivered {s : GlobalState} {w : World} (hw : AskedOnce s w)
    (r : Ready) (fd : ℤ) : AskedOnce s (w.delivered r fd) := by
  cases r <;> exact ⟨hw.early, hw.once, hw.asked, hw.free⟩

/-- The thread has found addresses. -/
theorem AskedOnce.resolved {s : GlobalState} {w : World} {fd : ℤ}
    (hw : AskedOnce s w) (hthread : fd ∈ w.threads) (addrs : List SockAddr)
    (alloc : Bool) : AskedOnce s (connectOriginThread fd addrs alloc w) := by
  have hne : w.threads ≠ [] := List.ne_nil_of_mem hthread
  have hnone : w.threads.erase fd = [] := by
    have hlength := List.length_erase_of_mem hthread
    have honce := hw.once
    rw [← List.length_eq_zero_iff]
    omega
  refine ⟨fun hs => absurd (hw.early hs).2.2 hne, ?_, ?_, fun _ => ?_⟩
  · change (w.threads.erase fd).length ≤ 1
    rw [hnone]
    exact Nat.zero_le 1
  · exact fun h => absurd hnone h
  · change ¬ (selectorNotifyBlock w.selector fd alloc).2.Registered _
    rw [FdSelector.registered_notified]
    exact hw.free (.inl hne)

/-- Others change nothing about the origin's descriptor. -/
theorem AskedOnce.of_same {s : GlobalState} {w w' : World}
    (hw : AskedOnce s w) (hsession : w'.session = w.session)
    (hthreads : w'.threads = w.threads)
    (hreg : w'.selector.Registered w.session.originFd →
      w.selector.Registered w.session.originFd) : AskedOnce s w' where
  early := by
    rw [hsession, hthreads]
    exact hw.early
  once := by
    rw [hthreads]
    exact hw.once
  asked := by
    rw [hsession, hthreads]
    exact hw.asked
  free := by
    rw [hsession, hthreads]
    exact fun h => hw.free h ∘ hreg

theorem askedOnce_inductive : Inductive .crowded Anything AnyEvent
    fun _ s w => w.destroyed = false → AskedOnce s w where
  started := fun w _ hw hlive =>
    (hw hlive).of_quiet (arrived_quiet .greetingRead w)
  startedCondition := fun _ _ _ => trivial
  dispatched := by
    intro vs s r fd sys w f ret w₁ via w₂ _ hw _ _ hlive hhands _ hf h hout
    have hreg : (w.delivered r fd).selector.Registered fd := by
      cases r <;> exact hhands.2.1
    exact ((hw hlive).delivered r fd).dispatched hreg hf h hout
  connectionEnds := fun _ _ hw _ _ hlive =>
    (hw hlive).of_same rfl rfl id
  resolved := fun addrs alloc _ hw _ hthread hlive =>
    (hw hlive).resolved hthread addrs alloc
  others := by
    intro vs s w sel m _ hw _ hsame hlive
    refine (hw hlive).of_same rfl rfl fun hreg => ?_
    exact (hsame _ ⟨hreg.nonneg, .inr rfl⟩).1.mp hreg

/-- An event replaces a descriptor of the origin only when it is not
registered. -/
theorem Outcome.freed {sys : Sys} {fd : ℤ} {s ret : GlobalState} {r : Ready}
    {f : Callback} {via : List GlobalState} {w w₁ w₂ : World}
    (hw : AskedOnce s w) (hreg : w.selector.Registered fd)
    (hf : onReady sys fd s r = some f) (h : f w = .ok (ret, w₁))
    (hout : Outcome sys fd s ret w₁ via w₂) :
    w₂.session.originFd = w.session.originFd ∨
      ¬ w.selector.Registered w.session.originFd := by
  have hcalled : w₁.session.originFd = w.session.originFd ∨
      ¬ w.selector.Registered w.session.originFd := by
    by_cases hr : r = .block
    · subst hr
      cases s <;> cases hf
      have hspec := connectOriginBlock_spec h
      by_cases hres : w.session.originResolution = []
      · rw [hres] at hspec
        cases hspec with
        | exhausted hspec => exact .inl hspec.quiet.originFd
      · exact .inr (hw.free (.inr hres))
    · exact .inl (onReady_quiet hf hr h).originFd
  cases hout with
  | stays => exact hcalled
  | enters =>
      rw [(arrived_quiet ret w₁).originFd]
      exact hcalled
  | connects hne | redirected hne =>
      have hfollows := (onReady_follows hf hreg h).resolve_left (Ne.symm hne)
      obtain rfl := hfollows.eq_requestRead
      refine .inr (not_registered_of_neg ?_)
      rw [(hw.early (by decide)).1]
      decide
  | ends _ hdone =>
      rw [socksv5Done_session hdone]
      exact hcalled

/-! ## Dispatches -/

/-- What a dispatch leaves of a session. -/
structure Dispatched (sys : Sys) (w : World) (c : Config) : Prop where
  handled : Handled sys w c.world
  freed : c.world.session.originFd = w.session.originFd ∨
    ¬ w.selector.Registered w.session.originFd
  goesOn : c.world.destroyed = false →
    ∃ vs, c.Visited vs ∧ AskedOnce c.state c.world

/-- The world before the notification is taken from the queue. -/
def World.queued (w : World) (r : Ready) (fd : ℤ) : World :=
  match r with
  | .block => { w with selector := { w.selector with
      resolutionJobs := fd :: w.selector.resolutionJobs } }
  | _ => w

theorem World.queued_delivered (w : World) (r : Ready) (fd : ℤ) :
    (w.queued r fd).delivered r fd = w := by
  cases r with
  | read | write => rfl
  | block =>
      rw [queued, delivered]
      simp only [List.erase_cons_head]

theorem Config.started_delivered (c : Config) (r : Ready) (fd : ℤ) :
    Quiet (c.world.delivered r fd) (c.started.world.delivered r fd) := by
  rcases c.started_world with heq | heq
  · rw [heq]
    exact .refl _
  · rw [heq]
    cases r <;> exact .of_session _ _ rfl rfl rfl

/-- A dispatch for a registered descriptor of the session. -/
theorem dispatched_of_owned {r : Ready} {fd : ℤ} {sys : Sys}
    {stm : Machine} {w : World} {c : Config} {vs : List GlobalState}
    (hvs : Config.Visited ⟨stm, w⟩ vs)
    (hasked : AskedOnce (Config.state ⟨stm, w⟩) w)
    (hs : w.selector.Slotted) (hlive : w.destroyed = false)
    (howns : w.session.Owns fd) (hreg : w.selector.Registered fd)
    (hkernel : w.Kernel sys) (h : dispatch r fd sys ⟨stm, w⟩ = .ok c) :
    Dispatched sys w c := by
  let before : Config := ⟨stm, w.queued r fd⟩
  have hbefore : AskedOnce before.state before.world := by
    cases r <;> exact ⟨hasked.early, hasked.once, hasked.asked, hasked.free⟩
  have hdispatch : dispatch r fd sys
      ⟨before.stm, before.world.delivered r fd⟩ = .ok c := by
    rw [World.queued_delivered]
    exact h
  have hstep : Step .crowded before (.dispatch r fd sys) c := by
    refine .dispatch ?_ ⟨?_, ?_, trivial⟩ ?_ hdispatch
    · cases r <;> exact hlive
    · cases r <;> exact howns
    · cases r <;> exact hreg
    · cases r <;> exact ⟨hkernel.fresh, hkernel.soError⟩
  have hquiet : Quiet w (before.started.world.delivered r fd) := by
    have hstarted := before.started_delivered r fd
    rwa [World.queued_delivered] at hstarted
  have hvisited : before.Visited vs := hvs
  obtain ⟨f, ret, w₁, via, hf, hcall, hout, -⟩ := hvisited.dispatched hdispatch
  have hfound := hasked.of_quiet hquiet
  have hregistered := (hquiet.registered fd).mpr hreg
  refine ⟨?_, ?_, fun hgoes => ?_⟩
  · have hstarted := Reseats.of_quiet sys hquiet
    have hslotted := hs.of_registration hquiet.fdSize hquiet.registration
    cases hout.handled hslotted hf hcall with
    | lives hw => exact .lives (hstarted.trans hquiet.registration hw)
    | ends hw hdone =>
        exact .ends (hstarted.trans hquiet.registration hw) hdone
  · have hfreed := hout.freed hfound hregistered hf hcall
    rwa [hquiet.originFd, hquiet.registered] at hfreed
  · obtain ⟨vs', hvs', hasked'⟩ := askedOnce_inductive.step hstep trivial
      ⟨vs, hvs, fun _ => hbefore⟩
    exact ⟨vs', hvs', hasked' hgoes⟩

end Socksv5
