import Socksv5.Session.Room

/-!
# What a session waits for

A session goes on when the selector hands one of its descriptors to it, or when
its resolver thread or the notification of that is outstanding.  The interest in
the client is cleared before the session connects to its origin, and whatever
does not arm something again leaves the session waiting for nothing.
-/

namespace Socksv5

open Support

/-- The descriptor is waited for to be written to. -/
def FdSelector.WritesTo (s : FdSelector) (fd : ℤ) : Prop :=
  ∃ i, s.interest? fd = some i ∧ i.writes = true

instance (s : FdSelector) (fd : ℤ) : Decidable (s.WritesTo fd) :=
  decidable_of_iff (∃ i ∈ s.interest? fd, i.writes = true) Iff.rfl

/-- Something is to come for the session: an event of one of its descriptors,
an answer of the resolver, or the notification of one. -/
def World.HasProgress (w : World) : Prop :=
  ∃ fd, w.session.Owns fd ∧
    ((∃ i, w.selector.interest? fd = some i ∧ i ≠ .noop) ∨ fd ∈ w.threads ∨
      fd ∈ w.selector.resolutionJobs)

/-- The attempt fails at once, or is in progress and can be registered. -/
def Attempt.WaitedFor (a : Attempt) (s : FdSelector) (realloc : Bool) : Prop :=
  a.failsAtOnce = true ∨
    (a.connect = .inProgress ∧ ∃ n ∈ a.socket, s.HasRoom realloc n)

instance (a : Attempt) (s : FdSelector) (realloc : Bool) :
    Decidable (a.WaitedFor s realloc) :=
  inferInstanceAs (Decidable (_ ∨ (_ ∧ ∃ n ∈ a.socket, _)))

/-- Reading the request leads to something that is waited for: an attempt, or a
thread. -/
def RequestWaits (w : World) (fd : ℤ) (sys : Sys) : Prop :=
  ∀ p ∈ w.readRequest sys fd, p.2.state = .done →
    if p.2.atyp = 1 ∨ p.2.atyp = 4 then
      (sys.attempts 0).WaitedFor w.selector sys.realloc
    else sys.malloc = true ∧ sys.pthreadCreate = 0

instance (w : World) (fd : ℤ) (sys : Sys) : Decidable (RequestWaits w fd sys) :=
  inferInstanceAs (Decidable (∀ p ∈ w.readRequest sys fd, _))

/-- The relay arms the descriptor that it means to, and the origin's stream does
not end on bytes in its buffer that nobody waits to write to the client. -/
def RelayWaits (w : World) (r : Ready) (fd : ℤ) (sys : Sys) : Prop :=
  ∀ side ∈ w.session.side? fd,
    uint8 (side.peer.fd w.session) = side.peer.fd w.session ∧
      (r = .read → side = .origin → Ends sys w.session.readBuffer →
        w.session.readBuffer.pending ≠ [] →
        w.selector.WritesTo w.session.clientFd)

instance (w : World) (r : Ready) (fd : ℤ) (sys : Sys) :
    Decidable (RelayWaits w r fd sys) :=
  inferInstanceAs (Decidable (∀ side ∈ w.session.side? fd, _))

/-- The event leaves the session with something to wait for. -/
def WaitingEvent (s : GlobalState) (w : World) : Event → Prop
  | .dispatch r fd sys =>
      (s = .requestRead → RequestWaits w fd sys) ∧
      (s = .originConnect → r = .block →
        ∀ a ∈ lastMade sys.attempts 0 w.session.originResolution,
          a.failsAtOnce = true ∨ a.connect = .inProgress) ∧
      (s = .copy → RelayWaits w r fd sys)
  | .resolved _ _ alloc => alloc = true
  | _ => True

instance (s : GlobalState) (w : World) (e : Event) :
    Decidable (WaitingEvent s w e) :=
  match e with
  | .dispatch r _ sys => inferInstanceAs (Decidable (_ ∧ (_ → r = .block →
      ∀ a ∈ lastMade sys.attempts 0 w.session.originResolution, _) ∧ _))
  | .resolved _ _ alloc => inferInstanceAs (Decidable (alloc = true))
  | .connectionEnds _ | .others _ _ => inferInstanceAs (Decidable True)

/-! ## Interests that stay -/

/-- A change of interest that keeps a property of the interests. -/
theorem ChangesInterest.keeps {P : FdInterest → Prop} {s s' : FdSelector}
    {fd d : ℤ} {change : FdInterest → Option FdInterest} {ret : SelectorStatus}
    (h : ChangesInterest s fd change ret s')
    (hkeep : d = fd → ∀ i, P i → P ((change i).getD i))
    (hd : ∃ i, s.interest? d = some i ∧ P i) :
    ∃ i, s'.interest? d = some i ∧ P i := by
  cases h with
  | refused => exact hd
  | changed i hi hs =>
      rw [hs]
      obtain ⟨j, hj, hP⟩ := hd
      by_cases hfd : d = fd
      · subst hfd
        rw [hi] at hj
        cases hj
        rw [Function.update_self]
        exact ⟨_, rfl, hkeep rfl i hP⟩
      · rw [Function.update_of_ne hfd]
        exact ⟨j, hj, hP⟩

/-- A change of interest that succeeds gives the descriptor the property. -/
theorem ChangesInterest.gains {P : FdInterest → Prop} {s s' : FdSelector}
    {fd : ℤ} {change : FdInterest → Option FdInterest}
    (h : ChangesInterest s fd change .success s')
    (hgain : ∀ i, P ((change i).getD i)) :
    ∃ i, s'.interest? fd = some i ∧ P i := by
  obtain ⟨i, -, hs⟩ := h.interest_eq
  rw [hs, Function.update_self]
  exact ⟨_, rfl, hgain i⟩

/-- The client is waited for. -/
def Listens (w : World) : Prop :=
  ∃ i, w.selector.interest? w.session.clientFd = some i ∧ i ≠ .noop

theorem Listens.of_same {w w' : World} (hw : Listens w)
    (hclient : w'.session.clientFd = w.session.clientFd)
    (hselector : w'.selector = w.selector) : Listens w' := by
  rw [Listens, hclient, hselector]
  exact hw

/-- Another interest is set, in whatever descriptor. -/
theorem Listens.of_changes {w w' : World} {fd : ℤ} {i : FdInterest}
    {s : FdSelector} {ret : SelectorStatus} (hw : Listens w) (hi : i ≠ .noop)
    (h : ChangesInterest w.selector fd (fun _ => some i) ret s)
    (hclient : w'.session.clientFd = w.session.clientFd)
    (hselector : w'.selector = s) : Listens w' := by
  rw [Listens, hclient, hselector]
  exact h.keeps (fun _ _ _ => hi) hw

/-- The interest in the client is set. -/
theorem listens_of_client {w w' : World} {i : FdInterest} {s₀ s : FdSelector}
    (hi : i ≠ .noop)
    (h : ChangesInterest s₀ w.session.clientFd (fun _ => some i) .success s)
    (hclient : w'.session.clientFd = w.session.clientFd)
    (hselector : w'.selector = s) : Listens w' := by
  rw [Listens, hclient, hselector]
  exact h.gains fun _ => hi

theorem Listens.hasProgress {w : World} (hw : Listens w) : w.HasProgress := by
  have hreg : w.selector.Registered w.session.clientFd := by
    obtain ⟨i, hi, -⟩ := hw
    rw [FdSelector.Registered, hi]
    exact Option.some_ne_none i
  exact ⟨_, ⟨hreg.nonneg, .inl rfl⟩, .inl hw⟩

theorem hasProgress_of_interest {w : World} {fd : ℤ} {i : FdInterest}
    (hfd : fd = w.session.clientFd ∨ fd = w.session.originFd)
    (h : w.selector.interest? fd = some i) (hi : i ≠ .noop) :
    w.HasProgress := by
  have hreg : w.selector.Registered fd := by
    rw [FdSelector.Registered, h]
    exact Option.some_ne_none i
  exact ⟨fd, ⟨hreg.nonneg, hfd⟩, .inl ⟨i, h, hi⟩⟩

/-! ## The handshake -/

/-- Until the session connects to its origin, and while it replies, the client
is waited for. -/
theorem onReady_listens {sys : Sys} {fd : ℤ} {s ret : GlobalState} {r : Ready}
    {f : Callback} {w w' : World} (hs : s ≠ .originConnect) (hcopy : s ≠ .copy)
    (herror : ret ≠ .error) (hconnect : ret ≠ .originConnect)
    (hret : ret ≠ .copy) (hf : onReady sys fd s r = some f)
    (h : f w = .ok (ret, w')) (hw : Listens w) : Listens w' := by
  cases s <;> cases r <;> cases hf
  case greetingRead.read =>
      cases greetingRead_spec h with
      | failed => exact absurd rfl herror
      | waits => exact hw.of_same rfl rfl
      | answers _ _ _ _ hset => exact hw.of_changes (by decide) hset rfl rfl
  case greetingWrite.write =>
      cases greetingWrite_spec h with
      | failed => exact absurd rfl herror
      | partly => exact hw.of_same rfl rfl
      | wholly _ _ hset => exact hw.of_changes (by decide) hset rfl rfl
  case authRead.read =>
      cases authRead_spec h with
      | failed => exact absurd rfl herror
      | waits => exact hw.of_same rfl rfl
      | answers _ _ _ _ hset => exact hw.of_changes (by decide) hset rfl rfl
  case authWrite.write =>
      cases authWrite_spec h with
      | failed => exact absurd rfl herror
      | partly => exact hw.of_same rfl rfl
      | wholly _ _ hset => exact hw.of_changes (by decide) hset rfl rfl
  case requestRead.read =>
      cases requestRead_spec h with
      | failed => exact absurd rfl herror
      | waits => exact hw.of_same rfl rfl
      | decides _ _ hto hset =>
          rcases hto with ⟨-, rfl, -⟩ | ⟨-, rfl, rfl⟩
          · exact absurd rfl hconnect
          · exact hw.of_changes (by decide) hset rfl rfl
  case requestWrite.write =>
      cases requestWrite_spec h with
      | failed => exact absurd rfl herror
      | partly => exact hw.of_same rfl rfl
      | refuses => exact hw.of_same rfl rfl
      | grants => exact absurd rfl hret
  case originConnect.write => exact absurd rfl hs
  case originConnect.block => exact absurd rfl hs
  case copy.read => exact absurd rfl hcopy
  case copy.write => exact absurd rfl hcopy

/-! ## Connecting -/

/-- The origin, the resolver or its notification is waited for. -/
def Connecting (w : World) : Prop :=
  w.selector.WritesTo w.session.originFd ∨ w.session.clientFd ∈ w.threads ∨
    w.session.clientFd ∈ w.selector.resolutionJobs

theorem Connecting.hasProgress {w : World} (hseated : Seated w)
    (hw : Connecting w) : w.HasProgress := by
  rcases hw with ⟨i, hi, hwrites⟩ | hw | hw
  · refine hasProgress_of_interest (.inr rfl) hi ?_
    rintro rfl
    cases hwrites
  · exact ⟨_, ⟨hseated.nonneg, .inl rfl⟩, .inr (.inl hw)⟩
  · exact ⟨_, ⟨hseated.nonneg, .inl rfl⟩, .inr (.inr hw)⟩

/-- An attempt in progress that could be registered is waited for. -/
theorem writesTo_of_register {s s' : FdSelector} {fd : ℤ} {handler : FdHandler}
    {data : Option ℕ} {alloc : Bool}
    (h : selectorRegister s fd (some handler) .write data alloc =
      .ok (.success, s')) : s'.WritesTo fd := by
  rcases selectorRegister_cases h with ⟨hstatus, -⟩ | ⟨-, -, -, hs, -⟩
  · exact absurd rfl hstatus
  · rw [FdSelector.WritesTo, hs, Function.update_self]
    exact ⟨.write, rfl, rfl⟩

/-- An attempt that is not given up, and not connected at once, is waited
for. -/
theorem Attempted.writesTo {a : Attempt} {realloc : Bool} {fd : ℤ}
    {w w' : World} (h : Attempted a realloc fd w .originConnect w')
    (ha : a.failsAtOnce = true ∨ a.connect = .inProgress) :
    w'.selector.WritesTo w'.session.originFd := by
  have hnot (status : SelectorStatus) :
      afterInterest status .requestWrite ≠ .originConnect := by
    rcases afterInterest_state status .requestWrite with heq | heq <;>
      rw [heq] <;> decide
  generalize hret : GlobalState.originConnect = ret at h
  cases h with
  | noSocket => exact absurd hret.symm (hnot _)
  | noNio => exact absurd hret.symm (hnot _)
  | refused => exact absurd hret.symm (hnot _)
  | connected hsocket hnio hconnect =>
      rcases ha with ha | ha
      · simp [Attempt.failsAtOnce, hsocket, hnio, hconnect] at ha
      · rw [hconnect] at ha
        cases ha
  | @inProgress n request addr status s _ _ _ _ hregister =>
      by_cases hstatus : status = .success
      · subst hstatus
        exact writesTo_of_register hregister
      · rw [afterInterest, if_neg hstatus] at hret
        cases hret

theorem Attempt.WaitedFor.of_fdSize {a : Attempt} {s s' : FdSelector}
    {realloc : Bool} (h : a.WaitedFor s realloc) (hsize : s'.fdSize = s.fdSize) :
    a.WaitedFor s' realloc := by
  refine h.imp_right (And.imp_right fun ⟨n, hn, hfd, hroom⟩ => ?_)
  exact ⟨n, hn, hfd, hsize ▸ hroom⟩

/-- The attempt for a request leads to something that is waited for. -/
theorem Attempted.waitedFor {a : Attempt} {realloc : Bool} {w w' : World}
    {ret : GlobalState}
    (h : Attempted a realloc w.session.clientFd w ret w')
    (hclient : w.selector.Registered w.session.clientFd)
    (hfresh : ∀ n ∈ a.socket, ¬ w.selector.Registered n)
    (ha : a.WaitedFor w.selector realloc) :
    (ret = .requestWrite ∧ Listens w') ∨
      (ret = .originConnect ∧ Connecting w') := by
  have hanswers {status : SelectorStatus} {s : FdSelector}
      (hs : ChangesInterest w.selector w.session.clientFd
        (fun _ => some .write) status s) :
      afterInterest status .requestWrite = .requestWrite ∧
        ∃ i, s.interest? w.session.clientFd = some i ∧ i ≠ .noop := by
    obtain rfl := hs.success_of_registered hclient
    have hlistens : Listens { w with selector := s } :=
      listens_of_client (by decide) hs rfl rfl
    exact ⟨rfl, hlistens⟩
  cases h with
  | noSocket _ hs => exact .inl (hanswers hs)
  | noNio _ _ hs => exact .inl (hanswers hs)
  | refused _ _ _ _ hs => exact .inl (hanswers hs)
  | connected hsocket hnio hconnect =>
      rcases ha with ha | ⟨ha, -⟩
      · simp [Attempt.failsAtOnce, hsocket, hnio, hconnect] at ha
      · rw [hconnect] at ha
        cases ha
  | inProgress hsocket hnio hconnect _ hregister =>
      rcases ha with ha | ⟨-, n, hn, hroom⟩
      · simp [Attempt.failsAtOnce, hsocket, hnio, hconnect] at ha
      · rw [hsocket] at hn
        cases hn
        have hnone := not_not.mp (hfresh _ hsocket)
        obtain rfl := selectorRegister_success hregister hroom hnone
        exact .inr ⟨rfl, .inl (writesTo_of_register hregister)⟩

/-- The session is in a state that `connect_origin_block` returns, and waits
for something. -/
theorem Resolves.waits {sys : Sys} {fd : ℤ} {k : ℕ} {addrs : List SockAddr}
    {w w' : World} {ret : GlobalState} (h : Resolves sys fd k addrs w ret w')
    (hreg : w.selector.Registered fd)
    (hlast : ∀ a ∈ lastMade sys.attempts k addrs,
      a.failsAtOnce = true ∨ a.connect = .inProgress) :
    ret = .error ∨ (ret = .requestWrite ∧ Listens w') ∨
      (ret = .originConnect ∧ Connecting w') := by
  induction h with
  | exhausted h =>
      cases h with
      | failed => exact .inl rfl
      | answers hs =>
          exact .inr (.inl ⟨rfl, listens_of_client (by decide) hs rfl rfl⟩)
  | @settles k addr rest w w' h =>
      have hstops : (sys.attempts k).failsAtOnce = false := by
        rw [← Bool.not_eq_true]
        intro hfails
        have := (h.of_failsAtOnce hfails hreg).1
        cases this
      have hwrites := h.writesTo (hlast _ (lastMade_of_stops (.inl hstops)))
      exact .inr (.inr ⟨rfl, .inl hwrites⟩)
  | breaks => exact .inl rfl
  | @goesOn k addr rest w w₁ w' ret h _ ih =>
      have hfails : (sys.attempts k).failsAtOnce = true := by
        by_contra hstops
        exact h.ne_requestWrite (by simpa using hstops) rfl
      obtain ⟨-, -, hregistered, -⟩ := h.of_failsAtOnce hfails hreg
      refine ih ((hregistered fd).mpr hreg) ?_
      intro a ha
      have hrest : rest ≠ [] := by
        rintro rfl
        cases ha
      exact hlast a (by rwa [lastMade_of_goesOn hfails hrest])

/-- A thread that could be created is waited for. -/
theorem connectThroughFqdn_waits {sys : Sys} {w w' : World} {ret : GlobalState}
    (h : connectThroughFqdn sys w.session.clientFd w = .ok (ret, w'))
    (hmalloc : sys.malloc = true) (hcreate : sys.pthreadCreate = 0) :
    ret = .originConnect ∧ Connecting w' := by
  unfold connectThroughFqdn at h
  rw [hmalloc, hcreate] at h
  obtain ⟨⟨status, w₁⟩, hset, h⟩ := bind_eq_ok.mp h
  obtain ⟨s, -, rfl⟩ := World.setInterestKey_spec hset
  cases h
  exact ⟨rfl, .inr (.inl (List.mem_cons_self ..))⟩

/-- The arrival at `ORIGIN_CONNECT` leads to something that is waited for. -/
theorem connectOriginInit_waits {sys : Sys} {w w' : World} {ret : GlobalState}
    (h : connectOriginInit sys w.session.clientFd w = .ok (ret, w'))
    (horigin : w.session.originFd < 0)
    (hclient : w.selector.Registered w.session.clientFd)
    (hfresh : ∀ n ∈ (sys.attempts 0).socket, ¬ w.selector.Registered n)
    (hwaits : if w.session.request.parser.atyp = 1 ∨
        w.session.request.parser.atyp = 4 then
      (sys.attempts 0).WaitedFor w.selector sys.realloc
    else sys.malloc = true ∧ sys.pthreadCreate = 0) :
    (ret = .requestWrite ∧ Listens w') ∨
      (ret = .originConnect ∧ Connecting w') := by
  unfold connectOriginInit connectToOrigin at h
  rw [if_pos horigin] at h
  by_cases hatyp : w.session.request.parser.atyp = 1 ∨
      w.session.request.parser.atyp = 4
  · simp only [hatyp, if_true] at h hwaits
    exact (connectThroughIp_spec h).waitedFor hclient hfresh hwaits
  · simp only [hatyp, if_false] at h hwaits
    exact .inr (connectThroughFqdn_waits h hwaits.1 hwaits.2)

/-! ## The relay -/

theorem additive_writes {i j : FdInterest} (hi : i.writes = true) :
    ((additive j i).getD i).writes = true := by
  revert hi
  cases i <;> cases j <;> decide

theorem additive_reads {i j : FdInterest} (hi : i.reads = true) :
    ((additive j i).getD i).reads = true := by
  revert hi
  cases i <;> cases j <;> decide

theorem reduction_read_writes {i : FdInterest} (hi : i.writes = true) :
    ((reduction .read i).getD i).writes = true := by
  revert hi
  cases i <;> decide

theorem reduction_write_reads {i : FdInterest} (hi : i.reads = true) :
    ((reduction .write i).getD i).reads = true := by
  revert hi
  cases i <;> decide

/-- What the relay waits for.  As long as it reads, the origin is read, or the
client written what it sent; afterwards a side is written what is left for
it. -/
structure RelayArmed (w : World) : Prop where
  running : checkCloseConnection w.session.copy = .copy
  reading : w.session.copy.readingClient = w.session.copy.readingOrigin
  origin : w.session.copy.readingOrigin = true →
    w.selector.ReadsFrom w.session.originFd ∨
      (w.session.readBuffer.pending ≠ [] ∧
        w.selector.WritesTo w.session.clientFd)
  unsent : w.session.copy.readingOrigin = true →
    w.session.writeBuffer.pending ≠ [] →
    w.selector.WritesTo w.session.originFd
  closing : w.session.copy.readingOrigin = false → ∀ side : Side,
    side.writing w.session.copy = true →
    (side.outbox w.session).pending ≠ [] ∧
      w.selector.WritesTo (side.fd w.session)

theorem RelayArmed.hasProgress {w : World} (hw : RelayArmed w) : w.HasProgress := by
  have hreads {fd : ℤ} (hfd : fd = w.session.clientFd ∨ fd = w.session.originFd)
      (h : w.selector.ReadsFrom fd) : w.HasProgress := by
    obtain ⟨i, hi, hreads⟩ := h
    refine hasProgress_of_interest hfd hi ?_
    rintro rfl
    cases hreads
  have hwrites {fd : ℤ}
      (hfd : fd = w.session.clientFd ∨ fd = w.session.originFd)
      (h : w.selector.WritesTo fd) : w.HasProgress := by
    obtain ⟨i, hi, hwrites⟩ := h
    refine hasProgress_of_interest hfd hi ?_
    rintro rfl
    cases hwrites
  cases hreading : w.session.copy.readingOrigin with
  | true =>
      rcases hw.origin hreading with h | ⟨-, h⟩
      · exact hreads (.inr rfl) h
      · exact hwrites (.inl rfl) h
  | false =>
      have hclosing := hw.closing hreading
      by_cases hclient : w.session.copy.writingClient = true
      · exact hwrites (.inl rfl) (hclosing .client hclient).2
      · by_cases horigin : w.session.copy.writingOrigin = true
        · exact hwrites (.inr rfl) (hclosing .origin horigin).2
        · have hrunning := hw.running
          rw [checkCloseConnection, if_pos ⟨hw.reading.trans hreading, hreading,
            by simpa using horigin, by simpa using hclient⟩] at hrunning
          cases hrunning

/-- `copy_read` leaves something to wait for. -/
theorem CopyReads.armed {sys : Sys} {side : Side} {w w' : World}
    (h : CopyReads sys side (side.fd w.session) w .copy w') (hw : RelayArmed w)
    (hne : w.session.originFd ≠ w.session.clientFd)
    (hfits : uint8 (side.peer.fd w.session) = side.peer.fd w.session)
    (hends : side = .origin → Ends sys w.session.readBuffer →
      w.session.readBuffer.pending ≠ [] →
      w.selector.WritesTo w.session.clientFd) : RelayArmed w' := by
  generalize hret : GlobalState.copy = ret at h
  cases h with
  | failed | unclosed => cases hret
  | closes =>
      have hdone : checkCloseConnection (side.peer.stopWriting
          (endOfStream w.session.copy side)) = .done := by
        refine checkCloseConnection_eq_done_iff.mpr fun side' => ?_
        cases side <;> cases side' <;> exact ⟨rfl, rfl⟩
      rw [hdone] at hret
      cases hret
  | @relays bs b sniffer status s s' hreceives hs hs' =>
      rw [hfits] at hs'
      have hstatus : status = .success := by
        by_contra hnot
        rw [afterInterest, if_neg hnot] at hret
        cases hret
      subst hstatus
      have hfilled : b.pending ≠ [] := by
        cases hreceives with
        | data _ hbs hpending =>
            rw [hpending]
            exact fun h => hbs (List.append_eq_nil_iff.mp h).2
      have hgained : s'.WritesTo (side.peer.fd w.session) :=
        hs'.gains fun i => by cases i <;> decide
      have hwrites {d : ℤ} (hd : w.selector.WritesTo d) : s'.WritesTo d :=
        hs'.keeps (fun _ _ => additive_writes)
          (hs.keeps (fun _ _ => reduction_read_writes) hd)
      cases side with
      | client =>
          have hreads (hd : w.selector.ReadsFrom w.session.originFd) :
              s'.ReadsFrom w.session.originFd :=
            hs'.keeps (fun _ _ => additive_reads)
              (hs.keeps (fun heq => absurd heq hne) hd)
          refine ⟨hw.running, hw.reading, ?_, fun _ _ => hgained, ?_⟩
          · exact fun hreading =>
              (hw.origin hreading).imp hreads (And.imp_right hwrites)
          · intro hreading side' hwriting
            cases side' with
            | client =>
                exact (hw.closing hreading .client hwriting).imp_right hwrites
            | origin => exact ⟨hfilled, hgained⟩
      | origin =>
          refine ⟨hw.running, hw.reading, fun _ => .inr ⟨hfilled, hgained⟩,
            fun hreading hunsent => hwrites (hw.unsent hreading hunsent), ?_⟩
          intro hreading side' hwriting
          cases side' with
          | client => exact ⟨hfilled, hgained⟩
          | origin =>
              exact (hw.closing hreading .origin hwriting).imp_right hwrites
  | @holds s hend hpending hs =>
      have hwrites {d : ℤ} (hd : w.selector.WritesTo d) : s.WritesTo d :=
        hs.keeps (fun _ _ => reduction_read_writes) hd
      have hpeer (hreading : w.session.copy.readingOrigin = true) :
          w.selector.WritesTo (side.peer.fd w.session) := by
        cases side with
        | client => exact hw.unsent hreading hpending
        | origin => exact hends rfl hend hpending
      refine ⟨hret.symm, by cases side <;> rfl, ?_, ?_, ?_⟩
      · intro hreading
        cases side <;> cases hreading
      · intro hreading
        cases side <;> cases hreading
      · intro _ side' hwriting
        have hside : side' = side.peer := by
          cases side <;> cases side' <;> first | rfl | cases hwriting
        subst hside
        have hbefore : side.peer.writing w.session.copy = true := by
          cases side <;> exact hwriting
        cases hreading : w.session.copy.readingOrigin with
        | true =>
            have harmed := hwrites (hpeer hreading)
            cases side <;> exact ⟨hpending, harmed⟩
        | false =>
            have harmed :=
              (hw.closing hreading side.peer hbefore).imp_right hwrites
            cases side <;> exact harmed

/-- `copy_write` leaves something to wait for. -/
theorem CopyWrites.armed {sys : Sys} {side : Side} {w w' : World}
    (h : CopyWrites sys side (side.fd w.session) w .copy w') (hw : RelayArmed w)
    (hne : w.session.originFd ≠ w.session.clientFd)
    (hfits : uint8 (side.peer.fd w.session) = side.peer.fd w.session) :
    RelayArmed w' := by
  have hreading_eq : side.peer.reading w.session.copy =
      w.session.copy.readingOrigin := by
    cases side with
    | client => rfl
    | origin => exact hw.reading
  have hsome {bs : List UInt8} {b : Buffer}
      (h : Sends sys (side.outbox w.session) (some (bs, b))) :
      (side.outbox w.session).pending ≠ [] := by
    cases h with
    | sent _ _ hbs hpending =>
        rw [hpending]
        exact fun h => hbs (List.append_eq_nil_iff.mp h).1
  generalize hret : GlobalState.copy = ret at h
  cases h with
  | failed | unclosed => cases hret
  | @partly bs b sniffer status s hsends hleft hreading hs =>
      rw [hfits] at hs
      rw [hreading_eq] at hreading
      have hstatus : status = .success := by
        by_contra hnot
        rw [afterInterest, if_neg hnot] at hret
        cases hret
      subst hstatus
      have hgained : s.ReadsFrom (side.peer.fd w.session) :=
        hs.gains fun i => by cases i <;> decide
      have hwrites {d : ℤ} (hd : w.selector.WritesTo d) : s.WritesTo d :=
        hs.keeps (fun _ _ => additive_writes) hd
      have hreads {d : ℤ} (hd : w.selector.ReadsFrom d) : s.ReadsFrom d :=
        hs.keeps (fun _ _ => additive_reads) hd
      have hnot (h : w.session.copy.readingOrigin = false) : False := by
        rw [hreading] at h
        cases h
      cases side with
      | client =>
          exact ⟨hw.running, hw.reading, fun _ => .inl hgained,
            fun _ hunsent => hwrites (hw.unsent hreading hunsent),
            fun h => (hnot h).elim⟩
      | origin =>
          exact ⟨hw.running, hw.reading,
            fun _ => (hw.origin hreading).imp hreads (And.imp_right hwrites),
            fun _ _ => hwrites (hw.unsent hreading (hsome hsends)),
            fun h => (hnot h).elim⟩
  | @partlyLast bs b sniffer hsends hleft hreading =>
      rw [hreading_eq] at hreading
      have hnot (h : w.session.copy.readingOrigin = true) : False := by
        rw [hreading] at h
        cases h
      have hclosing := hw.closing hreading
      cases side with
      | client =>
          refine ⟨hw.running, hw.reading, fun h => (hnot h).elim,
            fun h => (hnot h).elim, ?_⟩
          intro _ side' hwriting
          cases side' with
          | client => exact ⟨hleft, (hclosing .client hwriting).2⟩
          | origin => exact hclosing .origin hwriting
      | origin =>
          refine ⟨hw.running, hw.reading, fun h => (hnot h).elim,
            fun h => (hnot h).elim, ?_⟩
          intro _ side' hwriting
          cases side' with
          | client => exact hclosing .client hwriting
          | origin => exact ⟨hleft, (hclosing .origin hwriting).2⟩
  | @wholly bs b sniffer status s s' hsends hempty hreading hs hs' =>
      rw [hfits] at hs'
      rw [hreading_eq] at hreading
      have hstatus : status = .success := by
        by_contra hnot
        rw [afterInterest, if_neg hnot] at hret
        cases hret
      subst hstatus
      have hgained : s'.ReadsFrom (side.peer.fd w.session) :=
        hs'.gains fun i => by cases i <;> decide
      have hreads {d : ℤ} (hd : w.selector.ReadsFrom d) : s'.ReadsFrom d :=
        hs'.keeps (fun _ _ => additive_reads)
          (hs.keeps (fun _ _ => reduction_write_reads) hd)
      have hwrites {d : ℤ} (hd : w.selector.WritesTo d)
          (hother : d ≠ side.fd w.session) : s'.WritesTo d :=
        hs'.keeps (fun _ _ => additive_writes)
          (hs.keeps (fun heq => absurd heq hother) hd)
      have hnot (h : w.session.copy.readingOrigin = false) : False := by
        rw [hreading] at h
        cases h
      cases side with
      | client =>
          exact ⟨hw.running, hw.reading, fun _ => .inl hgained,
            fun _ hunsent => hwrites (hw.unsent hreading hunsent) hne,
            fun h => (hnot h).elim⟩
      | origin =>
          exact ⟨hw.running, hw.reading,
            fun _ => (hw.origin hreading).imp hreads
              (And.imp_right fun h => hwrites h (Ne.symm hne)),
            fun _ hunsent => absurd hempty hunsent, fun h => (hnot h).elim⟩
  | @closes bs b sniffer s hsends hempty hreading hs =>
      rw [hreading_eq] at hreading
      have hnot (h : w.session.copy.readingOrigin = true) : False := by
        rw [hreading] at h
        cases h
      have hclosing := hw.closing hreading
      cases side with
      | client =>
          refine ⟨hret.symm, hw.reading, fun h => (hnot h).elim,
            fun h => (hnot h).elim, ?_⟩
          intro _ side' hwriting
          cases side' with
          | client => cases hwriting
          | origin =>
              exact (hclosing .origin hwriting).imp_right
                (hs.keeps fun heq => absurd heq hne)
      | origin =>
          refine ⟨hret.symm, hw.reading, fun h => (hnot h).elim,
            fun h => (hnot h).elim, ?_⟩
          intro _ side' hwriting
          cases side' with
          | client =>
              exact (hclosing .client hwriting).imp_right
                (hs.keeps fun heq => absurd heq (Ne.symm hne))
          | origin => cases hwriting

/-! ## Runs -/

/-- What a session in a state waits for. -/
def WaitsIn (s : GlobalState) (w : World) : Prop :=
  match s with
  | .originConnect => Connecting w
  | .copy => RelayArmed w
  | .done | .error => False
  | _ => Listens w

theorem Listens.waitsIn {s : GlobalState} {w : World} (hw : Listens w)
    (hconnect : s ≠ .originConnect) (hcopy : s ≠ .copy)
    (hend : ¬ (s = .done ∨ s = .error)) : WaitsIn s w := by
  cases s with
  | originConnect => exact absurd rfl hconnect
  | copy => exact absurd rfl hcopy
  | done | error => exact absurd (by simp) hend
  | greetingRead | greetingWrite | authRead | authWrite | requestRead
  | requestWrite => exact hw

theorem WaitsIn.listens {s : GlobalState} {w : World} (hw : WaitsIn s w)
    (hconnect : s ≠ .originConnect) (hcopy : s ≠ .copy) : Listens w := by
  cases s with
  | originConnect => exact absurd rfl hconnect
  | copy => exact absurd rfl hcopy
  | done | error => exact hw.elim
  | greetingRead | greetingWrite | authRead | authWrite | requestRead
  | requestWrite => exact hw

theorem WaitsIn.hasProgress {s : GlobalState} {w : World} (hw : WaitsIn s w)
    (hseated : Seated w) : ¬ (s = .done ∨ s = .error) ∧ w.HasProgress := by
  constructor
  · rintro (rfl | rfl) <;> exact hw
  · by_cases hconnect : s = .originConnect
    · subst hconnect
      exact Connecting.hasProgress hseated hw
    · by_cases hcopy : s = .copy
      · subst hcopy
        exact RelayArmed.hasProgress hw
      · exact (hw.listens hconnect hcopy).hasProgress

/-- A request that has been granted leaves the relay reading the origin. -/
theorem RequestWrites.armed {sys : Sys} {fd : ℤ} {w w' : World}
    (h : RequestWrites sys fd w .copy w') : RelayArmed (copyInit w') := by
  cases h with
  | grants _ _ hempty _ _ hset =>
      refine ⟨rfl, rfl, fun _ => .inl (hset.gains fun _ => rfl), ?_, ?_⟩
      · exact fun _ hunsent => absurd hempty hunsent
      · intro hreading
        cases hreading

theorem Follows.of_copy {s : GlobalState} (h : Follows .copy s) :
    s = .done ∨ s = .error := by
  revert h
  cases s <;> decide

section Dispatch

variable {sys : Sys} {fd : ℤ} {s ret : GlobalState} {r : Ready} {f : Callback}
  {vs via : List GlobalState} {w w₁ w₂ : World}

/-- A request that is complete leads to something that is waited for. -/
theorem requestRead_waits (hgate : Gate vs .requestRead w) (hseated : Seated w)
    (hwaits : RequestWaits w fd sys) (hhands : w.Hands .alone r fd)
    (hkernel : w.Kernel sys)
    (h : requestRead sys fd w = .ok (.originConnect, w₁))
    (hinit : connectOriginInit sys fd w₁ = .ok (ret, w₂)) :
    (ret = .requestWrite ∧ Listens w₂) ∨
      (ret = .originConnect ∧ Connecting w₂) := by
  have horigin := hgate.understood.1
  obtain rfl := hhands.1.eq_clientFd horigin
  have hquiet := requestRead_quiet h
  have hseated₁ := hseated.of_quiet hquiet
  obtain ⟨hread, hdone⟩ := requestRead_parsed h
  have hnext := hwaits _ hread hdone
  rw [← hquiet.clientFd] at hinit
  refine connectOriginInit_waits hinit ?_ hseated₁.client ?_ ?_
  · rw [hquiet.originFd, horigin]
    decide
  · intro n hn
    rw [hquiet.registered]
    exact (hkernel.fresh 0 n hn).1
  · by_cases hatyp : w₁.session.request.parser.atyp = 1 ∨
        w₁.session.request.parser.atyp = 4
    · simp only [hatyp, if_true] at hnext ⊢
      exact hnext.of_fdSize hquiet.fdSize
    · simp only [hatyp, if_false] at hnext ⊢
      exact hnext

/-- A dispatch in the handshake, or while the session replies. -/
theorem Listens.dispatched (hw : Listens w) (hs : s ≠ .originConnect)
    (hcopy : s ≠ .copy) (hgate : Gate vs s w) (hseated : Seated w)
    (hwaits : s = .requestRead → RequestWaits w fd sys)
    (hhands : w.Hands .alone r fd) (hkernel : w.Kernel sys)
    (hf : onReady sys fd s r = some f) (h : f w = .ok (ret, w₁))
    (hout : Outcome sys fd s ret w₁ via w₂) (hlive : w₂.destroyed = false) :
    WaitsIn (via.getLastD s) w₂ := by
  have hfollows := onReady_follows hf hhands.2.1 h
  have hstate := onReady_live hf
  cases hout with
  | stays =>
      refine (onReady_listens hs hcopy ?_ hs hcopy hf h hw).waitsIn hs hcopy
        hstate
      exact fun herror => hstate (.inr herror)
  | enters hne hconnect hdone herror =>
      by_cases hret : ret = .copy
      · subst hret
        obtain rfl := (hfollows.resolve_left hne).eq_requestWrite
        cases r <;> cases hf
        exact (requestWrite_spec h).armed
      · have hlistens := onReady_listens hs hcopy herror hconnect hret hf h hw
        obtain ⟨hselector, hclient⟩ := arrived_selector ret w₁
        exact (hlistens.of_same hclient hselector).waitsIn hconnect hret
          fun hend => hend.elim hdone herror
  | connects hne hinit =>
      obtain rfl := (hfollows.resolve_left (Ne.symm hne)).eq_requestRead
      cases r <;> cases hf
      rcases requestRead_waits hgate hseated (hwaits rfl) hhands hkernel h hinit
        with ⟨hret, -⟩ | ⟨-, hconnecting⟩
      · cases hret
      · exact hconnecting
  | redirected hne hinit hto =>
      obtain rfl := (hfollows.resolve_left (Ne.symm hne)).eq_requestRead
      cases r <;> cases hf
      rcases requestRead_waits hgate hseated (hwaits rfl) hhands hkernel h hinit
        with ⟨rfl, hlistens⟩ | ⟨rfl, -⟩
      · exact hlistens
      · rcases hto with hto | hto <;> cases hto
  | ends _ hdone =>
      rw [socksv5Done_destroyed hdone] at hlive
      cases hlive

/-- A dispatch while the session connects to its origin. -/
theorem Connecting.dispatched
    (hwaits : r = .block →
      ∀ a ∈ lastMade sys.attempts 0 w.session.originResolution,
        a.failsAtOnce = true ∨ a.connect = .inProgress)
    (hhands : w.Hands .alone r fd)
    (hf : onReady sys fd .originConnect r = some f)
    (h : f (w.delivered r fd) = .ok (ret, w₁))
    (hout : Outcome sys fd .originConnect ret w₁ via w₂)
    (hlive : w₂.destroyed = false) :
    WaitsIn (via.getLastD .originConnect) w₂ := by
  have hcalled : ret = .error ∨ (ret = .requestWrite ∧ Listens w₁) ∨
      (ret = .originConnect ∧ Connecting w₁) := by
    cases r with
    | read => cases hf
    | block =>
        cases hf
        exact (connectOriginBlock_spec h).waits hhands.2.1 (hwaits rfl)
    | write =>
        cases hf
        cases verifyConnection_spec h with
        | failed => exact .inl rfl
        | answers _ _ _ hset =>
            exact .inr (.inl ⟨rfl, listens_of_client (by decide) hset rfl rfl⟩)
  cases hout with
  | stays =>
      rcases hcalled with heq | ⟨heq, -⟩ | ⟨-, hconnecting⟩
      · cases heq
      · cases heq
      · exact hconnecting
  | enters hne hconnect hdone herror =>
      rcases hcalled with rfl | ⟨rfl, hlistens⟩ | ⟨rfl, -⟩
      · exact absurd rfl herror
      · exact hlistens
      · exact absurd rfl hconnect
  | connects hne | redirected hne => exact absurd rfl hne
  | ends _ hdone =>
      rw [socksv5Done_destroyed hdone] at hlive
      cases hlive

/-- A dispatch in the relay. -/
theorem RelayArmed.dispatched (hw : RelayArmed w) (hseated : Seated w)
    (hwaits : RelayWaits w r fd sys) (hhands : w.Hands .alone r fd)
    (hf : onReady sys fd .copy r = some f) (h : f w = .ok (ret, w₁))
    (hout : Outcome sys fd .copy ret w₁ via w₂)
    (hlive : w₂.destroyed = false) : WaitsIn (via.getLastD .copy) w₂ := by
  have hfollows := onReady_follows hf hhands.2.1 h
  cases hout with
  | stays =>
      obtain ⟨side, hside⟩ := hhands.1.exists_side
      obtain ⟨hfits, hends⟩ := hwaits side hside
      obtain rfl := Session.side?_eq hside
      cases r with
      | block => cases hf
      | read =>
          cases hf
          exact (copyRead_spec hside hhands.2.1 h).armed hw hseated.distinct hfits
            (hends rfl)
      | write =>
          cases hf
          exact (copyWrite_spec hside hhands.2.1 h).armed hw hseated.distinct
            hfits
  | enters hne _ hdone herror =>
      exact ((hfollows.resolve_left hne).of_copy.elim hdone herror).elim
  | connects hne | redirected hne =>
      have hto := (hfollows.resolve_left (Ne.symm hne)).of_copy
      rcases hto with hto | hto <;> cases hto
  | ends _ hdone =>
      rw [socksv5Done_destroyed hdone] at hlive
      cases hlive

end Dispatch

theorem Initial.listens {c : Config} (h : Initial c) : Listens c.world := by
  obtain ⟨address, clientFd, s, m, rfl, hs, -⟩ := h
  exact ⟨.read, hs, by decide⟩

theorem waits_inductive : Inductive .alone Basics WaitingEvent
    fun _ s w => w.destroyed = false → WaitsIn s w where
  started := fun w _ hw hlive => (hw hlive).listens (by decide) (by decide)
  startedCondition := by
    intro w e he
    cases e with
    | dispatch =>
        exact ⟨fun h => absurd h (by decide), fun h => absurd h (by decide),
          fun h => absurd h (by decide)⟩
    | resolved => exact he
    | connectionEnds | others => trivial
  dispatched := by
    intro vs s r fd sys w f ret w₁ via w₂ hK hw _ hevent hlive hhands hkernel hf h
      hout hlive'
    obtain ⟨hrequest, hblock, hrelay⟩ := hevent
    have hseated := hK.2 hlive
    have hwaits := hw hlive
    by_cases hconnect : s = .originConnect
    · subst hconnect
      exact Connecting.dispatched (hblock rfl) hhands hf h hout hlive'
    · have hr : r ≠ .block := by
        rintro rfl
        cases s <;> cases hf
        exact hconnect rfl
      rw [World.delivered_eq hr] at h
      by_cases hcopy : s = .copy
      · subst hcopy
        exact RelayArmed.dispatched hwaits hseated (hrelay rfl) hhands hf h hout
          hlive'
      · exact (hwaits.listens hconnect hcopy).dispatched hconnect hcopy hK.1
          hseated hrequest hhands hkernel hf h hout hlive'
  connectionEnds := by
    intro vs s w ok _ hw _ _ hlive
    have hwaits := hw hlive
    cases s with
    | copy =>
        exact ⟨hwaits.running, hwaits.reading, hwaits.origin, hwaits.unsent,
          hwaits.closing⟩
    | _ => exact hwaits
  resolved := by
    intro vs s w fd addrs alloc _ hw halloc hthread hlive
    have halloc : alloc = true := halloc
    subst halloc
    have hwaits := hw hlive
    cases s with
    | copy =>
        exact ⟨hwaits.running, hwaits.reading, hwaits.origin, hwaits.unsent,
          hwaits.closing⟩
    | originConnect =>
        have hwaits : Connecting w := hwaits
        rcases hwaits with hwrites | hmem | hmem
        · exact .inl hwrites
        · by_cases hfd : fd = w.session.clientFd
          · exact .inr (.inr (hfd ▸ List.mem_cons_self ..))
          · exact .inr (.inl ((List.mem_erase_of_ne (Ne.symm hfd)).mpr hmem))
        · exact .inr (.inr (List.mem_cons_of_mem _ hmem))
    | _ => exact hwaits
  others := by
    intro vs s w sel m hK hw _ hsame hlive
    have hseated := hK.2 hlive
    have hwaits := hw hlive
    obtain ⟨-, hclient⟩ := hsame _ ⟨hseated.nonneg, .inl rfl⟩
    obtain ⟨hinterest, hcount⟩ := hclient rfl
    have hkept {P : FdInterest → Prop} {fd : ℤ}
        (hfd : fd = w.session.clientFd ∨ fd = w.session.originFd)
        (h : ∃ i, w.selector.interest? fd = some i ∧ P i) :
        ∃ i, sel.interest? fd = some i ∧ P i := by
      obtain ⟨i, hi, hP⟩ := h
      have hreg : w.selector.Registered fd := by
        rw [FdSelector.Registered, hi]
        exact Option.some_ne_none i
      exact ⟨i, ((hsame _ ⟨hreg.nonneg, hfd⟩).2 rfl).1.trans hi, hP⟩
    by_cases hconnect : s = .originConnect
    · subst hconnect
      have hwaits : Connecting w := hwaits
      refine hwaits.imp (hkept (.inr rfl)) (Or.imp_right fun hmem => ?_)
      exact List.count_pos_iff.mp (hcount ▸ List.count_pos_iff.mpr hmem)
    · by_cases hcopy : s = .copy
      · subst hcopy
        have hwaits : RelayArmed w := hwaits
        refine ⟨hwaits.running, hwaits.reading, fun hreading => ?_,
          fun hreading hunsent =>
            hkept (.inr rfl) (hwaits.unsent hreading hunsent), ?_⟩
        · exact (hwaits.origin hreading).imp (hkept (.inr rfl))
            (And.imp_right (hkept (.inl rfl)))
        · intro hreading side hwriting
          refine (hwaits.closing hreading side hwriting).imp_right (hkept ?_)
          cases side
          · exact .inl rfl
          · exact .inr rfl
      · have hlistens := hwaits.listens hconnect hcopy
        refine Listens.waitsIn (hkept (.inl rfl) hlistens) hconnect hcopy ?_
        rintro (rfl | rfl) <;> exact hwaits

/-- In every run of a session, alone in its interests, whose events all leave it
with something to wait for, it waits for something until it is destroyed, and
its machine is in none of the last states. -/
theorem hasProgress_of_waitingEvents {c₀ c : Config} {tr : List (Config × Event)}
    (h₀ : Initial c₀) (hrun : Run (Step .alone) c₀ tr c)
    (hevents : ∀ x ∈ tr, WaitingEvent x.1.state x.1.world x.2)
    (hlive : c.world.destroyed = false) :
    ¬ (c.state = .done ∨ c.state = .error) ∧ c.world.HasProgress := by
  have hinductive := (basics_inductive .alone).and waits_inductive
  obtain ⟨vs, -, hbasics, hwaits⟩ := hinductive.run hrun hevents h₀.stm_eq
    ⟨h₀.basics, fun _ => h₀.listens⟩
  exact (hwaits hlive).hasProgress (hbasics.2 hlive)

/-- A session that is connected to its origin waits for something. -/
theorem hasProgress_connectedClient :
    ∃ c, play .alone (accepted 5) (connectedClient []) = some c ∧
      c.state = .copy ∧ c.world.HasProgress := by
  have hplay : (play .alone (accepted 5) (connectedClient [])).any (fun c =>
      decide (c.state = .copy ∧ c.world.destroyed = false)) = true := by decide
  have hevents : ∀ x ∈ playTrace .alone (accepted 5) (connectedClient []),
      WaitingEvent x.1.state x.1.world x.2 := by decide
  obtain ⟨c, hc, hstate⟩ := (Option.any_eq_true _ _).mp hplay
  obtain ⟨hcopy, hlive⟩ := of_decide_eq_true hstate
  exact ⟨c, hc, hcopy, (hasProgress_of_waitingEvents
    (accepted_initial (by decide) (by decide)) (play_run hc) hevents hlive).2⟩

/-- A connection that is there at once is waited for by nobody. -/
theorem not_hasProgress_of_connected :
    ∃ c, Reachable .alone c ∧ c.world.destroyed = false ∧
      c.world.conn = .connected ∧ ¬ c.world.HasProgress := by
  have hplay : (play .alone (accepted 5)
      (addressClient ⟨some 6, true, .connected⟩)).any (fun c =>
        decide (c.world.destroyed = false ∧ c.world.conn = .connected ∧
          c.world.session.clientFd = 5 ∧ c.world.session.originFd = 6 ∧
          c.world.selector.interest? 5 = some .noop ∧
          c.world.selector.interest? 6 = none ∧ c.world.threads = [] ∧
          c.world.selector.resolutionJobs = [])) = true := by decide
  obtain ⟨c, hc, hstate⟩ := (Option.any_eq_true _ _).mp hplay
  obtain ⟨hlive, hconn, hclient, horigin, hnoop, hnone, hthreads, hjobs⟩ :=
    of_decide_eq_true hstate
  refine ⟨c, reachable_of_play (accepted_initial (by decide) (by decide)) hc,
    hlive, hconn, ?_⟩
  rintro ⟨fd, ⟨-, hfd⟩, ⟨i, hi, hne⟩ | hmem | hmem⟩
  · rw [hclient, horigin] at hfd
    rcases hfd with rfl | rfl
    · rw [hnoop] at hi
      cases hi
      exact hne rfl
    · rw [hnone] at hi
      cases hi
  · rw [hthreads] at hmem
    cases hmem
  · rw [hjobs] at hmem
    cases hmem

end Socksv5
