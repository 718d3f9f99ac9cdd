import Socksv5.Session.Run

/-!
# Callbacks that leave the connection alone

All callbacks but those that connect are `Quiet`: the descriptors of the
session are the same after them, and registered or not as before, and none of
the calls they make begins a connection.
-/

namespace Socksv5

open Support

/-- The calls that begin a connection. -/
def Call.connects : Call → Bool
  | .socket _ | .connect _ _ _ | .thread _ => true
  | _ => false

/-- The descriptor that a call closes. -/
def Call.closed : Call → Option ℤ
  | .close fd => some fd
  | _ => none

/-- Nothing has happened that concerns the connection. -/
structure Quiet (w w' : World) : Prop where
  address : w'.address = w.address
  clientFd : w'.session.clientFd = w.session.clientFd
  originFd : w'.session.originFd = w.session.originFd
  resolution : w'.session.originResolution = w.session.originResolution
  conn : w'.conn = w.conn
  threads : w'.threads = w.threads
  destroyed : w'.destroyed = w.destroyed
  registered : ∀ fd, w'.selector.Registered fd ↔ w.selector.Registered fd
  jobs : w'.selector.resolutionJobs = w.selector.resolutionJobs
  fdSize : w'.selector.fdSize = w.selector.fdSize
  registration : w'.selector.registration = w.selector.registration
  historical : w'.metrics.historicalConnections =
    w.metrics.historicalConnections
  concurrent : w'.metrics.concurrentConnections =
    w.metrics.concurrentConnections
  log : ∃ calls, w'.log = w.log ++ calls ∧ ∀ c ∈ calls, c.connects = false
  closed : w'.log.filterMap Call.closed = w.log.filterMap Call.closed

namespace Quiet

theorem refl (w : World) : Quiet w w :=
  ⟨rfl, rfl, rfl, rfl, rfl, rfl, rfl, fun _ => Iff.rfl, rfl, rfl, rfl, rfl, rfl,
    ⟨[], by simp, by simp⟩, rfl⟩

theorem trans {w w₁ w₂ : World} (h : Quiet w w₁) (h' : Quiet w₁ w₂) :
    Quiet w w₂ where
  address := h'.address.trans h.address
  clientFd := h'.clientFd.trans h.clientFd
  originFd := h'.originFd.trans h.originFd
  resolution := h'.resolution.trans h.resolution
  conn := h'.conn.trans h.conn
  threads := h'.threads.trans h.threads
  destroyed := h'.destroyed.trans h.destroyed
  registered := fun fd => (h'.registered fd).trans (h.registered fd)
  jobs := h'.jobs.trans h.jobs
  fdSize := h'.fdSize.trans h.fdSize
  registration := h'.registration.trans h.registration
  historical := h'.historical.trans h.historical
  concurrent := h'.concurrent.trans h.concurrent
  closed := h'.closed.trans h.closed
  log := by
    obtain ⟨calls, hlog, hcalls⟩ := h.log
    obtain ⟨calls', hlog', hcalls'⟩ := h'.log
    refine ⟨calls ++ calls', by rw [hlog', hlog, List.append_assoc], ?_⟩
    intro c hc
    rcases List.mem_append.mp hc with hc | hc
    · exact hcalls c hc
    · exact hcalls' c hc

/-- Changing the session, the descriptors and the addresses found excepted. -/
theorem of_session (w : World) (s : Session)
    (hclient : s.clientFd = w.session.clientFd)
    (horigin : s.originFd = w.session.originFd)
    (hres : s.originResolution = w.session.originResolution) :
    Quiet w { w with session := s } :=
  ⟨rfl, hclient, horigin, hres, rfl, rfl, rfl, fun _ => Iff.rfl, rfl, rfl, rfl,
    rfl, rfl, ⟨[], by simp, by simp⟩, rfl⟩

/-- Going on after the session has been changed so. -/
theorem after_session {w w' : World} {s : Session}
    (h : Quiet { w with session := s } w')
    (hclient : s.clientFd = w.session.clientFd)
    (horigin : s.originFd = w.session.originFd)
    (hres : s.originResolution = w.session.originResolution) : Quiet w w' :=
  (of_session w s hclient horigin hres).trans h

theorem of_record (w : World) {c : Call} (hc : c.connects = false)
    (hclosed : c.closed = none) : Quiet w (w.record c) :=
  ⟨rfl, rfl, rfl, rfl, rfl, rfl, rfl, fun _ => Iff.rfl, rfl, rfl, rfl, rfl, rfl,
    ⟨[c], rfl, by simpa⟩, by simp [World.record, hclosed]⟩

/-- Changing an interest. -/
theorem of_interest {w : World} {fd : ℤ} {s : FdSelector} {c : Call}
    {change : FdInterest → Option FdInterest} {ret : SelectorStatus}
    (h : ChangesInterest w.selector fd change ret s)
    (hc : c.connects = false) (hclosed : c.closed = none) :
    Quiet w { w with selector := s, log := w.log ++ [c] } :=
  ⟨rfl, rfl, rfl, rfl, rfl, rfl, rfl, h.registered_iff, h.jobs_eq, h.fdSize_eq,
    h.registration_eq, rfl, rfl, ⟨[c], rfl, by simpa⟩, by simp [hclosed]⟩

end Quiet

/-! ## The calls -/

theorem setInterest_quiet {w w' : World} {fd : ℤ} {i : FdInterest}
    {ret : SelectorStatus} (h : w.setInterest fd i = .ok (ret, w')) :
    Quiet w w' := by
  obtain ⟨s, hs, rfl⟩ := World.setInterest_spec h
  exact .of_interest hs rfl rfl

theorem setInterestKey_quiet {w w' : World} {fd : ℤ} {i : FdInterest}
    {ret : SelectorStatus} (h : w.setInterestKey fd i = .ok (ret, w')) :
    Quiet w w' := by
  obtain ⟨s, hs, rfl⟩ := World.setInterestKey_spec h
  exact .of_interest hs rfl rfl

theorem addInterest_quiet {w w' : World} {fd : ℤ} {i : FdInterest}
    {ret : SelectorStatus} (h : w.addInterest fd i = .ok (ret, w')) :
    Quiet w w' := by
  obtain ⟨s, hs, rfl⟩ := World.addInterest_spec h
  exact .of_interest hs rfl rfl

theorem reduceInterest_quiet {w w' : World} {fd : ℤ} {i : FdInterest}
    {ret : SelectorStatus} (h : w.reduceInterest fd i = .ok (ret, w')) :
    Quiet w w' := by
  obtain ⟨s, hs, rfl⟩ := World.reduceInterest_spec h
  exact .of_interest hs rfl rfl

theorem recvInto_quiet {w w' : World} {state : GlobalState} {sys : Sys}
    {fd : ℤ} {b : Buffer} {r : Received}
    (h : w.recvInto state sys fd b = .ok (r, w')) : Quiet w w' := by
  obtain ⟨-, rfl⟩ := World.recvInto_spec h
  exact .of_record w rfl rfl

theorem sendFrom_quiet {w w' : World} {state : GlobalState} {sys : Sys}
    {fd : ℤ} {b : Buffer} {r : Option (List UInt8 × Buffer)}
    (h : w.sendFrom state sys fd b = .ok (r, w')) : Quiet w w' := by
  obtain ⟨-, rfl⟩ := World.sendFrom_spec h
  exact .of_record w rfl rfl

/-! ## The callbacks -/

theorem greetingRead_quiet {sys : Sys} {fd : ℤ} {w w' : World}
    {ret : GlobalState} (h : greetingRead sys fd w = .ok (ret, w')) :
    Quiet w w' := by
  obtain ⟨⟨received, w₁⟩, hrecv, h⟩ := bind_eq_ok.mp h
  have hq := recvInto_quiet hrecv
  cases received with
  | eof | reset | failed =>
      cases h
      exact hq
  | data bs rb =>
      simp only at h
      obtain ⟨⟨rb', parser, a⟩, -, h⟩ := bind_eq_ok.mp h
      simp only at h
      split at h
      · obtain ⟨m, -, h⟩ := bind_eq_ok.mp h
        obtain ⟨⟨status, w₂⟩, hset, h⟩ := bind_eq_ok.mp h
        have hq₂ := hq.trans
          (.after_session (setInterestKey_quiet hset) rfl rfl rfl)
        dsimp only at h
        split at h
        · cases h
          exact hq₂
        · obtain ⟨filled, -, h⟩ := bind_eq_ok.mp h
          cases filled with
          | none =>
              cases h
              exact hq₂
          | some wb =>
              cases h
              exact hq₂.trans (.of_session w₂ _ rfl rfl rfl)
      · cases h
        exact hq.trans (.of_session w₁ _ rfl rfl rfl)

theorem greetingWrite_quiet {sys : Sys} {fd : ℤ} {w w' : World}
    {ret : GlobalState} (h : greetingWrite sys fd w = .ok (ret, w')) :
    Quiet w w' := by
  obtain ⟨⟨sent, w₁⟩, hsend, h⟩ := bind_eq_ok.mp h
  have hq := sendFrom_quiet hsend
  rcases sent with - | ⟨bs, wb⟩
  · cases h
    exact hq
  · simp only at h
    split at h
    · cases h
      exact hq.trans (.of_session w₁ _ rfl rfl rfl)
    · obtain ⟨⟨status, w₂⟩, hset, h⟩ := bind_eq_ok.mp h
      have hq₂ := hq.trans
        (.after_session (setInterestKey_quiet hset) rfl rfl rfl)
      dsimp only at h
      split at h
      · cases h
        exact hq₂
      · split at h
        · cases h
          exact hq₂
        · split at h <;> cases h <;> exact hq₂

theorem authenticate_quiet {sys : Sys} {w w' : World}
    (h : authenticate sys w = .ok w') : Quiet w w' := by
  unfold authenticate at h
  dsimp only at h
  split at h
  · split at h
    · have hrecord (user password : Block) (ok : Bool) :
          Quiet w (w.record (.authenticate user password ok)) :=
        .of_record w rfl rfl
      split at h <;> cases h
      · exact (hrecord _ _ _).trans (.of_session _ _ rfl rfl rfl)
      · exact (hrecord _ _ _).trans (.of_session _ _ rfl rfl rfl)
    · cases h
  · cases h
    exact .refl w

theorem authRead_quiet {sys : Sys} {fd : ℤ} {w w' : World}
    {ret : GlobalState} (h : authRead sys fd w = .ok (ret, w')) :
    Quiet w w' := by
  obtain ⟨⟨received, w₁⟩, hrecv, h⟩ := bind_eq_ok.mp h
  have hq := recvInto_quiet hrecv
  cases received with
  | eof | reset | failed =>
      cases h
      exact hq
  | data bs rb =>
      simp only at h
      obtain ⟨⟨rb', parser, a⟩, -, h⟩ := bind_eq_ok.mp h
      simp only at h
      split at h
      · obtain ⟨w₂, hauth, h⟩ := bind_eq_ok.mp h
        have hq₂ := hq.trans
          (.after_session (authenticate_quiet hauth) rfl rfl rfl)
        obtain ⟨⟨status, w₃⟩, hset, h⟩ := bind_eq_ok.mp h
        have hq₃ := hq₂.trans (setInterestKey_quiet hset)
        dsimp only at h
        split at h
        · cases h
          exact hq₃
        · obtain ⟨wb, -, h⟩ := bind_eq_ok.mp h
          cases h
          exact hq₃.trans (.of_session w₃ _ rfl rfl rfl)
      · cases h
        exact hq.trans (.of_session w₁ _ rfl rfl rfl)

theorem authWrite_quiet {sys : Sys} {fd : ℤ} {w w' : World}
    {ret : GlobalState} (h : authWrite sys fd w = .ok (ret, w')) :
    Quiet w w' := by
  obtain ⟨⟨sent, w₁⟩, hsend, h⟩ := bind_eq_ok.mp h
  have hq := sendFrom_quiet hsend
  rcases sent with - | ⟨bs, wb⟩
  · cases h
    exact hq
  · simp only at h
    split at h
    · cases h
      exact hq.trans (.of_session w₁ _ rfl rfl rfl)
    · obtain ⟨⟨status, w₂⟩, hset, h⟩ := bind_eq_ok.mp h
      have hq₂ := hq.trans
        (.after_session (setInterestKey_quiet hset) rfl rfl rfl)
      dsimp only at h
      split at h
      · cases h
        exact hq₂
      · split at h <;> cases h <;> exact hq₂

theorem requestRead_quiet {sys : Sys} {fd : ℤ} {w w' : World}
    {ret : GlobalState} (h : requestRead sys fd w = .ok (ret, w')) :
    Quiet w w' := by
  obtain ⟨⟨received, w₁⟩, hrecv, h⟩ := bind_eq_ok.mp h
  have hq := recvInto_quiet hrecv
  cases received with
  | eof | reset | failed =>
      cases h
      exact hq
  | data bs rb =>
      simp only at h
      obtain ⟨⟨rb', parser, a⟩, -, h⟩ := bind_eq_ok.mp h
      simp only at h
      split at h
      · obtain ⟨⟨status, w₂⟩, hset, h⟩ := bind_eq_ok.mp h
        have hq₂ := hq.trans
          (.after_session (setInterestKey_quiet hset) rfl rfl rfl)
        dsimp only at h
        split at h <;> cases h <;> exact hq₂
      · split at h
        · obtain ⟨⟨status, w₂⟩, hset, h⟩ := bind_eq_ok.mp h
          have hq₂ := hq.trans
            (.after_session (setInterestKey_quiet hset) rfl rfl rfl)
          dsimp only at h
          split at h <;> cases h <;> exact hq₂
        · cases h
          exact hq.trans (.of_session w₁ _ rfl rfl rfl)

theorem requestWrite_quiet {sys : Sys} {fd : ℤ} {w w' : World}
    {ret : GlobalState} (h : requestWrite sys fd w = .ok (ret, w')) :
    Quiet w w' := by
  obtain ⟨wb, -, h⟩ := bind_eq_ok.mp h
  obtain ⟨⟨sent, w₁⟩, hsend, h⟩ := bind_eq_ok.mp h
  have hq : Quiet w w₁ := .after_session (sendFrom_quiet hsend) rfl rfl rfl
  rcases sent with - | ⟨bs, wb'⟩
  · cases h
    exact hq
  · simp only at h
    split at h
    · cases h
      exact hq.trans (.of_session w₁ _ rfl rfl rfl)
    · split at h
      · obtain ⟨⟨status, w₂⟩, hset, h⟩ := bind_eq_ok.mp h
        have hq₂ := hq.trans
          (.after_session (setInterestKey_quiet hset) rfl rfl rfl)
        dsimp only at h
        split at h
        · cases h
          exact hq₂
        · obtain ⟨⟨status', w₃⟩, hset', h⟩ := bind_eq_ok.mp h
          have hq₃ := hq₂.trans (setInterest_quiet hset')
          dsimp only at h
          split at h <;> cases h <;> exact hq₃
      · cases h
        exact hq.trans (.of_session w₁ _ rfl rfl rfl)

theorem verifyConnection_quiet {sys : Sys} {fd : ℤ} {w w' : World}
    {ret : GlobalState} (h : verifyConnection sys fd w = .ok (ret, w')) :
    Quiet w w' := by
  unfold verifyConnection at h
  have hq : Quiet w (w.record (.getsockopt w.session.originFd sys.soError)) :=
    .of_record w rfl rfl
  cases hso : sys.soError with
  | none =>
      simp only [hso] at h hq
      cases h
      exact hq
  | some error =>
      simp only [hso] at h hq
      obtain ⟨⟨status, w₂⟩, hset, h⟩ := bind_eq_ok.mp h
      have hq₂ : Quiet w w₂ := by
        have hset' := setInterestKey_quiet hset
        split at hset'
        · exact hq.trans (.after_session hset' rfl rfl rfl)
        · exact hq.trans hset'
      dsimp only at h
      split at h
      · cases h
        exact hq₂
      · obtain ⟨⟨status', w₃⟩, hset', h⟩ := bind_eq_ok.mp h
        have hq₃ := hq₂.trans (setInterest_quiet hset')
        dsimp only at h
        split at h
        · cases h
          exact hq₃
        · split at h <;> cases h
          · exact hq₃
          · exact hq₃.trans (.of_session w₃ _ rfl rfl rfl)

theorem sniff_quiet {sys : Sys} {side : Side} {bs : List UInt8} {w w' : World}
    (h : sniff sys side bs w = .ok w') : Quiet w w' := by
  unfold sniff at h
  split at h
  · obtain ⟨sniffer, -, h⟩ := bind_eq_ok.mp h
    cases h
    exact .of_session w _ rfl rfl rfl
  · cases h
    exact .refl w

theorem setInbox_quiet (w : World) (b : Buffer) (side : Side) :
    Quiet w (side.setInbox w b) := by
  cases side
  · exact .of_session w _ rfl rfl rfl
  · exact .of_session w _ rfl rfl rfl

theorem copyReadEnd_quiet {sys : Sys} {side : Side} {fd fdTarget : ℤ}
    {w w' : World} {ret : GlobalState}
    (h : copyReadEnd sys side fd fdTarget w = .ok (ret, w')) : Quiet w w' := by
  obtain ⟨⟨status, w₁⟩, hset, h⟩ := bind_eq_ok.mp h
  have hq := reduceInterest_quiet hset
  dsimp only at h
  split at h
  · cases h
    exact hq
  · have hq₂ (c : CopyStm) : Quiet w (w₁.setCopy c) :=
      hq.trans (.of_session w₁ _ rfl rfl rfl)
    have hq₃ (c : CopyStm) := (hq₂ c).trans
      (.of_record (w₁.setCopy c) (c := .shutdown fdTarget) rfl rfl)
    split at h
    · cases h
      exact hq₂ _
    · cases hshut : sys.shutdown with
      | false =>
          simp only [World.shutdown, hshut, Bool.not_false, if_true] at h
          cases h
          exact hq₃ _
      | true =>
          simp only [World.shutdown, hshut, Bool.not_true, Bool.false_eq_true,
            if_false] at h
          cases h
          exact (hq₃ _).trans (.of_session _ _ rfl rfl rfl)

theorem copyRead_quiet {sys : Sys} {fd : ℤ} {w w' : World} {ret : GlobalState}
    (h : copyRead sys fd w = .ok (ret, w')) : Quiet w w' := by
  unfold copyRead at h
  split at h
  · cases h
  · rename_i side hside
    obtain ⟨⟨received, w₁⟩, hrecv, h⟩ := bind_eq_ok.mp h
    have hq := recvInto_quiet hrecv
    cases received with
    | data bs b =>
        simp only at h
        obtain ⟨w₂, hsniff, h⟩ := bind_eq_ok.mp h
        have hmetrics : Quiet w₁ { w₁ with
            metrics := w₁.metrics.addTotalBytesTransferred bs.length } :=
          ⟨rfl, rfl, rfl, rfl, rfl, rfl, rfl, fun _ => Iff.rfl, rfl, rfl, rfl, rfl,
            rfl, ⟨[], by simp, by simp⟩, rfl⟩
        have hq₂ := hq.trans (hmetrics.trans (sniff_quiet hsniff))
        obtain ⟨⟨status, w₃⟩, hset, h⟩ := bind_eq_ok.mp h
        have hq₃ := (hq₂.trans (setInbox_quiet w₂ b side)).trans
          (reduceInterest_quiet hset)
        dsimp only at h
        split at h
        · cases h
          exact hq₃
        · obtain ⟨⟨status', w₄⟩, hset', h⟩ := bind_eq_ok.mp h
          have hq₄ := hq₃.trans (addInterest_quiet hset')
          dsimp only at h
          split at h <;> cases h <;> exact hq₄
    | eof => exact hq.trans (copyReadEnd_quiet h)
    | reset => exact hq.trans (copyReadEnd_quiet h)
    | failed =>
        cases h
        exact hq

theorem copyWriteDrained_quiet {sys : Sys} {side : Side} {fd : ℤ}
    {w w' : World} {ok : Bool}
    (h : copyWriteDrained sys side fd w = .ok (ok, w')) : Quiet w w' := by
  unfold copyWriteDrained at h
  split at h
  · cases h
    exact .refl w
  · obtain ⟨⟨status, w₁⟩, hset, h⟩ := bind_eq_ok.mp h
    have hq := reduceInterest_quiet hset
    dsimp only at h
    split at h
    · cases h
      exact hq
    · split at h <;> cases h
      · exact hq
      · have hstopped : Quiet w
            (w₁.setCopy (side.stopWriting w₁.session.copy)) :=
          hq.trans (.of_session w₁ _ rfl rfl rfl)
        exact hstopped.trans (.of_record _ rfl rfl)

theorem copyWrite_quiet {sys : Sys} {fd : ℤ} {w w' : World} {ret : GlobalState}
    (h : copyWrite sys fd w = .ok (ret, w')) : Quiet w w' := by
  unfold copyWrite at h
  split at h
  · cases h
  · rename_i side hside
    obtain ⟨⟨sent, w₁⟩, hsend, h⟩ := bind_eq_ok.mp h
    have hq := sendFrom_quiet hsend
    rcases sent with - | ⟨bs, b⟩
    · cases h
      exact hq
    · simp only at h
      obtain ⟨w₂, hsniff, h⟩ := bind_eq_ok.mp h
      have hq₂ := (hq.trans (sniff_quiet hsniff)).trans
        (setInbox_quiet w₂ b side.peer)
      obtain ⟨⟨ok, w₃⟩, hdrain, h⟩ := bind_eq_ok.mp h
      have hq₃ := hq₂.trans (copyWriteDrained_quiet hdrain)
      dsimp only at h
      split at h
      · cases h
        exact hq₃
      · split at h
        · obtain ⟨⟨status, w₄⟩, hset, h⟩ := bind_eq_ok.mp h
          have hq₄ := hq₃.trans (addInterest_quiet hset)
          dsimp only at h
          split at h <;> cases h <;> exact hq₄
        · cases h
          exact hq₃

/-- The callbacks that may connect are the two of `ORIGIN_CONNECT`; any other
is quiet. -/
theorem onReady_quiet {sys : Sys} {fd : ℤ} {s ret : GlobalState} {r : Ready}
    {f : Callback} {w w' : World} (hf : onReady sys fd s r = some f)
    (hr : r ≠ .block) (h : f w = .ok (ret, w')) : Quiet w w' := by
  cases s <;> cases r <;> cases hf
  case greetingRead.read => exact greetingRead_quiet h
  case greetingWrite.write => exact greetingWrite_quiet h
  case authRead.read => exact authRead_quiet h
  case authWrite.write => exact authWrite_quiet h
  case requestRead.read => exact requestRead_quiet h
  case requestWrite.write => exact requestWrite_quiet h
  case originConnect.write => exact verifyConnection_quiet h
  case originConnect.block => exact absurd rfl hr
  case copy.read => exact copyRead_quiet h
  case copy.write => exact copyWrite_quiet h

/-- So is every arrival but that at `ORIGIN_CONNECT`. -/
theorem arrived_quiet (s : GlobalState) (w : World) : Quiet w (arrived s w) := by
  cases s
  case greetingRead => exact .of_session w _ rfl rfl rfl
  case authRead => exact .of_session w _ rfl rfl rfl
  case requestRead => exact .of_session w _ rfl rfl rfl
  case copy => exact .of_session w _ rfl rfl rfl
  all_goals exact .refl w

theorem arrived_selector (s : GlobalState) (w : World) :
    (arrived s w).selector = w.selector ∧
      (arrived s w).session.clientFd = w.session.clientFd := by
  cases s <;> exact ⟨rfl, rfl⟩

end Socksv5
