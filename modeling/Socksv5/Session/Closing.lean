import Socksv5.Session.Streams

/-!
# The end of the relay

`check_close_connection` says `DONE` once the four flags are cleared.  The end
of the stream of one side clears three of them, that for reading from the
other side included.  So `COPY` ends when what that side had sent is gone,
whatever the other side has sent or has still to send.
-/

namespace Socksv5

open Support

/-- The call of the relay saw the end of the stream of a descriptor. -/
def Call.sawEnd (fd : ℤ) : Call → Bool
  | .recv .copy fd' n r => decide (fd' = fd) &&
      (decide (r = .connReset) || (decide (r = .received []) && decide (0 < n)))
  | _ => false

/-- The end of the stream of a descriptor has been seen. -/
def EndSeen (fd : ℤ) (log : List Call) : Bool := log.any (Call.sawEnd fd)

/-- Both streams have ended, and nothing is left to be sent. -/
structure Complete (w : World) : Prop where
  ended : ∀ side : Side, EndSeen (side.fd w.session) w.log = true
  empty : ∀ side : Side, (side.inbox w.session).pending = []

/-- `copy_write` for a side sends all there is left of the session's streams to
be sent: nothing more is read, and the other side is not written to. -/
structure Drains (w : World) (side : Side) (sys : Sys) : Prop where
  sends : sys.sendsAll (side.outbox w.session) = true
  pending : (side.outbox w.session).pending ≠ []
  shutdown : sys.shutdown = true
  reading : ∀ side' : Side, side'.reading w.session.copy = false
  writing : side.peer.writing w.session.copy = false

/-- The event makes the session leave the relay for good. -/
def EndsRelay (w : World) (fd : ℤ) (sys : Sys) : Ready → Prop
  | .read => ∃ side, w.session.side? fd = some side ∧
      Ends sys (side.inbox w.session) ∧
      if (side.inbox w.session).pending = [] then sys.shutdown = true
      else side.peer.writing w.session.copy = false
  | .write => ∃ side, w.session.side? fd = some side ∧ Drains w side sys ∧
      ∃ w', sniff sys side (side.outbox w.session).pending w = .ok w'
  | .block => False

/-- If the callback of `COPY` for the event returns `DONE`, the relay is
complete. -/
def CompletesRelay (w : World) (fd : ℤ) (sys : Sys) (r : Ready) : Prop :=
  ∀ f w', onReady sys fd .copy r = some f → f w = .ok (.done, w') → Complete w'

/-! ## What has been seen -/

theorem endSeen_append (fd : ℤ) (log log' : List Call) :
    EndSeen fd (log ++ log') = (EndSeen fd log || EndSeen fd log') :=
  List.any_append

theorem endSeen_concat (fd : ℤ) (log : List Call) (c : Call) :
    EndSeen fd (log ++ [c]) = (EndSeen fd log || c.sawEnd fd) := by
  simp [EndSeen]

theorem sawEnd_of_not_transfers {fd : ℤ} {c : Call}
    (h : c.transfers = false) : c.sawEnd fd = false := by
  cases c <;> first | rfl | cases h

theorem Silent.endSeen_eq {w w' : World} (h : Silent w w') (fd : ℤ) :
    EndSeen fd w'.log = EndSeen fd w.log := by
  obtain ⟨calls, hlog, hcalls⟩ := h.log
  have hnone : EndSeen fd calls = false := by
    rw [EndSeen, List.any_eq_false]
    intro c hc
    rw [sawEnd_of_not_transfers (hcalls c hc)]
    decide
  rw [hlog, endSeen_append, hnone, Bool.or_false]

/-- The handshake sees the end of no stream of the relay. -/
theorem onReady_endSeen {sys : Sys} {fd d : ℤ} {s ret : GlobalState} {r : Ready}
    {f : Callback} {w w' : World} (hs : s ≠ .copy) (hret : ret ≠ .error)
    (hf : onReady sys fd s r = some f) (h : f w = .ok (ret, w')) :
    EndSeen d w'.log = EndSeen d w.log := by
  cases s <;> cases r <;> cases hf
  case greetingRead.read =>
      cases greetingRead_spec h with
      | failed => exact absurd rfl hret
      | waits | answers => simp [EndSeen, Call.sawEnd]
  case greetingWrite.write =>
      cases greetingWrite_spec h with
      | failed => exact absurd rfl hret
      | partly | wholly => simp [EndSeen, Call.sawEnd]
  case authRead.read =>
      cases authRead_spec h with
      | failed => exact absurd rfl hret
      | waits => simp [EndSeen, Call.sawEnd]
      | answers _ _ _ hauths =>
          cases hauths <;> simp [EndSeen, Call.sawEnd]
  case authWrite.write =>
      cases authWrite_spec h with
      | failed => exact absurd rfl hret
      | partly | wholly => simp [EndSeen, Call.sawEnd]
  case requestRead.read =>
      cases requestRead_spec h with
      | failed => exact absurd rfl hret
      | waits | decides => simp [EndSeen, Call.sawEnd]
  case requestWrite.write =>
      cases requestWrite_spec h with
      | failed => exact absurd rfl hret
      | partly | refuses | grants => simp [EndSeen, Call.sawEnd]
  case originConnect.write =>
      cases verifyConnection_spec h with
      | failed => exact absurd rfl hret
      | answers => simp [EndSeen, Call.sawEnd]
  case originConnect.block => exact (connectOriginBlock_spec h).silent.endSeen_eq d
  case copy.read => exact absurd rfl hs
  case copy.write => exact absurd rfl hs

/-! ## Why the relay goes on -/

/-- Something that a side had sent before its stream ended is still to be
sent. -/
structure Unsent (w : World) (side : Side) : Prop where
  pending : (side.inbox w.session).pending ≠ []
  reading : ∀ side' : Side, side'.reading w.session.copy = false
  writing : side.writing w.session.copy = false

/-- What holds while the relay goes on: some flag is set, and a stream that has
ended leaves something to be sent. -/
structure Going (s : GlobalState) (w : World) : Prop where
  unseen : s ≠ .copy → ¬ (s = .done ∨ s = .error) →
    ∀ fd, EndSeen fd w.log = false
  running : s = .copy → checkCloseConnection w.session.copy = .copy
  unsent : s = .copy → ∀ side : Side,
    EndSeen (side.fd w.session) w.log = true → Unsent w side

theorem checkCloseConnection_eq_done_iff {c : CopyStm} :
    checkCloseConnection c = .done ↔ ∀ side : Side,
      side.reading c = false ∧ side.writing c = false := by
  unfold checkCloseConnection
  constructor
  · intro h side
    split at h
    · rename_i hall
      cases side
      · exact ⟨hall.1, hall.2.2.2⟩
      · exact ⟨hall.2.1, hall.2.2.1⟩
    · cases h
  · intro h
    rw [if_pos ⟨(h .client).1, (h .origin).1, (h .origin).2, (h .client).2⟩]

theorem eq_of_afterInterest {status : SelectorStatus} {ret ret' : GlobalState}
    (h : afterInterest status ret = ret') (hne : ret' ≠ .error) : ret = ret' := by
  rcases afterInterest_state status ret with heq | heq
  · exact heq.symm.trans h
  · exact absurd (h.symm.trans heq) hne

/-- Reading bytes is not seeing the end. -/
theorem Receives.sawEnd_eq {sys : Sys} {side : Side} {w : World}
    {bs : List UInt8} {b : Buffer}
    (h : Receives sys (side.inbox w.session) (.data bs b)) (fd d : ℤ) :
    (side.recvCall sys fd w.session).sawEnd d = false := by
  cases h with
  | data hdata hne => simp [Side.recvCall, hdata, Call.sawEnd, hne]

/-- A side's call sees the end of its own stream only. -/
theorem Side.sawEnd_recvCall {sys : Sys} {side : Side} {fd d : ℤ} {s : Session}
    (h : (side.recvCall sys fd s).sawEnd d = true) : d = fd := by
  simp only [Side.recvCall, Call.sawEnd, Bool.and_eq_true,
    decide_eq_true_iff] at h
  exact h.1.symm

/-- Where no flag changes, the relay goes on. -/
theorem Going.of_flags {s : GlobalState} {w w' : World} (hw : Going s w)
    (hfd : ∀ side : Side, side.fd w'.session = side.fd w.session)
    (hcopy : w'.session.copy = w.session.copy)
    (hseen : ∀ fd, EndSeen fd w'.log = EndSeen fd w.log)
    (hpending : ∀ side, Unsent w side → (side.inbox w'.session).pending ≠ []) :
    Going s w' where
  unseen := fun hs hlive fd => (hseen fd).trans (hw.unseen hs hlive fd)
  running := fun hs => hcopy ▸ hw.running hs
  unsent := by
    intro hs side h
    rw [hfd, hseen] at h
    have hunsent := hw.unsent hs side h
    exact ⟨hpending side hunsent, hcopy ▸ hunsent.reading,
      hcopy ▸ hunsent.writing⟩

/-- Where only the rest of the world changes, too. -/
theorem Going.of_rest {s : GlobalState} {w w' : World} (hw : Going s w)
    (hsilent : Silent w w') (horigin : w'.session.originFd = w.session.originFd)
    (hcopy : w'.session.copy = w.session.copy) : Going s w' := by
  refine hw.of_flags ?_ hcopy hsilent.endSeen_eq ?_
  · intro side
    cases side
    · exact hsilent.clientFd
    · exact horigin
  · intro side hunsent
    have hpending := hunsent.pending
    cases side
    · simpa only [Side.inbox, hsilent.writeBuffer] using hpending
    · simpa only [Side.inbox, hsilent.readBuffer] using hpending

theorem going_of_end {s : GlobalState} (w : World)
    (h : s = .done ∨ s = .error) : Going s w := by
  refine ⟨fun _ hlive => absurd h hlive, fun hs => ?_, fun hs => ?_⟩ <;>
    simp [hs] at h

theorem going_of_unseen {s : GlobalState} {w : World} (hs : s ≠ .copy)
    (h : ∀ fd, EndSeen fd w.log = false) : Going s w :=
  ⟨fun _ _ => h, fun heq => absurd heq hs, fun heq => absurd heq hs⟩

theorem endOfStream_reading (c : CopyStm) (side side' : Side) :
    side'.reading (endOfStream c side) = false := by
  cases side <;> cases side' <;> rfl

theorem endOfStream_writing_self (c : CopyStm) (side : Side) :
    side.writing (endOfStream c side) = false := by
  cases side <;> rfl

theorem endOfStream_writing_peer (c : CopyStm) (side : Side) :
    side.peer.writing (endOfStream c side) = side.peer.writing c := by
  cases side <;> rfl

theorem Side.eq_or_eq_peer (side side' : Side) : side' = side ∨ side' = side.peer := by
  cases side <;> cases side' <;> simp [Side.peer]

theorem Seated.peer_ne {w : World} (h : Seated w) (side : Side) :
    side.peer.fd w.session ≠ side.fd w.session := by
  cases side
  · exact h.distinct
  · exact h.distinct.symm

/-- The end of a side's stream is not that of the other. -/
theorem Side.endSeen_ended {sys : Sys} {side : Side} {w : World}
    (hw : Seated w) (s : FdSelector) :
    EndSeen (side.peer.fd w.session)
        (side.ended sys (side.fd w.session) w s).log =
      EndSeen (side.peer.fd w.session) w.log := by
  have hnot : (side.recvCall sys (side.fd w.session) w.session).sawEnd
      (side.peer.fd w.session) = false := by
    rw [Bool.eq_false_iff]
    exact fun hsaw => hw.peer_ne side (Side.sawEnd_recvCall hsaw)
  change EndSeen _ (w.log ++ [_] ++ [_]) = _
  rw [endSeen_concat, endSeen_concat, hnot, Bool.or_false]
  exact Bool.or_false _

/-- Once both flags of a side and the other side's for reading are cleared, the
relay is over if the other side's for writing is. -/
theorem checkCloseConnection_endOfStream {c : CopyStm} {side : Side} :
    checkCloseConnection (endOfStream c side) = .done ↔
      side.peer.writing c = false := by
  rw [checkCloseConnection_eq_done_iff]
  constructor
  · intro h
    rw [← endOfStream_writing_peer]
    exact (h side.peer).2
  · intro h side'
    refine ⟨endOfStream_reading _ _ _, ?_⟩
    rcases side.eq_or_eq_peer side' with rfl | rfl
    · exact endOfStream_writing_self _ _
    · rw [endOfStream_writing_peer]
      exact h

theorem checkCloseConnection_closed (c : CopyStm) (side : Side) :
    checkCloseConnection (side.peer.stopWriting (endOfStream c side)) = .done := by
  rw [checkCloseConnection_eq_done_iff]
  intro side'
  cases side <;> cases side' <;> exact ⟨rfl, rfl⟩

theorem CopyReads.going {sys : Sys} {side : Side} {w w' : World}
    {ret : GlobalState} (h : CopyReads sys side (side.fd w.session) w ret w')
    (hret : ret = .copy) (hseated : Seated w) (hw : Going .copy w) :
    Going .copy w' := by
  cases h with
  | failed | unclosed => cases hret
  | @relays bs b sniffer status s s' hrecv =>
      refine hw.of_flags ?_ ?_ ?_ ?_
      · intro side'
        cases side <;> cases side' <;> rfl
      · cases side <;> rfl
      · intro fd
        rw [(changed_silent _ s' rfl).endSeen_eq,
          (changed_silent _ s rfl).endSeen_eq, Side.received_log,
          endSeen_concat, hrecv.sawEnd_eq, Bool.or_false]
      · intro side' hunsent
        have hb : b.pending ≠ [] := by
          cases hrecv with
          | data _ hne hpending => simp [hpending, hne]
        cases side <;> cases side' <;>
          first | exact hb | exact hunsent.pending
  | @holds s hends hpending =>
      refine ⟨fun hne => absurd rfl hne, fun _ => hret, fun _ side' hseen => ?_⟩
      rcases side.eq_or_eq_peer side' with rfl | rfl
      · refine ⟨?_, endOfStream_reading _ _, endOfStream_writing_self _ _⟩
        cases side' <;> exact hpending
      · have hunsent := hw.unsent rfl side.peer
          (Side.endSeen_ended hseated s ▸ hseen)
        refine ⟨?_, endOfStream_reading _ _, ?_⟩
        · cases side <;> exact hunsent.pending
        · exact (endOfStream_writing_peer _ _).trans hunsent.writing
  | closes =>
      rw [checkCloseConnection_closed] at hret
      cases hret

theorem CopyWrites.going {sys : Sys} {side : Side} {w w' : World}
    {ret : GlobalState} (h : CopyWrites sys side (side.fd w.session) w ret w')
    (hret : ret = .copy) (hw : Going .copy w) : Going .copy w' := by
  have hsent {bs : List UInt8} {sniffer : Pop3Sniffer} {b : Buffer} {w₁ : World}
      (h₁ : Silent (side.sent (side.fd w.session) w bs sniffer b) w₁) (fd : ℤ) :
      EndSeen fd w₁.log = EndSeen fd w.log := by
    rw [h₁.endSeen_eq, Side.sent_log, endSeen_concat]
    exact Bool.or_false _
  cases h with
  | failed | unclosed => cases hret
  | @partly bs b sniffer status s hsends hne =>
      refine hw.of_flags ?_ ?_ (hsent (changed_silent _ s rfl)) ?_
      · intro side'
        cases side <;> cases side' <;> rfl
      · cases side <;> rfl
      · intro side' hunsent
        cases side <;> cases side' <;>
          first | exact hne | exact hunsent.pending
  | @partlyLast bs b sniffer hsends hne =>
      refine hw.of_flags ?_ ?_ (hsent (.refl _)) ?_
      · intro side'
        cases side <;> cases side' <;> rfl
      · cases side <;> rfl
      · intro side' hunsent
        cases side <;> cases side' <;>
          first | exact hne | exact hunsent.pending
  | @wholly bs b sniffer status s s' hsends hempty hreading =>
      refine hw.of_flags ?_ ?_ (hsent ((changed_silent _ s rfl).trans
        (changed_silent _ s' rfl))) ?_
      · intro side'
        cases side <;> cases side' <;> rfl
      · cases side <;> rfl
      · intro side' hunsent
        rw [hunsent.reading] at hreading
        cases hreading
  | @closes bs b sniffer s hsends hempty hreading =>
      have hsilent := ((changed_silent
        (side.sent (side.fd w.session) w bs sniffer b) s
        (c := .reduceInterest (side.fd w.session) .write) rfl).trans
        (setCopy_silent _ (side.stopWriting w.session.copy))).trans
          (record_silent _ (c := .shutdown (side.fd w.session)) rfl)
      refine ⟨fun hne => absurd rfl hne, fun _ => hret, fun _ side' hseen => ?_⟩
      rw [hsent hsilent] at hseen
      have hseen' : EndSeen (side'.fd w.session) w.log = true := by
        cases side <;> cases side' <;> exact hseen
      have hunsent := hw.unsent rfl side' hseen'
      have hreading' (d : Side) :
          d.reading (side.stopWriting w.session.copy) = false := by
        have := hunsent.reading d
        cases side <;> cases d <;> exact this
      rcases side.eq_or_eq_peer side' with rfl | rfl
      · refine ⟨?_, hreading', ?_⟩
        · cases side' <;> exact hunsent.pending
        · cases side' <;> rfl
      · have hdone : checkCloseConnection (side.stopWriting w.session.copy) =
            .done := by
          rw [checkCloseConnection_eq_done_iff]
          intro d
          refine ⟨hreading' d, ?_⟩
          have := hunsent.writing
          cases side <;> cases d <;> first | rfl | exact this
        rw [hdone] at hret
        cases hret

/-! ## Runs -/

theorem RequestWrites.going {sys : Sys} {fd : ℤ} {w w' : World}
    (h : RequestWrites sys fd w .copy w') (hw : Going .requestWrite w) :
    Going .copy (copyInit w') := by
  have hunseen : ∀ d, EndSeen d (copyInit w').log = false := by
    intro d
    have hbefore := hw.unseen (by decide) (by decide) d
    cases h with
    | grants => simpa [EndSeen, Call.sawEnd, copyInit] using hbefore
  refine ⟨fun hne => absurd rfl hne, fun _ => rfl, fun _ side hseen => ?_⟩
  rw [hunseen] at hseen
  cases hseen

/-- A callback of `COPY` that stays in it goes on. -/
theorem copy_going {sys : Sys} {fd : ℤ} {r : Ready} {f : Callback}
    {w w' : World} (hseated : Seated w) (hreg : w.selector.Registered fd)
    (hf : onReady sys fd .copy r = some f) (h : f w = .ok (.copy, w'))
    (hw : Going .copy w) : Going .copy w' := by
  cases r <;> cases hf
  case read =>
      rcases hside : w.session.side? fd with - | side
      · simp [copyRead, hside] at h
      · obtain rfl := Session.side?_eq hside
        exact (copyRead_spec hside hreg h).going rfl hseated hw
  case write =>
      rcases hside : w.session.side? fd with - | side
      · simp [copyWrite, hside] at h
      · obtain rfl := Session.side?_eq hside
        exact (copyWrite_spec hside hreg h).going rfl hw

theorem Going.dispatched {company : Company} {sys : Sys} {fd : ℤ}
    {s ret : GlobalState} {r : Ready} {f : Callback} {via : List GlobalState}
    {w w₁ w₂ : World} (hw : Going s w) (hseated : Seated w)
    (hhands : w.Hands company r fd) (hf : onReady sys fd s r = some f)
    (h : f (w.delivered r fd) = .ok (ret, w₁))
    (hout : Outcome sys fd s ret w₁ via w₂) : Going (via.getLastD s) w₂ := by
  have hreg : (w.delivered r fd).selector.Registered fd := by
    cases r <;> exact hhands.2.1
  have hfollows := onReady_follows hf hreg h
  by_cases hcopy : s = .copy
  · subst hcopy
    have hdelivered : w.delivered r fd = w := by
      cases r <;> first | rfl | cases hf
    rw [hdelivered] at h
    rcases hout.of_copy hfollows with ⟨rfl, rfl, rfl⟩ | ⟨hend, rfl, -⟩
    · exact copy_going hseated hhands.2.1 hf h hw
    · exact going_of_end _ hend
  · have hunseen (hret : ret ≠ .error) (d : ℤ) : EndSeen d w₁.log = false := by
      rw [onReady_endSeen hcopy hret hf h, (delivered_silent w r fd).endSeen_eq]
      exact hw.unseen hcopy (onReady_live hf) d
    have hlive := onReady_live hf
    rw [not_or] at hlive
    cases hout with
    | stays => exact going_of_unseen hcopy (hunseen hlive.2)
    | enters hne _ _ herror =>
        by_cases hret : ret = .copy
        · subst hret
          obtain rfl := (hfollows.resolve_left hne).eq_requestWrite
          cases r <;> cases hf
          exact (requestWrite_spec h).going hw
        · refine going_of_unseen hret fun d => ?_
          rw [(arrived_silent _ _).endSeen_eq]
          exact hunseen herror d
    | connects _ hinit =>
        refine going_of_unseen (by simp) fun d => ?_
        rw [(connectOriginInit_spec hinit).silent.endSeen_eq]
        exact hunseen (by simp) d
    | redirected _ hinit hto =>
        rcases hto with rfl | rfl
        · refine going_of_unseen (by simp) fun d => ?_
          rw [(connectOriginInit_spec hinit).silent.endSeen_eq]
          exact hunseen (by simp) d
        · exact going_of_end _ (Or.inr rfl)
    | ends hend => exact going_of_end _ hend

theorem going_inductive (company : Company) :
    Inductive company Basics AnyEvent fun _ s w => Going s w where
  started := by
    intro w _ hw
    exact hw.of_rest (arrived_silent .greetingRead w) rfl rfl
  startedCondition := fun _ _ _ => trivial
  dispatched := fun hK hw _ _ hlive hhands _ hf h hout =>
    hw.dispatched (hK.2 hlive) hhands hf h hout
  connectionEnds := fun _ _ hw _ _ =>
    hw.of_rest ⟨rfl, rfl, rfl, [], by simp, by simp⟩ rfl rfl
  resolved := fun _ _ _ hw _ _ =>
    hw.of_rest ⟨rfl, rfl, rfl, [], by simp [connectOriginThread], by simp⟩ rfl rfl
  others := fun _ _ hw _ _ =>
    hw.of_rest ⟨rfl, rfl, rfl, [], by simp, by simp⟩ rfl rfl

/-! ## When the relay ends -/

theorem Ends.not_data {sys : Sys} {b b' : Buffer} {bs : List UInt8}
    (h : Ends sys b) : ¬ Receives sys b (.data bs b') := by
  intro hdata
  cases hdata with
  | data hrecv hne =>
      rcases h with h | h <;> rw [h] at hrecv <;> simp_all

/-- Reading ends the relay in the cases of `EndsRelay` only. -/
theorem CopyReads.done_iff {sys : Sys} {side : Side} {fd : ℤ} {w w' : World}
    {ret : GlobalState} (h : CopyReads sys side fd w ret w')
    (hw : Going .copy w) :
    ret = .done ↔ Ends sys (side.inbox w.session) ∧
      if (side.inbox w.session).pending = [] then sys.shutdown = true
      else side.peer.writing w.session.copy = false := by
  cases h with
  | failed hfailed =>
      refine ⟨fun heq => (nomatch heq), ?_⟩
      rintro ⟨hends | hends, -⟩ <;> rw [hends] at hfailed <;> cases hfailed
  | relays hrecv =>
      constructor
      · intro heq
        have := eq_of_afterInterest heq (by decide)
        rw [hw.running rfl] at this
        cases this
      · exact fun hends => absurd hrecv hends.1.not_data
  | holds hends hpending =>
      rw [if_neg hpending, checkCloseConnection_endOfStream]
      exact ⟨fun hwriting => ⟨hends, hwriting⟩, fun h => h.2⟩
  | closes hends hpending _ hok =>
      rw [if_pos hpending]
      exact ⟨fun _ => ⟨hends, hok⟩, fun _ => checkCloseConnection_closed _ _⟩
  | unclosed hends hpending _ hok =>
      rw [if_pos hpending, hok]
      simp

theorem checkCloseConnection_stopWriting {c : CopyStm} {side : Side} :
    checkCloseConnection (side.stopWriting c) = .done ↔
      (∀ side' : Side, side'.reading c = false) ∧
        side.peer.writing c = false := by
  rw [checkCloseConnection_eq_done_iff]
  constructor
  · intro h
    refine ⟨fun side' => ?_, ?_⟩
    · have := (h side').1
      cases side <;> cases side' <;> exact this
    · have := (h side.peer).2
      cases side <;> exact this
  · rintro ⟨hreading, hwriting⟩ side'
    refine ⟨?_, ?_⟩
    · have := hreading side'
      cases side <;> cases side' <;> exact this
    · cases side <;> cases side' <;> first | rfl | exact hwriting

/-- Writing ends the relay in the cases of `EndsRelay` only. -/
theorem CopyWrites.done_iff {sys : Sys} {side : Side} {fd : ℤ} {w w' : World}
    {ret : GlobalState} (h : CopyWrites sys side fd w ret w')
    (hw : Going .copy w) : ret = .done ↔ Drains w side sys := by
  have hgoes {status : SelectorStatus}
      (heq : afterInterest status (checkCloseConnection w.session.copy) =
        .done) : False := by
    have := eq_of_afterInterest heq (by decide)
    rw [hw.running rfl] at this
    cases this
  cases h with
  | failed hsends =>
      refine ⟨fun heq => (nomatch heq), fun hdrains => ?_⟩
      cases hsends with
      | failed hfailed =>
          rcases hfailed with hfailed | hfailed
          · have := hdrains.sends
            rw [Sys.sendsAll, hfailed] at this
            cases this
          · exact absurd hfailed hdrains.pending
  | partly hsends hne =>
      exact ⟨fun heq => (hgoes heq).elim,
        fun hdrains => absurd (hsends.wholly.mpr hdrains.sends) hne⟩
  | partlyLast hsends hne =>
      exact ⟨fun heq => (@hgoes .success heq).elim,
        fun hdrains => absurd (hsends.wholly.mpr hdrains.sends) hne⟩
  | wholly _ _ hreading =>
      refine ⟨fun heq => (hgoes heq).elim, fun hdrains => ?_⟩
      rw [hdrains.reading] at hreading
      cases hreading
  | closes hsends hempty hreading _ hok =>
      rw [checkCloseConnection_stopWriting]
      constructor
      · rintro ⟨hreads, hwrites⟩
        refine ⟨hsends.wholly.mp hempty, ?_, hok, hreads, hwrites⟩
        cases hsends with
        | sent _ _ hne hpending => simp [hpending, hne]
      · exact fun hdrains => ⟨hdrains.reading, hdrains.writing⟩
  | unclosed _ _ _ _ hok =>
      refine ⟨fun heq => (nomatch heq), fun hdrains => ?_⟩
      rw [hdrains.shutdown] at hok
      cases hok

/-- The relay is never complete when reading ends it. -/
theorem CopyReads.incomplete {sys : Sys} {side : Side} {w w' : World}
    {ret : GlobalState} (h : CopyReads sys side (side.fd w.session) w ret w')
    (hret : ret = .done) (hseated : Seated w) (hw : Going .copy w) :
    ¬ Complete w' := by
  intro hcomplete
  cases h with
  | failed | unclosed => cases hret
  | relays =>
      have := eq_of_afterInterest hret (by decide)
      rw [hw.running rfl] at this
      cases this
  | holds _ hpending =>
      have := hcomplete.empty side
      cases side <;> exact hpending this
  | @closes s =>
      have hseen : EndSeen (side.peer.fd w.session)
          (side.ended sys (side.fd w.session) w s).log = true := by
        have := hcomplete.ended side.peer
        rw [((record_silent _ rfl).trans (setCopy_silent _ _)).endSeen_eq]
          at this
        exact this
      rw [Side.endSeen_ended hseated] at hseen
      have hne := (hw.unsent rfl side.peer hseen).pending
      have := hcomplete.empty side.peer
      cases side <;> exact hne this

/-- Nor when writing does. -/
theorem CopyWrites.incomplete {sys : Sys} {side : Side} {w w' : World}
    {ret : GlobalState} (h : CopyWrites sys side (side.fd w.session) w ret w')
    (hret : ret = .done) (hw : Going .copy w) : ¬ Complete w' := by
  intro hcomplete
  have hdrains := (h.done_iff hw).mp hret
  cases h with
  | failed | unclosed => cases hret
  | partly _ _ hreading | wholly _ _ hreading =>
      rw [hdrains.reading] at hreading
      cases hreading
  | partlyLast hsends hne =>
      exact hne (hsends.wholly.mpr hdrains.sends)
  | @closes bs b sniffer s =>
      have hseen : EndSeen (side.fd w.session) w.log = true := by
        have := hcomplete.ended side
        rw [(((changed_silent _ s rfl).trans (setCopy_silent _ _)).trans
          (record_silent _ rfl)).endSeen_eq, Side.sent_log, endSeen_concat,
          Bool.or_eq_true] at this
        cases side <;> exact this.resolve_right Bool.false_ne_true
      have hne := (hw.unsent rfl side hseen).pending
      have := hcomplete.empty side
      cases side <;> exact hne this

/-! ## The callbacks that end the relay return -/

theorem World.exists_reduceInterest {w : World} {fd : ℤ} (i : FdInterest)
    (h : w.selector.Registered fd) :
    ∃ s, w.reduceInterest fd i =
      .ok (.success, w.changed s (.reduceInterest fd i)) := by
  obtain ⟨s, hs⟩ := exists_updateInterest (reduction i) h
  refine ⟨s, ?_⟩
  rw [World.reduceInterest, selectorSetInterestReduction, hs]
  rfl

theorem exists_copyReadEnd {sys : Sys} {side : Side} {fd fdTarget : ℤ}
    {w : World} (hreg : w.selector.Registered fd) :
    ∃ ret w', copyReadEnd sys side fd fdTarget w = .ok (ret, w') := by
  obtain ⟨s, hs⟩ := w.exists_reduceInterest .read hreg
  simp only [copyReadEnd, hs, ok_bind]
  rw [if_neg (by simp)]
  split
  · exact ⟨_, _, rfl⟩
  · split <;> exact ⟨_, _, rfl⟩

theorem exists_copyRead {sys : Sys} {side : Side} {fd : ℤ} {w : World}
    (hside : w.session.side? fd = some side)
    (hreg : w.selector.Registered fd) (hends : Ends sys (side.inbox w.session)) :
    ∃ ret w', copyRead sys fd w = .ok (ret, w') := by
  unfold copyRead
  simp only [hside, World.recvInto]
  rcases hends with hends | hends <;> simp only [hends, ok_bind] <;>
    exact exists_copyReadEnd hreg

/-- Sniffing depends on the sniffer only. -/
theorem exists_sniff {sys : Sys} {side : Side} {bs : List UInt8}
    {w w' v : World} (h : sniff sys side bs w = .ok w')
    (hv : v.session.pop3sniffer = w.session.pop3sniffer) :
    ∃ sniffer, sniff sys side bs v = .ok (v.setSniffer sniffer) := by
  unfold sniff at h ⊢
  split at h
  · rename_i hsniffs
    obtain ⟨sniffer, hsniffer, -⟩ := bind_eq_ok.mp h
    rw [if_pos hsniffs, hv, hsniffer]
    exact ⟨sniffer, rfl⟩
  · rename_i hnot
    rw [if_neg hnot]
    exact ⟨v.session.pop3sniffer, rfl⟩

/-- A `send` of all there is. -/
theorem World.sendFrom_wholly {w : World} {state : GlobalState} {sys : Sys}
    {fd : ℤ} {b : Buffer} (hsends : sys.sendsAll b = true)
    (hne : b.pending ≠ []) :
    ∃ b', w.sendFrom state sys fd b =
      .ok (some (b.pending, b'), w.record (.send state fd b.pending)) := by
  obtain ⟨b', hb'⟩ := Buffer.exists_readAdv (le_refl b.count)
  refine ⟨b', ?_⟩
  unfold Sys.sendsAll at hsends
  unfold World.sendFrom
  rw [← b.length_pending] at hsends hb'
  cases hsend : sys.send with
  | failed => simp [hsend] at hsends
  | accepted k =>
      rcases hpending : b.pending with - | ⟨c, cs⟩
      · exact absurd hpending hne
      · simp only [hsend, hpending, decide_eq_true_iff] at hsends hb'
        simp only [List.take_of_length_le hsends, hb', ok_bind]

theorem exists_copyWriteDrained {sys : Sys} {side : Side} {fd : ℤ} {w : World}
    (hreg : w.selector.Registered fd)
    (hreading : side.peer.reading w.session.copy = false) :
    ∃ ok w', copyWriteDrained sys side fd w = .ok (ok, w') ∧
      side.peer.reading w'.session.copy = false := by
  unfold copyWriteDrained
  split
  · exact ⟨true, w, rfl, hreading⟩
  · obtain ⟨s, hs⟩ := w.exists_reduceInterest .write hreg
    simp only [hs, ok_bind]
    rw [if_neg (by simp)]
    change ∃ ok w', (if side.peer.reading w.session.copy = true then _ else _) =
      _ ∧ _
    rw [if_neg (by simp [hreading])]
    refine ⟨_, _, rfl, ?_⟩
    cases side <;> exact hreading

theorem exists_copyWrite {sys : Sys} {side : Side} {fd : ℤ} {w : World}
    (hside : w.session.side? fd = some side)
    (hreg : w.selector.Registered fd) (hdrains : Drains w side sys)
    (hsniffs : ∃ w', sniff sys side (side.outbox w.session).pending w = .ok w') :
    ∃ ret w', copyWrite sys fd w = .ok (ret, w') := by
  obtain ⟨b, hsent⟩ : ∃ b, w.sendFrom .copy sys fd (side.outbox w.session) = _ :=
    w.sendFrom_wholly hdrains.sends hdrains.pending
  obtain ⟨w', hsniff⟩ := hsniffs
  obtain ⟨sniffer, hsniff⟩ := exists_sniff hsniff
    (v := w.record (.send .copy fd (side.outbox w.session).pending)) rfl
  obtain ⟨ok, w₁, hdrained, hreading⟩ : ∃ ok w₁, copyWriteDrained sys side fd
      (side.sent fd w (side.outbox w.session).pending sniffer b) = .ok (ok, w₁) ∧
      side.peer.reading w₁.session.copy = false := by
    apply exists_copyWriteDrained
    · cases side <;> exact hreg
    · cases side <;> exact hdrains.reading _
  unfold Side.sent at hdrained
  unfold copyWrite
  simp only [hside, hsent, hsniff, hdrained, ok_bind]
  split
  · exact ⟨_, _, rfl⟩
  · rw [if_neg (by simp [hreading])]
    exact ⟨_, _, rfl⟩

/-- `copy_write` sniffs what it has sent. -/
theorem copyWrite_sniffs {sys : Sys} {side : Side} {fd : ℤ} {w w' : World}
    {ret : GlobalState} (hside : w.session.side? fd = some side)
    (h : copyWrite sys fd w = .ok (ret, w')) (hret : ret ≠ .error) :
    ∃ bs b, Sends sys (side.outbox w.session) (some (bs, b)) ∧
      ∃ w₁, sniff sys side bs w = .ok w₁ := by
  unfold copyWrite at h
  simp only [hside] at h
  obtain ⟨⟨sent, w₁⟩, hsend, h⟩ := bind_eq_ok.mp h
  obtain ⟨hsends, rfl⟩ := World.sendFrom_spec hsend
  rcases sent with - | ⟨bs, b⟩
  · cases h
    exact absurd rfl hret
  · obtain ⟨w₂, hsniff, -⟩ := bind_eq_ok.mp h
    obtain ⟨sniffer, hsniff⟩ := exists_sniff hsniff (v := w) rfl
    exact ⟨bs, b, hsends, _, hsniff⟩

theorem Drains.sent_eq {w : World} {side : Side} {sys : Sys} {bs : List UInt8}
    {b : Buffer} (h : Drains w side sys)
    (hsends : Sends sys (side.outbox w.session) (some (bs, b))) :
    bs = (side.outbox w.session).pending := by
  have hempty := hsends.wholly.mpr h.sends
  cases hsends with
  | sent _ _ _ hpending => rw [hpending, hempty, List.append_nil]

/-- The session is in the relay, and going on. -/
theorem Reachable.going {company : Company} {c : Config}
    (h : Reachable company c) (hlive : c.world.destroyed = false) :
    Going c.state c.world ∧ Seated c.world := by
  obtain ⟨c₀, tr, hinit, hrun⟩ := h
  have hgoing₀ : Going .greetingRead c₀.world := by
    refine going_of_unseen (by simp) ?_
    obtain ⟨address, clientFd, s, m, rfl, -⟩ := hinit
    exact fun _ => rfl
  obtain ⟨vs, -, hbasics, hgoing⟩ := ((basics_inductive company).and
    (going_inductive company)).run hrun (fun _ _ => trivial) hinit.stm_eq
    ⟨hinit.basics, hgoing₀⟩
  exact ⟨hgoing, hbasics.2 hlive⟩

/-- A callback of `COPY` that ends the relay ends it before it is complete. -/
theorem not_complete_of_done {sys : Sys} {fd : ℤ} {r : Ready} {f : Callback}
    {w w' : World} (hw : Going .copy w) (hseated : Seated w)
    (hreg : w.selector.Registered fd) (hf : onReady sys fd .copy r = some f)
    (h : f w = .ok (.done, w')) : EndsRelay w fd sys r ∧ ¬ Complete w' := by
  cases r <;> cases hf
  case read =>
      rcases hside : w.session.side? fd with - | side
      · simp [copyRead, hside] at h
      · have hspec := copyRead_spec hside hreg h
        refine ⟨⟨side, hside, (hspec.done_iff hw).mp rfl⟩, ?_⟩
        obtain rfl := Session.side?_eq hside
        exact hspec.incomplete rfl hseated hw
  case write =>
      rcases hside : w.session.side? fd with - | side
      · simp [copyWrite, hside] at h
      · have hspec := copyWrite_spec hside hreg h
        have hdrains := (hspec.done_iff hw).mp rfl
        refine ⟨⟨side, hside, hdrains, ?_⟩, ?_⟩
        · obtain ⟨bs, b, hsends, hsniffs⟩ :=
            copyWrite_sniffs hside h (by decide)
          rwa [hdrains.sent_eq hsends] at hsniffs
        · obtain rfl := Session.side?_eq hside
          exact hspec.incomplete rfl hw

/-- In every run, a callback of `COPY` returns `DONE` for a complete relay only
if and only if the event does not end the relay. -/
theorem completesRelay_iff {company : Company} {c : Config} {r : Ready} {fd : ℤ}
    {sys : Sys} (hreach : Reachable company c) (hcopy : c.state = .copy)
    (hlive : c.world.destroyed = false) (hhands : c.world.Hands company r fd) :
    CompletesRelay c.world fd sys r ↔ ¬ EndsRelay c.world fd sys r := by
  obtain ⟨hgoing, hseated⟩ := hreach.going hlive
  rw [hcopy] at hgoing
  constructor
  · rintro hcompletes hends
    cases r with
    | block => exact hends
    | read =>
        obtain ⟨side, hside, hends⟩ := hends
        obtain ⟨ret, w', h⟩ := exists_copyRead hside hhands.2.1 hends.1
        obtain rfl := ((copyRead_spec hside hhands.2.1 h).done_iff hgoing).mpr hends
        have hf : onReady sys fd .copy .read = some (copyRead sys fd) := rfl
        exact (not_complete_of_done hgoing hseated hhands.2.1 hf h).2
          (hcompletes _ _ hf h)
    | write =>
        obtain ⟨side, hside, hdrains, hsniffs⟩ := hends
        obtain ⟨ret, w', h⟩ := exists_copyWrite hside hhands.2.1 hdrains hsniffs
        obtain rfl :=
          ((copyWrite_spec hside hhands.2.1 h).done_iff hgoing).mpr hdrains
        have hf : onReady sys fd .copy .write = some (copyWrite sys fd) := rfl
        exact (not_complete_of_done hgoing hseated hhands.2.1 hf h).2
          (hcompletes _ _ hf h)
  · intro hnot f w' hf h
    exact absurd (not_complete_of_done hgoing hseated hhands.2.1 hf h).1 hnot

/-- Bytes of the client do not end the relay. -/
theorem completesRelay_of_bytes :
    ∃ c, play .alone (accepted 5) (connectedClient []) = some c ∧
      c.state = .copy ∧
      CompletesRelay c.world 5 { recv := .received [71] } .read := by
  have hplay : (play .alone (accepted 5) (connectedClient [])).any (fun c =>
      decide (c.state = .copy ∧ c.world.destroyed = false ∧
        c.world.hands .alone .read 5 = true ∧
        ∀ side ∈ c.world.session.side? 5,
          ¬ Ends { recv := .received [71] } (side.inbox c.world.session))) =
      true := by decide
  obtain ⟨c, hc, hchecks⟩ := (Option.any_eq_true _ _).mp hplay
  obtain ⟨hcopy, hlive, hhands, hends⟩ := of_decide_eq_true hchecks
  refine ⟨c, hc, hcopy, (completesRelay_iff
    (reachable_of_play (accepted_initial (by decide) (by decide)) hc) hcopy
    hlive (World.hands_spec hhands)).mpr ?_⟩
  rintro ⟨side, hside, hside', -⟩
  exact hends side hside hside'

/-- When the client closes its half of the connection with nothing left to be
sent to the origin, the relay ends although the origin's half is open. -/
theorem not_completesRelay_of_half_close :
    ∃ c, Reachable .alone c ∧ c.state = .copy ∧ c.world.Hands .alone .read 5 ∧
      ¬ CompletesRelay c.world 5 { recv := .received [] } .read := by
  have hplay : (play .alone (accepted 5) (connectedClient [])).any (fun c =>
      decide (c.state = .copy ∧ c.world.hands .alone .read 5 = true) &&
        (copyRead { recv := .received [] } 5 c.world).toOption.any fun x =>
          decide (x.1 = .done ∧
            EndSeen (Side.origin.fd x.2.session) x.2.log = false)) = true := by
    decide
  obtain ⟨c, hc, hchecks⟩ := (Option.any_eq_true _ _).mp hplay
  rw [Bool.and_eq_true, decide_eq_true_iff] at hchecks
  obtain ⟨⟨hcopy, hhands⟩, hdone⟩ := hchecks
  obtain ⟨⟨ret, w'⟩, hcall, hincomplete⟩ := (Option.any_eq_true _ _).mp hdone
  obtain ⟨rfl, hunseen⟩ := of_decide_eq_true hincomplete
  refine ⟨c, reachable_of_play (accepted_initial (by decide) (by decide)) hc,
    hcopy, World.hands_spec hhands, fun hcompletes => ?_⟩
  have hcomplete := hcompletes _ w' rfl (toOption_eq_some.mp hcall)
  rw [hcomplete.ended] at hunseen
  cases hunseen

end Socksv5
