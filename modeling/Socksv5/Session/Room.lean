import Socksv5.Session.Closing

/-!
# Room to receive into

A buffer is only compacted when it has been emptied, and reading is armed again
after every answer of the handshake and every `send` of the relay.  A
descriptor that is read has room in its buffer as long as nobody arms reading
into a buffer that is still full.
-/

namespace Socksv5

open Support

/-- The buffer that the read callback of the state receives into. -/
def Session.receivesInto (s : Session) (state : GlobalState) (fd : ℤ) :
    Option Buffer :=
  (s.side? fd).bind fun side =>
    match state with
    | .greetingRead | .authRead | .requestRead => some s.readBuffer
    | .copy => some (side.inbox s)
    | _ => none

/-- The descriptor is waited for to be read. -/
def FdSelector.ReadsFrom (s : FdSelector) (fd : ℤ) : Prop :=
  ∃ i, s.interest? fd = some i ∧ i.reads = true

instance (s : FdSelector) (fd : ℤ) : Decidable (s.ReadsFrom fd) :=
  decidable_of_iff (∃ i ∈ s.interest? fd, i.reads = true) Iff.rfl

/-- A descriptor that is read has room in its buffer: nothing that `recv`
returns is taken for the end of the stream but the end of the stream. -/
def ReadsWithRoom (c : Config) (fd : ℤ) : Prop :=
  c.world.selector.ReadsFrom fd →
    ∀ b ∈ c.world.session.receivesInto c.state fd, 0 < b.room ∧
      ∀ r : RecvResult, r.upTo b.room = .received [] → r = .received []

/-- The write event sends the rest of an answer, after which `read_buffer` is
received into. -/
def AnswersWholly (s : GlobalState) (w : World) (sys : Sys) : Prop :=
  match s with
  | .greetingWrite => sys.sendsAll w.session.writeBuffer = true
  | .authWrite => sys.sendsAll w.session.writeBuffer = true ∧
      w.session.auth.reply = authSuccess
  | .requestWrite => w.session.request.parser.reply = .succeded ∧
      ∃ b ∈ (requestFillMsg w.session.writeBuffer
        w.session.request.parser).toOption, sys.sendsAll b = true
  | _ => False

/-- A write event of the relay on the side arms reading into a buffer with
room: that of the other side, or where its descriptor is cut off to this one's,
that of this side. -/
structure RearmsWithRoom (w : World) (side : Side) (sys : Sys) : Prop where
  peer : uint8 (side.peer.fd w.session) = side.peer.fd w.session →
    sys.sendsAll (side.outbox w.session) = true ∨
      0 < (side.outbox w.session).room
  self : uint8 (side.peer.fd w.session) = side.fd w.session →
    0 < (side.inbox w.session).room

/-- The event arms reading into buffers with room only. -/
def RoomyEvent (s : GlobalState) (w : World) : Event → Prop
  | .dispatch .write fd sys =>
      (AnswersWholly s w sys → 0 < w.session.readBuffer.room) ∧
      (s = .copy → ∀ side ∈ w.session.side? fd, sys.send ≠ .failed →
        (side.outbox w.session).pending ≠ [] →
        side.peer.reading w.session.copy = true → RearmsWithRoom w side sys)
  | _ => True

instance (s : GlobalState) (w : World) (sys : Sys) :
    Decidable (AnswersWholly s w sys) :=
  match s with
  | .greetingWrite => inferInstanceAs (Decidable (_ = _))
  | .authWrite | .requestWrite => inferInstanceAs (Decidable (_ ∧ _))
  | .greetingRead | .authRead | .requestRead | .originConnect | .copy | .done
  | .error => inferInstanceAs (Decidable False)

instance (w : World) (side : Side) (sys : Sys) :
    Decidable (RearmsWithRoom w side sys) :=
  decidable_of_iff (_ ∧ _) ⟨fun h => ⟨h.1, h.2⟩, fun h => ⟨h.1, h.2⟩⟩

instance (s : GlobalState) (w : World) (e : Event) :
    Decidable (RoomyEvent s w e) :=
  match e with
  | .dispatch .write _ _ => inferInstanceAs (Decidable (_ ∧ _))
  | .dispatch .read _ _ | .dispatch .block _ _ | .connectionEnds _
  | .resolved _ _ _ | .others _ _ => inferInstanceAs (Decidable True)

/-- What holds in a run of such events. -/
structure Roomy (s : GlobalState) (w : World) : Prop where
  limit : ¬ (s = .done ∨ s = .error) →
    0 < w.session.readBuffer.limit ∧ 0 < w.session.writeBuffer.limit
  handshake : s = .greetingRead ∨ s = .authRead ∨ s = .requestRead →
    0 < w.session.readBuffer.room
  relay : s = .copy → ∀ side : Side,
    w.selector.ReadsFrom (side.fd w.session) →
    0 < (side.inbox w.session).room

/-! ## Arming and disarming -/

theorem ChangesInterest.readsFrom {s s' : FdSelector} {fd d : ℤ}
    {change : FdInterest → Option FdInterest} {ret : SelectorStatus}
    (h : ChangesInterest s fd change ret s') (hd : s'.ReadsFrom d) :
    (d = fd ∧ ∃ i, s.interest? fd = some i ∧
      ((change i).getD i).reads = true) ∨ s.ReadsFrom d := by
  cases h with
  | refused => exact Or.inr hd
  | changed i hi hs =>
      obtain ⟨j, hj, hreads⟩ := hd
      by_cases heq : d = fd
      · subst heq
        rw [hs, Function.update_self] at hj
        cases hj
        exact Or.inl ⟨rfl, i, hi, hreads⟩
      · rw [hs, Function.update_of_ne heq] at hj
        exact Or.inr ⟨j, hj, hreads⟩

/-- Arming writing does not arm reading. -/
theorem readsFrom_of_addWrite {s s' : FdSelector} {fd d : ℤ}
    {ret : SelectorStatus} (h : ChangesInterest s fd (additive .write) ret s')
    (hd : s'.ReadsFrom d) : s.ReadsFrom d := by
  rcases h.readsFrom hd with ⟨rfl, i, hi, hreads⟩ | hd
  · refine ⟨i, hi, ?_⟩
    revert hreads
    cases i <;> decide
  · exact hd

/-- Nor does disarming writing. -/
theorem readsFrom_of_reduceWrite {s s' : FdSelector} {fd d : ℤ}
    {ret : SelectorStatus} (h : ChangesInterest s fd (reduction .write) ret s')
    (hd : s'.ReadsFrom d) : s.ReadsFrom d := by
  rcases h.readsFrom hd with ⟨rfl, i, hi, hreads⟩ | hd
  · refine ⟨i, hi, ?_⟩
    revert hreads
    cases i <;> decide
  · exact hd

/-- Disarming reading does so. -/
theorem readsFrom_of_reduceRead {s s' : FdSelector} {fd d : ℤ}
    (h : ChangesInterest s fd (reduction .read) .success s')
    (hd : s'.ReadsFrom d) : d ≠ fd ∧ s.ReadsFrom d := by
  have hne : d ≠ fd := by
    rintro rfl
    obtain ⟨i, hi, hs⟩ := h.interest_eq
    obtain ⟨j, hj, hreads⟩ := hd
    rw [hs, Function.update_self] at hj
    cases hj
    revert hreads
    cases i <;> decide
  rcases h.readsFrom hd with ⟨heq, -⟩ | hd
  · exact absurd heq hne
  · exact ⟨hne, hd⟩

/-- Arming reading arms that of one descriptor. -/
theorem readsFrom_of_addRead {s s' : FdSelector} {fd d : ℤ}
    {ret : SelectorStatus} (h : ChangesInterest s fd (additive .read) ret s')
    (hd : s'.ReadsFrom d) : d = fd ∨ s.ReadsFrom d :=
  (h.readsFrom hd).imp_left And.left

/-! ## The handshake -/

theorem roomy_of_end {s : GlobalState} (w : World)
    (h : s = .done ∨ s = .error) : Roomy s w := by
  refine ⟨fun hlive => absurd h hlive, fun hs => ?_, fun hs => ?_⟩
  · rcases h with rfl | rfl <;> simp at hs
  · simp [hs] at h

theorem roomy_of_limit {s : GlobalState} {w : World}
    (hs : s = .greetingWrite ∨ s = .authWrite ∨ s = .originConnect ∨
      s = .requestWrite)
    (h : 0 < w.session.readBuffer.limit ∧ 0 < w.session.writeBuffer.limit) :
    Roomy s w := by
  refine ⟨fun _ => h, fun hread => ?_, fun hcopy => ?_⟩
  · rcases hs with rfl | rfl | rfl | rfl <;> simp at hread
  · simp [hcopy] at hs

theorem roomy_of_room {s : GlobalState} {w : World} (hs : s ≠ .copy)
    (h : 0 < w.session.readBuffer.limit ∧ 0 < w.session.writeBuffer.limit)
    (hroom : 0 < w.session.readBuffer.room) : Roomy s w :=
  ⟨fun _ => h, fun _ => hroom, fun hcopy => absurd hcopy hs⟩

/-- A parser that has not come to an end has emptied the buffer. -/
theorem consume_room {P : Type} {feed : UInt8 → P → Except Fault P}
    {stop : P → Bool} {sys : Sys} {b b₁ b' : Buffer} {bs : List UInt8}
    {p p' : P} (hrecv : Receives sys b (.data bs b₁))
    (h : consume feed stop b₁ p = .ok (b', p')) (hstop : stop p = false) :
    b'.limit = b.limit ∧ (stop p' = false → b'.room = b.limit) := by
  cases hrecv with
  | data _ _ _ _ hlimit hsettled =>
      obtain ⟨hdecode, hleft⟩ := consume_spec hsettled h
      obtain ⟨-, -, -, hend⟩ := decode_reads hstop hdecode
      refine ⟨hleft.limit.trans hlimit, fun hnot => ?_⟩
      rcases hend with hend | ⟨hempty, -⟩
      · rw [hnot] at hend
        cases hend
      · rw [hleft.settled.room_of_pending hempty, hleft.limit, hlimit]

theorem Sends.limit_eq {sys : Sys} {b b' : Buffer} {bs : List UInt8}
    (h : Sends sys b (some (bs, b'))) : b'.limit = b.limit := by
  cases h with
  | sent _ _ _ _ hlimit => exact hlimit

/-- A buffer that a `send` has emptied is free again. -/
theorem Sends.room_eq {sys : Sys} {b b' : Buffer} {bs : List UInt8}
    (h : Sends sys b (some (bs, b'))) (hempty : b'.pending = []) :
    b'.room = b.limit := by
  cases h with
  | sent _ _ _ _ hlimit hsettled =>
      rw [hsettled.room_of_pending hempty, hlimit]

theorem greetingFillMsg_limit {b b' : Buffer} {m : UInt8}
    (h : greetingFillMsg b m = .ok (some b')) : b'.limit = b.limit := by
  unfold greetingFillMsg at h
  split at h
  · cases h
  · obtain ⟨b₁, hput, h⟩ := bind_eq_ok.mp h
    cases h
    exact (Buffer.put_spec hput).2.2.1

theorem GreetingReads.roomy {sys : Sys} {fd : ℤ} {w w' : World}
    {ret : GlobalState} (h : GreetingReads sys fd w ret w')
    (hfinal : w.session.greeting.parser.state.final = false)
    (hw : Roomy .greetingRead w) : Roomy ret w' := by
  obtain ⟨hread, hwrite⟩ := hw.limit (by decide)
  cases h with
  | failed => exact roomy_of_end _ (Or.inr rfl)
  | waits hrecv hconsume hnot =>
      obtain ⟨hlimit, hroom⟩ := consume_room hrecv hconsume hfinal
      exact roomy_of_room (by decide) ⟨hlimit ▸ hread, hwrite⟩
        ((hroom hnot).symm ▸ hread)
  | answers hrecv hconsume _ _ _ hfill =>
      obtain ⟨hlimit, -⟩ := consume_room hrecv hconsume hfinal
      exact roomy_of_limit (by simp)
        ⟨hlimit ▸ hread, greetingFillMsg_limit hfill ▸ hwrite⟩

theorem GreetingWrites.roomy {sys : Sys} {fd : ℤ} {w w' : World}
    {ret : GlobalState} (h : GreetingWrites sys fd w ret w')
    (hevent : AnswersWholly .greetingWrite w sys →
      0 < w.session.readBuffer.room)
    (hw : Roomy .greetingWrite w) : Roomy ret w' := by
  obtain ⟨hread, hwrite⟩ := hw.limit (by decide)
  cases h with
  | failed => exact roomy_of_end _ (Or.inr rfl)
  | partly hsends =>
      exact roomy_of_limit (by simp) ⟨hread, hsends.limit_eq ▸ hwrite⟩
  | wholly hsends hempty _ hret =>
      refine roomy_of_room ?_ ⟨hread, hsends.limit_eq ▸ hwrite⟩
        (hevent (hsends.wholly.mp hempty))
      rcases hret with ⟨rfl, -⟩ | ⟨rfl, -⟩ <;> decide

theorem AuthReads.roomy {sys : Sys} {fd : ℤ} {w w' : World}
    {ret : GlobalState} (h : AuthReads sys fd w ret w')
    (hfinal : w.session.auth.parser.state.final = false)
    (hw : Roomy .authRead w) : Roomy ret w' := by
  obtain ⟨hread, hwrite⟩ := hw.limit (by decide)
  cases h with
  | failed => exact roomy_of_end _ (Or.inr rfl)
  | waits hrecv hconsume hnot =>
      obtain ⟨hlimit, hroom⟩ := consume_room hrecv hconsume hfinal
      exact roomy_of_room (by decide) ⟨hlimit ▸ hread, hwrite⟩
        ((hroom hnot).symm ▸ hread)
  | answers hrecv hconsume _ _ _ hfill =>
      obtain ⟨hlimit, -⟩ := consume_room hrecv hconsume hfinal
      exact roomy_of_limit (by simp)
        ⟨hlimit ▸ hread, (Buffer.put_spec hfill).2.2.1 ▸ hwrite⟩

theorem AuthWrites.roomy {sys : Sys} {fd : ℤ} {w w' : World}
    {ret : GlobalState} (h : AuthWrites sys fd w ret w')
    (hevent : AnswersWholly .authWrite w sys → 0 < w.session.readBuffer.room)
    (hw : Roomy .authWrite w) : Roomy ret w' := by
  obtain ⟨hread, hwrite⟩ := hw.limit (by decide)
  cases h with
  | failed => exact roomy_of_end _ (Or.inr rfl)
  | partly hsends =>
      exact roomy_of_limit (by simp) ⟨hread, hsends.limit_eq ▸ hwrite⟩
  | wholly hsends hempty _ hret =>
      rcases hret with ⟨rfl, hreply⟩ | rfl
      · exact roomy_of_room (by decide) ⟨hread, hsends.limit_eq ▸ hwrite⟩
          (hevent ⟨hsends.wholly.mp hempty, hreply⟩)
      · exact roomy_of_end _ (Or.inl rfl)

theorem RequestReads.roomy {sys : Sys} {fd : ℤ} {w w' : World}
    {ret : GlobalState} (h : RequestReads sys fd w ret w')
    (hfinal : w.session.request.parser.state.final = false)
    (hw : Roomy .requestRead w) : Roomy ret w' := by
  obtain ⟨hread, hwrite⟩ := hw.limit (by decide)
  cases h with
  | failed => exact roomy_of_end _ (Or.inr rfl)
  | waits hrecv hconsume hnot =>
      obtain ⟨hlimit, hroom⟩ := consume_room hrecv hconsume hfinal
      exact roomy_of_room (by decide) ⟨hlimit ▸ hread, hwrite⟩
        ((hroom hnot).symm ▸ hread)
  | decides hrecv hconsume hret =>
      obtain ⟨hlimit, -⟩ := consume_room hrecv hconsume hfinal
      refine roomy_of_limit ?_ ⟨hlimit ▸ hread, hwrite⟩
      rcases hret with ⟨-, rfl, -⟩ | ⟨-, rfl, -⟩ <;> simp

theorem RequestWrites.roomy {sys : Sys} {fd : ℤ} {w w' : World}
    {ret : GlobalState} (h : RequestWrites sys fd w ret w')
    (hevent : AnswersWholly .requestWrite w sys →
      0 < w.session.readBuffer.room)
    (hw : Roomy .requestWrite w) : Roomy ret w' := by
  obtain ⟨hread, hwrite⟩ := hw.limit (by decide)
  cases h with
  | failed => exact roomy_of_end _ (Or.inr rfl)
  | refuses => exact roomy_of_end _ (Or.inl rfl)
  | partly hfill hsends =>
      have hlimit := (Buffer.put_spec hfill).2.2.1
      exact roomy_of_limit (by simp) ⟨hread, (hsends.limit_eq.trans hlimit) ▸ hwrite⟩
  | grants hfill hsends hempty hreply =>
      have hlimit := (Buffer.put_spec hfill).2.2.1
      refine ⟨fun _ => ⟨hread, (hsends.limit_eq.trans hlimit) ▸ hwrite⟩, by simp,
        fun _ side _ => ?_⟩
      cases side with
      | client =>
          exact hwrite.trans_eq (hlimit.symm.trans (hsends.room_eq hempty).symm)
      | origin =>
          exact hevent ⟨hreply, _, toOption_eq_some.mpr hfill,
            hsends.wholly.mp hempty⟩

/-! ## The relay -/

theorem Roomy.inbox_limit {w : World} (hw : Roomy .copy w) (side : Side) :
    0 < (side.inbox w.session).limit := by
  obtain ⟨hread, hwrite⟩ := hw.limit (by decide)
  cases side
  · exact hwrite
  · exact hread

/-- The relay's state is roomy when it is so on either side. -/
theorem roomy_of_sides {w : World} (side : Side)
    (hlimit : ∀ side : Side, 0 < (side.inbox w.session).limit)
    (hself : w.selector.ReadsFrom (side.fd w.session) →
      0 < (side.inbox w.session).room)
    (hpeer : w.selector.ReadsFrom (side.peer.fd w.session) →
      0 < (side.peer.inbox w.session).room) : Roomy .copy w := by
  refine ⟨fun _ => ⟨hlimit .origin, hlimit .client⟩, by simp,
    fun _ side' hreads => ?_⟩
  rcases side.eq_or_eq_peer side' with rfl | rfl
  · exact hself hreads
  · exact hpeer hreads

theorem Side.received_inbox (side : Side) (sys : Sys) (fd : ℤ) (w : World)
    (n : ℕ) (sniffer : Pop3Sniffer) (b : Buffer) :
    side.inbox (side.received sys fd w n sniffer b).session = b ∧
      side.peer.inbox (side.received sys fd w n sniffer b).session =
        side.peer.inbox w.session := by
  cases side <;> exact ⟨rfl, rfl⟩

theorem Side.sent_inbox (side : Side) (fd : ℤ) (w : World) (bs : List UInt8)
    (sniffer : Pop3Sniffer) (b : Buffer) :
    side.inbox (side.sent fd w bs sniffer b).session = side.inbox w.session ∧
      side.peer.inbox (side.sent fd w bs sniffer b).session = b := by
  cases side <;> exact ⟨rfl, rfl⟩

theorem CopyReads.roomy {sys : Sys} {side : Side} {w w' : World}
    {ret : GlobalState} (h : CopyReads sys side (side.fd w.session) w ret w')
    (hret : ret = .copy) (hw : Roomy .copy w) : Roomy .copy w' := by
  cases h with
  | failed | unclosed => cases hret
  | @relays bs b sniffer status s s' hrecv hs hs' =>
      obtain ⟨hself, hpeer⟩ := side.received_inbox sys (side.fd w.session) w
        bs.length sniffer b
      have hlimit : b.limit = (side.inbox w.session).limit := by
        cases hrecv with
        | data _ _ _ _ hlimit => exact hlimit
      refine roomy_of_sides side ?_ ?_ ?_
      · intro side'
        rcases side.eq_or_eq_peer side' with rfl | rfl
        · exact (hw.inbox_limit side').trans_eq
            (hlimit.symm.trans (congrArg Buffer.limit hself.symm))
        · exact (hw.inbox_limit side.peer).trans_eq
            (congrArg Buffer.limit hpeer.symm)
      · intro hreads
        have hreads' := readsFrom_of_addWrite hs' hreads
        refine absurd ?_ (readsFrom_of_reduceRead hs hreads').1
        cases side <;> rfl
      · intro hreads
        have hreads' := (readsFrom_of_reduceRead hs
          (readsFrom_of_addWrite hs' hreads)).2
        refine (hw.relay rfl side.peer ?_).trans_eq
          (congrArg Buffer.room hpeer.symm)
        cases side <;> exact hreads'
  | @holds s hends hpending hs =>
      refine roomy_of_sides side ?_ ?_ ?_
      · intro side'
        have := hw.inbox_limit side'
        cases side <;> cases side' <;> exact this
      · intro hreads
        refine absurd ?_ (readsFrom_of_reduceRead hs hreads).1
        cases side <;> rfl
      · intro hreads
        have hreads' := (readsFrom_of_reduceRead hs hreads).2
        have := hw.relay rfl side.peer
        cases side <;> exact this hreads'
  | closes =>
      rw [checkCloseConnection_closed] at hret
      cases hret

/-- After a `send` from the buffer of the other side. -/
theorem Sends.roomy {sys : Sys} {side : Side} {w w' : World} {bs : List UInt8}
    {b : Buffer} (h : Sends sys (side.outbox w.session) (some (bs, b)))
    (hw : Roomy .copy w) (hfd : ∀ d : Side, d.fd w'.session = d.fd w.session)
    (hin : side.inbox w'.session = side.inbox w.session)
    (hout : side.peer.inbox w'.session = b)
    (hself : w'.selector.ReadsFrom (side.fd w.session) →
      w.selector.ReadsFrom (side.fd w.session) ∨ 0 < (side.inbox w.session).room)
    (hpeer : w'.selector.ReadsFrom (side.peer.fd w.session) →
      b.pending ≠ [] → w.selector.ReadsFrom (side.peer.fd w.session) ∨
        0 < (side.outbox w.session).room) : Roomy .copy w' := by
  refine roomy_of_sides side ?_ ?_ ?_
  · intro side'
    rcases side.eq_or_eq_peer side' with rfl | rfl
    · rw [hin]
      exact hw.inbox_limit side'
    · rw [hout, h.limit_eq]
      exact hw.inbox_limit side.peer
  · rw [hfd, hin]
    intro hreads
    exact (hself hreads).elim (hw.relay rfl side) id
  · rw [hfd, hout]
    intro hreads
    by_cases hempty : b.pending = []
    · rw [h.room_eq hempty]
      exact hw.inbox_limit side.peer
    · have hroom : b.room = (side.outbox w.session).room := by
        cases h with
        | sent _ _ _ _ _ _ hroom => exact hroom hempty
      rw [hroom]
      exact (hpeer hreads hempty).elim (hw.relay rfl side.peer) id

theorem CopyWrites.roomy {sys : Sys} {side : Side} {w w' : World}
    {ret : GlobalState} (h : CopyWrites sys side (side.fd w.session) w ret w')
    (hret : ret = .copy)
    (hevent : sys.send ≠ .failed → (side.outbox w.session).pending ≠ [] →
      side.peer.reading w.session.copy = true → RearmsWithRoom w side sys)
    (hw : Roomy .copy w) : Roomy .copy w' := by
  have hrearms {bs : List UInt8} {b : Buffer}
      (hsends : Sends sys (side.outbox w.session) (some (bs, b)))
      (hreading : side.peer.reading w.session.copy = true) :
      RearmsWithRoom w side sys := by
    refine hevent hsends.accepted ?_ hreading
    cases hsends with
    | sent _ _ hne hpending => simp [hpending, hne]
  cases h with
  | failed | unclosed => cases hret
  | @partly bs b sniffer status s hsends hne hreading hs =>
      have hroom := hrearms hsends hreading
      refine hsends.roomy hw ?_ (side.sent_inbox _ w bs sniffer b).1
        (side.sent_inbox _ w bs sniffer b).2 ?_ ?_
      · intro d
        cases side <;> cases d <;> rfl
      · intro hreads
        rcases readsFrom_of_addRead hs hreads with heq | hreads
        · exact Or.inr (hroom.self heq.symm)
        · exact Or.inl hreads
      · intro hreads _
        rcases readsFrom_of_addRead hs hreads with heq | hreads
        · rcases hroom.peer heq.symm with hall | hpos
          · exact absurd (hsends.wholly.mpr hall) hne
          · exact Or.inr hpos
        · exact Or.inl hreads
  | @partlyLast bs b sniffer hsends hne hreading =>
      refine hsends.roomy hw ?_ (side.sent_inbox _ w bs sniffer b).1
        (side.sent_inbox _ w bs sniffer b).2 ?_ ?_
      · intro d
        cases side <;> cases d <;> rfl
      · intro hreads
        cases side <;> exact Or.inl hreads
      · intro hreads _
        cases side <;> exact Or.inl hreads
  | @wholly bs b sniffer status s s' hsends hempty hreading hs hs' =>
      have hroom := hrearms hsends hreading
      refine hsends.roomy hw ?_ (side.sent_inbox _ w bs sniffer b).1
        (side.sent_inbox _ w bs sniffer b).2 ?_
        (fun _ hne => absurd hempty hne)
      · intro d
        cases side <;> cases d <;> rfl
      · intro hreads
        rcases readsFrom_of_addRead hs' hreads with heq | hreads
        · exact Or.inr (hroom.self heq.symm)
        · exact Or.inl (readsFrom_of_reduceWrite hs hreads)
  | @closes bs b sniffer s hsends hempty hreading hs =>
      refine hsends.roomy hw ?_ (side.sent_inbox _ w bs sniffer b).1
        (side.sent_inbox _ w bs sniffer b).2 ?_
        (fun _ hne => absurd hempty hne)
      · intro d
        cases side <;> cases d <;> rfl
      · intro hreads
        exact Or.inl (readsFrom_of_reduceWrite hs hreads)

/-! ## Runs -/

theorem Roomy.of_silent {s s' : GlobalState} {w w' : World} (hw : Roomy s w)
    (hlive : ¬ (s = .done ∨ s = .error))
    (hs : s' = .originConnect ∨ s' = .requestWrite) (h : Silent w w') :
    Roomy s' w' := by
  refine roomy_of_limit (by rcases hs with rfl | rfl <;> simp) ?_
  rw [h.readBuffer, h.writeBuffer]
  exact hw.limit hlive

/-- A callback leaves room where it arms reading. -/
theorem onReady_roomy {sys : Sys} {fd : ℤ} {s ret : GlobalState} {r : Ready}
    {f : Callback} {w w' : World} (hunderstood : Understood w s)
    (hreg : w.selector.Registered fd)
    (hevent : RoomyEvent s w (.dispatch r fd sys))
    (hf : onReady sys fd s r = some f) (h : f w = .ok (ret, w'))
    (hw : Roomy s w) : Roomy ret w' := by
  cases s <;> cases r <;> cases hf
  case greetingRead.read => exact (greetingRead_spec h).roomy hunderstood.2.1 hw
  case greetingWrite.write => exact (greetingWrite_spec h).roomy hevent.1 hw
  case authRead.read => exact (authRead_spec h).roomy hunderstood.2.1 hw
  case authWrite.write => exact (authWrite_spec h).roomy hevent.1 hw
  case requestRead.read => exact (requestRead_spec h).roomy hunderstood.2.1 hw
  case requestWrite.write => exact (requestWrite_spec h).roomy hevent.1 hw
  case originConnect.write =>
      cases verifyConnection_spec h with
      | failed => exact roomy_of_end _ (Or.inr rfl)
      | answers => exact roomy_of_limit (by simp) (hw.limit (by simp))
  case originConnect.block =>
      have hspec := connectOriginBlock_spec h
      rcases hspec.state with rfl | rfl | rfl
      · exact hw.of_silent (by simp) (by simp) hspec.silent
      · exact hw.of_silent (by simp) (by simp) hspec.silent
      · exact roomy_of_end _ (Or.inr rfl)
  case copy.read =>
      rcases hside : w.session.side? fd with - | side
      · simp [copyRead, hside] at h
      · have hspec := copyRead_spec hside hreg h
        obtain rfl := Session.side?_eq hside
        rcases hspec.state with rfl | hend
        · exact hspec.roomy rfl hw
        · exact roomy_of_end _ hend
  case copy.write =>
      rcases hside : w.session.side? fd with - | side
      · simp [copyWrite, hside] at h
      · have hspec := copyWrite_spec hside hreg h
        have hrearms := hevent.2 rfl side hside
        obtain rfl := Session.side?_eq hside
        rcases hspec.state with rfl | hend
        · exact hspec.roomy rfl hrearms hw
        · exact roomy_of_end _ hend

theorem Roomy.dispatched {sys : Sys} {fd : ℤ} {s ret : GlobalState} {r : Ready}
    {f : Callback} {vs via : List GlobalState} {w w₁ w₂ : World}
    (hw : Roomy s w) (hgate : Gate vs s w)
    (hevent : RoomyEvent s w (.dispatch r fd sys))
    (hhands : w.Hands .alone r fd) (hf : onReady sys fd s r = some f)
    (h : f (w.delivered r fd) = .ok (ret, w₁))
    (hout : Outcome sys fd s ret w₁ via w₂) : Roomy (via.getLastD s) w₂ := by
  have hreg : (w.delivered r fd).selector.Registered fd := by
    cases r <;> exact hhands.2.1
  have hunderstood : Understood (w.delivered r fd) s := by
    cases r <;> exact hgate.understood
  have hevent' : RoomyEvent s (w.delivered r fd) (.dispatch r fd sys) := by
    cases r with
    | read | block => trivial
    | write => exact hevent
  have hw' : Roomy s (w.delivered r fd) := by
    cases r with
    | read | write => exact hw
    | block => exact ⟨hw.limit, hw.handshake, hw.relay⟩
  have hcalled := onReady_roomy hunderstood hreg hevent' hf h hw'
  cases hout with
  | stays => exact hcalled
  | enters =>
      change Roomy ret (arrived ret w₁)
      cases ret <;> exact ⟨hcalled.limit, hcalled.handshake, hcalled.relay⟩
  | connects _ hinit =>
      exact hcalled.of_silent (by simp) (by simp)
        (connectOriginInit_spec hinit).silent
  | redirected _ hinit hto =>
      rcases hto with rfl | rfl
      · exact hcalled.of_silent (by simp) (by simp)
          (connectOriginInit_spec hinit).silent
      · exact roomy_of_end _ (Or.inr rfl)
  | ends hend => exact roomy_of_end _ hend

theorem roomy_inductive : Inductive .alone Basics RoomyEvent
    fun _ s w => Roomy s w where
  started := fun w _ hw => ⟨hw.limit, hw.handshake, hw.relay⟩
  startedCondition := by
    intro w e he
    cases e with
    | dispatch r =>
        cases r with
        | read | block => trivial
        | write => exact ⟨fun h => h.elim, fun h => absurd h (by decide)⟩
    | connectionEnds | resolved | others => trivial
  dispatched := fun hK hw _ hevent _ hhands _ hf h hout =>
    hw.dispatched hK.1 hevent hhands hf h hout
  connectionEnds := fun _ _ hw _ _ => ⟨hw.limit, hw.handshake, hw.relay⟩
  resolved := by
    intro vs s w fd addrs alloc _ hw _ _
    cases alloc <;> exact ⟨hw.limit, hw.handshake, hw.relay⟩
  others := by
    intro vs s w sel m _ hw _ hsame
    refine ⟨hw.limit, hw.handshake, fun hs side hreads => hw.relay hs side ?_⟩
    obtain ⟨i, hi, hreads⟩ := hreads
    have hreg : sel.Registered (side.fd w.session) := by
      rw [FdSelector.Registered, show sel.interest? _ = _ from hi]
      simp
    have howns : w.session.Owns (side.fd w.session) := by
      refine ⟨hreg.nonneg, ?_⟩
      cases side
      · exact Or.inl rfl
      · exact Or.inr rfl
    exact ⟨i, ((hsame _ howns).2 rfl).1 ▸ hi, hreads⟩

theorem RecvResult.eq_of_upTo {r : RecvResult} {n : ℕ} (hn : 0 < n)
    (h : r.upTo n = .received []) : r = .received [] := by
  cases r with
  | received bs =>
      rw [RecvResult.upTo, RecvResult.received.injEq, List.take_eq_nil_iff] at h
      rw [h.resolve_left (Nat.pos_iff_ne_zero.mp hn)]
  | connReset | failed => cases h

theorem Initial.roomy {c : Config} (h : Initial c) :
    Roomy .greetingRead c.world := by
  obtain ⟨address, clientFd, s, m, rfl, -⟩ := h
  have hpos : 0 < maxBuffSize := by decide
  exact roomy_of_room (by decide) ⟨hpos, hpos⟩ hpos

/-- In a run of such events no end of stream is invented. -/
theorem readsWithRoom_of_roomy {c₀ c : Config} {tr : List (Config × Event)}
    (hinit : Initial c₀) (hrun : Run (Step .alone) c₀ tr c)
    (hroomy : ∀ x ∈ tr, RoomyEvent x.1.state x.1.world x.2) (fd : ℤ) :
    ReadsWithRoom c fd := by
  obtain ⟨vs, -, -, hw⟩ := ((basics_inductive .alone).and roomy_inductive).run
    hrun hroomy hinit.stm_eq ⟨hinit.basics, hinit.roomy⟩
  intro hreads b hb
  have hpos : 0 < b.room := by
    obtain ⟨side, hside, hinto⟩ := Option.bind_eq_some_iff.mp hb
    obtain rfl := Session.side?_eq hside
    cases hstate : c.state <;> simp only [hstate] at hinto <;> cases hinto
    case copy => exact hw.relay hstate side hreads
    all_goals exact hw.handshake (by simp [hstate])
  exact ⟨hpos, fun r => RecvResult.eq_of_upTo hpos⟩

/-- The client of a relay that has sent some bytes is read with room. -/
theorem readsWithRoom_of_bothWays :
    ∃ c, play .alone (accepted 5) (connectedClient [] ++ bothWays) = some c ∧
      c.state = .copy ∧ c.world.selector.ReadsFrom 5 ∧ ReadsWithRoom c 5 := by
  have hplay : (play .alone (accepted 5) (connectedClient [] ++ bothWays)).any
      (fun c => decide (c.state = .copy ∧ c.world.selector.ReadsFrom 5)) =
      true := by decide
  have hroomy : ∀ x ∈ playTrace .alone (accepted 5)
      (connectedClient [] ++ bothWays),
      RoomyEvent x.1.state x.1.world x.2 := by decide
  obtain ⟨c, hc, hchecks⟩ := (Option.any_eq_true _ _).mp hplay
  obtain ⟨hcopy, hreads⟩ := of_decide_eq_true hchecks
  exact ⟨c, hc, hcopy, hreads, readsWithRoom_of_roomy
    (accepted_initial (by decide) (by decide)) (play_run hc) hroomy 5⟩

/-- A client that sends its greeting with as many bytes as fill the buffer. -/
def eagerClient : List Act :=
  [.dispatch .read 5
      { recv := .received ([5, 1, 0] ++ List.replicate 4997 0) } [],
    .dispatch .write 5 { send := .accepted 1 } []]

/-- The request of such a client is read into a full buffer. -/
theorem not_readsWithRoom_of_eagerClient :
    ∃ c, Reachable .alone c ∧ c.world.selector.ReadsFrom 5 ∧
      ¬ ReadsWithRoom c 5 := by
  have hplay : (play .alone (accepted 5) eagerClient).any (fun c =>
      decide (c.world.selector.ReadsFrom 5 ∧
        ∃ b ∈ c.world.session.receivesInto c.state 5, b.room = 0)) = true := by
    decide +kernel
  obtain ⟨c, hc, hchecks⟩ := (Option.any_eq_true _ _).mp hplay
  obtain ⟨hreads, b, hb, hfull⟩ := of_decide_eq_true hchecks
  refine ⟨c, reachable_of_play (accepted_initial (by decide) (by decide)) hc,
    hreads, fun hroom => ?_⟩
  have := (hroom hreads b hb).1
  omega

end Socksv5
