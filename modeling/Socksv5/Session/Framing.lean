import Socksv5.Session.Streams

/-!
# What the client is answered

The bytes that the handshake sends to the client are those of its messages, in
order: provided that `request_write`, which puts the reply into `write_buffer`
each time that it is called, is called for the client and has the ten bytes
accepted at once.
-/

namespace Socksv5

open Support

/-! ## The answers -/

/-- The bytes that a call of the handshake sent to a descriptor. -/
def Call.answeredTo (fd : ℤ) : Call → List UInt8
  | .send s fd' bs => if s ≠ .copy ∧ fd' = fd then bs else []
  | _ => []

/-- The bytes that the handshake sent to a descriptor. -/
def answeredTo (fd : ℤ) (log : List Call) : List UInt8 :=
  log.flatMap (Call.answeredTo fd)

/-- The bytes that the client has been sent before `COPY`. -/
def World.answers (w : World) : List UInt8 :=
  answeredTo w.session.clientFd w.log

/-- `VER METHOD`, and `VER STATUS` when the method is authentication. -/
def greeted (m status : UInt8) : List UInt8 :=
  [5, m] ++ if m = usernamePasswordAuth then [1, status] else []

/-- `VER REP RSV ATYP BND.ADDR BND.PORT`, for the IPv4 address and the port 0 -/
def replyMessage (reply : UInt8) : List UInt8 :=
  [5, reply, 0, 1, 0, 0, 0, 0, 0, 0]

/-- The messages of a whole handshake. -/
def IsHandshake (bs : List UInt8) : Prop :=
  ∃ m status reply, bs = greeted m status ++ replyMessage reply

/-- The client has been sent nothing but the messages of a handshake, and all
of them when `COPY` has been entered. -/
structure Framed (c : Config) : Prop where
  begun : ∃ bs, IsHandshake bs ∧ c.world.answers <+: bs
  complete : GlobalState.copy.id ∈ c.stm.trail → IsHandshake c.world.answers

/-- A `send` of so many bytes would accept them all. -/
def SendResult.takes (n : ℕ) : SendResult → Bool
  | .accepted k => decide (n ≤ k + 1)
  | .failed => false

/-- The reply is sent to the client, and all of it at once. -/
def RepliesAtOnce (s : GlobalState) (w : World) : Event → Prop
  | .dispatch _ fd sys => s = .requestWrite →
      sys.send = .failed ∨
        (fd = w.session.clientFd ∧ sys.send.takes 10 = true)
  | _ => True

instance (s : GlobalState) (w : World) (e : Event) :
    Decidable (RepliesAtOnce s w e) :=
  match e with
  | .dispatch _ _ _ => inferInstanceAs (Decidable (_ → _))
  | .connectionEnds _ | .resolved _ _ _ | .others _ _ =>
      inferInstanceAs (Decidable True)

/-! ## Calls that answer nothing -/

/-- The call is a `send` of the handshake. -/
def Call.answers : Call → Bool
  | .send s _ _ => decide (s ≠ .copy)
  | _ => false

/-- Nothing has been answered. -/
structure Mute (w w' : World) : Prop where
  clientFd : w'.session.clientFd = w.session.clientFd
  log : ∃ calls, w'.log = w.log ++ calls ∧ ∀ c ∈ calls, c.answers = false

theorem answeredTo_append (fd : ℤ) (log log' : List Call) :
    answeredTo fd (log ++ log') = answeredTo fd log ++ answeredTo fd log' :=
  List.flatMap_append

@[simp] theorem answeredTo_send {s : GlobalState} {fd : ℤ} {bs : List UInt8}
    (hs : s ≠ .copy) : answeredTo fd [.send s fd bs] = bs := by
  simp [answeredTo, Call.answeredTo, hs]

theorem answeredTo_of_not_answers {fd : ℤ} {calls : List Call}
    (h : ∀ c ∈ calls, c.answers = false) : answeredTo fd calls = [] := by
  rw [answeredTo, List.flatMap_eq_nil_iff]
  intro c hc
  have := h c hc
  cases c with
  | send s fd' bs =>
      simp only [Call.answers, decide_eq_false_iff_not, not_not] at this
      simp [Call.answeredTo, this]
  | _ => rfl

namespace Mute

variable {w w₁ w₂ : World}

theorem refl (w : World) : Mute w w :=
  ⟨rfl, [], by simp, by simp⟩

theorem trans (h : Mute w w₁) (h' : Mute w₁ w₂) : Mute w w₂ where
  clientFd := h'.clientFd.trans h.clientFd
  log := by
    obtain ⟨calls, hlog, hcalls⟩ := h.log
    obtain ⟨calls', hlog', hcalls'⟩ := h'.log
    refine ⟨calls ++ calls', by rw [hlog', hlog, List.append_assoc], ?_⟩
    intro c hc
    rcases List.mem_append.mp hc with hc | hc
    · exact hcalls c hc
    · exact hcalls' c hc

theorem answers_eq (h : Mute w w₁) : w₁.answers = w.answers := by
  obtain ⟨calls, hlog, hcalls⟩ := h.log
  rw [World.answers, h.clientFd, hlog, answeredTo_append,
    answeredTo_of_not_answers hcalls, List.append_nil]
  rfl

/-- A change of the world that makes one call. -/
theorem of_call {c : Call} (hclient : w₁.session.clientFd = w.session.clientFd)
    (hlog : w₁.log = w.log ++ [c]) (hc : c.answers = false) : Mute w w₁ :=
  ⟨hclient, [c], hlog, by simpa⟩

/-- A change of the session only. -/
theorem of_log_eq (hclient : w₁.session.clientFd = w.session.clientFd)
    (hlog : w₁.log = w.log) : Mute w w₁ :=
  ⟨hclient, [], by rw [hlog, List.append_nil], by simp⟩

end Mute

theorem Silent.mute {w w' : World} (h : Silent w w') : Mute w w' := by
  obtain ⟨calls, hlog, hcalls⟩ := h.log
  refine ⟨h.clientFd, calls, hlog, ?_⟩
  intro c hc
  have := hcalls c hc
  cases c <;> first | rfl | cases this

theorem setInterestKey_mute {w w₁ w₂ : World} {fd : ℤ} {i : FdInterest}
    {ret : SelectorStatus} (h : w₁.setInterestKey fd i = .ok (ret, w₂))
    (hw : Mute w w₁) : Mute w w₂ := by
  obtain ⟨s, -, rfl⟩ := World.setInterestKey_spec h
  exact hw.trans (.of_call rfl rfl rfl)

theorem setInterest_mute {w w₁ w₂ : World} {fd : ℤ} {i : FdInterest}
    {ret : SelectorStatus} (h : w₁.setInterest fd i = .ok (ret, w₂))
    (hw : Mute w w₁) : Mute w w₂ := by
  obtain ⟨s, -, rfl⟩ := World.setInterest_spec h
  exact hw.trans (.of_call rfl rfl rfl)

/-- `greeting_read` answers nothing. -/
theorem greetingRead_mute {sys : Sys} {fd : ℤ} {w w' : World}
    {ret : GlobalState} (h : greetingRead sys fd w = .ok (ret, w')) :
    Mute w w' := by
  obtain ⟨⟨received, w₁⟩, hrecv, h⟩ := bind_eq_ok.mp h
  obtain ⟨-, rfl⟩ := World.recvInto_spec hrecv
  cases received with
  | eof | reset | failed =>
      cases h
      exact .of_call rfl rfl rfl
  | data bs rb =>
      simp only at h
      obtain ⟨⟨rb', parser, a⟩, -, h⟩ := bind_eq_ok.mp h
      simp only at h
      split at h
      · obtain ⟨m, -, h⟩ := bind_eq_ok.mp h
        obtain ⟨⟨status, w₂⟩, hset, h⟩ := bind_eq_ok.mp h
        have hmute : Mute w w₂ :=
          setInterestKey_mute hset (.of_call rfl rfl rfl)
        dsimp only at h
        split at h
        · cases h
          exact hmute
        · obtain ⟨filled, -, h⟩ := bind_eq_ok.mp h
          cases filled with
          | none =>
              cases h
              exact hmute
          | some wb =>
              cases h
              exact hmute.trans (.of_log_eq rfl rfl)
      · cases h
        exact .of_call rfl rfl rfl

/-- `auth_read` answers nothing. -/
theorem authRead_mute {sys : Sys} {fd : ℤ} {w w' : World}
    {ret : GlobalState} (h : authRead sys fd w = .ok (ret, w')) :
    Mute w w' := by
  obtain ⟨⟨received, w₁⟩, hrecv, h⟩ := bind_eq_ok.mp h
  obtain ⟨-, rfl⟩ := World.recvInto_spec hrecv
  cases received with
  | eof | reset | failed =>
      cases h
      exact .of_call rfl rfl rfl
  | data bs rb =>
      simp only at h
      obtain ⟨⟨rb', parser, a⟩, -, h⟩ := bind_eq_ok.mp h
      simp only at h
      split at h
      · obtain ⟨w₂, hauth, h⟩ := bind_eq_ok.mp h
        obtain ⟨reply, user, calls, hauths, rfl⟩ := authenticate_spec hauth
        obtain ⟨⟨status, w₃⟩, hset, h⟩ := bind_eq_ok.mp h
        have hcalls : ∀ c ∈ calls, c.answers = false := by
          cases hauths <;> simp [Call.answers]
        have hmute : Mute w w₃ := by
          refine setInterestKey_mute hset ⟨rfl, _, List.append_assoc .., ?_⟩
          intro c hc
          rcases List.mem_append.mp hc with hc | hc
          · rw [List.mem_singleton.mp hc]
            rfl
          · exact hcalls c hc
        dsimp only at h
        split at h
        · cases h
          exact hmute
        · obtain ⟨wb, -, h⟩ := bind_eq_ok.mp h
          cases h
          exact hmute.trans (.of_log_eq rfl rfl)
      · cases h
        exact .of_call rfl rfl rfl

/-- `request_read` answers nothing. -/
theorem requestRead_mute {sys : Sys} {fd : ℤ} {w w' : World}
    {ret : GlobalState} (h : requestRead sys fd w = .ok (ret, w')) :
    Mute w w' := by
  obtain ⟨⟨received, w₁⟩, hrecv, h⟩ := bind_eq_ok.mp h
  obtain ⟨-, rfl⟩ := World.recvInto_spec hrecv
  cases received with
  | eof | reset | failed =>
      cases h
      exact .of_call rfl rfl rfl
  | data bs rb =>
      simp only at h
      obtain ⟨⟨rb', parser, a⟩, -, h⟩ := bind_eq_ok.mp h
      simp only at h
      split at h
      · obtain ⟨⟨status, w₂⟩, hset, h⟩ := bind_eq_ok.mp h
        have hmute : Mute w w₂ :=
          setInterestKey_mute hset (.of_call rfl rfl rfl)
        dsimp only at h
        split at h <;> cases h <;> exact hmute
      · split at h
        · obtain ⟨⟨status, w₂⟩, hset, h⟩ := bind_eq_ok.mp h
          have hmute : Mute w w₂ :=
            setInterestKey_mute hset (.of_call rfl rfl rfl)
          dsimp only at h
          split at h <;> cases h <;> exact hmute
        · cases h
          exact .of_call rfl rfl rfl

/-- `verify_connection` answers nothing. -/
theorem verifyConnection_mute {sys : Sys} {fd : ℤ} {w w' : World}
    {ret : GlobalState} (h : verifyConnection sys fd w = .ok (ret, w')) :
    Mute w w' := by
  unfold verifyConnection at h
  have hmute : Mute w (w.record (.getsockopt w.session.originFd sys.soError)) :=
    .of_call rfl rfl rfl
  cases hso : sys.soError with
  | none =>
      simp only [hso] at h hmute
      cases h
      exact hmute
  | some error =>
      simp only [hso] at h hmute
      obtain ⟨⟨status, w₂⟩, hset, h⟩ := bind_eq_ok.mp h
      have hmute₂ : Mute w w₂ := by
        refine setInterestKey_mute hset ?_
        split
        · exact hmute.trans (.of_log_eq rfl rfl)
        · exact hmute
      dsimp only at h
      split at h
      · cases h
        exact hmute₂
      · obtain ⟨⟨status', w₃⟩, hset', h⟩ := bind_eq_ok.mp h
        have hmute₃ := setInterest_mute hset' hmute₂
        dsimp only at h
        split at h
        · cases h
          exact hmute₃
        · split at h <;> cases h
          · exact hmute₃
          · exact hmute₃.trans (.of_log_eq rfl rfl)

theorem changed_mute {w w₁ : World} {s : FdSelector} {c : Call}
    (hc : c.answers = false) (hw : Mute w w₁) : Mute w (w₁.changed s c) :=
  hw.trans (.of_call rfl rfl hc)

theorem setCopy_mute {w w₁ : World} (c : CopyStm) (hw : Mute w w₁) :
    Mute w (w₁.setCopy c) :=
  hw.trans (.of_log_eq rfl rfl)

theorem record_mute {w w₁ : World} {c : Call} (hc : c.answers = false)
    (hw : Mute w w₁) : Mute w (w₁.record c) :=
  hw.trans (.of_call rfl rfl hc)

/-- What `copy_read` does answers nothing. -/
theorem CopyReads.mute {sys : Sys} {side : Side} {fd : ℤ} {w w' : World}
    {ret : GlobalState} (h : CopyReads sys side fd w ret w') : Mute w w' := by
  have hended (s : FdSelector) : Mute w (side.ended sys fd w s) :=
    setCopy_mute _ (changed_mute rfl (record_mute rfl (.refl w)))
  cases h with
  | failed => exact record_mute rfl (.refl w)
  | @relays bs b sniffer =>
      refine changed_mute rfl (changed_mute rfl (.of_call ?_
        (side.received_log sys fd w bs.length sniffer b) rfl))
      cases side <;> rfl
  | holds => exact hended _
  | closes => exact setCopy_mute _ (record_mute rfl (hended _))
  | unclosed => exact record_mute rfl (hended _)

/-- Nor does what `copy_write` does. -/
theorem CopyWrites.mute {sys : Sys} {side : Side} {fd : ℤ} {w w' : World}
    {ret : GlobalState} (h : CopyWrites sys side fd w ret w') : Mute w w' := by
  have hsent (bs : List UInt8) (sniffer : Pop3Sniffer) (b : Buffer) :
      Mute w (side.sent fd w bs sniffer b) := by
    refine .of_call ?_ (side.sent_log fd w bs sniffer b) rfl
    cases side <;> rfl
  cases h with
  | failed => exact record_mute rfl (.refl w)
  | partly => exact changed_mute rfl (hsent _ _ _)
  | partlyLast => exact hsent _ _ _
  | wholly => exact changed_mute rfl (changed_mute rfl (hsent _ _ _))
  | closes =>
      exact record_mute rfl (setCopy_mute _ (changed_mute rfl (hsent _ _ _)))
  | unclosed =>
      exact record_mute rfl (setCopy_mute _ (changed_mute rfl (hsent _ _ _)))

/-- The callbacks of `COPY` answer nothing. -/
theorem copy_mute {sys : Sys} {fd : ℤ} {ret : GlobalState} {r : Ready}
    {f : Callback} {w w' : World} (hreg : w.selector.Registered fd)
    (hf : onReady sys fd .copy r = some f) (h : f w = .ok (ret, w')) :
    Mute w w' := by
  rcases hside : w.session.side? fd with - | side
  · cases r <;> cases hf
    · simp [copyRead, hside] at h
    · simp [copyWrite, hside] at h
  · cases r <;> cases hf
    · exact (copyRead_spec hside hreg h).mute
    · exact (copyWrite_spec hside hreg h).mute

/-! ## Calls that answer -/

/-- `Answers sys state fd b w w'`: from `b`, a `send` to `fd` has been made,
and nothing else has been answered. -/
def Answers (sys : Sys) (state : GlobalState) (fd : ℤ) (b : Buffer)
    (w w' : World) : Prop :=
  ∃ r, Sends sys b r ∧ Mute (w.record (.send state fd (sentBytes r))) w'

theorem greetingWrite_answers {sys : Sys} {fd : ℤ} {w w' : World}
    {ret : GlobalState} (h : greetingWrite sys fd w = .ok (ret, w')) :
    Answers sys .greetingWrite fd w.session.writeBuffer w w' := by
  obtain ⟨⟨sent, w₁⟩, hsend, h⟩ := bind_eq_ok.mp h
  obtain ⟨hsends, rfl⟩ := World.sendFrom_spec hsend
  refine ⟨sent, hsends, ?_⟩
  rcases sent with - | ⟨bs, wb⟩
  · cases h
    exact .refl _
  · simp only at h
    split at h
    · cases h
      exact .of_log_eq rfl rfl
    · obtain ⟨⟨status, w₂⟩, hset, h⟩ := bind_eq_ok.mp h
      have hmute : Mute (w.record (.send .greetingWrite fd bs)) w₂ :=
        setInterestKey_mute hset (.of_log_eq rfl rfl)
      dsimp only at h
      split at h
      · cases h
        exact hmute
      · split at h
        · cases h
          exact hmute
        · split at h <;> cases h <;> exact hmute

theorem authWrite_answers {sys : Sys} {fd : ℤ} {w w' : World}
    {ret : GlobalState} (h : authWrite sys fd w = .ok (ret, w')) :
    Answers sys .authWrite fd w.session.writeBuffer w w' := by
  obtain ⟨⟨sent, w₁⟩, hsend, h⟩ := bind_eq_ok.mp h
  obtain ⟨hsends, rfl⟩ := World.sendFrom_spec hsend
  refine ⟨sent, hsends, ?_⟩
  rcases sent with - | ⟨bs, wb⟩
  · cases h
    exact .refl _
  · simp only at h
    split at h
    · cases h
      exact .of_log_eq rfl rfl
    · obtain ⟨⟨status, w₂⟩, hset, h⟩ := bind_eq_ok.mp h
      have hmute : Mute (w.record (.send .authWrite fd bs)) w₂ :=
        setInterestKey_mute hset (.of_log_eq rfl rfl)
      dsimp only at h
      split at h
      · cases h
        exact hmute
      · split at h <;> cases h <;> exact hmute

theorem requestWrite_answers {sys : Sys} {fd : ℤ} {w w' : World}
    {ret : GlobalState} (h : requestWrite sys fd w = .ok (ret, w')) :
    ∃ wb, requestFillMsg w.session.writeBuffer w.session.request.parser =
        .ok wb ∧ Answers sys .requestWrite fd wb w w' := by
  obtain ⟨wb, hfill, h⟩ := bind_eq_ok.mp h
  obtain ⟨⟨sent, w₁⟩, hsend, h⟩ := bind_eq_ok.mp h
  obtain ⟨hsends, rfl⟩ := World.sendFrom_spec hsend
  refine ⟨wb, hfill, sent, hsends, ?_⟩
  rcases sent with - | ⟨bs, wb'⟩
  · cases h
    exact .of_log_eq rfl rfl
  · simp only at h
    split at h
    · cases h
      exact .of_log_eq rfl rfl
    · split at h
      · obtain ⟨⟨status, w₂⟩, hset, h⟩ := bind_eq_ok.mp h
        have hmute : Mute (w.record (.send .requestWrite fd bs)) w₂ :=
          setInterestKey_mute hset (.of_log_eq rfl rfl)
        dsimp only at h
        split at h
        · cases h
          exact hmute
        · obtain ⟨⟨status', w₃⟩, hset', h⟩ := bind_eq_ok.mp h
          have hmute' := setInterest_mute hset' hmute
          dsimp only at h
          split at h <;> cases h <;> exact hmute'
      · cases h
        exact .of_log_eq rfl rfl

/-- A `send` of the handshake to the client is an answer. -/
theorem Mute.answers_send {w w' : World} {state : GlobalState}
    {bs : List UInt8} (hstate : state ≠ .copy)
    (h : Mute (w.record (.send state w.session.clientFd bs)) w') :
    w'.answers = w.answers ++ bs := by
  rw [h.answers_eq]
  change answeredTo w.session.clientFd (w.log ++ [_]) = _
  rw [answeredTo_append, answeredTo_send hstate]
  rfl

/-- A `send` from `write_buffer` leaves what has been answered and what is
waiting together the same. -/
theorem Sends.conserved {sys : Sys} {state : GlobalState} {bs : List UInt8}
    {w w' : World}
    (h : Sends sys w.session.writeBuffer (some (bs, w'.session.writeBuffer)))
    (hstate : state ≠ .copy)
    (hmute : Mute (w.record (.send state w.session.clientFd bs)) w') :
    w'.answers ++ w'.session.writeBuffer.pending =
      w.answers ++ w.session.writeBuffer.pending := by
  rw [hmute.answers_send hstate]
  cases h with
  | sent _ _ _ hpending => rw [hpending, List.append_assoc]

theorem Sends.answered {sys : Sys} {state : GlobalState} {bs : List UInt8}
    {w w' : World}
    (h : Sends sys w.session.writeBuffer (some (bs, w'.session.writeBuffer)))
    (hempty : w'.session.writeBuffer.pending = []) (hstate : state ≠ .copy)
    (hmute : Mute (w.record (.send state w.session.clientFd bs)) w') :
    w'.answers = w.answers ++ w.session.writeBuffer.pending := by
  rw [← h.conserved hstate hmute, hempty, List.append_nil]

/-- What has been answered is part of what was to be sent. -/
theorem Answers.isLeading {sys : Sys} {state : GlobalState} {fd : ℤ} {b : Buffer}
    {w w' : World} (hstate : state ≠ .copy)
    (h : Answers sys state fd b w w') : w'.answers <+: w.answers ++ b.pending := by
  obtain ⟨r, hsends, hmute⟩ := h
  by_cases hfd : fd = w.session.clientFd
  · subst hfd
    rw [hmute.answers_send hstate, List.prefix_append_right_inj]
    cases hsends with
    | sent _ _ _ hpending =>
        rw [hpending]
        exact List.prefix_append _ _
    | failed => exact List.nil_prefix
  · rw [hmute.answers_eq]
    change answeredTo w.session.clientFd (w.log ++ [_]) <+: _
    rw [answeredTo_append]
    have hnone : answeredTo w.session.clientFd
        [.send state fd (sentBytes r)] = [] := by
      simp [answeredTo, Call.answeredTo, hfd]
    rw [hnone, List.append_nil]
    exact List.prefix_append _ _

/-! ## What has been answered in each state -/

/-- The beginning of a handshake. -/
def Begun (bs : List UInt8) : Prop := ∃ whole, IsHandshake whole ∧ bs <+: whole

theorem Begun.of_leading {bs bs' : List UInt8} (h : Begun bs)
    (hleading : bs' <+: bs) : Begun bs' := by
  obtain ⟨whole, hwhole, hbs⟩ := h
  exact ⟨whole, hwhole, hleading.trans hbs⟩

theorem begun_greeted (m status : UInt8) : Begun (greeted m status) :=
  ⟨_, ⟨m, status, 0, rfl⟩, List.prefix_append _ _⟩

theorem begun_method (m : UInt8) : Begun [5, m] :=
  (begun_greeted m 0).of_leading (List.prefix_append _ _)

theorem IsHandshake.begun {bs : List UInt8} (h : IsHandshake bs) : Begun bs :=
  ⟨bs, h, List.prefix_rfl⟩

/-- What the client has been answered in each state, and what is waiting to be
sent. -/
def Conversed (w : World) : GlobalState → Prop
  | .greetingRead => w.answers = [] ∧ w.session.writeBuffer.pending = []
  | .greetingWrite => ∃ m : UInt8,
      w.session.greeting.methodSelected = m.toNat ∧
        w.answers ++ w.session.writeBuffer.pending = [5, m]
  | .authRead => w.answers = [5, 2] ∧ w.session.writeBuffer.pending = []
  | .authWrite => ∃ status,
      w.answers ++ w.session.writeBuffer.pending = greeted 2 status
  | .requestRead | .originConnect | .requestWrite =>
      (∃ m status, w.answers = greeted m status) ∧
        w.session.writeBuffer.pending = []
  | .copy => IsHandshake w.answers
  | .done | .error => Begun w.answers

theorem Conversed.begun {s : GlobalState} {w : World} (h : Conversed w s) :
    Begun w.answers := by
  cases s with
  | greetingRead => exact (begun_method 0).of_leading (h.1 ▸ List.nil_prefix)
  | greetingWrite =>
      obtain ⟨m, -, hm⟩ := h
      exact (begun_method m).of_leading (hm ▸ List.prefix_append _ _)
  | authRead => exact h.1 ▸ begun_method 2
  | authWrite =>
      obtain ⟨status, hstatus⟩ := h
      exact (begun_greeted 2 status).of_leading
        (hstatus ▸ List.prefix_append _ _)
  | requestRead | originConnect | requestWrite =>
      obtain ⟨⟨m, status, hanswers⟩, -⟩ := h
      exact hanswers ▸ begun_greeted m status
  | copy => exact IsHandshake.begun h
  | done | error => exact h

theorem Conversed.of_silent {s : GlobalState} {w w' : World} (hw : Conversed w s)
    (h : Silent w w') (hmethod : s = .greetingWrite →
      w'.session.greeting.methodSelected = w.session.greeting.methodSelected) :
    Conversed w' s := by
  have hanswers := h.mute.answers_eq
  cases s with
  | greetingWrite =>
      obtain ⟨m, hm, hsent⟩ := hw
      refine ⟨m, (hmethod rfl).trans hm, ?_⟩
      rw [hanswers, h.writeBuffer, hsent]
  | _ =>
      simp only [Conversed, hanswers, h.writeBuffer] at hw ⊢
      exact hw

/-! ## The callbacks of the handshake -/

theorem GreetingReads.answered {sys : Sys} {fd : ℤ} {w w' : World}
    {ret : GlobalState} (h : GreetingReads sys fd w ret w') (hne : ret ≠ .error)
    (hmute : Mute w w') (hw : Conversed w .greetingRead) : Conversed w' ret := by
  obtain ⟨hanswers, hempty⟩ := hw
  rw [← hmute.answers_eq] at hanswers
  cases h with
  | failed => exact absurd rfl hne
  | waits => exact ⟨hanswers, hempty⟩
  | @answers _ _ _ wb _ _ m _ _ _ _ _ _ hfill =>
      refine ⟨m, rfl, ?_⟩
      unfold greetingFillMsg at hfill
      split at hfill
      · cases hfill
      · obtain ⟨b, hput, hfill⟩ := bind_eq_ok.mp hfill
        cases hfill
        rw [hanswers, (Buffer.put_spec hput).1, hempty]
        rfl

theorem GreetingWrites.answered {sys : Sys} {w w' : World} {ret : GlobalState}
    (h : GreetingWrites sys w.session.clientFd w ret w') (hne : ret ≠ .error)
    (hw : Conversed w .greetingWrite) : Conversed w' ret := by
  obtain ⟨m, hm, hpending⟩ := hw
  cases h with
  | failed => exact absurd rfl hne
  | partly hsends =>
      refine ⟨m, hm, ?_⟩
      rw [← hpending]
      exact hsends.conserved (by decide) (.of_log_eq rfl rfl)
  | @wholly bs wb s _ hsends hempty _ hret =>
      have hsent : World.answers { w with
          session := { w.session with writeBuffer := wb }
          selector := s
          log := w.log ++ [.send .greetingWrite w.session.clientFd bs] ++
            [.setInterest w.session.clientFd .read] } = [5, m] :=
        Eq.trans (hsends.answered hempty (by decide) (.of_call rfl rfl rfl))
          hpending
      rcases hret with ⟨rfl, hzero⟩ | ⟨rfl, htwo⟩
      · refine ⟨⟨m, 0, ?_⟩, hempty⟩
        have hm : m = 0 := by
          rw [hm] at hzero
          exact UInt8.toNat_inj.mp (Int.ofNat.inj hzero)
        rw [hsent, hm]
        rfl
      · refine ⟨?_, hempty⟩
        have hm : m = 2 := by
          rw [hm] at htwo
          exact UInt8.toNat_inj.mp (Int.ofNat.inj htwo)
        rw [hsent, hm]

theorem AuthReads.answered {sys : Sys} {fd : ℤ} {w w' : World}
    {ret : GlobalState} (h : AuthReads sys fd w ret w') (hne : ret ≠ .error)
    (hmute : Mute w w') (hw : Conversed w .authRead) : Conversed w' ret := by
  obtain ⟨hanswers, hempty⟩ := hw
  rw [← hmute.answers_eq] at hanswers
  cases h with
  | failed => exact absurd rfl hne
  | waits => exact ⟨hanswers, hempty⟩
  | @answers _ _ _ wb _ _ _ reply _ _ _ _ _ _ _ hfill =>
      refine ⟨reply, ?_⟩
      rw [hanswers, (Buffer.put_spec hfill).1, hempty]
      rfl

theorem AuthWrites.answered {sys : Sys} {w w' : World} {ret : GlobalState}
    (h : AuthWrites sys w.session.clientFd w ret w') (hne : ret ≠ .error)
    (hdone : ret ≠ .done) (hw : Conversed w .authWrite) : Conversed w' ret := by
  obtain ⟨status, hpending⟩ := hw
  cases h with
  | failed => exact absurd rfl hne
  | partly hsends =>
      refine ⟨status, ?_⟩
      rw [← hpending]
      exact hsends.conserved (by decide) (.of_log_eq rfl rfl)
  | wholly hsends hempty _ hret =>
      obtain ⟨rfl, -⟩ := hret.resolve_right hdone
      refine ⟨⟨2, status, ?_⟩, hempty⟩
      exact Eq.trans (hsends.answered hempty (by decide)
        (.of_call rfl rfl rfl)) hpending

theorem RequestReads.answered {sys : Sys} {fd : ℤ} {w w' : World}
    {ret : GlobalState} (h : RequestReads sys fd w ret w') (hne : ret ≠ .error)
    (hmute : Mute w w') (hw : Conversed w .requestRead) : Conversed w' ret := by
  obtain ⟨⟨m, status, hanswers⟩, hempty⟩ := hw
  rw [← hmute.answers_eq] at hanswers
  cases h with
  | failed => exact absurd rfl hne
  | waits => exact ⟨⟨m, status, hanswers⟩, hempty⟩
  | decides _ _ hret =>
      rcases hret with ⟨-, rfl, -⟩ | ⟨-, rfl, -⟩ <;>
        exact ⟨⟨m, status, hanswers⟩, hempty⟩

/-- The reply, in a buffer that was empty. -/
theorem requestFillMsg_pending {b b' : Buffer} {p : RequestParser}
    (h : requestFillMsg b p = .ok b') :
    b'.pending = b.pending ++ replyMessage p.reply.code :=
  (Buffer.put_spec h).1

/-- A reply that is sent at once ends the handshake. -/
theorem RequestWrites.answered {sys : Sys} {fd : ℤ} {w w' : World}
    {ret : GlobalState} (h : RequestWrites sys fd w ret w')
    (hne : ret ≠ .error) (hdone : ret ≠ .done)
    (hreplies : RepliesAtOnce .requestWrite w (.dispatch .write fd sys))
    (hw : Conversed w .requestWrite) : Conversed w' ret := by
  obtain ⟨⟨m, status, hanswers⟩, hempty⟩ := hw
  have htakes (hsend : sys.send ≠ .failed) :
      fd = w.session.clientFd ∧ sys.send.takes 10 = true :=
    (hreplies rfl).resolve_left hsend
  cases h with
  | failed => exact absurd rfl hne
  | refuses => exact absurd rfl hdone
  | @partly bs wb wb' hfill hsends hleft =>
      obtain ⟨-, htakes⟩ := htakes hsends.accepted
      refine absurd (hsends.wholly.mpr ?_) hleft
      have hcount : wb.count = 10 := by
        rw [← Buffer.length_pending, requestFillMsg_pending hfill, hempty]
        rfl
      rw [Sys.sendsAll]
      cases hsend : sys.send with
      | failed => exact absurd hsend hsends.accepted
      | accepted k =>
          rw [hsend] at htakes
          simpa [SendResult.takes, hcount] using htakes
  | @grants bs wb wb' s s' hfill hsends hall _ _ _ =>
      obtain ⟨rfl, -⟩ := htakes hsends.accepted
      refine ⟨m, status, w.session.request.parser.reply.code, ?_⟩
      have hfilled : (w.setWriteBuffer wb).answers ++ wb.pending =
          greeted m status ++ replyMessage w.session.request.parser.reply.code := by
        rw [requestFillMsg_pending hfill, hempty]
        exact congrArg (· ++ _) hanswers
      refine Eq.trans (@Sends.answered sys .requestWrite bs
        (w.setWriteBuffer wb) _ hsends hall (by decide) ?_) hfilled
      exact ⟨rfl, [.setInterest w.session.clientFd .read,
        .setInterest w.session.originFd .read],
        by simp [World.record, World.setWriteBuffer], by simp [Call.answers]⟩

/-! ## Runs -/

/-- A callback of the handshake that goes on leaves what there should be. -/
theorem onReady_answered {sys : Sys} {fd : ℤ} {s ret : GlobalState} {r : Ready}
    {f : Callback} {w w' : World} (hunderstood : Understood w s)
    (howns : w.session.Owns fd) (hreg : w.selector.Registered fd)
    (hs : s ≠ .copy)
    (hreplies : RepliesAtOnce s w (.dispatch r fd sys))
    (hret : ¬ (ret = .done ∨ ret = .error))
    (hf : onReady sys fd s r = some f) (h : f w = .ok (ret, w'))
    (hw : Conversed w s) : Conversed w' ret := by
  rw [not_or] at hret
  obtain ⟨hdone, herror⟩ := hret
  have hfollows := onReady_follows hf hreg h
  cases s <;> cases r <;> cases hf
  case greetingRead.read =>
      exact (greetingRead_spec h).answered herror (greetingRead_mute h) hw
  case greetingWrite.write =>
      obtain rfl := howns.eq_clientFd hunderstood.1
      exact (greetingWrite_spec h).answered herror hw
  case authRead.read =>
      exact (authRead_spec h).answered herror (authRead_mute h) hw
  case authWrite.write =>
      obtain rfl := howns.eq_clientFd hunderstood.1
      exact (authWrite_spec h).answered herror hdone hw
  case requestRead.read =>
      exact (requestRead_spec h).answered herror (requestRead_mute h) hw
  case originConnect.write =>
      cases verifyConnection_spec h with
      | failed => exact absurd rfl herror
      | answers =>
          obtain ⟨⟨m, status, hanswers⟩, hempty⟩ := hw
          rw [← (verifyConnection_mute h).answers_eq] at hanswers
          exact ⟨⟨m, status, hanswers⟩, hempty⟩
  case originConnect.block =>
      have hsilent := (connectOriginBlock_spec h).silent
      obtain ⟨⟨m, status, hanswers⟩, hempty⟩ := hw
      rw [← hsilent.mute.answers_eq] at hanswers
      rw [← hsilent.writeBuffer] at hempty
      have hto : ret = .originConnect ∨ ret = .requestWrite ∨ ret = .error := by
        simpa [Follows, GlobalState.next] using hfollows
      rcases hto with rfl | rfl | rfl
      · exact ⟨⟨m, status, hanswers⟩, hempty⟩
      · exact ⟨⟨m, status, hanswers⟩, hempty⟩
      · exact absurd rfl herror
  case requestWrite.write =>
      exact (requestWrite_spec h).answered herror hdone hreplies hw
  case copy.read => exact absurd rfl hs
  case copy.write => exact absurd rfl hs

/-- However a callback of the handshake returns, it has sent the beginning of
one. -/
theorem onReady_begun {sys : Sys} {fd : ℤ} {s ret : GlobalState} {r : Ready}
    {f : Callback} {w w' : World} (hs : s ≠ .copy)
    (hf : onReady sys fd s r = some f) (h : f w = .ok (ret, w'))
    (hw : Conversed w s) : Begun w'.answers := by
  have hmute : Mute w w' → Begun w'.answers :=
    fun hmute => hmute.answers_eq ▸ hw.begun
  cases s <;> cases r <;> cases hf
  case greetingRead.read => exact hmute (greetingRead_mute h)
  case authRead.read => exact hmute (authRead_mute h)
  case requestRead.read => exact hmute (requestRead_mute h)
  case originConnect.write => exact hmute (verifyConnection_mute h)
  case originConnect.block => exact hmute (connectOriginBlock_spec h).silent.mute
  case greetingWrite.write =>
      obtain ⟨m, -, hpending⟩ := hw
      refine (begun_method m).of_leading ?_
      rw [← hpending]
      exact (greetingWrite_answers h).isLeading (by decide)
  case authWrite.write =>
      obtain ⟨status, hpending⟩ := hw
      refine (begun_greeted 2 status).of_leading ?_
      rw [← hpending]
      exact (authWrite_answers h).isLeading (by decide)
  case requestWrite.write =>
      obtain ⟨⟨m, status, hanswers⟩, hempty⟩ := hw
      obtain ⟨wb, hfill, hanswered⟩ := requestWrite_answers h
      have hleading := hanswered.isLeading (by decide)
      rw [hanswers, requestFillMsg_pending hfill, hempty] at hleading
      exact ⟨_, ⟨m, status, _, rfl⟩, hleading⟩
  case copy.read => exact absurd rfl hs
  case copy.write => exact absurd rfl hs

/-- What has been answered, and that it is a whole handshake once `COPY` has
been entered. -/
def Framing (vs : List GlobalState) (s : GlobalState) (w : World) : Prop :=
  Conversed w s ∧ (.copy ∈ vs → IsHandshake w.answers)

theorem Framing.copied {company : Company} {sys : Sys} {fd : ℤ}
    {ret : GlobalState} {r : Ready} {f : Callback} {vs via : List GlobalState}
    {w w₁ w₂ : World} (hw : Conversed w .copy) (hhands : w.Hands company r fd)
    (hf : onReady sys fd .copy r = some f)
    (h : f (w.delivered r fd) = .ok (ret, w₁))
    (hout : Outcome sys fd .copy ret w₁ via w₂) :
    Framing (vs ++ via) (via.getLastD .copy) w₂ := by
  have hdelivered : w.delivered r fd = w := by
    cases r <;> first | rfl | cases hf
  rw [hdelivered] at h
  have hmute := (copy_mute hhands.2.1 hf h).trans hout.silent.mute
  have hwhole : IsHandshake w₂.answers := by
    rw [hmute.answers_eq]
    exact hw
  refine ⟨?_, fun _ => hwhole⟩
  rcases hout.of_copy (onReady_follows hf hhands.2.1 h) with
    ⟨-, rfl, -⟩ | ⟨hend, rfl, -⟩
  · exact hwhole
  · rcases hend with rfl | rfl <;> exact hwhole.begun

theorem Framing.dispatched {company : Company} {sys : Sys} {fd : ℤ}
    {s ret : GlobalState} {r : Ready} {f : Callback}
    {vs via : List GlobalState} {w w₁ w₂ : World} (hw : Framing vs s w)
    (hgate : Gate vs s w) (hs : vs.getLast? = some s)
    (hreplies : RepliesAtOnce s w (.dispatch r fd sys))
    (hhands : w.Hands company r fd) (hf : onReady sys fd s r = some f)
    (h : f (w.delivered r fd) = .ok (ret, w₁))
    (hout : Outcome sys fd s ret w₁ via w₂) :
    Framing (vs ++ via) (via.getLastD s) w₂ := by
  by_cases hcopy : s = .copy
  · subst hcopy
    exact Framing.copied hw.1 hhands hf h hout
  have hnot : .copy ∉ vs :=
    fun hmem => hcopy (hgate.inOrder.eq_copy hs (onReady_live hf) hmem)
  have hanswered : Conversed (w.delivered r fd) s :=
    hw.1.of_silent (delivered_silent w r fd) fun _ => by cases r <;> rfl
  have hunderstood : Understood (w.delivered r fd) s := by
    cases r <;> exact hgate.understood
  have howns : (w.delivered r fd).session.Owns fd := by
    cases r <;> exact hhands.1
  have hreg : (w.delivered r fd).selector.Registered fd := by
    cases r <;> exact hhands.2.1
  have hreplies' : RepliesAtOnce s (w.delivered r fd) (.dispatch r fd sys) := by
    cases r <;> exact hreplies
  have hcalled (hret : ¬ (ret = .done ∨ ret = .error)) : Conversed w₁ ret :=
    onReady_answered hunderstood howns hreg hcopy hreplies' hret hf h hanswered
  have hbegun : Begun w₂.answers := by
    rw [hout.silent.mute.answers_eq]
    exact onReady_begun hcopy hf h hanswered
  cases hout with
  | stays =>
      rw [List.append_nil]
      exact ⟨hcalled (onReady_live hf), fun hmem => absurd hmem hnot⟩
  | enters _ _ hdone herror =>
      have harrived : Conversed (arrived ret w₁) ret :=
        (hcalled (by simp [hdone, herror])).of_silent (arrived_silent ret w₁)
          fun heq => by rw [heq]; rfl
      refine ⟨harrived, fun hmem => ?_⟩
      obtain rfl := List.mem_singleton.mp
        ((List.mem_append.mp hmem).resolve_left hnot)
      exact harrived
  | connects _ hinit =>
      refine ⟨(hcalled (by simp)).of_silent (connectOriginInit_spec hinit).silent
        (by simp), fun hmem => absurd hmem (by simp [hnot])⟩
  | redirected _ hinit hto =>
      refine ⟨?_, fun hmem => absurd hmem ?_⟩
      · rcases hto with rfl | rfl
        · exact Conversed.of_silent (s := .originConnect) (hcalled (by simp))
            (connectOriginInit_spec hinit).silent (by simp)
        · exact hbegun
      · rcases hto with rfl | rfl <;> simp [hnot]
  | ends hend =>
      refine ⟨?_, fun hmem => absurd hmem ?_⟩
      · rcases hend with rfl | rfl <;> exact hbegun
      · rcases hend with rfl | rfl <;> simp [hnot]

theorem framing_inductive (company : Company) :
    Inductive company Basics RepliesAtOnce Framing where
  started := by
    intro w _ hw
    exact ⟨hw.1.of_silent (arrived_silent .greetingRead w) (by simp), by simp⟩
  startedCondition := by
    intro w e _
    cases e with
    | dispatch => exact fun h => absurd h (by decide)
    | connectionEnds | resolved | others => trivial
  dispatched := by
    intro vs s r fd sys w f ret w₁ via w₂ hK hw hs hreplies _ hhands _ hf h hout
    exact hw.dispatched hK.1 hs hreplies hhands hf h hout
  connectionEnds := fun _ _ hw _ _ =>
    ⟨hw.1.of_silent ⟨rfl, rfl, rfl, [], by simp, by simp⟩ fun _ => rfl, hw.2⟩
  resolved := fun _ _ _ hw _ _ =>
    ⟨hw.1.of_silent ⟨rfl, rfl, rfl, [], by simp [connectOriginThread], by simp⟩
      fun _ => rfl, hw.2⟩
  others := fun _ _ hw _ _ =>
    ⟨hw.1.of_silent ⟨rfl, rfl, rfl, [], by simp, by simp⟩ fun _ => rfl, hw.2⟩

theorem Initial.framing {c : Config} (h : Initial c) :
    Framing [] .greetingRead c.world := by
  obtain ⟨address, clientFd, s, m, rfl, -⟩ := h
  exact ⟨⟨rfl, rfl⟩, by simp⟩

/-- The client is answered the messages of a handshake, in every run in which
the reply is sent to it at once. -/
theorem framed_of_replies {company : Company} {c₀ c : Config}
    {tr : List (Config × Event)} (hinit : Initial c₀)
    (hrun : Run (Step company) c₀ tr c)
    (hreplies : ∀ x ∈ tr, RepliesAtOnce x.1.state x.1.world x.2) :
    Framed c := by
  obtain ⟨vs, hvs, -, hw⟩ := ((basics_inductive company).and
    (framing_inductive company)).run hrun hreplies hinit.stm_eq
    ⟨hinit.basics, hinit.framing⟩
  exact ⟨hw.1.begun, fun hcopy => hw.2 (hvs.mem_iff.mpr hcopy)⟩

/-- A client that is connected by a reply sent at once. -/
theorem framed_connectedClient :
    ∃ c, play .alone (accepted 5) (connectedClient []) = some c ∧
      GlobalState.copy.id ∈ c.stm.trail ∧ Framed c := by
  have hplay : (play .alone (accepted 5) (connectedClient [])).any
      (fun c => decide (GlobalState.copy.id ∈ c.stm.trail)) = true := by decide
  have hreplies : ∀ x ∈ playTrace .alone (accepted 5) (connectedClient []),
      RepliesAtOnce x.1.state x.1.world x.2 := by decide
  obtain ⟨c, hc, htrail⟩ := (Option.any_eq_true _ _).mp hplay
  exact ⟨c, hc, of_decide_eq_true htrail,
    framed_of_replies (accepted_initial (by decide) (by decide)) (play_run hc)
      hreplies⟩

theorem IsHandshake.length_le {bs : List UInt8} (h : IsHandshake bs) :
    bs.length ≤ 14 := by
  obtain ⟨m, status, reply, rfl⟩ := h
  by_cases hm : m = usernamePasswordAuth <;> simp [greeted, replyMessage, hm]

/-- Three bytes of the reply are sent, and then the other seven with another
reply. -/
theorem not_framed_of_short_send :
    ∃ c, Reachable .alone c ∧
      c.world.answers = [5, 0, 5, 0, 0, 1, 0, 0, 0, 0, 0, 0,
        5, 0, 0, 1, 0, 0, 0, 0, 0, 0] ∧ ¬ Framed c := by
  have hplay : (play .alone (accepted 5) ((connectedClient []).dropLast ++
      [.dispatch .write 5 { send := .accepted 2 } [],
        .dispatch .write 5 { send := .accepted 16 } []])).any
      (fun c => decide (c.world.answers = [5, 0, 5, 0, 0, 1, 0, 0, 0, 0, 0, 0,
        5, 0, 0, 1, 0, 0, 0, 0, 0, 0])) = true := by decide
  obtain ⟨c, hc, hanswers⟩ := (Option.any_eq_true _ _).mp hplay
  have hanswers := of_decide_eq_true hanswers
  refine ⟨c, reachable_of_play (accepted_initial (by decide) (by decide)) hc,
    hanswers, ?_⟩
  rintro ⟨⟨whole, hwhole, hleading⟩, -⟩
  have hle := hleading.length_le
  have := hwhole.length_le
  rw [hanswers] at hle
  simp only [List.length_cons, List.length_nil] at hle
  omega

end Socksv5
