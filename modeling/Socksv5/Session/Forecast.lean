import Socksv5.Session.Answering
import Socksv5.Session.Outlook
import Socksv5.Session.Resolving

/-!
# The callbacks keep to the forecast

When what is received is data, and what is sent is sent whole, every callback
does what had been foretold, and leaves the session poised for the next one:
what there is to send is waited for, and no message is left unread.
-/

namespace Socksv5

open Support

/-! ## The calls -/

/-- A `recv` into the buffer would bring something. -/
def Sys.hasData (sys : Sys) (b : Buffer) : Bool :=
  match sys.recv.upTo b.room with
  | .received bs => decide (bs ≠ [])
  | _ => false

theorem World.recvInto_hasData {w w' : World} {state : GlobalState} {sys : Sys}
    {fd : ℤ} {b : Buffer} {r : Received} (hdata : sys.hasData b = true)
    (h : w.recvInto state sys fd b = .ok (r, w')) :
    ∃ bs b', r = .data bs b' := by
  obtain ⟨hreceives, -⟩ := World.recvInto_spec h
  unfold Sys.hasData at hdata
  cases hreceives with
  | data => exact ⟨_, _, rfl⟩
  | eof hnone | reset hnone | failed hnone => simp [hnone] at hdata

/-- All that there is in the buffer is sent. -/
theorem World.exists_sendFrom (w : World) (state : GlobalState) {sys : Sys}
    (fd : ℤ) {b : Buffer} (hsend : sys.sendsAll b = true) (hne : b.pending ≠ []) :
    ∃ b', b'.pending = [] ∧ w.sendFrom state sys fd b =
      .ok (some (b.pending, b'), w.record (.send state fd b.pending)) := by
  obtain ⟨b', hb'⟩ : ∃ b', w.sendFrom state sys fd b = _ :=
    World.sendFrom_wholly hsend hne
  exact ⟨b', (World.sendFrom_spec hb').1.wholly.mpr hsend, hb'⟩

/-! ## Poise -/

/-- What the relay waits for, and that both sides are read and written. -/
structure Flowing (w : World) : Prop where
  flags : w.session.copy = ⟨true, true, true, true⟩
  origin : w.selector.Registered w.session.originFd
  writes : ∀ side : Side, w.selector.WritesTo (side.fd w.session) ↔
    (side.outbox w.session).pending ≠ []

/-- How a session stands between two events. -/
def Poised (s : GlobalState) (w : World) : Prop :=
  match s with
  | .greetingRead => w.session.readBuffer.pending = [] ∧
      w.session.writeBuffer.pending = [] ∧ 2 ≤ w.session.writeBuffer.room
  | .greetingWrite | .authWrite => w.session.writeBuffer.pending ≠ [] ∧
      w.selector.WritesTo w.session.clientFd
  | .authRead => w.session.writeBuffer.pending = [] ∧
      awaitsAuth w.session.auth.parser w.session.readBuffer.pending = true
  | .requestRead => w.session.writeBuffer.pending = [] ∧
      awaitsRequest w.session.request.parser w.session.readBuffer.pending = true
  | .originConnect => w.session.writeBuffer.pending = [] ∧
      ∀ fd ∈ w.threads, fd = w.session.clientFd
  | .requestWrite => w.session.writeBuffer.pending = [] ∧
      w.selector.WritesTo w.session.clientFd
  | .copy => Flowing w
  | .done | .error => True

theorem writesTo_of_set {s s' : FdSelector} {fd : ℤ}
    (h : ChangesInterest s fd (fun _ => some .write) .success s') :
    s'.WritesTo fd :=
  h.gains fun _ => rfl

/-! ## Greeting -/

theorem greetingRead_ne_error {sys : Sys} {fd : ℤ} {w w' : World}
    {ret : GlobalState} (hreg : w.selector.Registered fd)
    (hdata : sys.hasData w.session.readBuffer = true)
    (hroom : 2 ≤ w.session.writeBuffer.room)
    (h : greetingRead sys fd w = .ok (ret, w')) : ret ≠ .error := by
  obtain ⟨⟨received, w₁⟩, hrecv, h⟩ := bind_eq_ok.mp h
  obtain ⟨bs, rb, rfl⟩ := World.recvInto_hasData hdata hrecv
  obtain ⟨-, rfl⟩ := World.recvInto_spec hrecv
  simp only at h
  obtain ⟨⟨rb', parser, a⟩, -, h⟩ := bind_eq_ok.mp h
  simp only at h
  split at h
  · obtain ⟨m, -, h⟩ := bind_eq_ok.mp h
    obtain ⟨⟨status, w₂⟩, hset, h⟩ := bind_eq_ok.mp h
    obtain ⟨s, hs, rfl⟩ := World.setInterestKey_spec hset
    obtain rfl := hs.success_of_registered hreg
    dsimp only at h
    rw [if_neg (by simp)] at h
    obtain ⟨filled, hfill, h⟩ := bind_eq_ok.mp h
    rw [greetingFillMsg, if_neg (Nat.not_lt.mpr hroom)] at hfill
    obtain ⟨wb, -, hfill⟩ := bind_eq_ok.mp hfill
    cases hfill
    cases h
    decide
  · cases h
    decide

theorem greetingRead_foretold (E : Surroundings) {sys : Sys} {w w' : World}
    {ret : GlobalState} (hreg : w.selector.Registered w.session.clientFd)
    (hallocs : sys.allocs = [])
    (hdata : sys.hasData w.session.readBuffer = true)
    (hparser : w.session.greeting.parser.state.final = false)
    (hw : Poised .greetingRead w)
    (h : greetingRead sys w.session.clientFd w = .ok (ret, w')) :
    Proceeds E .greetingRead w ret w' ∧ Poised ret w' := by
  obtain ⟨-, hempty, hroom⟩ := hw
  have hne := greetingRead_ne_error hreg hdata hroom h
  have hmute := greetingRead_mute h
  cases greetingRead_spec h with
  | failed => exact absurd rfl hne
  | @waits bs rb rb' parser a hrecv hconsume hfinal =>
      rw [consumeGreetingBuffer, hallocs] at hconsume
      have hpending := pending_of_incomplete hrecv hconsume hfinal
      refine ⟨.of_received (by decide) hmute (List.append_nil _).symm (by simp)
        fun more => ?_, hpending, hempty, hroom⟩
      simp only [Surroundings.forecast, Surroundings.fromGreeting]
      rw [reading_received greetingParserFeed_sated hparser hrecv hconsume,
        if_neg (by simp [hfinal])]
  | @answers bs rb rb' wb parser a m s hrecv hconsume hfinal hselect hset hfill =>
      rw [consumeGreetingBuffer, hallocs] at hconsume
      have hpending : wb.pending = [5, m] := by
        unfold greetingFillMsg at hfill
        split at hfill
        · cases hfill
        · obtain ⟨b, hput, hfill⟩ := bind_eq_ok.mp hfill
          cases hfill
          rw [(Buffer.put_spec hput).1, hempty]
          rfl
      refine ⟨.of_received (by decide) hmute rfl (by simp [Call.transfers])
        fun more => ?_, ?_, writesTo_of_set hset⟩
      · simp only [Surroundings.forecast, Surroundings.fromGreeting]
        rw [reading_received greetingParserFeed_sated hparser hrecv hconsume,
          if_pos hfinal, hselect, ok_bind, hpending]
      · rw [hpending]
        simp

/-- Nothing is read once the buffer is empty. -/
theorem not_canRead {b : Buffer} (h : b.pending = []) : ¬ b.canRead = true := by
  rw [Buffer.canRead_iff, h]
  simp

theorem greetingWrite_foretold (E : Surroundings) {sys : Sys} {w w' : World}
    {ret : GlobalState} (hreg : w.selector.Registered w.session.clientFd)
    (hsends : sys.sendsAll w.session.writeBuffer = true)
    (hrequest : w.session.greeting.methodSelected = 0 →
      awaitsRequest (requestParserInit w.session.request.parser)
        w.session.readBuffer.pending = true)
    (hauth : w.session.greeting.methodSelected = 2 →
      awaitsAuth authParserInit w.session.readBuffer.pending = true)
    (hw : Poised .greetingWrite w)
    (h : greetingWrite sys w.session.clientFd w = .ok (ret, w')) :
    Proceeds E .greetingWrite w ret (arrived ret w') ∧
      Poised ret (arrived ret w') := by
  obtain ⟨wb, hempty, hsend⟩ := w.exists_sendFrom .greetingWrite
    w.session.clientFd hsends hw.1
  rw [greetingWrite, hsend, ok_bind] at h
  dsimp only at h
  rw [if_neg (not_canRead hempty)] at h
  obtain ⟨⟨status, w₂⟩, hset, h⟩ := bind_eq_ok.mp h
  obtain ⟨s, hs, rfl⟩ := World.setInterestKey_spec hset
  obtain rfl := hs.success_of_registered hreg
  dsimp only [World.setWriteBuffer] at h
  rw [if_neg (by simp)] at h
  change (if w.session.greeting.methodSelected = 0 then _
    else if w.session.greeting.methodSelected = 2 then _ else _) = _ at h
  have hcalls : ∀ c ∈ [Call.setInterest w.session.clientFd .read],
      c.transfers = false := by simp [Call.transfers]
  have hstate : GlobalState.greetingWrite ≠ .copy := by decide
  by_cases hzero : w.session.greeting.methodSelected = 0
  · rw [if_pos hzero] at h
    cases h
    refine ⟨.of_sent hstate rfl rfl hcalls fun more => ?_, hempty,
      hrequest hzero⟩
    simp only [Surroundings.forecast, Surroundings.afterMethod, hzero, if_true]
    rfl
  · rw [if_neg hzero] at h
    by_cases htwo : w.session.greeting.methodSelected = 2
    · rw [if_pos htwo] at h
      cases h
      refine ⟨.of_sent hstate rfl rfl hcalls fun more => ?_, hempty,
        hauth htwo⟩
      simp only [Surroundings.forecast, Surroundings.afterMethod, htwo]
      rfl
    · rw [if_neg htwo] at h
      cases h
      refine ⟨.of_sent hstate rfl rfl hcalls fun more => ?_, trivial⟩
      simp only [Surroundings.forecast, Surroundings.afterMethod, hzero, htwo,
        if_false]

/-! ## Authentication -/

/-- The verdict on the credentials is the one foretold. -/
theorem authenticate_verdict {E : Surroundings} {sys : Sys} {w w' : World}
    (hparameters : sys.parameters = E.parameters)
    (h : authenticate sys w = .ok w') :
    E.verdict w.session.auth.parser w.session.auth.reply =
      .ok w'.session.auth.reply := by
  unfold authenticate at h
  dsimp only at h
  unfold Surroundings.verdict
  rw [← hparameters]
  by_cases hdone : w.session.auth.parser.state = .done
  · rw [if_pos hdone] at h ⊢
    cases huser : w.session.auth.parser.user with
    | none => simp [huser] at h
    | some user =>
        cases hpassword : w.session.auth.parser.password with
        | none => simp [huser, hpassword] at h
        | some password =>
            simp only [huser, hpassword] at h ⊢
            split at h
            · rename_i hok
              cases h
              rw [if_pos hok]
            · rename_i hok
              cases h
              rw [if_neg hok]
  · rw [if_neg hdone] at h ⊢
    cases h
    rfl

theorem authRead_foretold (E : Surroundings) {sys : Sys} {w w' : World}
    {ret : GlobalState} (hreg : w.selector.Registered w.session.clientFd)
    (hallocs : sys.allocs = []) (hparameters : sys.parameters = E.parameters)
    (hdata : sys.hasData w.session.readBuffer = true)
    (hparser : w.session.auth.parser.state.final = false)
    (hw : Poised .authRead w)
    (h : authRead sys w.session.clientFd w = .ok (ret, w')) :
    Proceeds E .authRead w ret w' ∧ Poised ret w' := by
  have hmute := authRead_mute h
  obtain ⟨hempty, -⟩ := hw
  obtain ⟨⟨received, w₁⟩, hrecv, h⟩ := bind_eq_ok.mp h
  obtain ⟨bs, rb, rfl⟩ := World.recvInto_hasData hdata hrecv
  obtain ⟨hreceives, rfl⟩ := World.recvInto_spec hrecv
  simp only [hreceives.data_eq] at h
  obtain ⟨⟨rb', parser, a⟩, hconsume, h⟩ := bind_eq_ok.mp h
  rw [consumeAuthBuffer, hallocs] at hconsume
  simp only at h
  by_cases hfinal : parser.state.final = true
  · rw [if_pos hfinal] at h
    obtain ⟨w₂, hauth, h⟩ := bind_eq_ok.mp h
    have hverdict := authenticate_verdict hparameters hauth
    obtain ⟨reply, user, calls, hauths, rfl⟩ := authenticate_spec hauth
    obtain ⟨⟨status, w₃⟩, hset, h⟩ := bind_eq_ok.mp h
    obtain ⟨s, hs, rfl⟩ := World.setInterestKey_spec hset
    obtain rfl := hs.success_of_registered hreg
    dsimp only at h
    rw [if_neg (by simp)] at h
    obtain ⟨wb, hfill, h⟩ := bind_eq_ok.mp h
    have hpending : wb.pending = [1, reply] := by
      rw [(Buffer.put_spec hfill).1, hempty]
      rfl
    cases h
    have hcalls : ∀ c ∈ calls ++ [.setInterest w.session.clientFd .write],
        c.transfers = false := by
      cases hauths <;> simp [Call.transfers]
    refine ⟨.of_received (by decide) hmute (List.append_assoc _ calls _) hcalls
      fun more => ?_, ?_, writesTo_of_set hs⟩
    · simp only [Surroundings.forecast, Surroundings.fromAuth]
      rw [reading_received authParserFeed_sated hparser hreceives hconsume,
        if_pos hfinal, hverdict, ok_bind]
      simp only [World.setWriteBuffer, hpending]
    · simp [World.setWriteBuffer, hpending]
  · rw [if_neg hfinal] at h
    cases h
    have hfinal : parser.state.final = false := by simpa using hfinal
    have hpending := pending_of_incomplete hreceives hconsume hfinal
    refine ⟨.of_received (by decide) hmute (List.append_nil _).symm (by simp)
      fun more => ?_, hempty, ?_⟩
    · simp only [Surroundings.forecast, Surroundings.fromAuth]
      rw [reading_received authParserFeed_sated hparser hreceives hconsume,
        if_neg (by simp [hfinal])]
    · dsimp only
      rw [hpending]
      exact awaits_nil hfinal

theorem authWrite_foretold (E : Surroundings) {sys : Sys} {w w' : World}
    {ret : GlobalState} (hreg : w.selector.Registered w.session.clientFd)
    (hsends : sys.sendsAll w.session.writeBuffer = true)
    (hrequest : w.session.auth.reply = authSuccess →
      awaitsRequest (requestParserInit w.session.request.parser)
        w.session.readBuffer.pending = true)
    (hw : Poised .authWrite w)
    (h : authWrite sys w.session.clientFd w = .ok (ret, w')) :
    Proceeds E .authWrite w ret (arrived ret w') ∧
      Poised ret (arrived ret w') := by
  obtain ⟨wb, hempty, hsend⟩ := w.exists_sendFrom .authWrite
    w.session.clientFd hsends hw.1
  rw [authWrite, hsend, ok_bind] at h
  dsimp only at h
  rw [if_neg (not_canRead hempty)] at h
  obtain ⟨⟨status, w₂⟩, hset, h⟩ := bind_eq_ok.mp h
  obtain ⟨s, hs, rfl⟩ := World.setInterestKey_spec hset
  obtain rfl := hs.success_of_registered hreg
  dsimp only [World.setWriteBuffer] at h
  rw [if_neg (by simp)] at h
  change (if w.session.auth.reply = authSuccess then _ else _) = _ at h
  have hcalls : ∀ c ∈ [Call.setInterest w.session.clientFd .read],
      c.transfers = false := by simp [Call.transfers]
  have hstate : GlobalState.authWrite ≠ .copy := by decide
  by_cases hreply : w.session.auth.reply = authSuccess
  · rw [if_pos hreply] at h
    cases h
    refine ⟨.of_sent hstate rfl rfl hcalls fun more => ?_, hempty,
      hrequest hreply⟩
    simp only [Surroundings.forecast, Surroundings.afterAuth, hreply, if_true]
    rfl
  · rw [if_neg hreply] at h
    cases h
    refine ⟨.of_sent hstate rfl rfl hcalls fun more => ?_, trivial⟩
    simp only [Surroundings.forecast, Surroundings.afterAuth, hreply, if_false]

/-! ## Request -/

theorem FdSelector.Unwritten.not_writesTo {s : FdSelector} {fd : ℤ}
    (h : s.Unwritten fd) : ¬ s.WritesTo fd := by
  rintro ⟨i, hi, hwrites⟩
  rw [h i hi] at hwrites
  cases hwrites

theorem FdSelector.WritesTo.registered {s : FdSelector} {fd : ℤ}
    (h : s.WritesTo fd) : s.Registered fd := by
  obtain ⟨i, hi, -⟩ := h
  rw [FdSelector.Registered, hi]
  exact Option.some_ne_none i

theorem not_registered_none (s : FdSelector) : ¬ s.Registered (-1) :=
  fun h => absurd h.nonneg (by decide)

theorem not_writesTo_none (s : FdSelector) : ¬ s.WritesTo (-1) :=
  fun h => not_registered_none s h.registered

/-- What a session has done when it is about to connect to its origin. -/
structure Connectable (w : World) : Prop where
  done : w.session.request.parser.state = .done
  writeBuffer : w.session.writeBuffer.pending = []
  unwritten : ¬ w.selector.WritesTo w.session.clientFd

theorem requestRead_foretold (E : Surroundings) {sys : Sys} {w w' : World}
    {ret : GlobalState} (hreg : w.selector.Registered w.session.clientFd)
    (hallocs : sys.allocs = [])
    (hdata : sys.hasData w.session.readBuffer = true)
    (horigin : w.session.originFd = -1)
    (hparser : w.session.request.parser.state.final = false)
    (hw : Poised .requestRead w)
    (h : requestRead sys w.session.clientFd w = .ok (ret, w')) :
    (ret ≠ .originConnect ∧ Proceeds E .requestRead w ret w' ∧ Poised ret w') ∨
      (ret = .originConnect ∧ Connectable w' ∧ Takes E .requestRead w
        (fun _ => .ok (E.requested w'.session.request.parser)) w') := by
  have hmute := requestRead_mute h
  obtain ⟨hempty, -⟩ := hw
  obtain ⟨⟨received, w₁⟩, hrecv, h⟩ := bind_eq_ok.mp h
  obtain ⟨bs, rb, rfl⟩ := World.recvInto_hasData hdata hrecv
  obtain ⟨hreceives, rfl⟩ := World.recvInto_spec hrecv
  simp only [hreceives.data_eq] at h
  obtain ⟨⟨rb', parser, a⟩, hconsume, h⟩ := bind_eq_ok.mp h
  rw [consumeRequestBuffer, hallocs] at hconsume
  have hread := @reading_received _ _ _ _ _ _ _ _ _ _ _ .requestRead
    (fun p _ => .ok (E.requested p)) requestParserTurn_sated hparser hreceives
    hconsume
  simp only at h
  by_cases hdone : parser.state = .done
  · rw [if_pos hdone] at h
    obtain ⟨⟨status, w₂⟩, hset, h⟩ := bind_eq_ok.mp h
    obtain ⟨s, hs, rfl⟩ := World.setInterestKey_spec hset
    obtain rfl := hs.success_of_registered hreg
    cases h
    refine .inr ⟨rfl, ⟨hdone, hempty, (hs.unwritten rfl).not_writesTo⟩, ?_⟩
    refine .of_received (by decide) hmute rfl (by simp [Call.transfers]) fun more => ?_
    refine (hread more).trans ?_
    rw [if_pos (by simp [hdone, RequestState.final])]
  · rw [if_neg hdone] at h
    by_cases herror : parser.state = .error
    · rw [if_pos herror] at h
      obtain ⟨⟨status, w₂⟩, hset, h⟩ := bind_eq_ok.mp h
      obtain ⟨s, hs, rfl⟩ := World.setInterestKey_spec hset
      obtain rfl := hs.success_of_registered hreg
      cases h
      refine .inl ⟨by decide, ?_, hempty, writesTo_of_set hs⟩
      refine .of_received (by decide) hmute rfl (by simp [Call.transfers]) fun more => ?_
      refine (hread more).trans ?_
      rw [if_pos (by simp [herror, RequestState.final])]
      simp only [Surroundings.requested, Surroundings.forecast, herror, if_true,
        horigin, not_registered_none, decide_false]
    · rw [if_neg herror] at h
      cases h
      have hfinal : parser.state.final = false := by
        cases hstate : parser.state with
        | done => exact absurd hstate hdone
        | error => exact absurd hstate herror
        | _ => rfl
      have hpending := pending_of_incomplete hreceives hconsume hfinal
      refine .inl ⟨by decide, ?_, hempty, ?_⟩
      · refine .of_received (by decide) hmute (List.append_nil _).symm (by simp)
          fun more => ?_
        refine (hread more).trans ?_
        rw [if_neg (by simp [hfinal])]
        rfl
      · dsimp only
        rw [hpending]
        exact awaits_nil hfinal

/-- The reply is sent, to the client. -/
theorem requestWrite_foretold (E : Surroundings) {sys : Sys} {w w' : World}
    {ret : GlobalState} (hreg : w.selector.Registered w.session.clientFd)
    (hsends : ∀ wb, requestFillMsg w.session.writeBuffer
      w.session.request.parser = .ok wb → sys.sendsAll wb = true)
    (hclean : w.session.request.parser.reply = .succeded →
      w.session.readBuffer.pending = [])
    (hdistinct : w.session.originFd ≠ w.session.clientFd)
    (hw : Poised .requestWrite w)
    (h : requestWrite sys w.session.clientFd w = .ok (ret, w')) :
    Proceeds E .requestWrite w ret w' ∧ Poised ret (arrived ret w') := by
  obtain ⟨wb, hfill, h⟩ := bind_eq_ok.mp h
  have hpending : wb.pending =
      replyMessage w.session.request.parser.reply.code := by
    rw [requestFillMsg_pending hfill, hw.1, List.nil_append]
  obtain ⟨wb', hempty, hsend⟩ := (w.setWriteBuffer wb).exists_sendFrom
    .requestWrite w.session.clientFd (hsends wb hfill)
    (by rw [hpending]; simp [replyMessage])
  rw [hsend, ok_bind] at h
  dsimp only [World.setWriteBuffer, World.record] at h
  rw [if_neg (not_canRead hempty)] at h
  change (if w.session.request.parser.reply = .succeded then _ else _) = _ at h
  have hstate : GlobalState.requestWrite ≠ .copy := by decide
  by_cases hreply : w.session.request.parser.reply = .succeded
  · rw [if_pos hreply] at h
    obtain ⟨⟨status, w₂⟩, hset, h⟩ := bind_eq_ok.mp h
    obtain ⟨s, hs, rfl⟩ := World.setInterestKey_spec hset
    obtain rfl := hs.success_of_registered hreg
    dsimp only at h
    rw [if_neg (by simp)] at h
    obtain ⟨⟨status', w₃⟩, hset', h⟩ := bind_eq_ok.mp h
    obtain ⟨s', hs', rfl⟩ := World.setInterest_spec hset'
    have horigin : s.Registered w.session.originFd ↔
        w.selector.Registered w.session.originFd := hs.registered_iff _
    dsimp only at h
    by_cases hstatus : status' = .success
    · subst hstatus
      have hreg' : s.Registered w.session.originFd := by
        obtain ⟨i, hi, -⟩ := hs'.interest_eq
        rw [FdSelector.Registered, hi]
        exact Option.some_ne_none i
      rw [if_neg (by simp)] at h
      cases h
      refine ⟨.of_sent hstate rfl (List.append_assoc _ [_] _)
        (by simp [Call.transfers]) fun more => ?_, rfl, ?_, ?_⟩
      · simp [Surroundings.forecast, Outlook.replied, Outlook.after, hreply,
          hpending, Except.map, horigin.mp hreg']
      · exact (hs'.registered_iff _).mpr hreg'
      · intro side
        cases side with
        | client =>
            refine iff_of_false ?_ (not_not_intro (hclean hreply))
            have hclient := hs'.unwritten_of_ne hdistinct.symm (hs.unwritten rfl)
            exact hclient.not_writesTo
        | origin =>
            refine iff_of_false ?_ (not_not_intro hempty)
            exact (hs'.unwritten rfl).not_writesTo
    · have hnot : ¬ w.selector.Registered w.session.originFd :=
        fun hreg' => hstatus (hs'.success_of_registered (horigin.mpr hreg'))
      rw [if_pos hstatus] at h
      cases h
      refine ⟨.of_sent hstate rfl (List.append_assoc _ [_] _)
        (by simp [Call.transfers]) fun more => ?_, trivial⟩
      simp [Surroundings.forecast, Outlook.replied, Outlook.after, hreply,
        hpending, Except.map, hnot]
  · rw [if_neg hreply] at h
    cases h
    refine ⟨.of_sent hstate rfl (List.append_nil _).symm (by simp)
      fun more => ?_, trivial⟩
    simp [Surroundings.forecast, Outlook.replied, Outlook.after, hreply,
      hpending, Except.map]

/-! ## Connecting -/

/-- The descriptor of the `k`-th attempt is a fresh one, and there is room for
it where it had been foretold. -/
def Surroundings.Tries (E : Surroundings) (w : World) (realloc : Bool) (k : ℕ) :
    Prop :=
  ∀ n, (E.attempts k).socket = some n → ¬ w.selector.Registered n ∧
    (n : ℤ) ≠ w.session.clientFd ∧
    (w.selector.HasRoom realloc n ↔ E.registers k = true)

/-- Neither an answer of the resolver nor its notification is to come. -/
structure Unresolving (w : World) : Prop where
  threads : w.threads = []
  jobs : w.session.clientFd ∉ w.selector.resolutionJobs

section Attempts

variable {E : Surroundings} {k : ℕ} {realloc : Bool} {fd : ℤ} {w w' : World}
  {ret : GlobalState}

/-- An attempt that fails at once leaves the reply to be sent. -/
theorem Attempted.failed
    (h : Attempted (E.attempts k) realloc fd w ret w')
    (hfd : fd = w.session.clientFd)
    (hreg : w.selector.Registered w.session.clientFd)
    (htries : E.Tries w realloc k)
    (hfails : (E.attempts k).failsAtOnce = true) :
    ret = .requestWrite ∧ w'.selector.WritesTo w'.session.clientFd ∧
      ¬ w'.selector.Registered w'.session.originFd ∧
      w'.session.request.parser.reply = Surroundings.replyOfFailed
        (E.attempts k) w.session.request.parser.reply := by
  subst hfd
  cases h with
  | noSocket hsocket hs =>
      obtain rfl := hs.success_of_registered hreg
      refine ⟨rfl, writesTo_of_set hs, not_registered_none _, ?_⟩
      simp [Surroundings.replyOfFailed, hsocket]
  | noNio hsocket hnio hs =>
      obtain rfl := hs.success_of_registered hreg
      obtain ⟨hfresh, -⟩ := htries _ hsocket
      refine ⟨rfl, writesTo_of_set hs, (hs.registered_iff _).not.mpr hfresh, ?_⟩
      simp [Surroundings.replyOfFailed, hnio]
  | refused hsocket hnio _ hparser hs =>
      obtain rfl := hs.success_of_registered hreg
      obtain ⟨hfresh, -⟩ := htries _ hsocket
      refine ⟨rfl, writesTo_of_set hs, (hs.registered_iff _).not.mpr hfresh, ?_⟩
      simp [Surroundings.replyOfFailed, hsocket, hnio, hparser]
  | connected hsocket hnio hconnect =>
      simp [Attempt.failsAtOnce, hsocket, hnio, hconnect] at hfails
  | inProgress hsocket hnio hconnect =>
      simp [Attempt.failsAtOnce, hsocket, hnio, hconnect] at hfails

/-- Any other attempt leads to what had been foretold. -/
theorem Attempted.lasting
    (h : Attempted (E.attempts k) realloc fd w ret w')
    (htries : E.Tries w realloc k) (hidle : Unresolving w)
    (hempty : w.session.writeBuffer.pending = [])
    (hwritten : w.selector.WritesTo w.session.clientFd ↔ k ≠ 0)
    (hfails : (E.attempts k).failsAtOnce = false) :
    ret ≠ .requestWrite ∧
      (∀ more failed, E.forecast ret w' more = .ok (E.attempted k failed)) ∧
      Poised ret w' := by
  cases h with
  | noSocket hsocket => simp [Attempt.failsAtOnce, hsocket] at hfails
  | noNio _ hnio => simp [Attempt.failsAtOnce, hnio] at hfails
  | refused _ _ hconnect => simp [Attempt.failsAtOnce, hconnect] at hfails
  | @connected n request addr hsocket hnio hconnect =>
      obtain ⟨hfresh, -⟩ := htries _ hsocket
      have hunwritten : ¬ w.selector.WritesTo n := fun h => hfresh h.registered
      refine ⟨by decide, fun more failed => ?_, hempty, ?_⟩
      · simp only [Surroundings.forecast, Surroundings.connecting,
          Surroundings.attempted, hfails, hconnect, hfresh, hunwritten, hwritten,
          hidle.threads, hidle.jobs, false_or, decide_false]
        by_cases hk : k = 0 <;> simp [hk]
      · simp [hidle.threads]
  | @inProgress n request addr status s hsocket hnio hconnect hparser hregister =>
      obtain ⟨hfresh, -, hroom⟩ := htries _ hsocket
      by_cases hstatus : status = .success
      · subst hstatus
        have hwrites := writesTo_of_register hregister
        have hregisters := hroom.mp (hasRoom_of_selectorRegister hregister)
        refine ⟨by decide, fun more failed => ?_, hempty, ?_⟩
        · simp [afterInterest, Surroundings.forecast, Surroundings.connecting,
            Surroundings.attempted, hfails, hconnect, hwrites, hwrites.registered,
            hregisters]
        · simp [hidle.threads]
      · have hregisters : ¬ E.registers k = true := fun h =>
          hstatus (selectorRegister_success hregister (hroom.mpr h)
            (not_not.mp hfresh))
        rw [afterInterest, if_neg hstatus]
        refine ⟨by decide, fun more failed => ?_, trivial⟩
        simp [Surroundings.forecast, Surroundings.attempted, hfails, hconnect,
          hregisters]

end Attempts

/-- The arrival at `ORIGIN_CONNECT`. -/
theorem connectOriginInit_foretold {E : Surroundings} {sys : Sys} {w w' : World}
    {ret : GlobalState} (hreg : w.selector.Registered w.session.clientFd)
    (hattempts : w.session.request.parser.atyp = 1 ∨
        w.session.request.parser.atyp = 4 →
      sys.attempts 0 = E.attempts 0 ∧ E.Tries w sys.realloc 0)
    (hmalloc : sys.malloc = E.malloc)
    (hcreate : sys.pthreadCreate = E.pthreadCreate)
    (hw : Connectable w) (horigin : w.session.originFd = -1)
    (hidle : Unresolving w)
    (h : connectOriginInit sys w.session.clientFd w = .ok (ret, w')) :
    (∀ more, E.forecast ret w' more = .ok (E.requested w.session.request.parser)) ∧
      Poised ret w' := by
  have hlive : w.session.request.parser.state ≠ .error := by
    rw [hw.done]
    decide
  unfold connectOriginInit connectToOrigin at h
  rw [if_pos (by rw [horigin]; decide)] at h
  unfold Surroundings.requested
  rw [if_neg hlive]
  by_cases hatyp : w.session.request.parser.atyp = 1 ∨
      w.session.request.parser.atyp = 4
  · obtain ⟨hattempt, htries⟩ := hattempts hatyp
    simp only [hatyp, if_true] at h ⊢
    have hspec := connectThroughIp_spec h
    rw [hattempt] at hspec
    cases hfails : (E.attempts 0).failsAtOnce with
    | true =>
        obtain ⟨rfl, hwrites, hnot, hreply⟩ := hspec.failed rfl hreg htries hfails
        refine ⟨fun more => ?_, ?_, hwrites⟩
        · simp [Surroundings.forecast, Surroundings.attempted, hfails, hnot,
            hreply]
        · rw [hspec.silent.writeBuffer]
          exact hw.writeBuffer
    | false =>
        obtain ⟨-, hforecast, hpoised⟩ := hspec.lasting htries hidle
          hw.writeBuffer (iff_of_false hw.unwritten (by simp)) hfails
        exact ⟨fun more => hforecast more _, hpoised⟩
  · simp only [hatyp, if_false] at h ⊢
    unfold connectThroughFqdn at h
    unfold Surroundings.lookedUp
    rw [← hmalloc, ← hcreate]
    cases hok : sys.malloc with
    | false =>
        simp only [hok, Bool.not_false, if_true] at h
        cases h
        exact ⟨fun _ => by simp [Surroundings.forecast], trivial⟩
    | true =>
        simp only [hok, Bool.not_true, Bool.false_eq_true, if_false] at h
        by_cases hminus : sys.pthreadCreate = -1
        · rw [if_pos hminus] at h
          cases h
          exact ⟨fun _ => by simp [Surroundings.forecast, hminus], trivial⟩
        · rw [if_neg hminus] at h
          obtain ⟨⟨status, w₁⟩, hset, h⟩ := bind_eq_ok.mp h
          cases h
          obtain ⟨s, hs, rfl⟩ := World.setInterestKey_spec hset
          by_cases hzero : sys.pthreadCreate = 0
          · simp only [hzero, if_true] at hs ⊢
            obtain rfl := hs.success_of_registered hreg
            refine ⟨fun more => ?_, hw.writeBuffer, ?_⟩
            · simp [Surroundings.forecast, Surroundings.connecting, horigin,
                not_writesTo_none, (hs.unwritten rfl).not_writesTo]
            · simp [hidle.threads]
          · simp only [hzero, if_false] at hs ⊢
            obtain rfl := hs.success_of_registered hreg
            refine ⟨fun more => ?_, hw.writeBuffer, ?_⟩
            · simp [Surroundings.forecast, Surroundings.connecting, horigin,
                not_writesTo_none, (hs.unwritten rfl).not_writesTo,
                hidle.threads, hs.jobs_eq, hidle.jobs, hminus]
            · simp [hidle.threads]

theorem connecting_freeResolution (E : Surroundings) {w : World}
    (h : Unresolving w) :
    E.connecting (freeResolution w) = E.connecting w := by
  simp [Surroundings.connecting, freeResolution, h.threads, h.jobs]

/-- Going through the addresses that were found. -/
theorem Resolves.foretold {E : Surroundings} {sys : Sys} {k : ℕ}
    {addrs : List SockAddr} {fd : ℤ} {w w' : World} {ret : GlobalState}
    (h : Resolves sys fd k addrs w ret w') (hfd : fd = w.session.clientFd)
    (hreg : w.selector.Registered w.session.clientFd)
    (hattempts : ∀ i, k ≤ i → i < k + addrs.length →
      sys.attempts i = E.attempts i ∧ E.Tries w sys.realloc i)
    (hidle : Unresolving w) (hempty : w.session.writeBuffer.pending = [])
    (hwritten : w.selector.WritesTo w.session.clientFd ↔ k ≠ 0) :
    (∀ more, E.forecast ret w' more = .ok (E.resolve k addrs)) ∧
      Poised ret w' := by
  induction h with
  | @exhausted k w w' ret h =>
      cases h with
      | failed hstatus hs => exact absurd (hs.success_of_registered hreg) hstatus
      | answers hs =>
          refine ⟨fun more => ?_, hempty, writesTo_of_set hs⟩
          simp [Surroundings.forecast, Surroundings.resolve, Outlook.replied]
  | @settles k addr rest w w' h _ =>
      obtain ⟨hattempt, htries⟩ := hattempts k (le_refl k) (by simp)
      rw [hattempt] at h
      have hfails : (E.attempts k).failsAtOnce = false := by
        rw [← Bool.not_eq_true]
        intro hfails
        cases (h.failed hfd hreg htries hfails).1
      obtain ⟨-, hforecast, hpoised⟩ :=
        h.lasting htries ⟨hidle.threads, hidle.jobs⟩ hempty hwritten hfails
      have hidle' : Unresolving w' := by
        obtain ⟨hthreads, hjobs, hclient, -⟩ := h.sameRest
        refine ⟨hthreads.trans hidle.threads, ?_⟩
        rw [hjobs, hclient]
        exact hidle.jobs
      refine ⟨fun more => ?_, hpoised⟩
      rw [Surroundings.resolve, ← hforecast more]
      simp only [Surroundings.forecast, connecting_freeResolution E hidle']
  | @breaks k addr rest w w' h =>
      obtain ⟨hattempt, htries⟩ := hattempts k (le_refl k) (by simp)
      rw [hattempt] at h
      have hfails : (E.attempts k).failsAtOnce = false := by
        rw [← Bool.not_eq_true]
        intro hfails
        cases (h.failed hfd hreg htries hfails).1
      obtain ⟨-, hforecast, hpoised⟩ :=
        h.lasting htries ⟨hidle.threads, hidle.jobs⟩ hempty hwritten hfails
      exact ⟨fun more => hforecast more _, hpoised⟩
  | @goesOn k addr rest w w₁ w' ret h _ ih =>
      obtain ⟨hattempt, htries⟩ := hattempts k (le_refl k) (by simp)
      rw [hattempt] at h
      have hfails : (E.attempts k).failsAtOnce = true := by
        by_contra hnot
        exact (h.lasting htries ⟨hidle.threads, hidle.jobs⟩ hempty hwritten
          (by simpa using hnot)).1 rfl
      obtain ⟨-, hwrites, -⟩ := h.failed hfd hreg htries hfails
      obtain ⟨-, hclient, hregistered, hsize⟩ :=
        h.of_failsAtOnce hfails (hfd ▸ hreg)
      have hclient : w₁.session.clientFd = w.session.clientFd := hclient
      obtain ⟨hthreads, hjobs, -⟩ := h.sameRest
      have hrest : ∀ i, k + 1 ≤ i → i < k + 1 + rest.length →
          sys.attempts i = E.attempts i ∧ E.Tries w₁ sys.realloc i := by
        intro i hle hlt
        obtain ⟨hattempt, htries⟩ := hattempts i (Nat.le_of_succ_le hle) (by
          rw [List.length_cons]
          omega)
        refine ⟨hattempt, fun n hn => ?_⟩
        obtain ⟨hfresh, hne, hroom⟩ := htries n hn
        rw [hregistered, hclient, FdSelector.HasRoom, hsize]
        exact ⟨hfresh, hne, hroom⟩
      have hidle' : Unresolving w₁ := by
        refine ⟨hthreads.trans hidle.threads, ?_⟩
        rw [hjobs, hclient]
        exact hidle.jobs
      have hreg' : w₁.selector.Registered w₁.session.clientFd := by
        rw [hclient]
        exact (hregistered _).mpr hreg
      have hempty' : w₁.session.writeBuffer.pending = [] := by
        rw [h.silent.writeBuffer]
        exact hempty
      obtain ⟨hforecast, hpoised⟩ := ih (hfd.trans hclient.symm) hreg' hrest
        hidle' hempty' (iff_of_true hwrites (Nat.succ_ne_zero k))
      refine ⟨fun more => ?_, hpoised⟩
      rw [hforecast more, Surroundings.resolve, Surroundings.attempted,
        if_pos hfails]

/-- The block notification. -/
theorem connectOriginBlock_foretold (E : Surroundings) {sys : Sys} {w w' : World}
    {ret : GlobalState} (hreg : w.selector.Registered w.session.clientFd)
    (hattempts : ∀ i < w.session.originResolution.length,
      sys.attempts i = E.attempts i ∧ E.Tries w sys.realloc i)
    (hidle : Unresolving w) (hempty : w.session.writeBuffer.pending = [])
    (hunwritten : ¬ w.selector.WritesTo w.session.clientFd)
    (h : connectOriginBlock sys w.session.clientFd w = .ok (ret, w')) :
    (∀ more, E.forecast ret w' more =
      .ok (E.resolve 0 w.session.originResolution)) ∧ Poised ret w' := by
  refine (connectOriginBlock_spec h).foretold rfl hreg ?_ hidle hempty
    (iff_of_false hunwritten (by simp))
  intro i _ hi
  exact hattempts i (by simpa using hi)

/-- The connection is looked at. -/
theorem verifyConnection_foretold (E : Surroundings) {sys : Sys} {fd : ℤ}
    {w w' : World} {ret : GlobalState} (hreg : w.selector.Registered fd)
    (hclient : w.selector.Registered w.session.clientFd)
    (hso : sys.soError = E.soError)
    (hawaited : w.selector.WritesTo w.session.originFd ∨
      w.selector.WritesTo w.session.clientFd)
    (hw : Poised .originConnect w)
    (h : verifyConnection sys fd w = .ok (ret, w')) :
    Proceeds E .originConnect w ret w' ∧ Poised ret w' := by
  have hforecast : ∀ more, E.forecast .originConnect w more =
      .ok (E.verified (decide (w.selector.Registered w.session.originFd))) := by
    intro more
    simp only [Surroundings.forecast, Surroundings.connecting, hawaited, if_true]
  cases herror : sys.soError with
  | none =>
      unfold verifyConnection at h
      simp only [herror] at h
      cases h
      refine ⟨(Takes.refl E _ w).silently (record_silent w rfl) fun more => ?_,
        trivial⟩
      rw [hforecast, Surroundings.verified, ← hso, herror]
      rfl
  | some error =>
      obtain ⟨w'', hanswers⟩ := exists_verifyConnection herror hreg hclient
      rw [hanswers] at h
      cases h
      cases verifyConnection_spec hanswers with
      | @answers error' reply s s' herror' hreply hs hs' =>
          refine ⟨(Takes.refl E _ w).silently ?_ fun more => ?_, hw.1,
            writesTo_of_set hs'⟩
          · exact ⟨rfl, rfl, rfl, _, by simp only [List.append_assoc]; rfl,
              by simp [Call.transfers]⟩
          · have hregistered : s'.Registered w.session.originFd ↔
                w.selector.Registered w.session.originFd :=
              (hs'.registered_iff _).trans (hs.registered_iff _)
            rw [hforecast, Surroundings.verified, ← hso, herror']
            rcases hreply with ⟨rfl, rfl⟩ | ⟨hne, rfl⟩
            · simp [Surroundings.forecast, hregistered]
            · simp [Surroundings.forecast, hregistered, hne]

/-! ## The relay -/

theorem ChangesInterest.writesTo_iff {s s' : FdSelector} {fd d : ℤ}
    {change : FdInterest → Option FdInterest} {ret : SelectorStatus}
    (h : ChangesInterest s fd change ret s')
    (hkeep : d = fd → ∀ i, ((change i).getD i).writes = i.writes) :
    s'.WritesTo d ↔ s.WritesTo d := by
  cases h with
  | refused => exact Iff.rfl
  | changed i hi hs =>
      unfold FdSelector.WritesTo
      rw [hs]
      by_cases hd : d = fd
      · subst hd
        simp [hi, hkeep rfl i]
      · rw [Function.update_of_ne hd]

theorem Side.fd_ne_peer {w : World} (hw : Seated w) (side : Side) :
    side.fd w.session ≠ side.peer.fd w.session := by
  cases side
  · exact hw.distinct.symm
  · exact hw.distinct

/-- Both sides are registered. -/
theorem Flowing.registered {w : World} (hw : Flowing w) (hseated : Seated w)
    (side : Side) : w.selector.Registered (side.fd w.session) := by
  cases side
  · exact hseated.client
  · exact hw.origin

/-- The relay goes on as long as all its flags are set. -/
theorem Flowing.goesOn {w : World} (hw : Flowing w) :
    afterInterest .success (checkCloseConnection w.session.copy) = .copy := by
  rw [hw.flags]
  rfl

/-- What a side has sent waits to be written to the other side. -/
theorem CopyReads.flowing {sys : Sys} {side : Side} {w w' : World}
    {ret : GlobalState} (h : CopyReads sys side (side.fd w.session) w ret w')
    (hdata : sys.hasData (side.inbox w.session) = true)
    (hfits : uint8 (side.peer.fd w.session) = side.peer.fd w.session)
    (hseated : Seated w) (hw : Flowing w) : ret = .copy ∧ Flowing w' := by
  have hnot : ¬ Ends sys (side.inbox w.session) := by
    rintro (hend | hend) <;> simp [Sys.hasData, hend] at hdata
  cases h with
  | failed hfailed => simp [Sys.hasData, hfailed] at hdata
  | holds hend => exact absurd hend hnot
  | closes hend => exact absurd hend hnot
  | unclosed hend => exact absurd hend hnot
  | @relays bs b sniffer status s s' hreceives hs hs' =>
      rw [hfits] at hs'
      obtain rfl := hs'.success_of_registered
        ((hs.registered_iff _).mpr (hw.registered hseated side.peer))
      have hfilled : b.pending ≠ [] := by
        cases hreceives with
        | data _ hbs hpending =>
            rw [hpending]
            exact fun h => hbs (List.append_eq_nil_iff.mp h).2
      have hpeer : s'.WritesTo (side.peer.fd w.session) :=
        hs'.gains fun i => by cases i <;> decide
      have hside : s'.WritesTo (side.fd w.session) ↔
          (side.outbox w.session).pending ≠ [] := by
        rw [hs'.writesTo_iff fun heq => absurd heq (side.fd_ne_peer hseated),
          hs.writesTo_iff fun _ i => by cases i <;> rfl]
        exact hw.writes side
      have horigin : s'.Registered w.session.originFd :=
        (hs'.registered_iff _).mpr ((hs.registered_iff _).mpr hw.origin)
      refine ⟨hw.goesOn, ?_⟩
      cases side with
      | client =>
          refine ⟨hw.flags, horigin, fun side' => ?_⟩
          cases side' with
          | client => exact hside
          | origin => exact iff_of_true hpeer hfilled
      | origin =>
          refine ⟨hw.flags, horigin, fun side' => ?_⟩
          cases side' with
          | client => exact iff_of_true hpeer hfilled
          | origin => exact hside

/-- What waits for a side is written to it. -/
theorem CopyWrites.flowing {sys : Sys} {side : Side} {w w' : World}
    {ret : GlobalState} (h : CopyWrites sys side (side.fd w.session) w ret w')
    (hsends : sys.sendsAll (side.outbox w.session) = true)
    (hwrites : w.selector.WritesTo (side.fd w.session))
    (hfits : uint8 (side.peer.fd w.session) = side.peer.fd w.session)
    (hseated : Seated w) (hw : Flowing w) : ret = .copy ∧ Flowing w' := by
  have hpending := (hw.writes side).mp hwrites
  have hreading : side.peer.reading w.session.copy ≠ false := by
    rw [hw.flags]
    cases side <;> decide
  cases h with
  | failed hfailed =>
      cases hfailed with
      | failed hnone =>
          rcases hnone with hnone | hnone
          · simp [Sys.sendsAll, hnone] at hsends
          · exact absurd hnone hpending
  | partly hsent hleft => exact absurd (hsent.wholly.mpr hsends) hleft
  | partlyLast hsent hleft => exact absurd (hsent.wholly.mpr hsends) hleft
  | closes _ _ hnot => exact absurd hnot hreading
  | unclosed _ _ hnot => exact absurd hnot hreading
  | @wholly bs b sniffer status s s' hsent hempty _ hs hs' =>
      rw [hfits] at hs'
      obtain rfl := hs'.success_of_registered
        ((hs.registered_iff _).mpr (hw.registered hseated side.peer))
      have hside : ¬ s'.WritesTo (side.fd w.session) := by
        rw [hs'.writesTo_iff fun heq => absurd heq (side.fd_ne_peer hseated)]
        obtain ⟨i, -, hchanged⟩ := hs.interest_eq
        rintro ⟨j, hj, hwrites⟩
        rw [hchanged, Function.update_self] at hj
        cases hj
        revert hwrites
        cases i <;> decide
      have hpeer : s'.WritesTo (side.peer.fd w.session) ↔
          (side.peer.outbox w.session).pending ≠ [] := by
        rw [hs'.writesTo_iff fun _ i => by cases i <;> rfl,
          hs.writesTo_iff fun heq => absurd heq.symm (side.fd_ne_peer hseated)]
        exact hw.writes side.peer
      have horigin : s'.Registered w.session.originFd :=
        (hs'.registered_iff _).mpr ((hs.registered_iff _).mpr hw.origin)
      refine ⟨hw.goesOn, ?_⟩
      cases side with
      | client =>
          refine ⟨hw.flags, horigin, fun side' => ?_⟩
          cases side' with
          | client => exact iff_of_false hside (not_not_intro hempty)
          | origin => exact hpeer
      | origin =>
          refine ⟨hw.flags, horigin, fun side' => ?_⟩
          cases side' with
          | client => exact hpeer
          | origin => exact iff_of_false hside (not_not_intro hempty)

end Socksv5
