import Socksv5.Session.Admission

/-!
# The streams through the relay

Both ways, what has been sent is a prefix of what has been received, and the
rest is in the buffer between: provided that nothing is left in `read_buffer`
when the request is complete, and that the reply is never sent to the origin.
-/

namespace Socksv5

open Support

/-- The bytes that a call sent to a descriptor. -/
def Call.sentTo (fd : ℤ) : Call → List UInt8
  | .send _ fd' bs => if fd' = fd then bs else []
  | _ => []

/-- The bytes that a call of `copy_write` sent to a descriptor. -/
def Call.relayedTo (fd : ℤ) : Call → List UInt8
  | .send .copy fd' bs => if fd' = fd then bs else []
  | _ => []

/-- The bytes sent to a descriptor. -/
def sentTo (fd : ℤ) (log : List Call) : List UInt8 := log.flatMap (Call.sentTo fd)

/-- The bytes that the relay sent to a descriptor. -/
def relayedTo (fd : ℤ) (log : List Call) : List UInt8 :=
  log.flatMap (Call.relayedTo fd)

/-- `AfterRequest w rest`: what the client has sent after its request is
`rest`. -/
def AfterRequest (w : World) (rest : List UInt8) : Prop :=
  ∃ xs d hi lo, Admission w.log xs ∧ Destination.WellFormed d ∧
    w.input = xs ++ requestMessage d hi lo ++ rest

/-- What has been sent to either side is a prefix of what there was to send. -/
def Intact (w : World) : Prop :=
  ∃ rest, AfterRequest w rest ∧ sentTo w.session.originFd w.log <+: rest ∧
    relayedTo w.session.clientFd w.log <+: received w.session.originFd w.log

/-- Nothing but the request is read with it, and the reply is not sent to the
origin. -/
def CleanEvent (s : GlobalState) (w : World) : Event → Prop
  | .dispatch r fd sys =>
      (s = .requestRead → r = .read → ∀ x ∈ w.readRequest sys fd,
        x.2.state = .done → x.1.pending = []) ∧
      (s = .requestWrite → r = .write →
        w.session.request.parser.reply = .succeded →
        fd ≠ w.session.originFd ∨ sys.send = .failed)
  | _ => True

instance (s : GlobalState) (w : World) (e : Event) :
    Decidable (CleanEvent s w e) :=
  match e with
  | .dispatch _ _ _ => inferInstanceAs (Decidable (_ ∧ _))
  | .connectionEnds _ | .resolved _ _ _ | .others _ _ =>
      inferInstanceAs (Decidable True)

/-! ## Where the request ends -/

/-- The end of what admits a client is determined by the bytes. -/
theorem Admission.append_inj {log log' : List Call} {xs xs' a b : List UInt8}
    (h : Admission log xs) (h' : Admission log' xs') (heq : xs ++ a = xs' ++ b) :
    a = b := by
  cases h with
  | unauthenticated hms _ hauth =>
      cases h' with
      | unauthenticated hms' _ _ =>
          exact (greetingMessage_append_inj hms hms' heq).2
      | authenticated hms' hauth' _ _ _ =>
          rw [List.append_assoc] at heq
          obtain ⟨rfl, -⟩ := greetingMessage_append_inj hms hms' heq
          exact absurd hauth' hauth
  | authenticated hms hauth hu hp _ =>
      cases h' with
      | unauthenticated hms' _ hauth' =>
          rw [List.append_assoc] at heq
          obtain ⟨rfl, -⟩ := greetingMessage_append_inj hms hms' heq
          exact absurd hauth hauth'
      | authenticated hms' _ hu' hp' _ =>
          rw [List.append_assoc, List.append_assoc] at heq
          exact credentialsMessage_append_inj hu hu' hp hp'
            (greetingMessage_append_inj hms hms' heq).2

/-- So is the end of the request. -/
theorem AfterRequest.unique {w w' : World} {rest rest' : List UInt8}
    (h : AfterRequest w rest) (h' : AfterRequest w' rest')
    (heq : w.input = w'.input) : rest = rest' := by
  obtain ⟨xs, d, hi, lo, hadm, hd, hinput⟩ := h
  obtain ⟨xs', d', hi', lo', hadm', hd', hinput'⟩ := h'
  rw [← heq, hinput, List.append_assoc, List.append_assoc] at hinput'
  exact requestMessage_append_inj hd hd' (hadm.append_inj hadm' hinput')

/-! ## The handshake -/

/-- The call is none of the relay, and transfers with the client only. -/
def Call.OfHandshake (clientFd : ℤ) : Call → Prop
  | .recv s fd _ _ => s ≠ .copy ∧ fd = clientFd
  | .send s fd _ => s ≠ .copy ∧ fd = clientFd
  | _ => True

/-- A log of the handshake. -/
def HandshakeLog (clientFd : ℤ) (log : List Call) : Prop :=
  ∀ c ∈ log, c.OfHandshake clientFd

theorem HandshakeLog.append {clientFd : ℤ} {log calls : List Call}
    (h : HandshakeLog clientFd log)
    (hcalls : ∀ c ∈ calls, c.OfHandshake clientFd) :
    HandshakeLog clientFd (log ++ calls) := by
  intro c hc
  rcases List.mem_append.mp hc with hc | hc
  · exact h c hc
  · exact hcalls c hc

theorem ofHandshake_of_not_transfers {clientFd : ℤ} {c : Call}
    (h : c.transfers = false) : c.OfHandshake clientFd := by
  cases c <;> trivial

theorem HandshakeLog.of_silent {w w' : World}
    (h : HandshakeLog w.session.clientFd w.log) (hs : Silent w w') :
    HandshakeLog w'.session.clientFd w'.log := by
  obtain ⟨calls, hlog, hcalls⟩ := hs.log
  rw [hs.clientFd, hlog]
  exact h.append fun c hc => ofHandshake_of_not_transfers (hcalls c hc)

/-- Before the relay, nothing has been sent to or received from anybody but the
client. -/
theorem HandshakeLog.empty {clientFd fd : ℤ} {log : List Call}
    (h : HandshakeLog clientFd log) (hne : fd ≠ clientFd) :
    sentTo fd log = [] ∧ received fd log = [] ∧ relayedTo clientFd log = [] := by
  refine ⟨?_, ?_, ?_⟩
  · rw [sentTo, List.flatMap_eq_nil_iff]
    intro c hc
    have := h c hc
    cases c with
    | send s fd' bs =>
        obtain ⟨-, rfl⟩ := this
        exact if_neg (Ne.symm hne)
    | _ => rfl
  · rw [received, List.flatMap_eq_nil_iff]
    intro c hc
    have := h c hc
    cases c with
    | recv s fd' n r =>
        obtain ⟨-, rfl⟩ := this
        cases r with
        | received bs => exact if_neg (Ne.symm hne)
        | connReset | failed => rfl
    | _ => rfl
  · rw [relayedTo, List.flatMap_eq_nil_iff]
    intro c hc
    have := h c hc
    cases c with
    | send s fd' bs =>
        obtain ⟨hs, -⟩ := this
        cases s <;> first | rfl | exact absurd rfl hs
    | _ => rfl

/-- What holds before the relay: nothing has been transferred with anybody but
the client, and nothing is left once the request is complete. -/
structure Untouched (s : GlobalState) (w : World) : Prop where
  log : HandshakeLog w.session.clientFd w.log
  empty : s = .originConnect ∨ s = .requestWrite →
    w.session.readBuffer.pending = []

/-- What holds in the relay: the bytes received are those sent and those in the
buffer, both ways. -/
def Relaying (w : World) : Prop :=
  AfterRequest w
      (sentTo w.session.originFd w.log ++ w.session.writeBuffer.pending) ∧
    received w.session.originFd w.log =
      relayedTo w.session.clientFd w.log ++ w.session.readBuffer.pending

theorem Relaying.intact {w : World} (h : Relaying w) : Intact w := by
  refine ⟨_, h.1, List.prefix_append _ _, ?_⟩
  rw [h.2]
  exact List.prefix_append _ _

theorem Untouched.of_silent {s : GlobalState} {w w' : World}
    (hw : Untouched s w) (h : Silent w w') : Untouched s w' where
  log := hw.log.of_silent h
  empty := fun hs => by rw [h.readBuffer]; exact hw.empty hs

theorem GreetingReads.untouched {sys : Sys} {w w' : World} {ret : GlobalState}
    (h : GreetingReads sys w.session.clientFd w ret w') (hne : ret ≠ .error)
    (hw : Untouched .greetingRead w) : Untouched ret w' := by
  cases h with
  | failed => exact absurd rfl hne
  | waits => exact ⟨hw.log.append (by simp [Call.OfHandshake]), by simp⟩
  | answers =>
      exact ⟨(hw.log.append (by simp [Call.OfHandshake])).append
        (by simp [Call.OfHandshake]), by simp⟩

theorem GreetingWrites.untouched {sys : Sys} {w w' : World} {ret : GlobalState}
    (h : GreetingWrites sys w.session.clientFd w ret w') (hne : ret ≠ .error)
    (hw : Untouched .greetingWrite w) : Untouched ret w' := by
  cases h with
  | failed => exact absurd rfl hne
  | partly => exact ⟨hw.log.append (by simp [Call.OfHandshake]), by simp⟩
  | wholly _ _ _ hret =>
      refine ⟨(hw.log.append (by simp [Call.OfHandshake])).append
        (by simp [Call.OfHandshake]), ?_⟩
      rcases hret with ⟨rfl, -⟩ | ⟨rfl, -⟩ <;> simp

theorem AuthReads.untouched {sys : Sys} {w w' : World} {ret : GlobalState}
    (h : AuthReads sys w.session.clientFd w ret w') (hne : ret ≠ .error)
    (hw : Untouched .authRead w) : Untouched ret w' := by
  cases h with
  | failed => exact absurd rfl hne
  | waits => exact ⟨hw.log.append (by simp [Call.OfHandshake]), by simp⟩
  | answers _ _ _ hauths =>
      refine ⟨((hw.log.append (by simp [Call.OfHandshake])).append ?_).append
        (by simp [Call.OfHandshake]), by simp⟩
      cases hauths <;> simp [Call.OfHandshake]

theorem AuthWrites.untouched {sys : Sys} {w w' : World} {ret : GlobalState}
    (h : AuthWrites sys w.session.clientFd w ret w') (hne : ret ≠ .error)
    (hw : Untouched .authWrite w) : Untouched ret w' := by
  cases h with
  | failed => exact absurd rfl hne
  | partly => exact ⟨hw.log.append (by simp [Call.OfHandshake]), by simp⟩
  | wholly _ _ _ hret =>
      refine ⟨(hw.log.append (by simp [Call.OfHandshake])).append
        (by simp [Call.OfHandshake]), ?_⟩
      rcases hret with ⟨rfl, -⟩ | rfl <;> simp

theorem requestRead_untouched {sys : Sys} {w w' : World} {ret : GlobalState}
    (h : requestRead sys w.session.clientFd w = .ok (ret, w'))
    (hne : ret ≠ .error) (hreply : ret ≠ .requestWrite)
    (hclean : ∀ x ∈ w.readRequest sys w.session.clientFd,
      x.2.state = .done → x.1.pending = [])
    (hw : Untouched .requestRead w) : Untouched ret w' := by
  have hspec := requestRead_spec h
  cases hspec with
  | failed => exact absurd rfl hne
  | waits => exact ⟨hw.log.append (by simp [Call.OfHandshake]), by simp⟩
  | decides _ _ hret =>
      rcases hret with ⟨-, rfl, -⟩ | ⟨-, rfl, -⟩
      · obtain ⟨hread, hdone⟩ := requestRead_parsed h
        exact ⟨(hw.log.append (by simp [Call.OfHandshake])).append
          (by simp [Call.OfHandshake]), fun _ => hclean _ hread hdone⟩
      · exact absurd rfl hreply

/-- The relay begins with empty buffers. -/
theorem RequestWrites.relaying {sys : Sys} {w w' : World}
    (h : RequestWrites sys w.session.clientFd w .copy w') (hseated : Seated w)
    (hunderstood : Understood w .requestWrite)
    (hw : Untouched .requestWrite w) : Relaying w' := by
  cases h with
  | @grants bs wb wb' s s' _ _ hempty hreply =>
      obtain ⟨xs, d, hi, lo, hadm, hd, hinput⟩ := hunderstood hreply
      have hlog : HandshakeLog w.session.clientFd
          (w.log ++ [.send .requestWrite w.session.clientFd bs] ++
            [.setInterest w.session.clientFd .read] ++
            [.setInterest w.session.originFd .read]) :=
        ((hw.log.append (by simp [Call.OfHandshake])).append
          (by simp [Call.OfHandshake])).append (by simp [Call.OfHandshake])
      obtain ⟨hsent, hreceived, hrelayed⟩ := hlog.empty hseated.distinct
      have hprefix : w.log <+: w.log ++
          [.send .requestWrite w.session.clientFd bs] ++
          [.setInterest w.session.clientFd .read] ++
          [.setInterest w.session.originFd .read] := by
        simp only [List.append_assoc]
        exact List.prefix_append _ _
      refine ⟨⟨xs, d, hi, lo, hadm.mono hprefix, hd, ?_⟩, ?_⟩
      · refine Eq.trans ((received_append_eq_left _ rfl).trans
          ((received_append_eq_left _ rfl).trans
            ((received_append_eq_left _ rfl).trans hinput))) ?_
        dsimp only
        rw [hsent, hempty, hw.empty (Or.inr rfl)]
        rfl
      · dsimp only
        rw [hreceived, hrelayed, hw.empty (Or.inr rfl)]
        rfl

/-! ## The relay -/

theorem changed_silent (w : World) (s : FdSelector) {c : Call}
    (hc : c.transfers = false) : Silent w (w.changed s c) :=
  ⟨rfl, rfl, rfl, [c], rfl, by simpa⟩

theorem setCopy_silent (w : World) (c : CopyStm) : Silent w (w.setCopy c) :=
  ⟨rfl, rfl, rfl, [], by simp [World.setCopy], by simp⟩

theorem record_silent (w : World) {c : Call} (hc : c.transfers = false) :
    Silent w (w.record c) :=
  ⟨rfl, rfl, rfl, [c], rfl, by simpa⟩

theorem Relaying.of_silent {w w' : World} (hw : Relaying w) (h : Silent w w')
    (horigin : w'.session.originFd = w.session.originFd) : Relaying w' := by
  obtain ⟨⟨xs, d, hi, lo, hadm, hd, hinput⟩, hreceived⟩ := hw
  have hsame {p : Call → List UInt8} (hp : ∀ c, c.transfers = false → p c = []) :
      w'.log.flatMap p = w.log.flatMap p := by
    obtain ⟨calls, hlog, hcalls⟩ := h.log
    rw [hlog, List.flatMap_append,
      List.flatMap_eq_nil_iff.mpr fun c hc => hp c (hcalls c hc),
      List.append_nil]
  have hsent (fd : ℤ) : sentTo fd w'.log = sentTo fd w.log :=
    hsame fun c hc => by cases c <;> trivial
  have hrelayed (fd : ℤ) : relayedTo fd w'.log = relayedTo fd w.log :=
    hsame fun c hc => by cases c <;> trivial
  refine ⟨⟨xs, d, hi, lo, hadm.mono h.log_prefix, hd, ?_⟩, ?_⟩
  · rw [h.input_eq, hinput, horigin, hsent, h.writeBuffer]
  · rw [horigin, h.clientFd, h.received_eq, hreceived, hrelayed, h.readBuffer]

/-- A call that transfers, with what it does to the buffers. -/
theorem Relaying.of_call {w w' : World} {c : Call} (hw : Relaying w)
    (hclient : w'.session.clientFd = w.session.clientFd)
    (horigin : w'.session.originFd = w.session.originFd)
    (hlog : w'.log = w.log ++ [c])
    (hwrite : w.session.writeBuffer.pending ++
        c.receivedFrom w.session.clientFd =
      c.sentTo w.session.originFd ++ w'.session.writeBuffer.pending)
    (hread : w.session.readBuffer.pending ++
        c.receivedFrom w.session.originFd =
      c.relayedTo w.session.clientFd ++ w'.session.readBuffer.pending) :
    Relaying w' := by
  obtain ⟨⟨xs, d, hi, lo, hadm, hd, hinput⟩, hreceived⟩ := hw
  have hadds (p : Call → List UInt8) :
      w'.log.flatMap p = w.log.flatMap p ++ p c := by
    rw [hlog, List.flatMap_append, List.flatMap_singleton]
  refine ⟨⟨xs, d, hi, lo, hadm.mono ⟨_, hlog.symm⟩, hd, ?_⟩, ?_⟩
  · rw [World.input, received, hclient, hadds, horigin, sentTo, hadds,
      List.append_assoc (w.log.flatMap _) (c.sentTo _), ← hwrite]
    change w.input ++ _ = _
    rw [hinput]
    simp only [List.append_assoc]
    rfl
  · rw [horigin, hclient, received, hadds, relayedTo, hadds, List.append_assoc,
      ← hread, ← List.append_assoc]
    exact congrArg (· ++ _) hreceived

/-- The end of a stream brings nothing. -/
theorem Ends.relaying {sys : Sys} {side : Side} {fd : ℤ} {w : World}
    (h : Ends sys (side.inbox w.session)) (hw : Relaying w) :
    Relaying (w.record (side.recvCall sys fd w.session)) := by
  have hnothing (d : ℤ) :
      (side.recvCall sys fd w.session).receivedFrom d = [] := by
    rcases h with h | h <;> simp [Side.recvCall, h, Call.receivedFrom]
  refine hw.of_call rfl rfl rfl ?_ ?_
  · rw [hnothing, List.append_nil]
    rfl
  · rw [hnothing, List.append_nil]
    rfl

theorem CopyReads.relaying {sys : Sys} {side : Side} {w w' : World}
    {ret : GlobalState} (h : CopyReads sys side (side.fd w.session) w ret w')
    (hseated : Seated w) (hw : Relaying w) : Relaying w' := by
  cases h with
  | failed hfailed =>
      refine hw.of_call rfl rfl rfl ?_ ?_ <;>
        simp only [Side.recvCall, hfailed, Call.receivedFrom, List.append_nil] <;>
        rfl
  | @relays bs b sniffer status s s' hrecv =>
      have hreceived : Relaying (side.received sys (side.fd w.session) w
          bs.length sniffer b) := by
        have hdata := hrecv.data_eq
        cases hrecv with
        | data _ _ hpending =>
            cases side with
            | client =>
                refine hw.of_call rfl rfl rfl ?_ ?_
                · simp only [Side.recvCall, hdata, Call.receivedFrom, Side.fd,
                    if_true]
                  exact hpending.symm
                · simp only [Side.recvCall, hdata, Call.receivedFrom, Side.fd,
                    if_neg (Ne.symm hseated.distinct), List.append_nil]
                  rfl
            | origin =>
                refine hw.of_call rfl rfl rfl ?_ ?_
                · simp only [Side.recvCall, hdata, Call.receivedFrom, Side.fd,
                    if_neg hseated.distinct, List.append_nil]
                  rfl
                · simp only [Side.recvCall, hdata, Call.receivedFrom, Side.fd,
                    if_true]
                  exact hpending.symm
      refine hreceived.of_silent ((changed_silent _ s rfl).trans
        (changed_silent _ s' rfl)) rfl
  | @holds s hends =>
      exact (hends.relaying hw).of_silent ((changed_silent _ s rfl).trans
        (setCopy_silent _ _)) rfl
  | @closes s hends =>
      exact (hends.relaying hw).of_silent
        ((((changed_silent _ s rfl).trans (setCopy_silent _ _)).trans
          (record_silent _ rfl)).trans (setCopy_silent _ _)) rfl
  | @unclosed s hends =>
      exact (hends.relaying hw).of_silent
        (((changed_silent _ s rfl).trans (setCopy_silent _ _)).trans
          (record_silent _ rfl)) rfl

theorem Sends.relaying {sys : Sys} {side : Side} {w : World} {bs : List UInt8}
    {b : Buffer} (h : Sends sys (side.outbox w.session) (some (bs, b)))
    (hseated : Seated w) (hw : Relaying w) (sniffer : Pop3Sniffer) :
    Relaying (side.sent (side.fd w.session) w bs sniffer b) := by
  cases h with
  | sent _ _ _ hpending =>
      cases side with
      | client =>
          refine hw.of_call rfl rfl rfl ?_ ?_
          · simp only [Call.receivedFrom, Call.sentTo, Side.fd,
              Ne.symm hseated.distinct, if_false,
              List.append_nil]
            rfl
          · simp only [Call.receivedFrom, Call.relayedTo, Side.fd, if_true,
              List.append_nil]
            exact hpending
      | origin =>
          refine hw.of_call rfl rfl rfl ?_ ?_
          · simp only [Call.receivedFrom, Call.sentTo, Side.fd, if_true,
              List.append_nil]
            exact hpending
          · simp only [Call.receivedFrom, Call.relayedTo, Side.fd,
              hseated.distinct, if_false, List.append_nil]
            rfl

theorem CopyWrites.relaying {sys : Sys} {side : Side} {w w' : World}
    {ret : GlobalState} (h : CopyWrites sys side (side.fd w.session) w ret w')
    (hseated : Seated w) (hw : Relaying w) : Relaying w' := by
  cases h with
  | failed =>
      refine hw.of_call rfl rfl rfl ?_ ?_ <;>
        simp only [Call.receivedFrom, Call.sentTo, Call.relayedTo, ite_self,
          List.append_nil] <;>
        rfl
  | @partly bs b sniffer status s hsends =>
      exact (hsends.relaying hseated hw sniffer).of_silent
        (changed_silent _ s rfl) rfl
  | @partlyLast bs b sniffer hsends =>
      exact hsends.relaying hseated hw sniffer
  | @wholly bs b sniffer status s s' hsends =>
      exact (hsends.relaying hseated hw sniffer).of_silent
        ((changed_silent _ s rfl).trans (changed_silent _ s' rfl)) rfl
  | @closes bs b sniffer s hsends =>
      exact (hsends.relaying hseated hw sniffer).of_silent
        (((changed_silent _ s rfl).trans (setCopy_silent _ _)).trans
          (record_silent _ rfl)) rfl
  | @unclosed bs b sniffer s hsends =>
      exact (hsends.relaying hseated hw sniffer).of_silent
        (((changed_silent _ s rfl).trans (setCopy_silent _ _)).trans
          (record_silent _ rfl)) rfl

/-! ## Runs -/

/-- What holds in a run of clean events. -/
structure Streaming (vs : List GlobalState) (s : GlobalState) (w : World) :
    Prop where
  before : .copy ∉ vs → ¬ (s = .done ∨ s = .error) →
    (s = .requestWrite → w.session.request.parser.reply = .succeded) →
    Untouched s w
  after : .copy ∈ vs → Relaying w

theorem Untouched.arrived {ret : GlobalState} {w : World}
    (hw : Untouched ret w) : Untouched ret (arrived ret w) :=
  hw.of_silent (arrived_silent ret w)

theorem Untouched.congr {s s' : GlobalState} {w : World} (hw : Untouched s w)
    (hs : s = .originConnect ∨ s = .requestWrite) : Untouched s' w :=
  ⟨hw.log, fun _ => hw.empty hs⟩

/-- A callback of the handshake leaves things as they should be. -/
theorem onReady_untouched {sys : Sys} {fd : ℤ} {s ret : GlobalState}
    {r : Ready} {f : Callback} {w w' : World} (hunderstood : Understood w s)
    (howns : w.session.Owns fd) (hclean : CleanEvent s w (.dispatch r fd sys))
    (hs : s ≠ .requestWrite ∧ s ≠ .copy)
    (hret : ¬ (ret = .done ∨ ret = .error))
    (hf : onReady sys fd s r = some f) (h : f w = .ok (ret, w'))
    (hreply : ret = .requestWrite →
      w'.session.request.parser.reply = .succeded)
    (hw : Untouched s w) : Untouched ret w' := by
  rw [not_or] at hret
  cases s <;> cases r <;> cases hf
  case greetingRead.read =>
      obtain rfl := howns.eq_clientFd hunderstood.1
      exact (greetingRead_spec h).untouched hret.2 hw
  case greetingWrite.write =>
      obtain rfl := howns.eq_clientFd hunderstood.1
      exact (greetingWrite_spec h).untouched hret.2 hw
  case authRead.read =>
      obtain rfl := howns.eq_clientFd hunderstood.1
      exact (authRead_spec h).untouched hret.2 hw
  case authWrite.write =>
      obtain rfl := howns.eq_clientFd hunderstood.1
      exact (authWrite_spec h).untouched hret.2 hw
  case requestRead.read =>
      obtain rfl := howns.eq_clientFd hunderstood.1
      refine requestRead_untouched h hret.2 ?_ (hclean.1 rfl rfl) hw
      rintro rfl
      exact (requestRead_spec h).reply_ne hunderstood (hreply rfl)
  case originConnect.write =>
      cases verifyConnection_spec h with
      | failed => exact absurd rfl hret.2
      | answers =>
          refine ⟨?_, fun _ => hw.empty (Or.inl rfl)⟩
          exact ((hw.log.append (by simp [Call.OfHandshake])).append
            (by simp [Call.OfHandshake])).append (by simp [Call.OfHandshake])
  case originConnect.block =>
      exact (hw.of_silent (connectOriginBlock_spec h).silent).congr (Or.inl rfl)
  case requestWrite.write => exact absurd rfl hs.1
  case copy.read => exact absurd rfl hs.2
  case copy.write => exact absurd rfl hs.2

/-- A callback of `COPY` relays. -/
theorem copy_relaying {sys : Sys} {fd : ℤ} {ret : GlobalState} {r : Ready}
    {f : Callback} {w w' : World} (hseated : Seated w)
    (hreg : w.selector.Registered fd) (hf : onReady sys fd .copy r = some f)
    (h : f w = .ok (ret, w')) (hw : Relaying w) : Relaying w' := by
  cases r <;> cases hf
  case read =>
      rcases hside : w.session.side? fd with - | side
      · simp [copyRead, hside] at h
      · obtain rfl := Session.side?_eq hside
        exact (copyRead_spec hside hreg h).relaying hseated hw
  case write =>
      rcases hside : w.session.side? fd with - | side
      · simp [copyWrite, hside] at h
      · obtain rfl := Session.side?_eq hside
        exact (copyWrite_spec hside hreg h).relaying hseated hw

theorem Streaming.copied {company : Company} {sys : Sys} {fd : ℤ}
    {ret : GlobalState} {r : Ready} {f : Callback}
    {vs via : List GlobalState} {w w₁ w₂ : World} (hw : Relaying w)
    (hseated : Seated w) (hcopy : .copy ∈ vs)
    (hhands : w.Hands company r fd) (hf : onReady sys fd .copy r = some f)
    (h : f (w.delivered r fd) = .ok (ret, w₁))
    (hout : Outcome sys fd .copy ret w₁ via w₂) :
    Streaming (vs ++ via) (via.getLastD .copy) w₂ := by
  refine ⟨fun hnot => absurd (List.mem_append_left _ hcopy) hnot, fun _ => ?_⟩
  have hquiet := onReady_quiet hf (by rintro rfl; cases hf) h
  have hdelivered : w.delivered r fd = w := by
    cases r <;> first | rfl | cases hf
  rw [hdelivered] at h
  have hrelaying := copy_relaying hseated hhands.2.1 hf h hw
  rcases hout.of_copy (onReady_follows hf hhands.2.1 h) with
    ⟨-, -, rfl⟩ | ⟨-, -, hdone⟩
  · exact hrelaying
  · exact hrelaying.of_silent (socksv5Done_silent hdone)
      (congrArg Session.originFd (socksv5Done_session hdone))

theorem Streaming.replied {company : Company} {sys : Sys} {fd : ℤ}
    {ret : GlobalState} {vs via : List GlobalState} {w w₁ w₂ : World}
    (hw : w.session.request.parser.reply = .succeded →
      Untouched .requestWrite w)
    (hgate : Gate vs .requestWrite w) (hseated : Seated w)
    (hcopy : .copy ∉ vs)
    (hclean : CleanEvent .requestWrite w (.dispatch .write fd sys))
    (hhands : w.Hands company .write fd)
    (h : requestWrite sys fd w = .ok (ret, w₁))
    (hout : Outcome sys fd .requestWrite ret w₁ via w₂) :
    Streaming (vs ++ via) (via.getLastD .requestWrite) w₂ := by
  have hfd (hreply : w.session.request.parser.reply = .succeded)
      (hsent : sys.send ≠ .failed) : fd = w.session.clientFd :=
    hhands.1.2.resolve_right
      ((hclean.2 rfl rfl hreply).resolve_right hsent)
  have hended (hend : ret = .done ∨ ret = .error) :
      Streaming (vs ++ via) (via.getLastD .requestWrite) w₂ := by
    have hvia : via = [ret] := by
      cases hout with
      | ends => rfl
      | stays | connects | redirected => simp at hend
      | enters _ _ hdone herror => exact absurd hend (by simp [hdone, herror])
    subst hvia
    refine ⟨fun _ hlive => absurd hend hlive, fun hmem => ?_⟩
    rcases List.mem_append.mp hmem with hmem | hmem
    · exact absurd hmem hcopy
    · rw [List.mem_singleton] at hmem
      subst hmem
      simp at hend
  have hspec := requestWrite_spec h
  cases hspec with
  | failed => exact hended (Or.inr rfl)
  | refuses => exact hended (Or.inl rfl)
  | partly _ hsends =>
      cases hout with
      | enters hne => exact absurd rfl hne
      | ends hend => simp at hend
      | stays =>
          rw [List.append_nil]
          refine ⟨fun _ _ hreply => ?_, fun hmem => absurd hmem hcopy⟩
          obtain rfl := hfd (hreply rfl) hsends.accepted
          have huntouched := hw (hreply rfl)
          exact ⟨huntouched.log.append (by simp [Call.OfHandshake]),
            huntouched.empty⟩
  | grants _ hsends _ hreply =>
      obtain rfl := hfd hreply hsends.accepted
      have hrelaying := (requestWrite_spec h).relaying hseated hgate.understood
        (hw hreply)
      cases hout with
      | ends hend => simp at hend
      | enters =>
          exact ⟨fun hnot => absurd (by simp) hnot,
            fun _ => hrelaying.of_silent (arrived_silent _ _) rfl⟩

theorem Streaming.dispatched {company : Company} {sys : Sys} {fd : ℤ}
    {s ret : GlobalState} {r : Ready} {f : Callback}
    {vs via : List GlobalState} {w w₁ w₂ : World} (hw : Streaming vs s w)
    (hgate : Gate vs s w) (hseated : Seated w) (hs : vs.getLast? = some s)
    (hclean : CleanEvent s w (.dispatch r fd sys))
    (hhands : w.Hands company r fd) (hf : onReady sys fd s r = some f)
    (h : f (w.delivered r fd) = .ok (ret, w₁))
    (hout : Outcome sys fd s ret w₁ via w₂) :
    Streaming (vs ++ via) (via.getLastD s) w₂ := by
  have hlive := onReady_live hf
  by_cases hcopy : .copy ∈ vs
  · obtain rfl := hgate.inOrder.eq_copy hs hlive hcopy
    exact Streaming.copied (hw.after hcopy) hseated hcopy hhands hf h hout
  by_cases hwrite : s = .requestWrite
  · subst hwrite
    cases r <;> cases hf
    exact Streaming.replied
      (fun hreply => hw.before hcopy hlive fun _ => hreply) hgate hseated hcopy
      hclean hhands h hout
  have hscopy : s ≠ .copy := by
    rintro rfl
    exact hcopy (List.mem_of_getLast? hs)
  have hdelivered := delivered_silent w r fd
  have huntouched : Untouched s (w.delivered r fd) :=
    (hw.before hcopy hlive fun heq => absurd heq hwrite).of_silent hdelivered
  have hunderstood : Understood (w.delivered r fd) s := by
    cases r <;> exact hgate.understood
  have howns : (w.delivered r fd).session.Owns fd := by
    cases r <;> exact hhands.1
  have hreg : (w.delivered r fd).selector.Registered fd := by
    cases r <;> exact hhands.2.1
  have hclean' : CleanEvent s (w.delivered r fd) (.dispatch r fd sys) := by
    cases r with
    | read | write => exact hclean
    | block => exact ⟨fun _ hr => (nomatch hr), fun _ hr => (nomatch hr)⟩
  have hcalled (hret : ¬ (ret = .done ∨ ret = .error))
      (hreply : ret = .requestWrite →
        w₁.session.request.parser.reply = .succeded) : Untouched ret w₁ :=
    onReady_untouched hunderstood howns hclean' ⟨hwrite, hscopy⟩ hret hf h
      hreply huntouched
  have hfollows := onReady_follows hf hreg h
  have hnot : .copy ∉ vs ++ via := by
    rw [List.mem_append, not_or]
    refine ⟨hcopy, fun hmem => ?_⟩
    cases hout with
    | stays => cases hmem
    | enters hne =>
        obtain rfl := List.mem_singleton.mp hmem
        exact hwrite (hfollows.resolve_left hne).eq_requestWrite
    | connects => simp at hmem
    | redirected _ _ hto => rcases hto with rfl | rfl <;> simp at hmem
    | ends hend => rcases hend with rfl | rfl <;> simp at hmem
  refine ⟨fun _ hlive' hreply => ?_, fun hmem => absurd hmem hnot⟩
  cases hout with
  | stays =>
      exact hcalled hlive fun heq => absurd heq hwrite
  | enters _ _ hdone herror =>
      refine (hcalled (by simp [hdone, herror]) fun heq => ?_).arrived
      subst heq
      exact hreply rfl
  | connects _ hinit =>
      exact (hcalled (by simp) (by simp)).of_silent
        (connectOriginInit_spec hinit).silent
  | redirected _ hinit =>
      exact ((hcalled (by simp) (by simp)).of_silent
        (connectOriginInit_spec hinit).silent).congr (Or.inl rfl)
  | ends hend => exact absurd hend hlive'

theorem Streaming.of_silent {vs : List GlobalState} {s : GlobalState}
    {w w' : World} (hw : Streaming vs s w) (h : Silent w w')
    (hsession : w'.session.originFd = w.session.originFd ∧
      w'.session.request.parser = w.session.request.parser) :
    Streaming vs s w' where
  before := fun hcopy hlive hreply =>
    (hw.before hcopy hlive fun heq => hsession.2 ▸ hreply heq).of_silent h
  after := fun hcopy => (hw.after hcopy).of_silent h hsession.1

theorem streaming_inductive (company : Company) :
    Inductive company Basics CleanEvent Streaming where
  started := by
    intro w _ hw
    have huntouched := hw.before (by simp) (by simp) (by simp)
    exact ⟨fun _ _ _ => huntouched.of_silent (arrived_silent .greetingRead w),
      by simp⟩
  startedCondition := by
    intro w e he
    cases e with
    | dispatch => exact ⟨fun h => absurd h (by decide), fun h => absurd h (by decide)⟩
    | connectionEnds | resolved | others => trivial
  dispatched := by
    intro vs s r fd sys w f ret w₁ via w₂ hK hw hs hclean hlive hhands _ hf h hout
    exact hw.dispatched hK.1 (hK.2 hlive) hs hclean hhands hf h hout
  connectionEnds := fun _ _ hw _ _ =>
    hw.of_silent ⟨rfl, rfl, rfl, [], by simp, by simp⟩ ⟨rfl, rfl⟩
  resolved := fun _ _ _ hw _ _ =>
    hw.of_silent ⟨rfl, rfl, rfl, [], by simp [connectOriginThread], by simp⟩
      ⟨rfl, rfl⟩
  others := fun _ _ hw _ _ =>
    hw.of_silent ⟨rfl, rfl, rfl, [], by simp, by simp⟩ ⟨rfl, rfl⟩

theorem Initial.streaming {c : Config} (h : Initial c) :
    Streaming [] .greetingRead c.world := by
  obtain ⟨address, clientFd, s, m, rfl, -⟩ := h
  exact ⟨fun _ _ _ => ⟨by simp [HandshakeLog, newSession], by simp⟩, by simp⟩

/-- Once the relay has begun, what has been sent either way is a prefix of what
was to be sent, in every run of clean events. -/
theorem intact_of_clean {company : Company} {c₀ c : Config}
    {tr : List (Config × Event)} {vs : List GlobalState} (hinit : Initial c₀)
    (hrun : Run (Step company) c₀ tr c)
    (hclean : ∀ x ∈ tr, CleanEvent x.1.state x.1.world x.2)
    (hvs : c.Visited vs) (hcopy : .copy ∈ vs) : Intact c.world := by
  obtain ⟨vs', hvs', -, hw⟩ := ((basics_inductive company).and
    (streaming_inductive company)).run hrun hclean hinit.stm_eq
    ⟨hinit.basics, hinit.streaming⟩
  obtain rfl := hvs.unique hvs'
  exact (hw.after hcopy).intact

/-- A client that is connected, after a request that has come with `extra`. -/
def connectedClient (extra : List UInt8) : List Act :=
  [.dispatch .read 5 { recv := .received [5, 1, 0] } [],
    .dispatch .write 5 { send := .accepted 1 } [],
    .dispatch .read 5
      { recv := .received ([5, 1, 0, 1, 10, 0, 0, 1, 0, 80] ++ extra) }
      [{ socket := some 6, connect := .inProgress }],
    .connectionEnds true,
    .dispatch .write 6 {} [],
    .dispatch .write 5 { send := .accepted 9 } []]

/-- Bytes that go both ways. -/
def bothWays : List Act :=
  [.dispatch .read 5 { recv := .received [71, 72] } [],
    .dispatch .read 6 { recv := .received [73] } [],
    .dispatch .write 6 { send := .accepted 0 } [],
    .dispatch .write 5 { send := .accepted 0 } []]

theorem connectedClient_intact :
    ∃ c vs, play .alone (accepted 5) (connectedClient [] ++ bothWays) = some c ∧
      c.Visited vs ∧ .copy ∈ vs ∧ sentTo 6 c.world.log = [71] ∧
      Intact c.world := by
  have hplay : (play .alone (accepted 5) (connectedClient [] ++ bothWays)).any
      (fun c => decide (GlobalState.copy.id ∈ c.stm.trail ∧
        sentTo 6 c.world.log = [71])) = true := by decide
  have hclean : ∀ x ∈ playTrace .alone (accepted 5)
      (connectedClient [] ++ bothWays),
      CleanEvent x.1.state x.1.world x.2 := by decide
  obtain ⟨c, hc, hchecks⟩ := (Option.any_eq_true _ _).mp hplay
  obtain ⟨htrail, hsent⟩ := of_decide_eq_true hchecks
  have hinit : Initial (accepted 5) := accepted_initial (by decide) (by decide)
  obtain ⟨vs, hvs⟩ := (reachable_of_play hinit hc).exists_visited
  have hcopy := hvs.mem_iff.mpr htrail
  exact ⟨c, vs, hc, hvs, hcopy, hsent,
    intact_of_clean hinit (play_run hc) hclean hvs hcopy⟩

/-- What has come with the request is sent back to the client. -/
theorem not_intact_of_extra :
    ∃ c vs, Reachable .alone c ∧ c.Visited vs ∧ .copy ∈ vs ∧
      ¬ Intact c.world := by
  have hplay : (play .alone (accepted 5) (connectedClient [88] ++ bothWays)).any
      (fun c => decide (GlobalState.copy.id ∈ c.stm.trail ∧
        ¬ (relayedTo c.world.session.clientFd c.world.log <+:
          received c.world.session.originFd c.world.log))) = true := by decide
  obtain ⟨c, hc, hchecks⟩ := (Option.any_eq_true _ _).mp hplay
  obtain ⟨htrail, hnot⟩ := of_decide_eq_true hchecks
  have hreach := reachable_of_play (accepted_initial (by decide) (by decide)) hc
  obtain ⟨vs, hvs⟩ := hreach.exists_visited
  refine ⟨c, vs, hreach, hvs, hvs.mem_iff.mpr htrail, ?_⟩
  rintro ⟨rest, -, -, hrelayed⟩
  exact hnot hrelayed

end Socksv5
