import Socksv5.Session.Framing
import Socksv5.Session.Progress

/-!
# What is to come of a session

Where a session gets to, and what it answers its client on the way, is a
function of its surroundings, of what it has kept, and of the bytes that the
client is still to send: provided that no message is left unread in
`read_buffer`.  `Surroundings.forecast` is that function, for a session in any
state; every callback leaves it as it was.
-/

namespace Socksv5

open Support

/-- What a session finds outside, whenever it looks: the parameters in force,
whether there is memory for the thread of the resolver and whether that thread
is created, the addresses that are found and whether the session is notified of
them, and how each attempt to connect goes. -/
structure Surroundings where
  parameters : Parameters := {}
  malloc : Bool := true
  pthreadCreate : ℤ := 0
  addrs : List SockAddr := []
  notified : Bool := true
  attempts : ℕ → Attempt := fun _ => {}
  registers : ℕ → Bool := fun _ => true
  soError : Option ℕ := some 0

/-- The state that a session ends up in, and what it answers its client until
then. -/
structure Outlook where
  state : GlobalState
  answers : List UInt8 := []
deriving DecidableEq, Repr

namespace Outlook

/-- The outlook, with something answered before. -/
def after (bs : List UInt8) (o : Outlook) : Outlook := ⟨o.state, bs ++ o.answers⟩

@[simp] theorem after_nil : after [] = id := rfl

theorem after_after (bs bs' : List UInt8) :
    after bs ∘ after bs' = after (bs ++ bs') := by
  funext o
  simp [after]

/-- The outlook of a session that has a reply to send: it relays if the reply
is `SUCCEDED` and the origin's descriptor is registered. -/
def replied (reply : Reply) (registered : Bool) : Outlook where
  state :=
    if reply ≠ .succeded then .done else if registered then .copy else .error
  answers := replyMessage reply.code

/-- The outlook of a session that nothing happens to any more. -/
def stranded : Outlook := ⟨.originConnect, []⟩

end Outlook

/-! ## Reading a message -/

section Reading

variable {P : Type}
  {feed : UInt8 → P × Allocs → Except Fault (P × Allocs)}
  {stop : P × Allocs → Bool}

/-- The outlook of a session that reads a message in the state `s`: `k` is that
for a complete message and the bytes after it. -/
def reading (feed : UInt8 → P × Allocs → Except Fault (P × Allocs))
    (stop : P × Allocs → Bool) (s : GlobalState)
    (k : P → List UInt8 → Except Fault Outlook) (p : P) (input : List UInt8) :
    Except Fault Outlook :=
  decode feed stop input (p, []) >>= fun r =>
    if stop r.1 then k r.1.1 r.2 else .ok ⟨s, []⟩

/-- The bytes do not complete the message that is being read. -/
def Awaits (feed : UInt8 → P × Allocs → Except Fault (P × Allocs))
    (stop : P × Allocs → Bool) (p : P) (bs : List UInt8) : Bool :=
  match decode feed stop bs (p, []) with
  | .ok r => !stop r.1
  | .error _ => false

/-- No allocation that is asked for fails. -/
def Sated (feed : UInt8 → P × Allocs → Except Fault (P × Allocs)) : Prop :=
  ∀ c p r, feed c (p, []) = .ok r → r.2 = []

theorem reading_of_awaits {s : GlobalState}
    {k : P → List UInt8 → Except Fault Outlook} {p : P} {bs : List UInt8}
    (h : Awaits feed stop p bs = true) :
    reading feed stop s k p bs = .ok ⟨s, []⟩ := by
  unfold Awaits at h
  unfold reading
  rcases hdecode : decode feed stop bs (p, []) with e | r
  · rw [hdecode] at h
    cases h
  · rw [hdecode] at h
    rw [ok_bind, if_neg (by simpa using h)]

theorem awaits_nil {p : P} (h : stop (p, []) = false) :
    Awaits feed stop p [] = true := by
  simp [Awaits, decode, h]

theorem Sated.decode (hfeed : Sated feed) {p : P} {xs : List UInt8}
    {r : (P × Allocs) × List UInt8} (hp : stop (p, []) = false)
    (h : Support.decode feed stop xs (p, []) = .ok r) : r.1.2 = [] := by
  obtain ⟨used, -, hreads, -⟩ := decode_reads hp h
  refine hreads.invariant (I := fun _ x => x.2 = []) rfl ?_
  rintro _ c ⟨p₁, a₁⟩ s₂ rfl _ hstep
  exact hfeed c p₁ s₂ hstep

/-- What is received into the buffer and parsed is part of the input to
come. -/
theorem reading_received {sys : Sys} {b b₁ b' : Buffer} {bs : List UInt8}
    {p p' : P} {a : Allocs} {s : GlobalState}
    {k : P → List UInt8 → Except Fault Outlook} (hfeed : Sated feed)
    (hp : stop (p, []) = false) (hrecv : Receives sys b (.data bs b₁))
    (h : consume feed stop b₁ (p, []) = .ok (b', p', a))
    (more : List UInt8) :
    reading feed stop s k p (b.pending ++ (bs ++ more)) =
      if stop (p', a) then k p' (b'.pending ++ more)
      else reading feed stop s k p' (b'.pending ++ more) := by
  cases hrecv with
  | data _ _ hpending _ _ hsettled =>
      obtain ⟨hdecode, -⟩ := consume_spec hsettled h
      obtain rfl : a = [] := hfeed.decode hp hdecode
      rw [hpending] at hdecode
      unfold reading
      rw [← List.append_assoc, decode_append hp, hdecode, ok_bind]
      by_cases hstop : stop (p', []) = true
      · simp only [hstop, if_true, ok_bind]
      · have hrest := decode_rest_eq_nil hdecode (by simpa using hstop)
        simp only [hstop, Bool.false_eq_true, if_false, hrest, List.nil_append]

/-- Nothing is left unread of a message that is not complete. -/
theorem pending_of_incomplete {sys : Sys} {b b₁ b' : Buffer} {bs : List UInt8}
    {x x' : P × Allocs} (hrecv : Receives sys b (.data bs b₁))
    (h : consume feed stop b₁ x = .ok (b', x')) (hstop : stop x' = false) :
    b'.pending = [] := by
  cases hrecv with
  | data _ _ _ _ _ hsettled =>
      exact decode_rest_eq_nil (consume_spec hsettled h).1 hstop

end Reading

theorem greetingParserFeed_sated : Sated greetingParserFeed := by
  intro c p r h
  unfold greetingParserFeed at h
  cases hs : p.state with
  | readingMethods =>
      simp only [hs] at h
      obtain ⟨methods, -, h⟩ := bind_eq_ok.mp h
      split at h <;> cases h <;> rfl
  | readingNmethods =>
      simp only [hs] at h
      split at h
      · cases h
        rfl
      · simp only [calloc] at h
        cases h
        rfl
  | readingVersion =>
      simp only [hs] at h
      split at h <;> cases h <;> rfl
  | done | unsupportedVersion | badSyntax =>
      simp only [hs] at h
      cases h
      rfl

theorem authParserFeed_sated : Sated authParserFeed := by
  intro c p r h
  unfold authParserFeed at h
  cases hs : p.state with
  | readingVersion =>
      simp only [hs] at h
      split at h <;> cases h <;> rfl
  | readingUserLen | readingPassLen =>
      simp only [hs] at h
      split at h
      · cases h
        rfl
      · simp only [calloc] at h
        cases h
        rfl
  | readingUser | readingPass =>
      simp only [hs] at h
      obtain ⟨field, -, h⟩ := bind_eq_ok.mp h
      split at h
      · obtain ⟨field', -, h⟩ := bind_eq_ok.mp h
        cases h
        rfl
      · cases h
        rfl
  | badLength | done | unsupportedVersion | badSyntax =>
      simp only [hs] at h
      cases h
      rfl

theorem requestParserFeed_sated : Sated requestParserFeed := by
  intro c p r h
  unfold requestParserFeed at h
  cases hs : p.state with
  | readingVersion | readingCommand | readingRsv =>
      simp only [hs] at h
      split at h <;> cases h <;> rfl
  | readingAtyp =>
      simp only [hs] at h
      split at h
      · cases h
        rfl
      · split at h
        · cases h
          rfl
        · split at h <;> cases h <;> rfl
  | readingAddr =>
      simp only [hs] at h
      split at h
      · split at h
        · obtain ⟨addr, -, h⟩ := bind_eq_ok.mp h
          cases h
          rfl
        · simp only [calloc] at h
          cases h
          rfl
      · obtain ⟨addr, -, h⟩ := bind_eq_ok.mp h
        split at h
        · obtain ⟨addr', -, h⟩ := bind_eq_ok.mp h
          cases h
          rfl
        · cases h
          rfl
  | readingPort =>
      simp only [hs] at h
      split at h <;> cases h <;> rfl
  | done | error =>
      simp only [hs] at h
      cases h
      rfl

theorem requestParserTurn_sated : Sated requestParserTurn := by
  intro c p r h
  obtain ⟨⟨p₁, a₁⟩, hfeed, h⟩ := bind_eq_ok.mp h
  obtain rfl : a₁ = [] := requestParserFeed_sated c p _ hfeed
  dsimp only at h
  split at h
  · exact requestParserFeed_sated c p₁ r h
  · cases h
    rfl

/-! ## The outlook -/

/-- The bytes do not complete the credentials. -/
def awaitsAuth : AuthParser → List UInt8 → Bool :=
  Awaits authParserFeed fun x => x.1.state.final

/-- The bytes do not complete the request. -/
def awaitsRequest : RequestParser → List UInt8 → Bool :=
  Awaits requestParserTurn fun x => x.1.state.final

namespace Surroundings

variable (E : Surroundings)

/-- The outlook of a session that looks at its connection. -/
def verified (registered : Bool) : Outlook :=
  match E.soError with
  | none => ⟨.error, []⟩
  | some error =>
      .replied (if error = 0 then .succeded else replyOfError error) registered

/-- The outlook of a session that makes the `k`-th attempt, with that for an
attempt that fails at once.  A connection that is there at once is only looked
at when an attempt before it has left the client waited for. -/
def attempted (k : ℕ) (failed : Outlook) : Outlook :=
  if (E.attempts k).failsAtOnce then failed
  else if (E.attempts k).connect = .connected then
    if k = 0 then .stranded else E.verified false
  else if E.registers k then E.verified true else ⟨.error, []⟩

/-- The outlook of a session that goes through a list whose first address is
the `k`-th. -/
def resolve : ℕ → List SockAddr → Outlook
  | _, [] => .replied .hostUnreachable false
  | k, _ :: rest => E.attempted k (resolve (k + 1) rest)

/-- The outlook of a session whose resolver is at work. -/
def awaited : Outlook := if E.notified then E.resolve 0 E.addrs else .stranded

/-- The outlook of a session that asks for a name. -/
def lookedUp : Outlook :=
  if E.malloc = false ∨ E.pthreadCreate = -1 then ⟨.error, []⟩
  else if E.pthreadCreate = 0 then E.awaited
  else .stranded

/-- The reply of a session whose only attempt fails at once. -/
def replyOfFailed (a : Attempt) (reply : Reply) : Reply :=
  if a.socket.isSome && a.nio then .hostUnreachable else reply

/-- The outlook of a session whose request has been read. -/
def requested (p : RequestParser) : Outlook :=
  if p.state = .error then .replied p.reply false
  else if p.atyp = 1 ∨ p.atyp = 4 then
    E.attempted 0 (.replied (replyOfFailed (E.attempts 0) p.reply) false)
  else E.lookedUp

/-- The outlook of a session that reads its request. -/
def fromRequest : RequestParser → List UInt8 → Except Fault Outlook :=
  reading requestParserTurn (fun x => x.1.state.final) .requestRead
    fun p _ => .ok (E.requested p)

/-- The outlook after the answer to the credentials. -/
def afterAuth (p₀ : RequestParser) (reply : UInt8) (input : List UInt8) :
    Except Fault Outlook :=
  if reply = authSuccess then E.fromRequest (requestParserInit p₀) input
  else .ok ⟨.done, []⟩

/-- The answer to the credentials; `reply` is that to a message that is not
understood. -/
def verdict (p : AuthParser) (reply : UInt8) : Except Fault UInt8 :=
  if p.state = .done then
    match p.user, p.password with
    | some user, some password =>
        .ok (if authenticateUser E.parameters user password then authSuccess
          else authFail)
    | _, _ => .error .nullDereference
  else .ok reply

/-- The outlook of a session that reads the credentials. -/
def fromAuth (p₀ : RequestParser) (reply : UInt8) :
    AuthParser → List UInt8 → Except Fault Outlook :=
  reading authParserFeed (fun x => x.1.state.final) .authRead fun p rest =>
    E.verdict p reply >>= fun reply =>
      (E.afterAuth p₀ reply rest).map (.after [1, reply])

/-- The outlook after the answer to the greeting. -/
def afterMethod (p₀ : RequestParser) (m : ℤ) (input : List UInt8) :
    Except Fault Outlook :=
  if m = 0 then E.fromRequest (requestParserInit p₀) input
  else if m = 2 then E.fromAuth p₀ authFail authParserInit input
  else .ok ⟨.error, []⟩

/-- The outlook of a session that reads the greeting. -/
def fromGreeting (p₀ : RequestParser) :
    GreetingParser → List UInt8 → Except Fault Outlook :=
  reading greetingParserFeed (fun x => x.1.state.final) .greetingRead
    fun p rest =>
      selectMethod p.methods p.methodsRemaining >>= fun m =>
        (E.afterMethod p₀ m.toNat rest).map (.after [5, m])

/-- The outlook of a session that connects to its origin. -/
def connecting (w : World) : Outlook :=
  if w.selector.WritesTo w.session.originFd ∨
      w.selector.WritesTo w.session.clientFd then
    E.verified (decide (w.selector.Registered w.session.originFd))
  else if w.threads ≠ [] then E.awaited
  else if w.session.clientFd ∈ w.selector.resolutionJobs then
    E.resolve 0 w.session.originResolution
  else .stranded

/-- The outlook of a session in a state, with the bytes that its client is
still to send. -/
def forecast (s : GlobalState) (w : World) (input : List UInt8) :
    Except Fault Outlook :=
  let unread := w.session.readBuffer.pending ++ input
  let p₀ := w.session.request.parser
  match s with
  | .greetingRead => E.fromGreeting p₀ w.session.greeting.parser unread
  | .greetingWrite =>
      (E.afterMethod p₀ w.session.greeting.methodSelected unread).map
        (.after w.session.writeBuffer.pending)
  | .authRead =>
      E.fromAuth p₀ w.session.auth.reply w.session.auth.parser unread
  | .authWrite =>
      (E.afterAuth p₀ w.session.auth.reply unread).map
        (.after w.session.writeBuffer.pending)
  | .requestRead => E.fromRequest p₀ unread
  | .requestWrite => .ok (.replied p₀.reply
      (decide (w.selector.Registered w.session.originFd)))
  | .originConnect => .ok (E.connecting w)
  | .copy | .done | .error => .ok ⟨s, []⟩

end Surroundings

/-- `Leads E s w f w'`: from `w` in state `s` to `w'`, what the session has
received and what it has answered is what had been foretold; with more to be
received, what is to come is `f`. -/
def Leads (E : Surroundings) (s : GlobalState) (w : World)
    (f : List UInt8 → Except Fault Outlook) (w' : World) : Prop :=
  ∃ got said, w'.input = w.input ++ got ∧ w'.answers = w.answers ++ said ∧
    ∀ more, E.forecast s w (got ++ more) = (f more).map (.after said)

namespace Leads

variable {E : Surroundings} {s s₁ : GlobalState} {w w₁ w₂ : World}
  {f g : List UInt8 → Except Fault Outlook}

theorem map_after (o : Except Fault Outlook) (bs bs' : List UInt8) :
    (o.map (Outlook.after bs')).map (Outlook.after bs) =
      o.map (Outlook.after (bs ++ bs')) := by
  rw [← Outlook.after_after]
  cases o <;> rfl

theorem map_after_nil (o : Except Fault Outlook) :
    o.map (Outlook.after []) = o := by
  cases o <;> rfl

theorem trans (h : Leads E s w (E.forecast s₁ w₁) w₁)
    (h' : Leads E s₁ w₁ f w₂) : Leads E s w f w₂ := by
  obtain ⟨got, said, hinput, hanswers, hforecast⟩ := h
  obtain ⟨got', said', hinput', hanswers', hforecast'⟩ := h'
  refine ⟨got ++ got', said ++ said', ?_, ?_, ?_⟩
  · rw [hinput', hinput, List.append_assoc]
  · rw [hanswers', hanswers, List.append_assoc]
  · intro more
    rw [List.append_assoc, hforecast, hforecast', map_after]

theorem refl (E : Surroundings) (s : GlobalState) (w : World) :
    Leads E s w (E.forecast s w) w := by
  refine ⟨[], [], (List.append_nil _).symm, (List.append_nil _).symm, ?_⟩
  intro more
  rw [map_after_nil, List.nil_append]

/-- Nothing is transferred, and nothing foretold changes. -/
theorem silently (h : Leads E s w f w₁) (hsilent : Silent w₁ w₂)
    (hforecast : ∀ more, f more = g more) : Leads E s w g w₂ := by
  obtain ⟨got, said, hinput, hanswers, hforecast'⟩ := h
  refine ⟨got, said, ?_, ?_, ?_⟩
  · rw [hsilent.input_eq, hinput]
  · rw [hsilent.mute.answers_eq, hanswers]
  · intro more
    rw [hforecast', hforecast]

end Leads

/-! ## Before the relay -/

/-- What has been transferred since has been with the client. -/
def Converses (w w' : World) : Prop :=
  ∃ calls, w'.log = w.log ++ calls ∧
    ∀ c ∈ calls, c.OfHandshake w.session.clientFd

/-- `Leads`, by calls of the handshake. -/
structure Takes (E : Surroundings) (s : GlobalState) (w : World)
    (f : List UInt8 → Except Fault Outlook) (w' : World) : Prop where
  leads : Leads E s w f w'
  converses : Converses w w'

/-- The session has come to a state as had been foretold. -/
abbrev Proceeds (E : Surroundings) (s : GlobalState) (w : World)
    (s' : GlobalState) (w' : World) : Prop :=
  Takes E s w (E.forecast s' w') w'

namespace Takes

variable {E : Surroundings} {s state : GlobalState} {w w₁ w₂ : World}
  {f g : List UInt8 → Except Fault Outlook} {n : ℕ} {bs : List UInt8}
  {calls : List Call}

theorem refl (E : Surroundings) (s : GlobalState) (w : World) :
    Proceeds E s w s w where
  leads := .refl E s w
  converses := ⟨[], (List.append_nil _).symm, by simp⟩

theorem silently (h : Takes E s w f w₁) (hsilent : Silent w₁ w₂)
    (hforecast : ∀ more, f more = g more) : Takes E s w g w₂ where
  leads := h.leads.silently hsilent hforecast
  converses := by
    obtain ⟨calls, hlog, hcalls⟩ := h.converses
    obtain ⟨calls', hlog', hcalls'⟩ := hsilent.log
    refine ⟨calls ++ calls', by rw [hlog', hlog, List.append_assoc], ?_⟩
    intro c hc
    rcases List.mem_append.mp hc with hc | hc
    · exact hcalls c hc
    · exact ofHandshake_of_not_transfers (hcalls' c hc)

/-- One call, and others that transfer nothing. -/
theorem converses_of_call {c : Call} (hlog : w₁.log = w.log ++ [c] ++ calls)
    (hc : c.OfHandshake w.session.clientFd)
    (hcalls : ∀ c ∈ calls, c.transfers = false) : Converses w w₁ := by
  refine ⟨[c] ++ calls, by rw [hlog, List.append_assoc], ?_⟩
  intro c' hc'
  rcases List.mem_append.mp hc' with hc' | hc'
  · rw [List.mem_singleton.mp hc']
    exact hc
  · exact ofHandshake_of_not_transfers (hcalls c' hc')

/-- The client has sent something, and nothing is answered. -/
theorem of_received (hstate : state ≠ .copy) (hmute : Mute w w₁)
    (hlog : w₁.log = w.log ++
      [.recv state w.session.clientFd n (.received bs)] ++ calls)
    (hcalls : ∀ c ∈ calls, c.transfers = false)
    (hforecast : ∀ more, E.forecast s w (bs ++ more) = f more) :
    Takes E s w f w₁ := by
  refine ⟨⟨bs, [], ?_, ?_, fun more => ?_⟩,
    converses_of_call hlog ⟨hstate, rfl⟩ hcalls⟩
  · rw [World.input, hmute.clientFd, hlog, received_append, received_append,
      received_recv, received_of_not_transfers hcalls, List.append_nil]
    rfl
  · rw [hmute.answers_eq, List.append_nil]
  · rw [hforecast, Leads.map_after_nil]

/-- The client has been answered something, and nothing is received. -/
theorem of_sent (hstate : state ≠ .copy)
    (hclient : w₁.session.clientFd = w.session.clientFd)
    (hlog : w₁.log = w.log ++ [.send state w.session.clientFd bs] ++ calls)
    (hcalls : ∀ c ∈ calls, c.transfers = false)
    (hforecast : ∀ more, E.forecast s w more = (f more).map (.after bs)) :
    Takes E s w f w₁ := by
  have hmute : ∀ c ∈ calls, c.answers = false := by
    intro c hc
    have := hcalls c hc
    cases c <;> first | rfl | cases this
  refine ⟨⟨[], bs, ?_, ?_, hforecast⟩,
    converses_of_call hlog ⟨hstate, rfl⟩ hcalls⟩
  · rw [World.input, hclient, hlog, received_append, received_append,
      received_of_not_transfers hcalls]
    simp [World.input, received, Call.receivedFrom]
  · rw [World.answers, hclient, hlog, answeredTo_append, answeredTo_append,
      answeredTo_send hstate, answeredTo_of_not_answers hmute, List.append_nil]
    rfl

end Takes

end Socksv5
