import Socksv5.CredentialDecoding
import Socksv5.RequestDecoding
import Socksv5.Session.Negotiation
import Socksv5.Session.Segmentation

/-!
# What a client gets for what it sends

The service that a session gives, as the formats of the messages have it: for
every stream of bytes, how the session ends up, what it answers, and which of
the bytes are for the origin.  No parser, no buffer and no callback is
mentioned.  A session that no message is left unread in gives this service,
however the bytes are divided.
-/

namespace Socksv5

open Support

/-! ## The service -/

/-- `RequestService E xs o rest`: a client that has been admitted sends `xs`.
Its outlook is `o`; `rest` comes after its request. -/
inductive RequestService (E : Surroundings) :
    List UInt8 → Outlook → List UInt8 → Prop
  | incomplete {xs more : List UInt8} {d : Destination} {hi lo : UInt8} :
      d.WellFormed → more ≠ [] → xs ++ more = requestMessage d hi lo →
      RequestService E xs ⟨.requestRead, []⟩ []
  | refused {good rest : List UInt8} {c code : UInt8} : Offending good c code →
      RequestService E (good ++ c :: rest) ⟨.done, replyMessage code⟩ rest
  | address {d : Destination} {hi lo : UInt8} {rest : List UInt8} :
      d.WellFormed → d.atyp = 1 ∨ d.atyp = 4 →
      RequestService E (requestMessage d hi lo ++ rest)
        (E.attempted 0 (.replied
          (Surroundings.replyOfFailed (E.attempts 0) .succeded) false)) rest
  | name {n : List UInt8} {hi lo : UInt8} {rest : List UInt8} : FieldLength n →
      RequestService E (requestMessage (.fqdn n) hi lo ++ rest) E.lookedUp rest

/-- `MethodService E m xs o rest`: a client that has been told to use the method
`m` sends `xs`. -/
inductive MethodService (E : Surroundings) :
    UInt8 → List UInt8 → Outlook → List UInt8 → Prop
  | unauthenticated {xs rest : List UInt8} {o : Outlook} :
      RequestService E xs o rest →
      MethodService E noAuthenticationRequired xs o rest
  | incomplete {xs more u w : List UInt8} : FieldLength u → FieldLength w →
      more ≠ [] → xs ++ more = credentialsMessage u w →
      MethodService E usernamePasswordAuth xs ⟨.authRead, []⟩ []
  | authenticated {xs u w rest : List UInt8} {o : Outlook} :
      FieldLength u → FieldLength w →
      authenticateUser E.parameters (u ++ [0]) (w ++ [0]) = true →
      RequestService E xs o rest →
      MethodService E usernamePasswordAuth (credentialsMessage u w ++ xs)
        (o.after [1, authSuccess]) rest
  | denied {xs u w : List UInt8} : FieldLength u → FieldLength w →
      authenticateUser E.parameters (u ++ [0]) (w ++ [0]) = false →
      MethodService E usernamePasswordAuth (credentialsMessage u w ++ xs)
        ⟨.done, [1, authFail]⟩ xs
  | malformed {bad xs : List UInt8} {state : AuthState} :
      BadCredentials bad state →
      MethodService E usernamePasswordAuth (bad ++ xs)
        ⟨.done, [1, authFail]⟩ xs
  | unacceptable {m : UInt8} {xs : List UInt8} : m ≠ noAuthenticationRequired →
      m ≠ usernamePasswordAuth → MethodService E m xs ⟨.error, []⟩ xs

/-- `ClientService E xs o rest`: a client sends `xs`. -/
inductive ClientService (E : Surroundings) :
    List UInt8 → Outlook → List UInt8 → Prop
  | incomplete {xs : List UInt8} : IncompleteGreeting xs →
      ClientService E xs ⟨.greetingRead, []⟩ []
  | offered {xs ys rest : List UInt8} {m : UInt8} {o : Outlook} :
      Offers xs m → MethodService E m ys o rest →
      ClientService E (xs ++ ys) (o.after [5, m]) rest

/-! ## Greetings -/

/-- A stream settles what is offered, or is the beginning of a greeting. -/
theorem decode_greeting (xs : List UInt8) :
    ∃ p rest, decode greetingParserFeed (fun s => s.1.state.final) xs
        (greetingParserInit, []) = .ok ((p, []), rest) ∧
      ((p.state.final = false ∧ IncompleteGreeting xs) ∨
        (p.state.final = true ∧ ∃ used m, xs = used ++ rest ∧
          Offers used m ∧ selectMethod p.methods p.methodsRemaining = .ok m)) := by
  obtain ⟨⟨p, a⟩, used, rest, hdecode, rfl, ⟨hafter, hbad, -⟩, hrest⟩ :=
    exists_decode greetingParserFeed (fun s => s.1.state.final)
      (fun xs s => s.1.After xs ∧ (s.1.state = .badSyntax → xs = [5, 0]) ∧
        (s.1.methods = none → s.2.head? ≠ some false))
      xs (greetingParserInit, [])
      ⟨greetingParserInit_after, by simp [greetingParserInit], by simp⟩ rfl (by
        rintro ys c ⟨p₁, a₁⟩ - ⟨hafter, -, hmem⟩ hstop
        obtain ⟨p₂, a₂, hfeed, hbad₂, hmem₂⟩ :=
          exists_greetingParserFeed c hafter hstop hmem
        exact ⟨_, hfeed, greetingParserFeed_after hafter hstop hfeed, hbad₂,
          hmem₂⟩)
  obtain rfl : a = [] := greetingParserFeed_sated.decode rfl hdecode
  refine ⟨p, rest, hdecode, ?_⟩
  cases hfinal : p.state.final with
  | false =>
      obtain rfl : rest = [] := hrest hfinal
      rw [List.append_nil]
      exact .inl ⟨rfl, hafter.incomplete hfinal⟩
  | true =>
      obtain ⟨m, hselect, hoffers⟩ := hafter.offers hfinal hbad
      exact .inr ⟨rfl, used, m, rfl, hoffers, hselect⟩

/-! ## Credentials -/

/-- The verdict on a stream, whole. -/
theorem decode_request (p₀ : RequestParser) {xs : List UInt8}
    (hname : ¬ [5, 1, 0, 3, 0] <+: xs) :
    ∃ p rest, decode requestParserTurn (fun s => s.1.state.final) xs
        (requestParserInit p₀, []) = .ok ((p, []), rest) ∧
      RequestVerdict xs rest p := by
  -- Byte by byte, any stream can be received.
  have hrecv : Receivable (.init maxBuffSize fun _ => 0)
      (xs.map fun c => [c]) := by
    cases xs with
    | nil => trivial
    | cons c cs =>
        have hone : 1 ≤ (Buffer.init maxBuffSize fun _ => 0).limit := by decide
        refine ⟨by simp, hone, ?_⟩
        intro later hlater
        obtain ⟨d, -, rfl⟩ := List.mem_map.mp hlater
        exact ⟨by simp, hone⟩
  have hflatten : (xs.map fun c => [c]).flatten = xs := by
    rw [← List.flatMap_def, List.flatMap_singleton']
  have hpending : (Buffer.init maxBuffSize fun _ => 0).pending = [] := rfl
  obtain ⟨p, a, rest, hreceive, hverdict⟩ := receiveRequest_verdict p₀ hrecv
    (a := []) (.inl rfl) (by simp) (by rwa [hpending, hflatten])
  rw [receiveRequest_eq_decode [] hrecv (.inl rfl)] at hreceive
  rw [hpending, hflatten, List.nil_append] at hreceive hverdict
  obtain ⟨⟨⟨p₁, a₁⟩, rest₁⟩, hdecode, heq⟩ := bind_eq_ok.mp hreceive
  cases heq
  obtain rfl : a₁ = [] := requestParserTurn_sated.decode rfl hdecode
  exact ⟨_, _, hdecode, hverdict⟩

theorem not_empty_name {d : Destination} {hi lo : UInt8}
    {xs more rest : List UInt8} (hd : d.WellFormed)
    (h : xs ++ more = requestMessage d hi lo ++ rest) :
    ¬ [5, 1, 0, 3, 0] <+: xs := by
  rintro ⟨tail, rfl⟩
  cases d with
  | ipv4 | ipv6 => simp [requestMessage, Destination.encode] at h
  | fqdn name =>
      have hzero : 0 = lengthByte name := by
        simp only [requestMessage, Destination.encode, List.cons_append,
          List.cons.injEq] at h
        exact h.2.2.2.2.1
      exact lengthByte_ne_zero hd hzero.symm

/-- A request is decoded to what it asks for. -/
theorem decode_requestMessage (p₀ : RequestParser) {d : Destination}
    (hi lo : UInt8) (hd : d.WellFormed) (tail : List UInt8) :
    ∃ p, decode requestParserTurn (fun s => s.1.state.final)
        (requestMessage d hi lo ++ tail) (requestParserInit p₀, []) =
          .ok ((p, []), tail) ∧
      p.Holds d ∧ p.state = .done ∧ p.reply = .succeded := by
  obtain ⟨p, rest, hdecode, hverdict⟩ := decode_request p₀
    (not_empty_name hd (List.append_nil (requestMessage d hi lo ++ tail)))
  cases hverdict with
  | decoded d' hi' lo' hholds hxs _ hdone hreply =>
      obtain rfl := requestMessage_append_inj hd hholds.1 hxs
      obtain ⟨rfl, -⟩ := requestMessage_inj (List.append_cancel_right hxs)
      exact ⟨p, hdecode, hholds, hdone, hreply⟩
  | refused good c hoffending hxs _ =>
      exact absurd ⟨tail, hxs⟩ hoffending.not_request
  | waiting d' hi' lo' more hd' hmore hxs _ _ =>
      rw [List.append_assoc, ← List.append_nil (requestMessage d' hi' lo')] at hxs
      have hnil := requestMessage_append_inj hd hd' hxs
      exact absurd (List.append_eq_nil_iff.mp hnil).2 hmore

/-- The offending byte is the last that is read. -/
theorem decode_offending (p₀ : RequestParser) {good : List UInt8} {c code : UInt8}
    (h : Offending good c code) (tail : List UInt8) :
    ∃ p, decode requestParserTurn (fun s => s.1.state.final)
        (good ++ c :: tail) (requestParserInit p₀, []) = .ok ((p, []), tail) ∧
      p.state = .error ∧ p.reply ≠ .succeded ∧ p.reply.code = code := by
  have hname : ¬ [5, 1, 0, 3, 0] <+: good ++ c :: tail := by
    rintro ⟨rest, heq⟩
    cases h <;> simp_all
  obtain ⟨p, rest, hdecode, hverdict⟩ := decode_request p₀ hname
  cases hverdict with
  | decoded d hi lo _ hxs => exact absurd ⟨rest, hxs.symm⟩ h.not_request
  | refused good' c' hoffending hxs hstate =>
      have hall : rest = tail ∧ p.reply.code = code := by
        generalize p.reply.code = code' at hoffending
        cases h <;> cases hoffending <;> simp_all
      obtain ⟨rfl, hcode⟩ := hall
      refine ⟨p, hdecode, hstate, fun hreply => ?_, hcode⟩
      rw [hreply] at hoffending
      cases hoffending
  | waiting d hi lo more _ _ hxs =>
      rw [List.append_assoc, List.cons_append] at hxs
      exact absurd ⟨[], by rw [List.append_nil, ← hxs]⟩ h.not_request

/-! ## The service is what is foretold -/

section Reading

variable {P : Type} {feed : UInt8 → P × Allocs → Except Fault (P × Allocs)}
  {stop : P × Allocs → Bool} {s : GlobalState}
  {k : P → List UInt8 → Except Fault Outlook} {p p' : P}
  {xs more rest : List UInt8}

theorem reading_of_decode (hstop : stop (p', []) = true)
    (h : decode feed stop xs (p, []) = .ok ((p', []), rest)) :
    reading feed stop s k p xs = k p' rest := by
  rw [reading, h, ok_bind, if_pos hstop]

theorem reading_of_incomplete {r : P × Allocs} (hp : stop (p, []) = false)
    (hmore : more ≠ []) (h : decode feed stop (xs ++ more) (p, []) = .ok (r, [])) :
    reading feed stop s k p xs = .ok ⟨s, []⟩ := by
  obtain ⟨r₁, hdecode, hstop⟩ := decode_of_incomplete hp hmore h
  refine reading_of_awaits ?_
  rw [Awaits, hdecode]
  simpa using hstop

end Reading

section Service

variable {E : Surroundings} {xs rest : List UInt8} {o : Outlook} {m : UInt8}

theorem RequestService.fromRequest (h : RequestService E xs o rest)
    (p₀ : RequestParser) : E.fromRequest (requestParserInit p₀) xs = .ok o := by
  cases h with
  | @incomplete _ more d hi lo hd hmore hxs =>
      obtain ⟨p, hdecode, -⟩ := decode_requestMessage p₀ hi lo hd []
      rw [List.append_nil, ← hxs] at hdecode
      exact reading_of_incomplete rfl hmore hdecode
  | @refused good _ c code hoffending =>
      obtain ⟨p, hdecode, hstate, hreply, rfl⟩ :=
        decode_offending p₀ hoffending rest
      rw [Surroundings.fromRequest,
        reading_of_decode (by simp [hstate, RequestState.final]) hdecode,
        Surroundings.requested, if_pos hstate, Outlook.replied, if_pos hreply]
  | @address d hi lo _ hd hatyp =>
      obtain ⟨p, hdecode, hholds, hdone, hreply⟩ :=
        decode_requestMessage p₀ hi lo hd rest
      have hip : p.atyp = 1 ∨ p.atyp = 4 := by
        rw [hholds.2.2.1]
        rcases hatyp with h | h <;> rw [h] <;> decide
      rw [Surroundings.fromRequest,
        reading_of_decode (by simp [hdone, RequestState.final]) hdecode,
        Surroundings.requested, if_neg (by simp [hdone]), if_pos hip, hreply]
  | @name n hi lo _ hn =>
      obtain ⟨p, hdecode, hholds, hdone, -⟩ :=
        decode_requestMessage p₀ (d := .fqdn n) hi lo hn rest
      have hip : ¬ (p.atyp = 1 ∨ p.atyp = 4) := by
        rw [hholds.2.2.1]
        simp [Destination.atyp]
      rw [Surroundings.fromRequest,
        reading_of_decode (by simp [hdone, RequestState.final]) hdecode,
        Surroundings.requested, if_neg (by simp [hdone]), if_neg hip]

/-- The credentials are decoded to their fields. -/
theorem decode_credentialsMessage {u w : List UInt8} (hu : FieldLength u)
    (hw : FieldLength w) (tail : List UInt8) :
    decode authParserFeed authFinal (credentialsMessage u w ++ tail)
      (authParserInit, []) = .ok ((credentialsRead u w, []), tail) := by
  obtain ⟨⟨p, a⟩, rest, hdecode, ⟨hmem, -⟩ | ⟨-, rfl, rfl⟩⟩ :=
    decode_credentials hu hw tail []
  · cases hmem
  · obtain rfl : a = [] := authParserFeed_sated.decode rfl hdecode
    exact hdecode

theorem MethodService.afterMethod (h : MethodService E m xs o rest)
    (p₀ : RequestParser) : E.afterMethod p₀ m.toNat xs = .ok o := by
  have hauth : E.afterMethod p₀ usernamePasswordAuth.toNat xs =
      E.fromAuth p₀ authFail authParserInit xs := rfl
  -- A message has been read, and the answer is `reply`.
  have hanswered (reply : UInt8) {p : AuthParser} {used ys : List UInt8}
      (hdecode : decode authParserFeed authFinal (used ++ ys)
        (authParserInit, []) = .ok ((p, []), ys))
      (hfinal : p.state.final = true)
      (hverdict : E.verdict p authFail = .ok reply) :
      E.fromAuth p₀ authFail authParserInit (used ++ ys) =
        (E.afterAuth p₀ reply ys).map (.after [1, reply]) := by
    rw [Surroundings.fromAuth, reading_of_decode hfinal hdecode, hverdict, ok_bind]
  cases h with
  | unauthenticated hrequest => exact hrequest.fromRequest p₀
  | incomplete hu hw hmore hxs =>
      have hdecode := decode_credentialsMessage hu hw []
      rw [List.append_nil, ← hxs] at hdecode
      rw [hauth]
      exact reading_of_incomplete rfl hmore hdecode
  | @authenticated ys u w _ o hu hw hlisted hrequest =>
      rw [hauth, hanswered authSuccess
        (decode_credentialsMessage hu hw ys) rfl
        (by simp [Surroundings.verdict, credentialsRead, hlisted]),
        Surroundings.afterAuth, if_pos rfl, hrequest.fromRequest p₀]
      rfl
  | @denied _ u w hu hw hlisted =>
      rw [hauth, hanswered authFail
        (decode_credentialsMessage hu hw _) rfl
        (by simp [Surroundings.verdict, credentialsRead, hlisted])]
      rfl
  | malformed hbad =>
      obtain ⟨p, a, hdecode, hstate⟩ := decode_badCredentials hbad rest (a := [])
        (by simp [OutOfMemory])
      obtain rfl : a = [] := authParserFeed_sated.decode rfl hdecode
      have hstate' : p.state.final = true ∧ p.state ≠ .done := by
        rw [hstate]
        cases hbad <;> exact ⟨rfl, by decide⟩
      rw [hauth, hanswered authFail hdecode hstate'.1
        (by rw [Surroundings.verdict, if_neg hstate'.2])]
      rfl
  | unacceptable hnone hauth =>
      have hzero : (m.toNat : ℤ) ≠ 0 := fun h =>
        hnone (UInt8.toNat_inj.mp (Int.ofNat.inj h))
      have htwo : (m.toNat : ℤ) ≠ 2 := fun h =>
        hauth (UInt8.toNat_inj.mp (Int.ofNat.inj h))
      rw [Surroundings.afterMethod, if_neg hzero, if_neg htwo]

theorem ClientService.fromGreeting (h : ClientService E xs o rest)
    (p₀ : RequestParser) : E.fromGreeting p₀ greetingParserInit xs = .ok o := by
  obtain ⟨p, unread, hdecode, hgreeting⟩ := decode_greeting xs
  cases h with
  | incomplete hincomplete =>
      rcases hgreeting with ⟨hlive, -⟩ | ⟨-, used, m', hused, hoffers, -⟩
      · refine reading_of_awaits ?_
        rw [Awaits, hdecode]
        simpa using hlive
      · exact absurd (hused ▸ hincomplete) hoffers.not_incomplete
  | offered hoffers hmethod =>
      rcases hgreeting with ⟨-, hincomplete⟩ |
        ⟨hfinal, used, m', hused, hoffers', hselect⟩
      · exact absurd hincomplete hoffers.not_incomplete
      · obtain ⟨-, rfl, rfl⟩ := hoffers.unique hoffers' hused
        rw [Surroundings.fromGreeting, reading_of_decode hfinal hdecode, hselect,
          ok_bind, hmethod.afterMethod p₀]
        rfl

end Service

/-! ## What a session gives its client -/

end Socksv5
