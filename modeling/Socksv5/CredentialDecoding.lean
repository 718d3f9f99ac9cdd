import Socksv5.Admin.AuthParser

/-!
# Streams that begin with credentials

What the two parsers of credentials make of any stream, however it is cut into
reads: a message is decoded and what follows it is not read, nothing else is
taken for a message, and a byte that no message has at its place is the last
one that is read.
-/

namespace Socksv5

open Support

/-! ## The parser does not fail -/

theorem exists_authParserFeed {xs : List UInt8} {p : AuthParser}
    (hp : p.After xs) (c : UInt8) (a : Allocs) :
    ∃ s, authParserFeed c (p, a) = .ok s := by
  unfold AuthParser.After at hp
  cases hs : p.state with
  | readingVersion =>
      simp only [authParserFeed, hs]
      split <;> exact ⟨_, rfl⟩
  | readingUserLen =>
      simp only [authParserFeed, hs]
      split
      · exact ⟨_, rfl⟩
      · split <;> exact ⟨_, rfl⟩
  | readingUser =>
      simp only [hs] at hp
      obtain ⟨u, -, hfill⟩ := hp
      obtain ⟨user, hput⟩ := hfill.exists_putByte c
      simp only [authParserFeed, hs, hput, ok_bind]
      split
      · rename_i heq
        rcases hfill.putByte hput with ⟨hne, -⟩ | ⟨-, -, -, hterm⟩
        · exact absurd heq hne
        · rw [hterm]
          exact ⟨_, rfl⟩
      · exact ⟨_, rfl⟩
  | readingPassLen =>
      simp only [authParserFeed, hs]
      split
      · exact ⟨_, rfl⟩
      · split <;> exact ⟨_, rfl⟩
  | readingPass =>
      simp only [hs] at hp
      obtain ⟨u, w, -, -, -, hfill⟩ := hp
      obtain ⟨password, hput⟩ := hfill.exists_putByte c
      simp only [authParserFeed, hs, hput, ok_bind]
      split
      · rename_i heq
        rcases hfill.putByte hput with ⟨hne, -⟩ | ⟨-, -, -, hterm⟩
        · exact absurd heq hne
        · rw [hterm]
          exact ⟨_, rfl⟩
      · exact ⟨_, rfl⟩
  | badLength | done | unsupportedVersion | badSyntax =>
      simp only [authParserFeed, hs]
      exact ⟨_, rfl⟩

/-- Every stream is read to its end, or as far as the verdict. -/
theorem exists_decode_auth (xs : List UInt8) (a : Allocs) :
    ∃ p a' used rest,
      decode authParserFeed authFinal xs (authParserInit, a) =
        .ok ((p, a'), rest) ∧ xs = used ++ rest ∧ p.After used := by
  obtain ⟨⟨p, a'⟩, used, rest, hdecode, hused, hafter, -⟩ :=
    exists_decode authParserFeed authFinal (fun xs s => s.1.After xs) xs
      (authParserInit, a) authParserInit_after rfl (by
        rintro ys c ⟨p, a⟩ - hafter hstop
        obtain ⟨⟨p', a'⟩, hfeed⟩ := exists_authParserFeed hafter c a
        exact ⟨_, hfeed, authParserFeed_after hafter hstop hfeed⟩)
  exact ⟨p, a', used, rest, hdecode, hused, hafter⟩

/-! ## Bytes with which no message begins -/

/-- `xs` is no beginning of a message, but all of it except the last byte is;
the parser of a client ends in the given state. -/
inductive BadCredentials : List UInt8 → AuthState → Prop
  | version {v : UInt8} : v ≠ 1 → BadCredentials [v] .unsupportedVersion
  | userLength : BadCredentials [1, 0] .badLength
  | passLength {u : List UInt8} :
      FieldLength u → BadCredentials (1 :: lengthByte u :: u ++ [0]) .badLength

/-- The same without the version. -/
inductive BadAdminCredentials : List UInt8 → Prop
  | userLength : BadAdminCredentials [0]
  | passLength {u : List UInt8} :
      FieldLength u → BadAdminCredentials (lengthByte u :: u ++ [0])

theorem BadAdminCredentials.withVersion {bad : List UInt8}
    (h : BadAdminCredentials bad) : BadCredentials (1 :: bad) .badLength := by
  cases h with
  | userLength => exact .userLength
  | passLength hu => exact .passLength hu

/-- The byte is read, and nothing after it, when there is memory for the
user. -/
theorem decode_badCredentials {bad : List UInt8} {state : AuthState}
    (h : BadCredentials bad state) (tail : List UInt8) {a : Allocs}
    (hmem : ¬ OutOfMemory a) :
    ∃ p a', decode authParserFeed authFinal (bad ++ tail) (authParserInit, a) =
      .ok ((p, a'), tail) ∧ p.state = state := by
  cases h with
  | version hv =>
      refine ⟨{ state := .unsupportedVersion }, a, ?_, rfl⟩
      rw [List.singleton_append, decode]
      simp only [authParserFeed, authParserInit, if_neg hv, ok_bind]
      rfl
  | userLength => exact ⟨{ state := .badLength }, a, rfl, rfl⟩
  | @passLength u hu =>
      have hfirst : a.head? ≠ some false := fun hfail =>
        hmem ((outOfMemory_iff a).mpr (Or.inl hfail))
      refine ⟨{ userDone u with state := .badLength }, a.tail, ?_, rfl⟩
      have hsplit : 1 :: lengthByte u :: u ++ [0] ++ tail =
          1 :: lengthByte u :: (u ++ 0 :: tail) := by
        simp
      rw [hsplit]
      calc decode authParserFeed authFinal
            (1 :: lengthByte u :: (u ++ 0 :: tail)) (authParserInit, a)
        _ = decode authParserFeed authFinal
            (lengthByte u :: (u ++ 0 :: tail)) (versionRead, a) := rfl
        _ = decode authParserFeed authFinal (u ++ 0 :: tail)
            (userRead (lengthByte u) [], a.tail) := by
          rw [decode, feed_userLen (lengthByte_ne_zero hu) hfirst, ok_bind,
            if_neg (by simp [authFinal, userRead, AuthState.final])]
        _ = decode authParserFeed authFinal (0 :: tail)
            (userDone u, a.tail) := decode_user hu _ _
        _ = _ := rfl

/-! ## What becomes of a stream -/

/-- What the parser `p` of a client has made of a stream, of which it has left
`unread`. -/
structure CredentialsDecoded (stream unread : List UInt8) (p : AuthParser) :
    Prop where
  message : ∀ u w tail, FieldLength u → FieldLength w →
    stream = credentialsMessage u w ++ tail →
      p.state = .done ∧ p.user = some (u ++ [0]) ∧
        p.password = some (w ++ [0]) ∧ unread = tail
  onlyMessage : p.state = .done → ∃ u w, FieldLength u ∧ FieldLength w ∧
    stream = credentialsMessage u w ++ unread
  refused : ∀ bad state tail, BadCredentials bad state →
    stream = bad ++ tail → p.state = state ∧ unread = tail

/-- The same for the parser of an administrator. -/
structure AdminCredentialsDecoded (stream unread : List UInt8)
    (p : AdminAuthParser) : Prop where
  message : ∀ u w tail, FieldLength u → FieldLength w →
    stream = adminCredentialsMessage u w ++ tail →
      p.state = .done ∧ p.user = some (u ++ [0]) ∧
        p.password = some (w ++ [0]) ∧ unread = tail
  onlyMessage : p.state = .done → ∃ u w, FieldLength u ∧ FieldLength w ∧
    stream = adminCredentialsMessage u w ++ unread
  refused : ∀ bad tail, BadAdminCredentials bad →
    stream = bad ++ tail → p.state = .badSyntax ∧ unread = tail

theorem AuthParser.After.done {xs : List UInt8} {p : AuthParser}
    (h : p.After xs) (hdone : p.state = .done) :
    ∃ u w, FieldLength u ∧ FieldLength w ∧ xs = credentialsMessage u w := by
  unfold AuthParser.After at h
  simp only [hdone] at h
  obtain ⟨u, w, hxs, hu, hw, -, -⟩ := h
  exact ⟨u, w, hu, hw, hxs⟩

theorem exists_credentialsDecoded (stream : List UInt8) {a : Allocs}
    (hmem : ¬ OutOfMemory a) :
    ∃ p a' unread,
      decode authParserFeed authFinal stream (authParserInit, a) =
        .ok ((p, a'), unread) ∧ CredentialsDecoded stream unread p := by
  obtain ⟨p, a', used, unread, hdecode, rfl, hafter⟩ :=
    exists_decode_auth stream a
  refine ⟨p, a', unread, hdecode, ?_, ?_, ?_⟩
  · intro u w tail hu hw hstream
    obtain ⟨⟨p₁, a₁⟩, rest, hdecode', ⟨hmem', -⟩ | ⟨-, hp₁, rfl⟩⟩ :=
      decode_credentials hu hw tail a
    · exact absurd hmem' hmem
    · rw [hstream, hdecode'] at hdecode
      cases hdecode
      rw [show p = credentialsRead u w from hp₁]
      exact ⟨rfl, rfl, rfl, rfl⟩
  · intro hdone
    obtain ⟨u, w, hu, hw, rfl⟩ := hafter.done hdone
    exact ⟨u, w, hu, hw, rfl⟩
  · intro bad state tail hbad hstream
    obtain ⟨p₁, a₁, hdecode', hstate⟩ := decode_badCredentials hbad tail hmem
    rw [hstream, hdecode'] at hdecode
    cases hdecode
    exact ⟨hstate, rfl⟩

/-- The parser of an administrator does what that of a client does with the
version before the stream. -/
theorem decode_adminAuth (p₀ : AdminAuthParser) (stream : List UInt8)
    (a : Allocs) :
    decode adminAuthParserFeed adminAuthFinal stream
        (adminAuthParserInit p₀, a) =
      (decode authParserFeed authFinal (1 :: stream) (authParserInit, a) >>=
        fun r => .ok (toAdmin p₀.ret r.1, r.2)) :=
  decode_map authParserFeed authFinal adminAuthParserFeed adminAuthFinal
    (toAdmin p₀.ret) (fun s => s.1.state ≠ .readingVersion)
    (fun c s hs _ => adminAuthParserFeed_goesAlong p₀.ret c s.1 s.2 hs) stream
    (s := (versionRead, a)) (by simp [versionRead]) rfl

theorem AuthState.toAdmin_eq_done {s : AuthState} (h : s.toAdmin = .done) :
    s = .done := by
  cases s with
  | done => rfl
  | _ => cases h

theorem exists_adminCredentialsDecoded (p₀ : AdminAuthParser)
    (stream : List UInt8) {a : Allocs} (hmem : ¬ OutOfMemory a) :
    ∃ p a' unread,
      decode adminAuthParserFeed adminAuthFinal stream
          (adminAuthParserInit p₀, a) = .ok ((p, a'), unread) ∧
        AdminCredentialsDecoded stream unread p := by
  obtain ⟨p, a', unread, hdecode, hmessage, honly, hrefused⟩ :=
    exists_credentialsDecoded (1 :: stream) hmem
  rw [decode_adminAuth, hdecode, ok_bind]
  refine ⟨_, _, _, rfl, ?_, ?_, ?_⟩
  · rintro u w tail hu hw rfl
    obtain ⟨hstate, huser, hpassword, hunread⟩ :=
      hmessage u w tail hu hw rfl
    exact ⟨by simp only [hstate, AuthState.toAdmin], huser, hpassword,
      hunread⟩
  · intro hdone
    obtain ⟨u, w, hu, hw, hstream⟩ := honly (AuthState.toAdmin_eq_done hdone)
    exact ⟨u, w, hu, hw, (List.cons.inj hstream).2⟩
  · rintro bad tail hbad rfl
    obtain ⟨hstate, hunread⟩ := hrefused _ _ tail hbad.withVersion rfl
    exact ⟨by simp only [hstate, AuthState.toAdmin], hunread⟩

/-- Both parsers decode exactly the messages, from whatever was pending in the
buffer and the chunks that are received after it; what they leave is pending,
or is not received. -/
theorem credentials_decoded_exactly {chunks : List (List UInt8)} {b : Buffer}
    {a : Allocs} (p₀ : AdminAuthParser) (hrecv : Receivable b chunks)
    (hstart : b.pending = [] ∨ chunks ≠ []) (hmem : ¬ OutOfMemory a) :
    (∃ b' p a' later,
      consumeChunks authParserFeed authFinal chunks b (authParserInit, a) =
        .ok (b', (p, a'), later) ∧
      CredentialsDecoded (b.pending ++ chunks.flatten)
        (b'.pending ++ later.flatten) p) ∧
    ∃ b' p a' later,
      consumeChunks adminAuthParserFeed adminAuthFinal chunks b
          (adminAuthParserInit p₀, a) = .ok (b', (p, a'), later) ∧
      AdminCredentialsDecoded (b.pending ++ chunks.flatten)
        (b'.pending ++ later.flatten) p := by
  constructor
  · obtain ⟨p, a', unread, hdecode, hdecoded⟩ :=
      exists_credentialsDecoded (b.pending ++ chunks.flatten) hmem
    obtain ⟨b', later, hconsume, rfl⟩ :=
      exists_consumeChunks hrecv hstart rfl hdecode
    exact ⟨b', p, a', later, hconsume, hdecoded⟩
  · obtain ⟨p, a', unread, hdecode, hdecoded⟩ :=
      exists_adminCredentialsDecoded p₀ (b.pending ++ chunks.flatten) hmem
    obtain ⟨b', later, hconsume, rfl⟩ :=
      exists_consumeChunks hrecv hstart rfl hdecode
    exact ⟨b', p, a', later, hconsume, hdecoded⟩

/-- A message of a client that comes in three reads, the last of which brings a
byte that follows it. -/
theorem credentials_decoded_exactly_ab :
    (∃ b' p a' later,
      consumeChunks authParserFeed authFinal [[1, 2, 97], [98, 1], [99, 7]]
          (Buffer.init 10 fun _ => 0) (authParserInit, []) =
        .ok (b', (p, a'), later) ∧
      CredentialsDecoded [1, 2, 97, 98, 1, 99, 7]
        (b'.pending ++ later.flatten) p) ∧
    ∃ b' p a' later,
      consumeChunks adminAuthParserFeed adminAuthFinal
          [[1, 2, 97], [98, 1], [99, 7]] (Buffer.init 10 fun _ => 0)
          (adminAuthParserInit {}, []) = .ok (b', (p, a'), later) ∧
      AdminCredentialsDecoded [1, 2, 97, 98, 1, 99, 7]
        (b'.pending ++ later.flatten) p :=
  credentials_decoded_exactly (b := Buffer.init 10 fun _ => 0) {}
    (by simp [Receivable, Buffer.init, Buffer.room]) (Or.inr (by simp))
    (by decide)

end Socksv5
