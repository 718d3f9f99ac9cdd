import Socksv5.AuthParser

/-!
# Decoding credentials

A credentials message is decoded to its two fields, whatever bytes they are
made of, unless there is no memory for one of them.
-/

namespace Socksv5

open Support

/-- The test of `consume_auth_buffer` for a verdict. -/
abbrev authFinal (s : AuthParser × Allocs) : Bool := s.1.state.final

/-- One of the two allocations that a message needs fails. -/
def OutOfMemory (a : Allocs) : Prop := false ∈ a.take 2

instance (a : Allocs) : Decidable (OutOfMemory a) :=
  inferInstanceAs (Decidable (false ∈ a.take 2))

theorem calloc_cases (n : ℕ) (a : Allocs) :
    (a.head? = some false ∧ (calloc n a).1 = none) ∨
      (a.head? ≠ some false ∧
        calloc n a = (some (List.replicate n 0), a.tail)) := by
  rcases a with - | ⟨_ | _, a⟩
  · exact Or.inr ⟨by simp, rfl⟩
  · exact Or.inl ⟨rfl, rfl⟩
  · exact Or.inr ⟨by simp, rfl⟩

theorem outOfMemory_iff (a : Allocs) :
    OutOfMemory a ↔ a.head? = some false ∨ a.tail.head? = some false := by
  rcases a with - | ⟨x, - | ⟨y, a⟩⟩
  · simp [OutOfMemory]
  · simp [OutOfMemory, eq_comm]
  · simp [OutOfMemory, eq_comm]

theorem length_eq_lengthByte {xs : List UInt8} (h : FieldLength xs) :
    xs.length = (lengthByte xs).toNat := by
  have := h.2
  rw [lengthByte, UInt8.toNat_ofNat']
  omega

/-- The parser after the bytes `xs` of a user of `n` bytes. -/
def userRead (n : UInt8) (xs : List UInt8) : AuthParser where
  state := .readingUser
  user := fieldBlock n.toNat xs
  charsRemaining := n
  index := UInt8.ofNat xs.length

/-- The parser after the user `u`. -/
def userDone (u : List UInt8) : AuthParser where
  state := .readingPassLen
  user := some (u ++ [0])
  charsRemaining := lengthByte u
  index := lengthByte u

/-- The parser after the user `u` and the bytes `xs` of a password of `n`
bytes. -/
def passRead (u : List UInt8) (n : UInt8) (xs : List UInt8) : AuthParser where
  state := .readingPass
  user := some (u ++ [0])
  password := fieldBlock n.toNat xs
  charsRemaining := n
  index := UInt8.ofNat xs.length

/-- The parser after the whole message. -/
def credentialsRead (u w : List UInt8) : AuthParser where
  state := .done
  user := some (u ++ [0])
  password := some (w ++ [0])
  charsRemaining := lengthByte w
  index := lengthByte w

/-- A byte before the last of a field does not bring the index to its end. -/
theorem ofNat_length_ne {xs : List UInt8} {n : UInt8} (c : UInt8)
    (h : xs.length + 1 < n.toNat) : UInt8.ofNat xs.length + 1 ≠ n := by
  have hlen : (xs ++ [c]).length = xs.length + 1 := by simp
  rw [ofNat_length_succ xs c, ne_eq, ← UInt8.toNat_inj,
    toNat_ofNat_length (n := n) (by omega)]
  omega

theorem feed_userRead {n : UInt8} {xs : List UInt8} (c : UInt8) (a : Allocs)
    (h : xs.length + 1 < n.toNat) :
    authParserFeed c (userRead n xs, a) = .ok (userRead n (xs ++ [c]), a) := by
  have hindex : (UInt8.ofNat xs.length).toNat = xs.length :=
    toNat_ofNat_length (n := n) (by omega)
  simp only [authParserFeed, userRead, hindex]
  rw [putByte_fieldBlock c (by omega), ok_bind]
  simp only [ofNat_length_ne c h, if_false]
  rw [ofNat_length_succ xs c]

theorem feed_userRead_last {n : UInt8} {xs : List UInt8} (c : UInt8)
    (a : Allocs) (h : xs.length + 1 = n.toNat) :
    authParserFeed c (userRead n xs, a) = .ok (userDone (xs ++ [c]), a) := by
  have hlen : (xs ++ [c]).length = n.toNat := by simp [h]
  have hindex : (UInt8.ofNat xs.length).toNat = xs.length :=
    toNat_ofNat_length (n := n) (by omega)
  have hn : UInt8.ofNat xs.length + 1 = n := by
    rw [ofNat_length_succ xs c, hlen, UInt8.ofNat_toNat]
  simp only [authParserFeed, userRead, hindex]
  rw [putByte_fieldBlock c (by omega), ok_bind]
  simp only [hn, if_true]
  rw [← hlen, putByte_terminator rfl, ok_bind, userDone,
    lengthByte_eq_of_toNat hlen]

theorem feed_passRead {n : UInt8} {u xs : List UInt8} (c : UInt8) (a : Allocs)
    (h : xs.length + 1 < n.toNat) :
    authParserFeed c (passRead u n xs, a) =
      .ok (passRead u n (xs ++ [c]), a) := by
  have hindex : (UInt8.ofNat xs.length).toNat = xs.length :=
    toNat_ofNat_length (n := n) (by omega)
  simp only [authParserFeed, passRead, hindex]
  rw [putByte_fieldBlock c (by omega), ok_bind]
  simp only [ofNat_length_ne c h, if_false]
  rw [ofNat_length_succ xs c]

theorem feed_passRead_last {n : UInt8} {u xs : List UInt8} (c : UInt8)
    (a : Allocs) (h : xs.length + 1 = n.toNat) :
    authParserFeed c (passRead u n xs, a) =
      .ok (credentialsRead u (xs ++ [c]), a) := by
  have hlen : (xs ++ [c]).length = n.toNat := by simp [h]
  have hindex : (UInt8.ofNat xs.length).toNat = xs.length :=
    toNat_ofNat_length (n := n) (by omega)
  have hn : UInt8.ofNat xs.length + 1 = n := by
    rw [ofNat_length_succ xs c, hlen, UInt8.ofNat_toNat]
  simp only [authParserFeed, passRead, hindex]
  rw [putByte_fieldBlock c (by omega), ok_bind]
  simp only [hn, if_true]
  rw [← hlen, putByte_terminator rfl, ok_bind, credentialsRead,
    lengthByte_eq_of_toNat hlen]

/-- The user is read to its end. -/
theorem decode_user {u : List UInt8} (hu : FieldLength u) (tail : List UInt8)
    (a : Allocs) :
    decode authParserFeed authFinal (u ++ tail)
        (userRead (lengthByte u) [], a) =
      decode authParserFeed authFinal tail (userDone u, a) := by
  rw [decode_field (S := fun xs => (userRead (lengthByte u) xs, a))
    (t := fun xs => (userDone xs, a)) (fun xs c h => ⟨feed_userRead c a h, rfl⟩)
    (fun xs c h => feed_userRead_last c a h)
    (by simp [length_eq_lengthByte hu]) (List.length_pos_iff.mp hu.1)]
  rfl

/-- The password is read to its end. -/
theorem decode_pass {u w : List UInt8} (hw : FieldLength w)
    (tail : List UInt8) (a : Allocs) :
    decode authParserFeed authFinal (w ++ tail)
        (passRead u (lengthByte w) [], a) =
      .ok ((credentialsRead u w, a), tail) := by
  rw [decode_field (S := fun xs => (passRead u (lengthByte w) xs, a))
    (t := fun xs => (credentialsRead u xs, a))
    (fun xs c h => ⟨feed_passRead c a h, rfl⟩)
    (fun xs c h => feed_passRead_last c a h)
    (by simp [length_eq_lengthByte hw]) (List.length_pos_iff.mp hw.1)]
  rfl

theorem lengthByte_ne_zero {xs : List UInt8} (h : FieldLength xs) :
    lengthByte xs ≠ 0 := by
  intro h0
  have hlen := length_eq_lengthByte h
  have hpos := h.1
  rw [hlen, h0] at hpos
  exact absurd hpos (by decide)

/-- The parser that expects the length of the user. -/
def versionRead : AuthParser := { state := .readingUserLen }

theorem feed_userLen {n : UInt8} {a : Allocs} (hn : n ≠ 0)
    (hmem : a.head? ≠ some false) :
    authParserFeed n (versionRead, a) = .ok (userRead n [], a.tail) := by
  rcases calloc_cases (n.toNat + 1) a with ⟨hfail, -⟩ | ⟨-, hcalloc⟩
  · exact absurd hfail hmem
  · simp [authParserFeed, versionRead, hn, hcalloc, userRead, fieldBlock]

theorem feed_userLen_fails {n : UInt8} {a : Allocs} (hn : n ≠ 0)
    (hfail : a.head? = some false) :
    ∃ s, authParserFeed n (versionRead, a) = .ok s ∧ s.1.state = .badSyntax := by
  rcases calloc_cases (n.toNat + 1) a with ⟨-, hnone⟩ | ⟨hmem, -⟩
  · simp [authParserFeed, versionRead, hn, hnone]
  · exact absurd hfail hmem

theorem feed_passLen {n : UInt8} {u : List UInt8} {a : Allocs} (hn : n ≠ 0)
    (hmem : a.head? ≠ some false) :
    authParserFeed n (userDone u, a) = .ok (passRead u n [], a.tail) := by
  rcases calloc_cases (n.toNat + 1) a with ⟨hfail, -⟩ | ⟨-, hcalloc⟩
  · exact absurd hfail hmem
  · simp [authParserFeed, userDone, hn, hcalloc, passRead, fieldBlock]

theorem feed_passLen_fails {n : UInt8} {u : List UInt8} {a : Allocs}
    (hn : n ≠ 0) (hfail : a.head? = some false) :
    ∃ s, authParserFeed n (userDone u, a) = .ok s ∧ s.1.state = .badSyntax := by
  rcases calloc_cases (n.toNat + 1) a with ⟨-, hnone⟩ | ⟨hmem, -⟩
  · simp [authParserFeed, userDone, hn, hnone]
  · exact absurd hfail hmem

/-- The two fields of a message are decoded, or there is no memory for one of
them. -/
theorem decode_fields {u w : List UInt8} (hu : FieldLength u)
    (hw : FieldLength w) (tail : List UInt8) (a : Allocs) :
    ∃ s rest, decode authParserFeed authFinal
        (lengthByte u :: u ++ lengthByte w :: w ++ tail) (versionRead, a) =
          .ok (s, rest) ∧
      ((OutOfMemory a ∧ s.1.state = .badSyntax) ∨
        (¬ OutOfMemory a ∧ s.1 = credentialsRead u w ∧ rest = tail)) := by
  have hsplit : lengthByte u :: u ++ lengthByte w :: w ++ tail =
      lengthByte u :: (u ++ (lengthByte w :: (w ++ tail))) := by
    simp
  rw [hsplit, decode, outOfMemory_iff]
  by_cases hfail : a.head? = some false
  · obtain ⟨s, hfeed, hbad⟩ := feed_userLen_fails (lengthByte_ne_zero hu) hfail
    rw [hfeed, ok_bind, if_pos (by rw [authFinal, hbad]; rfl)]
    exact ⟨_, _, rfl, Or.inl ⟨Or.inl hfail, hbad⟩⟩
  · rw [feed_userLen (lengthByte_ne_zero hu) hfail, ok_bind,
      if_neg (by simp [authFinal, userRead, AuthState.final]), decode_user hu,
      decode]
    by_cases hfail' : a.tail.head? = some false
    · obtain ⟨s, hfeed, hbad⟩ :=
        feed_passLen_fails (u := u) (lengthByte_ne_zero hw) hfail'
      rw [hfeed, ok_bind, if_pos (by rw [authFinal, hbad]; rfl)]
      exact ⟨_, _, rfl, Or.inl ⟨Or.inr hfail', hbad⟩⟩
    · rw [feed_passLen (lengthByte_ne_zero hw) hfail', ok_bind,
        if_neg (by simp [authFinal, passRead, AuthState.final]), decode_pass hw]
      refine ⟨_, _, rfl, Or.inr ⟨?_, rfl, rfl⟩⟩
      rintro (h | h)
      · exact hfail h
      · exact hfail' h

/-- A credentials message is decoded to its fields, or there is no memory for
one of them. -/
theorem decode_credentials {u w : List UInt8} (hu : FieldLength u)
    (hw : FieldLength w) (tail : List UInt8) (a : Allocs) :
    ∃ s rest, decode authParserFeed authFinal
        (credentialsMessage u w ++ tail) (authParserInit, a) = .ok (s, rest) ∧
      ((OutOfMemory a ∧ s.1.state = .badSyntax) ∨
        (¬ OutOfMemory a ∧ s.1 = credentialsRead u w ∧ rest = tail)) :=
  decode_fields hu hw tail a

end Socksv5
