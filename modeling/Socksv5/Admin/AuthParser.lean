import Socksv5.Credentials

/-!
# The authentication parser of the administration protocol

`admin_auth_parser.c`.  The message is the one of the clients without its
version, and the parser goes along with theirs, except that it has one state
for all errors.
-/

namespace Socksv5

open Support

/-- `AUTH_SUCCESS` of `admin_auth_parser.h` -/
def adminAuthSuccess : ℤ := 0

/-- `AUTH_BAD_CREDENTIALS` -/
def adminAuthBadCredentials : ℤ := 1

/-- `AUTH_BAD_SINTAX` -/
def adminAuthBadSyntax : ℤ := 2

/-- `enum admin_auth_state` -/
inductive AdminAuthState
  | readingUserLen
  | readingUser
  | readingPassLen
  | readingPass
  | done
  | badSyntax
deriving DecidableEq, Repr

/-- `struct admin_auth_parser` -/
structure AdminAuthParser where
  state : AdminAuthState := .readingUserLen
  ret : ℤ := 0
  user : Option Block := none
  password : Option Block := none
  charsRemaining : UInt8 := 0
  index : UInt8 := 0
deriving DecidableEq, Repr

/-- `admin_auth_parser_init`, which leaves `ret` as it is. -/
def adminAuthParserInit (p : AdminAuthParser) : AdminAuthParser :=
  { ret := p.ret }

/-- The test of `admin_consume_auth_buffer`, and of `admin_auth_read`, for a
verdict. -/
def AdminAuthState.final : AdminAuthState → Bool
  | .done | .badSyntax => true
  | _ => false

/-- `admin_auth_parser_feed` -/
def adminAuthParserFeed (c : UInt8) :
    AdminAuthParser × Allocs → Except Fault (AdminAuthParser × Allocs)
  | (p, a) =>
    match p.state with
    | .readingUserLen =>
        if c = 0 then .ok ({ p with state := .badSyntax }, a)
        else
          let (user, a) := calloc (c.toNat + 1) a
          let p := { p with charsRemaining := c, user := user }
          if user = none then .ok ({ p with state := .badSyntax }, a)
          else .ok ({ p with state := .readingUser }, a)
    | .readingUser => do
        let user ← putByte p.user p.index.toNat c
        let p := { p with user := user, index := p.index + 1 }
        if p.index = p.charsRemaining then do
          let user ← putByte p.user p.index.toNat 0
          .ok ({ p with user := user, state := .readingPassLen }, a)
        else .ok (p, a)
    | .readingPassLen =>
        if c = 0 then .ok ({ p with state := .badSyntax }, a)
        else
          let (password, a) := calloc (c.toNat + 1) a
          let p := { p with charsRemaining := c, index := 0, password := password }
          if password = none then .ok ({ p with state := .badSyntax }, a)
          else .ok ({ p with state := .readingPass }, a)
    | .readingPass => do
        let password ← putByte p.password p.index.toNat c
        let p := { p with password := password, index := p.index + 1 }
        if p.index = p.charsRemaining then do
          let password ← putByte p.password p.index.toNat 0
          .ok ({ p with password := password, state := .done }, a)
        else .ok (p, a)
    | .done | .badSyntax => .ok (p, a)

/-- The test for a verdict, for the parser and the allocations to come. -/
abbrev adminAuthFinal (s : AdminAuthParser × Allocs) : Bool := s.1.state.final

/-- `admin_consume_auth_buffer` -/
def adminConsumeAuthBuffer (b : Buffer) (p : AdminAuthParser) (a : Allocs) :
    Except Fault (Buffer × AdminAuthParser × Allocs) :=
  consume adminAuthParserFeed adminAuthFinal b (p, a)

/-- `admin_auth_fill_msg`; `none` is the result `-1`. -/
def adminAuthFillMsg (b : Buffer) (ret : ℤ) : Except Fault (Option Buffer) :=
  if b.room < 1 then .ok none
  else do
    let b ← b.put [UInt8.ofInt ret]
    .ok (some b)

/-- `ULEN UNAME PLEN PASSWD` -/
def adminCredentialsMessage (user password : List UInt8) : List UInt8 :=
  lengthByte user :: user ++ lengthByte password :: password

/-! ## The parser of the clients -/

/-- The state of this parser that corresponds to one of the clients' parser. -/
def AuthState.toAdmin : AuthState → AdminAuthState
  | .readingVersion | .readingUserLen => .readingUserLen
  | .readingUser => .readingUser
  | .readingPassLen => .readingPassLen
  | .readingPass => .readingPass
  | .done => .done
  | .badLength | .unsupportedVersion | .badSyntax => .badSyntax

/-- The parser of an administrator that corresponds to one of a client. -/
def toAdmin (ret : ℤ) : AuthParser × Allocs → AdminAuthParser × Allocs
  | (p, a) => ({
      state := p.state.toAdmin
      ret := ret
      user := p.user
      password := p.password
      charsRemaining := p.charsRemaining
      index := p.index }, a)

/-- `GoesAlong ret r' r`: the result `r'` is the one that corresponds to `r`. -/
def GoesAlong (ret : ℤ) (r' : Except Fault (AdminAuthParser × Allocs))
    (r : Except Fault (AuthParser × Allocs)) : Prop :=
  r' = (r >>= fun s => .ok (toAdmin ret s)) ∧
    ∀ s, r = .ok s → s.1.state ≠ .readingVersion ∧
      adminAuthFinal (toAdmin ret s) = authFinal s

theorem GoesAlong.ok {ret : ℤ} {s : AuthParser × Allocs}
    {s' : AdminAuthParser × Allocs} (heq : s' = toAdmin ret s)
    (hversion : s.1.state ≠ .readingVersion)
    (hfinal : adminAuthFinal (toAdmin ret s) = authFinal s) :
    GoesAlong ret (.ok s') (.ok s) := by
  refine ⟨by rw [heq, ok_bind], ?_⟩
  intro s' hs'
  cases hs'
  exact ⟨hversion, hfinal⟩

theorem GoesAlong.bind {ret : ℤ} {α : Type} {x : Except Fault α}
    {f' : α → Except Fault (AdminAuthParser × Allocs)}
    {f : α → Except Fault (AuthParser × Allocs)}
    (h : ∀ v, GoesAlong ret (f' v) (f v)) : GoesAlong ret (x >>= f') (x >>= f) := by
  rcases x with e | v
  · exact ⟨rfl, fun s hs => by cases hs⟩
  · exact h v

/-- After the version, the parsers go along with each other. -/
theorem adminAuthParserFeed_goesAlong (ret : ℤ) (c : UInt8) (p : AuthParser)
    (a : Allocs) (hversion : p.state ≠ .readingVersion) :
    GoesAlong ret (adminAuthParserFeed c (toAdmin ret (p, a)))
      (authParserFeed c (p, a)) := by
  unfold adminAuthParserFeed authParserFeed
  cases hs : p.state with
  | readingVersion => exact absurd hs hversion
  | readingUserLen =>
      simp only [toAdmin, hs, AuthState.toAdmin]
      split
      · exact .ok rfl (by simp) rfl
      · split
        · exact .ok rfl (by simp) rfl
        · exact .ok rfl (by simp) rfl
  | readingUser =>
      simp only [toAdmin, hs, AuthState.toAdmin]
      apply GoesAlong.bind
      intro user
      split
      · apply GoesAlong.bind
        intro user'
        exact .ok rfl (by simp) rfl
      · exact .ok rfl (by simp) rfl
  | readingPassLen =>
      simp only [toAdmin, hs, AuthState.toAdmin]
      split
      · exact .ok rfl (by simp) rfl
      · split
        · exact .ok rfl (by simp) rfl
        · exact .ok rfl (by simp) rfl
  | readingPass =>
      simp only [toAdmin, hs, AuthState.toAdmin]
      apply GoesAlong.bind
      intro password
      split
      · apply GoesAlong.bind
        intro password'
        exact .ok rfl (by simp) rfl
      · exact .ok rfl (by simp) rfl
  | badLength =>
      simp only [toAdmin, hs, AuthState.toAdmin]
      exact .ok (by simp [toAdmin, hs, AuthState.toAdmin]) hversion
        (by simp [toAdmin, hs, AuthState.toAdmin, adminAuthFinal, authFinal,
          AdminAuthState.final, AuthState.final])
  | done =>
      simp only [toAdmin, hs, AuthState.toAdmin]
      exact .ok (by simp [toAdmin, hs, AuthState.toAdmin]) hversion
        (by simp [toAdmin, hs, AuthState.toAdmin, adminAuthFinal, authFinal,
          AdminAuthState.final, AuthState.final])
  | unsupportedVersion =>
      simp only [toAdmin, hs, AuthState.toAdmin]
      exact .ok (by simp [toAdmin, hs, AuthState.toAdmin]) hversion
        (by simp [toAdmin, hs, AuthState.toAdmin, adminAuthFinal, authFinal,
          AdminAuthState.final, AuthState.final])
  | badSyntax =>
      simp only [toAdmin, hs, AuthState.toAdmin]
      exact .ok (by simp [toAdmin, hs, AuthState.toAdmin]) hversion
        (by simp [toAdmin, hs, AuthState.toAdmin, adminAuthFinal, authFinal,
          AdminAuthState.final, AuthState.final])

/-- The two fields of a message are decoded, or there is no memory for one of
them. -/
theorem decode_adminCredentials {u w : List UInt8} (p : AdminAuthParser)
    (hu : FieldLength u) (hw : FieldLength w) (tail : List UInt8) (a : Allocs) :
    ∃ s rest, decode adminAuthParserFeed adminAuthFinal
        (adminCredentialsMessage u w ++ tail) (adminAuthParserInit p, a) =
          .ok (s, rest) ∧
      ((OutOfMemory a ∧ s.1.state = .badSyntax) ∨
        (¬ OutOfMemory a ∧ s.1.state = .done ∧ s.1.user = some (u ++ [0]) ∧
          s.1.password = some (w ++ [0]) ∧ rest = tail)) := by
  obtain ⟨⟨p', a'⟩, rest, hdecode, hs⟩ := decode_fields hu hw tail a
  have hmap := decode_map authParserFeed authFinal adminAuthParserFeed
    adminAuthFinal (toAdmin p.ret) (fun s => s.1.state ≠ .readingVersion)
    (fun c s hs _ => adminAuthParserFeed_goesAlong p.ret c s.1 s.2 hs)
    (lengthByte u :: u ++ lengthByte w :: w ++ tail)
    (s := (versionRead, a)) (by simp [versionRead]) rfl
  rw [hdecode, ok_bind] at hmap
  refine ⟨toAdmin p.ret (p', a'), rest, hmap, ?_⟩
  rcases hs with ⟨hmem, hbad⟩ | ⟨hmem, rfl, rfl⟩
  · refine Or.inl ⟨hmem, ?_⟩
    rw [toAdmin, show p'.state = .badSyntax from hbad]
    rfl
  · exact Or.inr ⟨hmem, rfl, rfl, rfl, rfl⟩

/-! ## What the parser has read -/

/-- What the parser holds once it has read `xs`: what the parser of a client
would hold, had it read the version before. -/
def AdminAuthParser.After (xs : List UInt8) (p : AdminAuthParser) : Prop :=
  ∃ q : AuthParser, q.state ≠ .readingVersion ∧ q.After (1 :: xs) ∧
    p = (toAdmin p.ret (q, [])).1

theorem adminAuthParserInit_after (p : AdminAuthParser) :
    (adminAuthParserInit p).After [] :=
  ⟨{ state := .readingUserLen }, by simp, ⟨rfl, rfl⟩, rfl⟩

theorem AuthState.final_toAdmin (s : AuthState) :
    s.toAdmin.final = s.final := by
  cases s <;> rfl

theorem adminAuthParserFeed_after {xs : List UInt8} {c : UInt8}
    {p p' : AdminAuthParser} {a a' : Allocs} (hp : p.After xs)
    (hstop : p.state.final = false)
    (h : adminAuthParserFeed c (p, a) = .ok (p', a')) :
    p'.After (xs ++ [c]) := by
  obtain ⟨q, hversion, hafter, hpq⟩ := hp
  obtain ⟨hmap, hnext⟩ := adminAuthParserFeed_goesAlong p.ret c q a hversion
  have hp : toAdmin p.ret (q, a) = (p, a) := Prod.ext hpq.symm rfl
  rw [hp, h] at hmap
  obtain ⟨⟨q', b⟩, hfeed, heq⟩ := bind_eq_ok.mp hmap.symm
  cases heq
  have hlive : q.state.final = false := by
    rw [hpq] at hstop
    rw [← AuthState.final_toAdmin]
    exact hstop
  exact ⟨q', (hnext _ hfeed).1, authParserFeed_after hafter hlive hfeed, rfl⟩

/-- However the stream is cut into reads, the parser holds what the bytes it
has read prescribe. -/
theorem adminAuth_reads_after {xs ys : List UInt8} {p p' : AdminAuthParser}
    {a a' : Allocs} (hp : p.After ys)
    (h : Reads adminAuthParserFeed adminAuthFinal (p, a) xs (p', a')) :
    p'.After (ys ++ xs) := by
  have hinv := h.invariant (I := fun xs s => s.1.After (ys ++ xs))
    (by simpa using hp) (by
      rintro xs c ⟨p₁, a₁⟩ ⟨p₂, a₂⟩ hI hstop hfeed
      rw [← List.append_assoc]
      exact adminAuthParserFeed_after hI hstop hfeed)
  exact hinv

/-! ## The first message of a stream -/

/-- What a stream begins with. -/
inductive Login
  | incomplete
  | malformed
  | credentials (user password : List UInt8)
deriving DecidableEq, Repr

/-- The message at the beginning of a stream. -/
def firstLogin : List UInt8 → Login
  | [] => .incomplete
  | n :: rest =>
      if n = 0 then .malformed
      else
        match rest.drop n.toNat with
        | [] => .incomplete
        | m :: tail =>
            if m = 0 then .malformed
            else if tail.length < m.toNat then .incomplete
            else .credentials (rest.take n.toNat) (tail.take m.toNat)

theorem firstLogin_message {u w : List UInt8} (hu : FieldLength u)
    (hw : FieldLength w) (tail : List UInt8) :
    firstLogin (adminCredentialsMessage u w ++ tail) = .credentials u w := by
  have hlen : u.length = (lengthByte u).toNat := length_eq_lengthByte hu
  have hlen' : w.length = (lengthByte w).toNat := length_eq_lengthByte hw
  have heq : adminCredentialsMessage u w ++ tail =
      lengthByte u :: (u ++ lengthByte w :: (w ++ tail)) := by
    simp [adminCredentialsMessage]
  rw [heq, firstLogin, if_neg (lengthByte_ne_zero hu), ← hlen,
    List.drop_left]
  simp only [if_neg (lengthByte_ne_zero hw)]
  rw [if_neg (by rw [List.length_append]; omega), List.take_left, ← hlen',
    List.take_left]

/-- A complete message. -/
theorem AdminAuthParser.After.done {xs : List UInt8} {p : AdminAuthParser}
    (h : p.After xs) (hdone : p.state = .done) :
    ∃ u w, xs = adminCredentialsMessage u w ∧ FieldLength u ∧
      FieldLength w ∧ p.user = some (u ++ [0]) ∧
      p.password = some (w ++ [0]) := by
  obtain ⟨q, hversion, hafter, hpq⟩ := h
  have hq : q.state = .done := by
    rw [hpq] at hdone
    cases hs : q.state <;> simp [toAdmin, hs, AuthState.toAdmin] at hdone
    rfl
  unfold AuthParser.After at hafter
  simp only [hq] at hafter
  obtain ⟨u, w, hxs, hu, hw, huser, hpassword⟩ := hafter
  refine ⟨u, w, List.cons_inj_right 1 |>.mp hxs, hu, hw, ?_, ?_⟩
  · rw [hpq]
    exact huser
  · rw [hpq]
    exact hpassword

/-- As long as the message has not ended it is incomplete. -/
theorem AdminAuthParser.After.incomplete {xs : List UInt8}
    {p : AdminAuthParser} (h : p.After xs) (hlive : p.state.final = false) :
    firstLogin xs = .incomplete := by
  obtain ⟨q, hversion, hafter, hpq⟩ := h
  have hfinal : q.state.final = false := by
    rw [← AuthState.final_toAdmin]
    rw [hpq] at hlive
    exact hlive
  unfold AuthParser.After at hafter
  cases hs : q.state with
  | readingVersion => exact absurd hs hversion
  | readingUserLen =>
      simp only [hs] at hafter
      obtain ⟨hxs, -⟩ := hafter
      cases hxs
      rfl
  | readingUser =>
      simp only [hs] at hafter
      obtain ⟨u, hxs, k, hn, -, -⟩ := hafter
      cases hxs
      have hne : q.charsRemaining ≠ 0 := by
        rintro h0
        rw [h0] at hn
        simp at hn
      rw [firstLogin, if_neg hne, List.drop_of_length_le (by omega)]
  | readingPassLen =>
      simp only [hs] at hafter
      obtain ⟨u, hxs, hu, -⟩ := hafter
      cases hxs
      rw [firstLogin, if_neg (lengthByte_ne_zero hu),
        ← length_eq_lengthByte hu, List.drop_length]
  | readingPass =>
      simp only [hs] at hafter
      obtain ⟨u, w, hxs, hu, -, k, hn, -, -⟩ := hafter
      cases hxs
      have hne : q.charsRemaining ≠ 0 := by
        rintro h0
        rw [h0] at hn
        simp at hn
      change firstLogin (lengthByte u :: (u ++ q.charsRemaining :: w)) = _
      rw [firstLogin, if_neg (lengthByte_ne_zero hu),
        ← length_eq_lengthByte hu, List.drop_left]
      simp only [if_neg hne]
      rw [if_pos (by omega)]
  | badLength | done | unsupportedVersion | badSyntax =>
      simp [hs, AuthState.final] at hfinal

end Socksv5
