import Socksv5.Consume
import Socksv5.Heap
import Socksv5.Messages

/-!
# The authentication parser

`auth_parser.c`.  `AuthParser.After` says what the parser holds after each
number of bytes; it stops with `done` exactly at the end of a credentials
message, with the two fields as strings.
-/

namespace Socksv5

open Support

/-- `enum auth_state` -/
inductive AuthState
  | readingVersion
  | readingUserLen
  | readingUser
  | readingPassLen
  | readingPass
  | badLength
  | done
  | unsupportedVersion
  | badSyntax
deriving DecidableEq, Repr

/-- `struct auth_parser` -/
structure AuthParser where
  state : AuthState := .readingVersion
  user : Option Block := none
  password : Option Block := none
  charsRemaining : UInt8 := 0
  index : UInt8 := 0
deriving DecidableEq, Repr

/-- `auth_parser_init` -/
def authParserInit : AuthParser := {}

/-- The test of `consume_auth_buffer`, and of `auth_read`, for a verdict. -/
def AuthState.final : AuthState → Bool
  | .done | .unsupportedVersion | .badSyntax | .badLength => true
  | _ => false

/-- `auth_parser_feed` -/
def authParserFeed (c : UInt8) :
    AuthParser × Allocs → Except Fault (AuthParser × Allocs)
  | (p, a) =>
    match p.state with
    | .readingVersion =>
        if c = 1 then .ok ({ p with state := .readingUserLen }, a)
        else .ok ({ p with state := .unsupportedVersion }, a)
    | .readingUserLen =>
        if c = 0 then .ok ({ p with state := .badLength }, a)
        else
          let (user, a) := calloc (c.toNat + 1) a
          let p := { p with charsRemaining := c, user := user }
          if user = none then .ok ({ p with state := .badSyntax }, a)
          else .ok ({ p with state := .readingUser }, a)
    | .readingUser => do
        let user ← putByte p.user p.index.toNat c
        let p := { p with user := user, index := p.index + 1 }
        if p.index = p.charsRemaining then do
          let user ← putByte p.user p.index.toNat 0
          .ok ({ p with user := user, state := .readingPassLen }, a)
        else .ok (p, a)
    | .readingPassLen =>
        if c = 0 then .ok ({ p with state := .badLength }, a)
        else
          let (password, a) := calloc (c.toNat + 1) a
          let p := { p with charsRemaining := c, index := 0, password := password }
          if password = none then .ok ({ p with state := .badSyntax }, a)
          else .ok ({ p with state := .readingPass }, a)
    | .readingPass => do
        let password ← putByte p.password p.index.toNat c
        let p := { p with password := password, index := p.index + 1 }
        if p.index = p.charsRemaining then do
          let password ← putByte p.password p.index.toNat 0
          .ok ({ p with password := password, state := .done }, a)
        else .ok (p, a)
    | .badLength | .done | .unsupportedVersion | .badSyntax => .ok (p, a)

/-- `consume_auth_buffer` -/
def consumeAuthBuffer (b : Buffer) (p : AuthParser) (a : Allocs) :
    Except Fault (Buffer × AuthParser × Allocs) :=
  consume authParserFeed (fun s => s.1.state.final) b (p, a)

/-- `auth_fill_msg` -/
def authFillMsg (b : Buffer) (code : UInt8) : Except Fault Buffer :=
  b.put [1, code]

/-- What the parser holds once it has read `xs`. -/
def AuthParser.After (xs : List UInt8) (p : AuthParser) : Prop :=
  match p.state with
  | .readingVersion => xs = [] ∧ p.index = 0
  | .readingUserLen => xs = [1] ∧ p.index = 0
  | .readingUser => ∃ u, xs = 1 :: p.charsRemaining :: u ∧
      Filling u p.charsRemaining p.index p.user
  | .readingPassLen => ∃ u, xs = 1 :: lengthByte u :: u ∧ FieldLength u ∧
      p.user = some (u ++ [0])
  | .readingPass => ∃ u w, xs = 1 :: lengthByte u :: u ++ p.charsRemaining :: w ∧
      FieldLength u ∧ p.user = some (u ++ [0]) ∧
      Filling w p.charsRemaining p.index p.password
  | .done => ∃ u w, xs = credentialsMessage u w ∧ FieldLength u ∧
      FieldLength w ∧ p.user = some (u ++ [0]) ∧ p.password = some (w ++ [0])
  | .unsupportedVersion => ∃ v, v ≠ 1 ∧ xs = [v]
  | .badLength => xs = [1, 0] ∨ ∃ u, xs = 1 :: lengthByte u :: u ++ [0]
  | .badSyntax => ∃ n, xs = [1, n] ∨ ∃ u, xs = 1 :: lengthByte u :: u ++ [n]

theorem authParserInit_after : authParserInit.After [] :=
  ⟨rfl, rfl⟩

theorem authParserFeed_after {xs : List UInt8} {c : UInt8}
    {p p' : AuthParser} {a a' : Allocs} (hp : p.After xs)
    (hstop : p.state.final = false)
    (h : authParserFeed c (p, a) = .ok (p', a')) : p'.After (xs ++ [c]) := by
  unfold authParserFeed at h
  unfold AuthParser.After at hp
  cases hs : p.state with
  | readingVersion =>
      simp only [hs] at h hp
      obtain ⟨rfl, hi⟩ := hp
      by_cases hc : c = 1
      · subst hc
        simp only [if_true] at h
        cases h
        exact ⟨rfl, hi⟩
      · simp only [hc, if_false] at h
        cases h
        exact ⟨c, hc, rfl⟩
  | readingUserLen =>
      simp only [hs] at h hp
      obtain ⟨rfl, hi⟩ := hp
      by_cases hc : c = 0
      · subst hc
        simp only [if_true] at h
        cases h
        exact Or.inl rfl
      · simp only [hc, if_false] at h
        by_cases hcalloc : (calloc (c.toNat + 1) a).1 = none
        · simp only [hcalloc, if_true] at h
          cases h
          exact ⟨c, Or.inl rfl⟩
        · simp only [hcalloc, if_false] at h
          cases h
          refine ⟨[], rfl, ?_⟩
          rw [hi]
          exact filling_nil hc hcalloc
  | readingUser =>
      simp only [hs] at h hp
      obtain ⟨u, rfl, hfill⟩ := hp
      obtain ⟨user, hput, h⟩ := bind_eq_ok.mp h
      rcases hfill.putByte hput with
        ⟨hne, hfill'⟩ | ⟨heq, hlen, hn, hterm⟩
      · simp only [hne, if_false] at h
        cases h
        unfold AuthParser.After
        simp only
        exact ⟨u ++ [c], rfl, hfill'⟩
      · simp only [heq, if_true] at h
        obtain ⟨user', hput', h⟩ := bind_eq_ok.mp h
        rw [heq] at hterm
        rw [hterm] at hput'
        cases hput'
        cases h
        refine ⟨u ++ [c], ?_, fieldLength_of_toNat hn hlen, rfl⟩
        rw [lengthByte_eq_of_toNat hlen]
        rfl
  | readingPassLen =>
      simp only [hs] at h hp
      obtain ⟨u, rfl, hu, huser⟩ := hp
      by_cases hc : c = 0
      · subst hc
        simp only [if_true] at h
        cases h
        exact Or.inr ⟨u, rfl⟩
      · simp only [hc, if_false] at h
        by_cases hcalloc : (calloc (c.toNat + 1) a).1 = none
        · simp only [hcalloc, if_true] at h
          cases h
          exact ⟨c, Or.inr ⟨u, rfl⟩⟩
        · simp only [hcalloc, if_false] at h
          cases h
          exact ⟨u, [], rfl, hu, huser, filling_nil hc hcalloc⟩
  | readingPass =>
      simp only [hs] at h hp
      obtain ⟨u, w, rfl, hu, huser, hfill⟩ := hp
      obtain ⟨password, hput, h⟩ := bind_eq_ok.mp h
      rcases hfill.putByte hput with
        ⟨hne, hfill'⟩ | ⟨heq, hlen, hn, hterm⟩
      · simp only [hne, if_false] at h
        cases h
        unfold AuthParser.After
        simp only
        exact ⟨u, w ++ [c], by simp, hu, huser, hfill'⟩
      · simp only [heq, if_true] at h
        obtain ⟨password', hput', h⟩ := bind_eq_ok.mp h
        rw [heq] at hterm
        rw [hterm] at hput'
        cases hput'
        cases h
        refine ⟨u, w ++ [c], ?_, hu, fieldLength_of_toNat hn hlen, huser, rfl⟩
        rw [credentialsMessage, lengthByte_eq_of_toNat hlen]
        simp
  | badLength => simp [hs, AuthState.final] at hstop
  | done => simp [hs, AuthState.final] at hstop
  | unsupportedVersion => simp [hs, AuthState.final] at hstop
  | badSyntax => simp [hs, AuthState.final] at hstop

/-- However the stream is cut into reads, the parser holds what the bytes it
has read prescribe. -/
theorem auth_reads_after {xs ys : List UInt8} {p p' : AuthParser}
    {a a' : Allocs} (hp : p.After ys)
    (h : Reads authParserFeed (fun s => s.1.state.final) (p, a) xs (p', a')) :
    p'.After (ys ++ xs) := by
  have := h.invariant (I := fun xs s => s.1.After (ys ++ xs)) (by simpa using hp)
    (by
      rintro xs c ⟨p₁, a₁⟩ ⟨p₂, a₂⟩ hI hstop hfeed
      rw [← List.append_assoc]
      exact authParserFeed_after hI hstop hfeed)
  exact this

end Socksv5
