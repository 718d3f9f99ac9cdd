import Socksv5.Consume
import Socksv5.Heap
import Socksv5.Messages

/-!
# The greeting parser

`greeting_parser.c`.  The specification `GreetingParser.After` says what the
parser holds after each number of bytes; it stops with `done` exactly at the
end of a greeting message.
-/

namespace Socksv5

open Support

/-- `enum greeting_state` -/
inductive GreetingState
  | readingVersion
  | readingNmethods
  | readingMethods
  | done
  | unsupportedVersion
  | badSyntax
deriving DecidableEq, Repr

/-- `struct greeting_parser` -/
structure GreetingParser where
  state : GreetingState := .readingVersion
  methodsRemaining : UInt8 := 0
  methods : Option Block := none
  methodsIndex : UInt8 := 0
deriving DecidableEq, Repr

/-- `greeting_parser_init` -/
def greetingParserInit : GreetingParser := {}

/-- The test of `consume_greeting_buffer`, and of `greeting_read`, for a
verdict. -/
def GreetingState.final : GreetingState → Bool
  | .done | .unsupportedVersion | .badSyntax => true
  | _ => false

/-- `greeting_parser_feed` -/
def greetingParserFeed (c : UInt8) :
    GreetingParser × Allocs → Except Fault (GreetingParser × Allocs)
  | (p, a) =>
    match p.state with
    | .readingVersion =>
        if c = 5 then .ok ({ p with state := .readingNmethods }, a)
        else .ok ({ p with state := .unsupportedVersion }, a)
    | .readingNmethods =>
        if c = 0 then .ok ({ p with state := .badSyntax }, a)
        else
          let (methods, a) := calloc c.toNat a
          let p := { p with methodsRemaining := c, methods := methods }
          if methods = none then .ok ({ p with state := .badSyntax }, a)
          else .ok ({ p with state := .readingMethods }, a)
    | .readingMethods => do
        let methods ← putByte p.methods p.methodsIndex.toNat c
        let p := { p with methods := methods, methodsIndex := p.methodsIndex + 1 }
        if p.methodsIndex = p.methodsRemaining then
          .ok ({ p with state := .done }, a)
        else .ok (p, a)
    | .done | .unsupportedVersion | .badSyntax => .ok (p, a)

/-- `consume_greeting_buffer` -/
def consumeGreetingBuffer (b : Buffer) (p : GreetingParser) (a : Allocs) :
    Except Fault (Buffer × GreetingParser × Allocs) :=
  consume greetingParserFeed (fun s => s.1.state.final) b (p, a)

/-- `greeting_fill_msg`; `none` is the result `-1`. -/
def greetingFillMsg (b : Buffer) (method : UInt8) :
    Except Fault (Option Buffer) :=
  if b.room < 2 then .ok none
  else do
    let b ← b.put [5, method]
    .ok (some b)

/-- What the parser holds once it has read `xs`. -/
def GreetingParser.After (xs : List UInt8) (p : GreetingParser) : Prop :=
  match p.state with
  | .readingVersion => xs = [] ∧ p.methods = none ∧ p.methodsIndex = 0
  | .readingNmethods => xs = [5] ∧ p.methods = none ∧ p.methodsIndex = 0
  | .readingMethods => ∃ ms k, xs = 5 :: p.methodsRemaining :: ms ∧
      p.methodsRemaining.toNat = ms.length + (k + 1) ∧
      p.methodsIndex.toNat = ms.length ∧
      p.methods = some (ms ++ List.replicate (k + 1) 0)
  | .done => ∃ ms, xs = greetingMessage ms ∧ FieldLength ms ∧
      p.methods = some ms ∧ p.methodsRemaining = lengthByte ms
  | .unsupportedVersion => p.methods = none ∧ ∃ v, v ≠ 5 ∧ xs = [v]
  | .badSyntax => p.methods = none ∧ ∃ n, xs = [5, n]

theorem greetingParserInit_after : greetingParserInit.After [] :=
  ⟨rfl, rfl, rfl⟩

theorem greetingParserFeed_after {xs : List UInt8} {c : UInt8}
    {p p' : GreetingParser} {a a' : Allocs} (hp : p.After xs)
    (hstop : p.state.final = false)
    (h : greetingParserFeed c (p, a) = .ok (p', a')) : p'.After (xs ++ [c]) := by
  unfold greetingParserFeed at h
  unfold GreetingParser.After at hp
  cases hs : p.state with
  | readingVersion =>
      simp only [hs] at h hp
      obtain ⟨rfl, hm, hi⟩ := hp
      by_cases hc : c = 5
      · subst hc
        simp only [if_true] at h
        cases h
        exact ⟨rfl, hm, hi⟩
      · simp only [hc, if_false] at h
        cases h
        exact ⟨hm, c, hc, rfl⟩
  | readingNmethods =>
      simp only [hs] at h hp
      obtain ⟨rfl, hm, hi⟩ := hp
      by_cases hc : c = 0
      · subst hc
        simp only [if_true] at h
        cases h
        exact ⟨hm, 0, rfl⟩
      · simp only [hc, if_false] at h
        rcases calloc_eq c.toNat a with hcalloc | hcalloc
        · simp only [hcalloc, reduceCtorEq, if_false] at h
          cases h
          have hfield : FieldLength (List.replicate c.toNat 0) :=
            fieldLength_of_toNat hc (by simp)
          have hpos := hfield.1
          rw [List.length_replicate] at hpos
          obtain ⟨k, hk⟩ := Nat.exists_eq_add_of_le' hpos
          exact ⟨[], k, rfl, by simpa using hk, by rw [hi]; rfl, by
            rw [hk]; rfl⟩
        · simp only [hcalloc, if_true] at h
          cases h
          exact ⟨rfl, c, rfl⟩
  | readingMethods =>
      simp only [hs] at h hp
      obtain ⟨ms, k, rfl, hlen, hi, hm⟩ := hp
      obtain ⟨methods, hput, h⟩ := bind_eq_ok.mp h
      rw [hm, hi, putByte_zeros] at hput
      cases hput
      have hindex := toNat_index_succ c hlen hi
      by_cases hk : k = 0
      · subst hk
        have heq := (index_succ_eq_iff hlen hi).mpr rfl
        simp only [heq, if_true] at h
        cases h
        have hlen' : (ms ++ [c]).length = p.methodsRemaining.toNat := by
          rw [hlen]
          simp
        have hne : p.methodsRemaining ≠ 0 := by
          intro h0
          rw [h0] at hlen
          simp at hlen
        refine ⟨ms ++ [c], ?_, fieldLength_of_toNat hne hlen', by simp,
          (lengthByte_eq_of_toNat hlen').symm⟩
        rw [greetingMessage, lengthByte_eq_of_toNat hlen']
        rfl
      · have hne : p.methodsIndex + 1 ≠ p.methodsRemaining :=
          fun heq => hk ((index_succ_eq_iff hlen hi).mp heq)
        obtain ⟨j, rfl⟩ := Nat.exists_eq_succ_of_ne_zero hk
        simp only [hne, if_false] at h
        cases h
        unfold GreetingParser.After
        simp only
        refine ⟨ms ++ [c], j, rfl, ?_, hindex, rfl⟩
        rw [hlen]
        simp
        omega
  | done => simp [hs, GreetingState.final] at hstop
  | unsupportedVersion => simp [hs, GreetingState.final] at hstop
  | badSyntax => simp [hs, GreetingState.final] at hstop

/-- However the stream is cut into reads, the parser holds what the bytes it
has read prescribe. -/
theorem greeting_reads_after {xs : List UInt8} {p p' : GreetingParser}
    {a a' : Allocs} {ys : List UInt8} (hp : p.After ys)
    (h : Reads greetingParserFeed (fun s => s.1.state.final) (p, a) xs
      (p', a')) : p'.After (ys ++ xs) := by
  have := h.invariant (I := fun xs s => s.1.After (ys ++ xs)) (by simpa using hp)
    (by
      rintro xs c ⟨p₁, a₁⟩ ⟨p₂, a₂⟩ hI hstop hfeed
      rw [← List.append_assoc]
      exact greetingParserFeed_after hI hstop hfeed)
  exact this

end Socksv5
