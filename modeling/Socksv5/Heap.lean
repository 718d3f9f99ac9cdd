import Socksv5.Fault
import Mathlib.Data.List.Basic

/-!
# Heap blocks

An allocated block is the list of its bytes.  A pointer to one is `none` when
it is null.  The results of the allocations that a call makes are given with
the call, in order; those that are not given succeed.
-/

namespace Socksv5

/-- The bytes of an allocation. -/
abbrev Block := List UInt8

/-- Which of the coming allocations succeed. -/
abbrev Allocs := List Bool

/-- `calloc(n, 1)` -/
def calloc (n : ℕ) : Allocs → Option Block × Allocs
  | [] => (some (List.replicate n 0), [])
  | true :: rest => (some (List.replicate n 0), rest)
  | false :: rest => (none, rest)

/-- Which of the coming calls of `malloc` and `realloc` succeed, and what the
memory that they return holds. -/
abbrev Mallocs := List (Option (ℕ → UInt8))

/-- `malloc(n)` -/
def malloc (n : ℕ) : Mallocs → Option Block × Mallocs
  | [] => (some (List.replicate n 0), [])
  | some contents :: rest => (some ((List.range n).map contents), rest)
  | none :: rest => (none, rest)

/-- `realloc(p, n)` -/
def realloc (p : Option Block) (n : ℕ) (m : Mallocs) :
    Option Block × Mallocs :=
  let (q, m) := malloc n m
  let old := (p.getD []).take n
  (q.map fun block => old ++ block.drop old.length, m)

theorem malloc_eq (n : ℕ) (m : Mallocs) :
    (∃ block, (malloc n m).1 = some block ∧ block.length = n) ∨
      (malloc n m).1 = none := by
  rcases m with - | ⟨_ | contents, m⟩ <;> simp [malloc]

theorem calloc_eq (n : ℕ) (a : Allocs) :
    (calloc n a).1 = some (List.replicate n 0) ∨ (calloc n a).1 = none := by
  rcases a with - | ⟨_ | _, a⟩ <;> simp [calloc]

/-- `p[i] = c` -/
def putByte (p : Option Block) (i : ℕ) (c : UInt8) :
    Except Fault (Option Block) :=
  match p with
  | none => .error .nullDereference
  | some block =>
      if i < block.length then .ok (some (block.set i c))
      else .error .outOfBounds

/-- The string that starts at the beginning of the block. -/
def cString (block : Block) : List UInt8 :=
  block.takeWhile fun c => c != 0

/-- `strlen` -/
def strlen : Option Block → Except Fault ℕ
  | none => .error .nullDereference
  | some block =>
      if 0 ∈ block then .ok (cString block).length else .error .outOfBounds

/-- Storing a byte after those that have been stored. -/
theorem putByte_append (xs : List UInt8) (r c : UInt8) (rest : List UInt8) :
    putByte (some (xs ++ r :: rest)) xs.length c =
      .ok (some (xs ++ c :: rest)) := by
  simp [putByte]

/-- The next byte of a block that was cleared when it was allocated. -/
theorem putByte_zeros (xs : List UInt8) (c : UInt8) (k : ℕ) :
    putByte (some (xs ++ List.replicate (k + 1) 0)) xs.length c =
      .ok (some (xs ++ [c] ++ List.replicate k 0)) := by
  simp [putByte, List.replicate_succ]

/-- Counting a byte that is stored, when there is room for it. -/
theorem toNat_index_succ {i n : UInt8} {xs : List UInt8} {k : ℕ} (c : UInt8)
    (hn : n.toNat = xs.length + (k + 1)) (hi : i.toNat = xs.length) :
    (i + 1).toNat = (xs ++ [c]).length := by
  have hlt := n.toNat_lt
  rw [UInt8.toNat_add, hi]
  simp
  omega

/-- The count reaches the size exactly with the last byte. -/
theorem index_succ_eq_iff {i n : UInt8} {xs : List UInt8} {k : ℕ}
    (hn : n.toNat = xs.length + (k + 1)) (hi : i.toNat = xs.length) :
    i + 1 = n ↔ k = 0 := by
  have hsucc := toNat_index_succ 0 hn hi
  rw [← UInt8.toNat_inj, hsucc, hn, List.length_append, List.length_singleton]
  omega

theorem toNat_pos_of_ne_zero {n : UInt8} (hn : n ≠ 0) : 0 < n.toNat := by
  rw [Nat.pos_iff_ne_zero]
  intro h0
  apply hn
  rw [← UInt8.toNat_inj, h0]
  rfl

/-! ## Fields that are read byte by byte -/

/-- `Filling field n i block`: the field of `n` bytes has been read as far as
`field`, `i` counts what was read, and the rest of the block is clear. -/
def Filling (field : List UInt8) (n i : UInt8) (block : Option Block) : Prop :=
  ∃ k, n.toNat = field.length + (k + 1) ∧ i.toNat = field.length ∧
    block = some (field ++ List.replicate (k + 2) 0)

/-- The block of a field of `n` bytes after `xs` of them. -/
def fieldBlock (n : ℕ) (xs : List UInt8) : Option Block :=
  some (xs ++ List.replicate (n + 1 - xs.length) 0)

theorem putByte_fieldBlock {n : ℕ} {xs : List UInt8} (c : UInt8)
    (h : xs.length < n) :
    putByte (fieldBlock n xs) xs.length c = .ok (fieldBlock n (xs ++ [c])) := by
  have hsucc : n + 1 - xs.length = n - xs.length + 1 := by omega
  rw [fieldBlock, hsucc, putByte_zeros, fieldBlock, List.length_append,
    List.length_singleton, Nat.add_sub_add_right]

/-- The terminator of a field that is complete. -/
theorem putByte_terminator {n : ℕ} {xs : List UInt8} (h : xs.length = n) :
    putByte (fieldBlock n xs) xs.length 0 = .ok (some (xs ++ [0])) := by
  have hsucc : n + 1 - xs.length = 0 + 1 := by omega
  rw [fieldBlock, hsucc, putByte_zeros]
  simp

theorem ofNat_length_succ (xs : List UInt8) (c : UInt8) :
    UInt8.ofNat xs.length + 1 = UInt8.ofNat (xs ++ [c]).length := by
  rw [List.length_append, List.length_singleton, UInt8.ofNat_add]
  rfl

theorem toNat_ofNat_length {xs : List UInt8} {n : UInt8}
    (h : xs.length ≤ n.toNat) : (UInt8.ofNat xs.length).toNat = xs.length := by
  have := n.toNat_lt
  rw [UInt8.toNat_ofNat']
  omega

/-- A field that has just been allocated. -/
theorem filling_nil {n : UInt8} {a : Allocs} (hn : n ≠ 0)
    (h : (calloc (n.toNat + 1) a).1 ≠ none) :
    Filling [] n 0 (calloc (n.toNat + 1) a).1 := by
  obtain ⟨k, hk⟩ := Nat.exists_eq_add_of_le' (toNat_pos_of_ne_zero hn)
  refine ⟨k, by simpa using hk, rfl, ?_⟩
  rcases calloc_eq (n.toNat + 1) a with hcalloc | hcalloc
  · rw [hcalloc, hk]
    rfl
  · exact absurd hcalloc h

theorem Filling.exists_putByte {field : List UInt8} {n i : UInt8}
    {block : Option Block} (hf : Filling field n i block) (c : UInt8) :
    ∃ block', Socksv5.putByte block i.toNat c = .ok (some block') := by
  obtain ⟨k, -, hi, rfl⟩ := hf
  rw [hi]
  exact ⟨_, putByte_zeros field c (k + 1)⟩

/-- One more byte of a field either leaves it to be filled further or completes
it, with room for the terminator. -/
theorem Filling.putByte {field : List UInt8} {n i : UInt8}
    {block block' : Option Block} {c : UInt8} (hf : Filling field n i block)
    (h : Socksv5.putByte block i.toNat c = .ok block') :
    (i + 1 ≠ n ∧ Filling (field ++ [c]) n (i + 1) block') ∨
      (i + 1 = n ∧ (field ++ [c]).length = n.toNat ∧ n ≠ 0 ∧
        Socksv5.putByte block' (i + 1).toNat 0 =
          .ok (some (field ++ [c] ++ [0]))) := by
  obtain ⟨k, hn, hi, rfl⟩ := hf
  rw [hi, putByte_zeros] at h
  cases h
  have hindex := toNat_index_succ c hn hi
  by_cases hk : k = 0
  · subst hk
    right
    have hne : n ≠ 0 := by
      intro h0
      rw [h0] at hn
      simp at hn
    refine ⟨(index_succ_eq_iff hn hi).mpr rfl, by rw [hn]; simp, hne, ?_⟩
    rw [hindex, putByte_zeros]
    simp
  · left
    obtain ⟨j, rfl⟩ := Nat.exists_eq_succ_of_ne_zero hk
    refine ⟨fun heq => hk ((index_succ_eq_iff hn hi).mp heq), j, ?_, hindex,
      rfl⟩
    rw [hn]
    simp
    omega

end Socksv5
