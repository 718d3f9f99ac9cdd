import Socksv5.Admin.Answers
import Mathlib.Data.Nat.Digits.Defs

/-!
# The number of a buffer size command

`change_buffer_size` reads the digits of its argument from the left into an
`uint64_t`, and `set_buff_size` then compares what was accumulated with the
bounds of the size.  What was accumulated is the number that the digits denote,
modulo `2 ^ 64`.
-/

namespace Socksv5

open Support

/-- Accumulating the digits of a number from the left, modulo `m`. -/
theorem foldl_mod_eq_ofDigits (b m : ℕ) (digits : List ℕ) :
    digits.foldl (fun n d => (n * b + d) % m) 0 =
      Nat.ofDigits b digits.reverse % m := by
  induction digits using List.reverseRecOn with
  | nil => rfl
  | append_singleton digits d ih =>
      rw [List.foldl_append, List.foldl_cons, List.foldl_nil, ih,
        List.reverse_append, List.reverse_singleton, List.singleton_append,
        Nat.ofDigits_cons]
      calc
        (Nat.ofDigits b digits.reverse % m * b + d) % m =
            (Nat.ofDigits b digits.reverse * b + d) % m := by
          rw [Nat.add_mod, Nat.mod_mul_mod, ← Nat.add_mod]
        _ = (d + b * Nat.ofDigits b digits.reverse) % m := by
          rw [Nat.mul_comm, Nat.add_comm]

/-- The values of the digits of a string. -/
def digitValues (d : List UInt8) : List ℕ :=
  d.map fun c => c.toNat - 48

/-- The number that a string of decimal digits denotes. -/
def numberOf (d : List UInt8) : ℕ :=
  Nat.ofDigits 10 (digitValues d).reverse

theorem toInt_toInt8_of_lt {c : UInt8} (h : c.toNat < 128) :
    c.toInt8.toInt = c.toNat := by
  rw [← Int8.toInt_toBitVec, UInt8.toBitVec_toInt8, BitVec.toInt_eq_toNat_of_lt,
    UInt8.toNat_toBitVec]
  rw [UInt8.toNat_toBitVec]
  omega

/-- The subtraction of `'0'` does not wrap for a digit. -/
theorem nextSize_of_isDigit {c : UInt8} (h : isDigit c = true) (size : ℕ) :
    nextSize size c = (size * 10 + (c.toNat - 48)) % 18446744073709551616 := by
  have hdigit := isDigit_iff.mp h
  have hlow : 48 ≤ c.toNat := UInt8.le_iff_toNat_le.mp hdigit.1
  have hhigh : c.toNat ≤ 57 := UInt8.le_iff_toNat_le.mp hdigit.2
  rw [nextSize, toInt_toInt8_of_lt (by omega)]
  omega

/-- What `change_buffer_size` accumulates is the number, modulo `2 ^ 64`. -/
theorem foldl_nextSize {d : List UInt8} (hd : d.all isDigit = true) :
    d.foldl nextSize 0 = numberOf d % 18446744073709551616 := by
  rw [numberOf, ← foldl_mod_eq_ofDigits, digitValues, List.foldl_map]
  apply List.foldl_ext
  intro size c hc
  exact nextSize_of_isDigit (List.all_eq_true.mp hd c hc) size

/-- A call of `change_buffer_size` with a string of digits sets the number that
they denote modulo `2 ^ 64`, when it is a size. -/
theorem changeBufferSize_of_digits {newBuffSize : Option Block}
    {d : List UInt8} (hd : d.all isDigit = true)
    (h : HoldsText newBuffSize d) (bufferSize : ℕ) :
    changeBufferSize newBuffSize bufferSize =
      .ok (setBuffSize (numberOf d % 18446744073709551616) bufferSize) := by
  have hzero : (0 : UInt8) ∉ d := not_mem_of_all hd (by decide)
  have hlen := h.strlen hzero
  obtain ⟨block, rfl, hpre⟩ := h
  have htake : block.take d.length = d :=
    (List.prefix_iff_eq_take.mp ((List.prefix_append d [0]).trans hpre)).symm
  rw [changeBufferSize, hlen, ok_bind, Option.getD_some, htake,
    foldl_nextSize hd]

/-- The sizes that can be set. -/
def IsBufferSize (n : ℕ) : Prop :=
  minBufferSize ≤ n ∧ n ≤ maxBuffSize

instance (n : ℕ) : Decidable (IsBufferSize n) :=
  inferInstanceAs (Decidable (_ ∧ _))

theorem setBuffSize_of_isBufferSize {size : ℕ} (h : IsBufferSize size)
    (bufferSize : ℕ) : setBuffSize size bufferSize = (0, size) := by
  obtain ⟨hlow, hhigh⟩ := h
  rw [setBuffSize, if_neg (by omega)]

theorem setBuffSize_of_not_isBufferSize {size : ℕ} (h : ¬ IsBufferSize size)
    (bufferSize : ℕ) : setBuffSize size bufferSize = (-1, bufferSize) := by
  rw [IsBufferSize] at h
  rw [setBuffSize, if_pos (by omega)]

/-- What a call of `change_buffer_size` returns and the size after it: a number
within the bounds becomes the size, and any other one is refused. -/
def SetsExactly (number bufferSize : ℕ) (result : ℤ × ℕ) : Prop :=
  (IsBufferSize number → result = (0, number)) ∧
    (¬ IsBufferSize number → result = (-1, bufferSize))

/-- A buffer size command is numerically exact if and only if its number does
not exceed `UINT64_MAX`, or its remainder modulo `2 ^ 64` is not a size. -/
theorem changeBufferSize_exact_iff {newBuffSize : Option Block}
    {d : List UInt8} (hd : d.all isDigit = true)
    (h : HoldsText newBuffSize d) (bufferSize : ℕ) :
    (∃ result, changeBufferSize newBuffSize bufferSize = .ok result ∧
        SetsExactly (numberOf d) bufferSize result) ↔
      (numberOf d < 18446744073709551616 ∨
        ¬ IsBufferSize (numberOf d % 18446744073709551616)) := by
  have hcall := changeBufferSize_of_digits hd h bufferSize
  constructor
  · rintro ⟨result, hresult, -, hrefused⟩
    rw [hcall] at hresult
    by_contra hnot
    push Not at hnot
    obtain ⟨hlarge, hsize⟩ := hnot
    have hbeyond : ¬ IsBufferSize (numberOf d) := by
      rintro ⟨-, hhigh⟩
      have : maxBuffSize < 18446744073709551616 := by decide
      omega
    rw [hrefused hbeyond, setBuffSize_of_isBufferSize hsize] at hresult
    simp at hresult
  · intro hexact
    refine ⟨_, hcall, ?_, ?_⟩
    · intro hsize
      have hsmall : numberOf d < 18446744073709551616 :=
        lt_of_le_of_lt hsize.2 (by decide)
      rw [Nat.mod_eq_of_lt hsmall, setBuffSize_of_isBufferSize hsize]
    · intro hnot
      have hrem : ¬ IsBufferSize (numberOf d % 18446744073709551616) := by
        rcases hexact with hsmall | hrem
        · rwa [Nat.mod_eq_of_lt hsmall]
        · exact hrem
      exact setBuffSize_of_not_isBufferSize hrem bufferSize

/-- `300` -/
theorem changeBufferSize_exact_of_300 :
    ∃ result, changeBufferSize (some (ascii "300" ++ [0])) 4096 = .ok result ∧
      SetsExactly (numberOf (ascii "300")) 4096 result :=
  (changeBufferSize_exact_iff (d := ascii "300") (by decide)
    ⟨_, rfl, List.prefix_rfl⟩ 4096).mpr (.inl (by decide))

/-- `18446744073709551916` is `2 ^ 64 + 300`: the size becomes 300. -/
theorem not_changeBufferSize_exact_of_wrap :
    ¬ ∃ result,
      changeBufferSize (some (ascii "18446744073709551916" ++ [0])) 4096 =
          .ok result ∧
        SetsExactly (numberOf (ascii "18446744073709551916")) 4096 result := by
  rintro ⟨result, hresult, -, hrefused⟩
  have hset : changeBufferSize (some (ascii "18446744073709551916" ++ [0]))
      4096 = .ok (0, 300) := by decide
  rw [hset] at hresult
  have hnot : ¬ IsBufferSize (numberOf (ascii "18446744073709551916")) := by
    decide
  cases hresult
  have hpair := hrefused hnot
  simp at hpair

end Socksv5
