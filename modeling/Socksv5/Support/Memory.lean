import Mathlib.Data.List.Basic
import Mathlib.Data.List.Infix
import Mathlib.Tactic.Common

/-!
# Byte memories and their windows

A block of memory is a function from addresses to cells.  A window is the list
of the cells between two addresses.  The lemmas here say how windows split,
and which of them a store changes; nothing depends on what the cells hold.
-/

namespace Socksv5.Support

variable {α : Type*}

/-- The `n` cells of the memory `m` from address `lo` on. -/
def window (m : ℕ → α) (lo n : ℕ) : List α :=
  (List.range' lo n).map m

/-- The memory `m` after the list `xs` has been stored from address `lo` on. -/
def storeAt (m : ℕ → α) (lo : ℕ) (xs : List α) : ℕ → α := fun i =>
  if lo ≤ i then (xs[i - lo]?).getD (m i) else m i

@[simp] theorem window_length (m : ℕ → α) (lo n : ℕ) :
    (window m lo n).length = n := by
  simp [window]

@[simp] theorem window_zero (m : ℕ → α) (lo : ℕ) : window m lo 0 = [] := rfl

theorem window_succ (m : ℕ → α) (lo n : ℕ) :
    window m lo (n + 1) = m lo :: window m (lo + 1) n := by
  simp [window, List.range'_succ]

theorem window_add (m : ℕ → α) (lo n k : ℕ) :
    window m lo (n + k) = window m lo n ++ window m (lo + n) k := by
  simp [window, ← List.range'_append_1]

theorem window_getElem? (m : ℕ → α) (lo n i : ℕ) :
    (window m lo n)[i]? = if i < n then some (m (lo + i)) else none := by
  by_cases hi : i < n
  · simp [window, hi]
  · simp [window, hi]

theorem window_congr {m m' : ℕ → α} {lo n : ℕ}
    (h : ∀ i, lo ≤ i → i < lo + n → m i = m' i) :
    window m lo n = window m' lo n := by
  apply List.map_congr_left
  intro i hi
  rw [List.mem_range'_1] at hi
  exact h i hi.1 hi.2

/-- Dropping from the front of a window moves its lower end. -/
theorem window_drop (m : ℕ → α) {lo n k : ℕ} (hk : k ≤ n) :
    (window m lo n).drop k = window m (lo + k) (n - k) := by
  obtain ⟨j, rfl⟩ := Nat.exists_eq_add_of_le hk
  rw [window_add]
  simp

theorem window_take (m : ℕ → α) {lo n k : ℕ} (hk : k ≤ n) :
    (window m lo n).take k = window m lo k := by
  obtain ⟨j, rfl⟩ := Nat.exists_eq_add_of_le hk
  rw [window_add]
  simp

/-- A store leaves every window below it as it was. -/
theorem window_storeAt_below (m : ℕ → α) (xs : List α) {lo n a : ℕ}
    (h : lo + n ≤ a) : window (storeAt m a xs) lo n = window m lo n := by
  apply window_congr
  intro i _ hi
  have : ¬ a ≤ i := by omega
  simp [storeAt, this]

/-- What has been stored is what the window over it holds. -/
theorem window_storeAt_self (m : ℕ → α) (xs : List α) (a : ℕ) :
    window (storeAt m a xs) a xs.length = xs := by
  apply List.ext_getElem?
  intro i
  rw [window_getElem?]
  by_cases hi : i < xs.length
  · simp [hi, storeAt]
  · simp [hi]

end Socksv5.Support
