import Mathlib.Data.List.Basic
import Mathlib.Data.List.Forall2
import Mathlib.Tactic.Common

/-!
# Searching for a keyword without going back

A search compares one element after the other with the next one of the keyword,
and begins again after an element that differs.  It never goes back, so it may
miss a keyword; what it finds is there.
-/

namespace Socksv5.Support

universe u

variable {α : Type u} (same : α → α → Bool) (kw : List α)

/-- The element goes on with a match of `i` elements. -/
def goesOn (i : ℕ) (b : α) : Bool := kw[i]?.any (same b)

/-- Where a search with `i` elements matched gets to: to so many matched, or to
what comes after the keyword. -/
def seek : ℕ → List α → ℕ ⊕ List α
  | i, [] => .inl i
  | i, b :: bs =>
      if goesOn same kw i b then
        if i + 1 = kw.length then .inr bs else seek (i + 1) bs
      else seek 0 bs

/-- What comes after the keyword, where a search finds it. -/
def afterKeyword (bs : List α) : Option (List α) := (seek same kw 0 bs).getRight?

theorem afterKeyword_eq_some {bs r : List α} :
    afterKeyword same kw bs = some r ↔ seek same kw 0 bs = .inr r := by
  unfold afterKeyword
  cases seek same kw 0 bs <;> simp

theorem afterKeyword_eq_none {bs : List α} :
    afterKeyword same kw bs = none ↔ ∃ j, seek same kw 0 bs = .inl j := by
  unfold afterKeyword
  cases seek same kw 0 bs <;> simp

variable {same kw}

theorem seek_append (i : ℕ) (xs ys : List α) :
    seek same kw i (xs ++ ys) =
      match seek same kw i xs with
      | .inl j => seek same kw j ys
      | .inr r => .inr (r ++ ys) := by
  induction xs generalizing i with
  | nil => rfl
  | cons b bs ih =>
      rw [List.cons_append, seek, seek]
      by_cases hb : goesOn same kw i b = true
      · rw [if_pos hb, if_pos hb]
        by_cases hi : i + 1 = kw.length
        · rw [if_pos hi, if_pos hi]
        · rw [if_neg hi, if_neg hi]
          exact ih (i + 1)
      · rw [if_neg hb, if_neg hb]
        exact ih 0

/-- A search that has not matched everything has matched less. -/
theorem seek_lt {i j : ℕ} {bs : List α} (hi : i < kw.length)
    (h : seek same kw i bs = .inl j) : j < kw.length := by
  induction bs generalizing i with
  | nil =>
      cases h
      exact hi
  | cons b bs ih =>
      rw [seek] at h
      split at h
      · split at h
        · cases h
        · exact ih (by omega) h
      · exact ih (by omega) h

/-- A search finds the keyword where it begins. -/
theorem seek_keyword (hsame : ∀ a, same a a = true) {i : ℕ}
    (hi : i < kw.length) (rest : List α) :
    seek same kw i (kw.drop i ++ rest) = .inr rest := by
  induction hn : kw.length - i generalizing i with
  | zero => omega
  | succ n ih =>
      have hon : goesOn same kw i kw[i] = true := by
        rw [goesOn, List.getElem?_eq_getElem hi]
        exact hsame _
      rw [List.drop_eq_getElem_cons hi, List.cons_append, seek, if_pos hon]
      by_cases hlast : i + 1 = kw.length
      · rw [if_pos hlast, List.drop_eq_nil_of_le (Nat.le_of_eq hlast.symm)]
        rfl
      · rw [if_neg hlast]
        exact ih (by omega) (by omega)

/-- What a search finds is there: the rest of the match that it began with, or
the keyword. -/
theorem exists_of_seek {i : ℕ} {bs r : List α} (hi : i < kw.length)
    (h : seek same kw i bs = .inr r) :
    ∃ pre k, bs = pre ++ k ++ r ∧
      (List.Forall₂ (fun b c => same b c = true) k kw ∨
        pre = [] ∧ List.Forall₂ (fun b c => same b c = true) k (kw.drop i)) := by
  induction bs generalizing i with
  | nil => cases h
  | cons b bs ih =>
      rw [seek] at h
      by_cases hb : goesOn same kw i b = true
      · rw [if_pos hb] at h
        have hmatch : same b kw[i] = true := by
          rw [goesOn, List.getElem?_eq_getElem hi] at hb
          exact hb
        by_cases hlast : i + 1 = kw.length
        · rw [if_pos hlast] at h
          cases h
          refine ⟨[], [b], rfl, .inr ⟨rfl, ?_⟩⟩
          rw [List.drop_eq_getElem_cons hi,
            List.drop_eq_nil_of_le (Nat.le_of_eq hlast.symm)]
          exact .cons hmatch .nil
        · rw [if_neg hlast] at h
          obtain ⟨pre, k, rfl, hk | ⟨rfl, hk⟩⟩ := ih (by omega) h
          · exact ⟨b :: pre, k, by simp, .inl hk⟩
          · refine ⟨[], b :: k, by simp, .inr ⟨rfl, ?_⟩⟩
            rw [List.drop_eq_getElem_cons hi]
            exact .cons hmatch hk
      · rw [if_neg hb] at h
        obtain ⟨pre, k, rfl, hk | ⟨rfl, hk⟩⟩ := ih (by omega) h
        · exact ⟨b :: pre, k, by simp, .inl hk⟩
        · exact ⟨[b], k, by simp, .inl hk⟩

/-- A search that has found the keyword had found it before what comes after. -/
theorem seek_found {i : ℕ} {bs r : List α} (h : seek same kw i bs = .inr r) :
    ∃ pre, bs = pre ++ r ∧ seek same kw i pre = .inr [] := by
  induction bs generalizing i with
  | nil => cases h
  | cons b bs ih =>
      rw [seek] at h
      by_cases hb : goesOn same kw i b = true
      · rw [if_pos hb] at h
        by_cases hlast : i + 1 = kw.length
        · rw [if_pos hlast] at h
          cases h
          refine ⟨[b], rfl, ?_⟩
          rw [seek, if_pos hb, if_pos hlast]
        · rw [if_neg hlast] at h
          obtain ⟨pre, rfl, hpre⟩ := ih h
          refine ⟨b :: pre, rfl, ?_⟩
          rw [seek, if_pos hb, if_neg hlast]
          exact hpre
      · rw [if_neg hb] at h
        obtain ⟨pre, rfl, hpre⟩ := ih h
        refine ⟨b :: pre, rfl, ?_⟩
        rw [seek, if_neg hb]
        exact hpre

/-- What comes after the keyword ends the list. -/
theorem afterKeyword_suffix (hkw : kw ≠ []) {bs r : List α}
    (h : afterKeyword same kw bs = some r) : r <:+ bs := by
  obtain ⟨pre, k, rfl, -⟩ := exists_of_seek (List.length_pos_of_ne_nil hkw)
    ((afterKeyword_eq_some same kw).mp h)
  exact List.suffix_append _ _

/-- It is shorter than the list. -/
theorem afterKeyword_length_lt (hkw : kw ≠ []) {bs r : List α}
    (h : afterKeyword same kw bs = some r) : r.length < bs.length := by
  have hpos := List.length_pos_of_ne_nil hkw
  obtain ⟨pre, k, rfl, hk⟩ := exists_of_seek hpos
    ((afterKeyword_eq_some same kw).mp h)
  have hlength : k.length = kw.length := by
    rcases hk with hk | ⟨-, hk⟩
    · exact hk.length_eq
    · simpa using hk.length_eq
  simp only [List.length_append]
  omega

/-- An element that is not in the keyword ends a match. -/
theorem seek_of_not_mem {i : ℕ} {b : α} (bs : List α)
    (hb : ∀ c ∈ kw, same b c = false) :
    seek same kw i (b :: bs) = seek same kw 0 bs := by
  have hoff : goesOn same kw i b = false := by
    unfold goesOn
    cases hc : kw[i]? with
    | none => rfl
    | some c => exact hb c (List.mem_of_getElem? hc)
  rw [seek, hoff]
  rfl

end Socksv5.Support
