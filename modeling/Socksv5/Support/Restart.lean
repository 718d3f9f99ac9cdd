import Socksv5.Support.Search
import Mathlib.Algebra.Group.Nat.Even
import Mathlib.Data.List.Induction
import Mathlib.Data.Nat.Find

/-!
# The keywords that a search misses

A search that never goes back leaves out the element at which a match breaks, and
that element may begin the keyword.  When the first element of the keyword does
not stand in the rest of it, this is the only way to miss one: what counts is how
many beginnings of the keyword directly follow each other in front of it.
-/

namespace Socksv5.Support

universe u

variable {α : Type u} (same : α → α → Bool) (kw : List α)

/-- The elements of `xs` are those of `ys`. -/
def Matches (xs ys : List α) : Prop :=
  List.Forall₂ (fun b c => same b c = true) xs ys

/-- The keyword stands at the end. -/
def EndsIn (xs : List α) : Prop := ∃ pre k, xs = pre ++ k ∧ Matches same k kw

/-- The keyword stands at the end of the first `n` elements, and of no fewer. -/
def FirstEnd (xs : List α) (n : ℕ) : Prop :=
  EndsIn same kw (xs.take n) ∧ ∀ m < n, ¬ EndsIn same kw (xs.take m)

/-- Some elements of the keyword, from its first on, but not all of them. -/
def Beginning (w : List α) : Prop :=
  w ≠ [] ∧ w.length < kw.length ∧ Matches same w (kw.take w.length)

/-- The beginnings of the keyword that directly follow each other up to the end
of `xs` are even in number. -/
def EvenBeginnings (xs : List α) : Prop :=
  ∃ (q : List α) (ws : List (List α)), xs = q ++ ws.flatten ∧
    (∀ w ∈ ws, Beginning same kw w) ∧ (∀ p w, q = p ++ w → ¬ Beginning same kw w) ∧
    Even ws.length

/-- What goes on with a match never begins one. -/
def FirstOnly : Prop :=
  ∀ b i, goesOn same kw (i + 1) b = true → goesOn same kw 0 b = false

variable {same kw}

/-! ## One beginning after another -/

/-- The elements of a match go on with it. -/
theorem seek_matches {w : List α} {i : ℕ} (hi : i < kw.length)
    (hle : i + w.length ≤ kw.length)
    (hw : Matches same w ((kw.drop i).take w.length)) :
    seek same kw i w =
      if i + w.length = kw.length then .inr [] else .inl (i + w.length) := by
  induction w generalizing i with
  | nil => rw [List.length_nil, Nat.add_zero, if_neg (Nat.ne_of_lt hi), seek]
  | cons b bs ih =>
      rw [List.length_cons] at hle
      rw [List.drop_eq_getElem_cons hi, List.length_cons,
        List.take_succ_cons] at hw
      obtain ⟨hb, hbs⟩ := List.forall₂_cons.mp hw
      have hon : goesOn same kw i b = true := by
        rw [goesOn, List.getElem?_eq_getElem hi]
        exact hb
      have hcount : i + (b :: bs).length = i + 1 + bs.length := by
        rw [List.length_cons]
        omega
      rw [seek, if_pos hon, hcount]
      by_cases hlast : i + 1 = kw.length
      · obtain rfl : bs = [] := by
          rw [← List.length_eq_zero_iff]
          omega
        rw [if_pos hlast, List.length_nil, Nat.add_zero, if_pos hlast]
      · rw [if_neg hlast]
        exact ih (by omega) (by omega) hbs

/-- Where no element begins the keyword, nothing is matched. -/
theorem seek_of_none {xs : List α} (h : ∀ b ∈ xs, goesOn same kw 0 b = false) :
    seek same kw 0 xs = .inl 0 := by
  induction xs with
  | nil => rfl
  | cons b bs ih =>
      rw [seek, h b List.mem_cons_self]
      exact ih fun c hc => h c (List.mem_cons_of_mem b hc)

/-- What matches a part of the keyword goes on with a match somewhere in it. -/
theorem exists_goesOn {b : α} {xs : List α} {i : ℕ}
    (hxs : Matches same xs ((kw.drop i).take xs.length)) (hb : b ∈ xs) :
    ∃ j, goesOn same kw (i + j) b = true := by
  obtain ⟨n, hn, rfl⟩ := List.getElem_of_mem hb
  have hlen : ((kw.drop i).take xs.length).length = xs.length :=
    hxs.length_eq.symm
  have hlt : n < ((kw.drop i).take xs.length).length := by omega
  have hsame := List.Forall₂.get hxs hn hlt
  have hkw : i + n < kw.length := by
    rw [List.length_take, List.length_drop] at hlt
    omega
  refine ⟨n, ?_⟩
  rw [goesOn, List.getElem?_eq_getElem hkw]
  simpa using hsame

/-- A match that the first element of the keyword breaks leaves the rest of the
keyword unseen. -/
theorem seek_restart (hfirst : FirstOnly same kw) {w : List α} {i : ℕ}
    (hw : Matches same w (kw.take w.length)) (hne : w ≠ []) :
    seek same kw (i + 1) w = .inl 0 := by
  cases w with
  | nil => exact absurd rfl hne
  | cons b bs =>
      cases hkw : kw with
      | nil =>
          rw [hkw, List.take_nil] at hw
          cases hw
      | cons c cs =>
          rw [← hkw]
          have hw' := hw
          rw [hkw, List.length_cons, List.take_succ_cons] at hw'
          obtain ⟨hb, hbs⟩ := List.forall₂_cons.mp hw'
          have hon : goesOn same kw 0 b = true := by
            rw [goesOn, hkw]
            exact hb
          have hoff : goesOn same kw (i + 1) b = false := by
            rw [Bool.eq_false_iff]
            intro h
            exact absurd (hfirst b i h) (by rw [hon]; decide)
          rw [seek, hoff]
          refine seek_of_none fun d hd => ?_
          have hrest : Matches same bs ((kw.drop 1).take bs.length) := by
            rw [hkw]
            exact hbs
          obtain ⟨j, hj⟩ := exists_goesOn hrest hd
          rw [Nat.add_comm] at hj
          exact hfirst d j hj

/-- The beginnings that follow each other are taken and left out in turns. -/
theorem seek_beginnings (hfirst : FirstOnly same kw) {ws : List (List α)} {j : ℕ}
    (hws : ∀ w ∈ ws, Beginning same kw w) :
    ∃ j', seek same kw j ws.flatten = .inl j' ∧
      (j' = 0 ↔ (j = 0 ↔ Even ws.length)) := by
  induction ws generalizing j with
  | nil => exact ⟨j, rfl, by simp⟩
  | cons w ws ih =>
      obtain ⟨hne, hlt, hmatch⟩ := hws w List.mem_cons_self
      have hpos := List.length_pos_of_ne_nil hne
      have hrest : ∀ v ∈ ws, Beginning same kw v :=
        fun v hv => hws v (List.mem_cons_of_mem w hv)
      have hfirstStep : ∃ i, seek same kw j w = .inl i ∧ (i = 0 ↔ j ≠ 0) := by
        cases j with
        | zero =>
            refine ⟨0 + w.length, ?_, by omega⟩
            rw [seek_matches (by omega) (by omega) hmatch, if_neg (by omega)]
        | succ j => exact ⟨0, seek_restart hfirst hmatch hne, by omega⟩
      obtain ⟨i, hi, hij⟩ := hfirstStep
      obtain ⟨j', hj', hiff⟩ := ih (j := i) hrest
      refine ⟨j', ?_, ?_⟩
      · rw [List.flatten_cons, seek_append, hi]
        exact hj'
      · rw [hiff, hij, List.length_cons, Nat.even_add_one]
        tauto

/-- What is matched stands at the end. -/
theorem exists_of_seek_eq_inl (hkw : kw ≠ []) {xs : List α} {j : ℕ}
    (h : seek same kw 0 xs = .inl j) :
    ∃ q w, xs = q ++ w ∧ w.length = j ∧ Matches same w (kw.take j) := by
  induction xs using List.reverseRecOn generalizing j with
  | nil =>
      cases h
      exact ⟨[], [], rfl, rfl, .nil⟩
  | append_singleton xs b ih =>
      rw [seek_append] at h
      cases hxs : seek same kw 0 xs with
      | inr r =>
          rw [hxs] at h
          cases h
      | inl i =>
          have hi := seek_lt (List.length_pos_of_ne_nil hkw) hxs
          obtain ⟨q, w, rfl, hlen, hw⟩ := ih hxs
          rw [hxs] at h
          simp only [seek] at h
          by_cases hon : goesOn same kw i b = true
          · rw [if_pos hon] at h
            split_ifs at h
            obtain rfl := Sum.inl.inj h
            refine ⟨q, w ++ [b], by rw [List.append_assoc], by simp [hlen], ?_⟩
            rw [List.take_succ_eq_append_getElem hi]
            refine List.rel_append hw (.cons ?_ .nil)
            rw [goesOn, List.getElem?_eq_getElem hi] at hon
            exact hon
          · rw [if_neg hon] at h
            obtain rfl := Sum.inl.inj h
            exact ⟨q ++ w ++ [b], [], by simp, rfl, .nil⟩

/-- Any list ends in beginnings of the keyword that follow each other, if only
in none. -/
theorem exists_beginnings (same : α → α → Bool) (kw xs : List α) :
    ∃ (q : List α) (ws : List (List α)), xs = q ++ ws.flatten ∧
      (∀ w ∈ ws, Beginning same kw w) ∧
      ∀ p w, q = p ++ w → ¬ Beginning same kw w := by
  induction hn : xs.length using Nat.strong_induction_on generalizing xs with
  | _ n ih =>
      by_cases h : ∃ p w, xs = p ++ w ∧ Beginning same kw w
      · obtain ⟨p, w, rfl, hw⟩ := h
        have hpos := List.length_pos_of_ne_nil hw.1
        have hlt : p.length < n := by
          rw [← hn, List.length_append]
          omega
        obtain ⟨q, ws, rfl, hws, hq⟩ := ih _ hlt p rfl
        refine ⟨q, ws ++ [w], by simp, ?_, hq⟩
        intro v hv
        rcases List.mem_append.mp hv with hv | hv
        · exact hws v hv
        · rw [List.mem_singleton.mp hv]
          exact hw
      · refine ⟨xs, [], by simp, fun w hw => absurd hw List.not_mem_nil, ?_⟩
        intro p w hxs hw
        exact h ⟨p, w, hxs, hw⟩

/-- A search has nothing matched after an even number of beginnings. -/
theorem seek_eq_zero_iff (hkw : kw ≠ []) (hfirst : FirstOnly same kw) {q : List α}
    {ws : List (List α)} {j : ℕ} (h : seek same kw 0 (q ++ ws.flatten) = .inl j)
    (hws : ∀ w ∈ ws, Beginning same kw w)
    (hq : ∀ p w, q = p ++ w → ¬ Beginning same kw w) :
    j = 0 ↔ Even ws.length := by
  rw [seek_append] at h
  cases hstart : seek same kw 0 q with
  | inr r =>
      rw [hstart] at h
      cases h
  | inl i =>
      obtain ⟨p, w, hsplit, hlen, hw⟩ := exists_of_seek_eq_inl hkw hstart
      have hi : i = 0 := by
        by_contra hne
        refine hq p w hsplit ⟨?_, ?_, ?_⟩
        · rintro rfl
          exact hne hlen.symm
        · rw [hlen]
          exact seek_lt (List.length_pos_of_ne_nil hkw) hstart
        · rw [hlen]
          exact hw
      rw [hstart, hi] at h
      obtain ⟨j', hj', hiff⟩ := seek_beginnings hfirst (j := 0) hws
      obtain rfl := Sum.inl.inj (h.symm.trans hj')
      rw [hiff]
      simp

theorem evenBeginnings_iff (hkw : kw ≠ []) (hfirst : FirstOnly same kw)
    {xs : List α} {j : ℕ} (h : seek same kw 0 xs = .inl j) :
    EvenBeginnings same kw xs ↔ j = 0 := by
  constructor
  · rintro ⟨q, ws, rfl, hws, hq, heven⟩
    exact (seek_eq_zero_iff hkw hfirst h hws hq).mpr heven
  · intro hj
    obtain ⟨q, ws, rfl, hws, hq⟩ := exists_beginnings same kw xs
    exact ⟨q, ws, rfl, hws, hq, (seek_eq_zero_iff hkw hfirst h hws hq).mp hj⟩

/-! ## The first keyword -/

theorem endsIn_of_seek (hkw : kw ≠ []) {xs r : List α}
    (h : seek same kw 0 xs = .inr r) :
    ∃ pre, xs = pre ++ r ∧ EndsIn same kw pre := by
  obtain ⟨pre, k, rfl, hk⟩ := exists_of_seek (List.length_pos_of_ne_nil hkw) h
  refine ⟨pre ++ k, rfl, pre, k, rfl, ?_⟩
  rcases hk with hk | ⟨-, hk⟩
  · exact hk
  · exact hk

theorem FirstEnd.le_length {xs : List α} {n : ℕ} (h : FirstEnd same kw xs n) :
    n ≤ xs.length := by
  by_contra hn
  rw [Nat.not_le] at hn
  apply h.2 xs.length hn
  rw [List.take_length]
  have hends := h.1
  rwa [List.take_of_length_le (Nat.le_of_lt hn)] at hends

/-- Where the keyword ends, it has ended for a first time. -/
theorem exists_firstEnd {xs : List α} {n : ℕ} (h : EndsIn same kw (xs.take n)) :
    ∃ m ≤ n, FirstEnd same kw xs m := by
  classical
  have hex : ∃ m, EndsIn same kw (xs.take m) := ⟨n, h⟩
  exact ⟨Nat.find hex, Nat.find_min' hex h, Nat.find_spec hex,
    fun m hm => Nat.find_min hex hm⟩

/-- The search finds the first keyword exactly when nothing is matched in front
of it. -/
theorem seek_firstEnd_iff (hkw : kw ≠ []) (hfirst : FirstOnly same kw)
    {xs : List α} {n : ℕ} (h : FirstEnd same kw xs n) :
    seek same kw 0 (xs.take n) = .inr [] ↔
      EvenBeginnings same kw (xs.take (n - kw.length)) := by
  have hpos := List.length_pos_of_ne_nil hkw
  obtain ⟨pre, k, hsplit, hk⟩ := h.1
  have hklen : k.length = kw.length := hk.length_eq
  have hlen := congrArg List.length hsplit
  rw [List.length_take, Nat.min_eq_left h.le_length, List.length_append] at hlen
  have hpre : xs.take (n - kw.length) = pre := by
    have htake := congrArg (List.take pre.length) hsplit
    rw [List.take_take, List.take_left, Nat.min_eq_left (by omega)] at htake
    rw [← htake]
    congr 1
    omega
  obtain ⟨j, hj⟩ : ∃ j, seek same kw 0 pre = .inl j := by
    cases hseek : seek same kw 0 pre with
    | inl j => exact ⟨j, rfl⟩
    | inr r =>
        obtain ⟨p, rfl, hends⟩ := endsIn_of_seek hkw hseek
        rw [List.length_append] at hlen
        refine absurd hends ?_
        have hp : xs.take p.length = p := by
          have htake := congrArg (List.take p.length) hsplit
          rwa [List.take_take, Nat.min_eq_left (by omega), List.append_assoc,
            List.take_left] at htake
        rw [← hp]
        exact h.2 _ (by omega)
  rw [hpre, evenBeginnings_iff hkw hfirst hj, hsplit, seek_append, hj]
  have hmatch : Matches same k (kw.take k.length) := by
    rw [hklen, List.take_length]
    exact hk
  cases j with
  | zero =>
      have hseek := seek_matches (i := 0) hpos (by omega) hmatch
      rw [if_pos (by omega)] at hseek
      simpa using hseek
  | succ j =>
      have hne : k ≠ [] := by
        rintro rfl
        rw [← hklen] at hpos
        exact absurd hpos (Nat.lt_irrefl 0)
      have hseek := seek_restart hfirst (i := j) hmatch hne
      simp [hseek]

/-- A search finds the first keyword, and nothing else, exactly when the
beginnings that directly follow each other up to it are even in number. -/
theorem seek_exact_iff (hkw : kw ≠ []) (hfirst : FirstOnly same kw)
    (xs : List α) :
    (∀ n ≤ xs.length,
      seek same kw 0 (xs.take n) = .inr [] ↔ FirstEnd same kw xs n) ↔
    ∀ n, FirstEnd same kw xs n →
      EvenBeginnings same kw (xs.take (n - kw.length)) := by
  constructor
  · intro hexact n hn
    rw [← seek_firstEnd_iff hkw hfirst hn]
    exact (hexact n hn.le_length).mpr hn
  · intro heven n hle
    refine ⟨fun hseek => ?_, fun hn => ?_⟩
    · obtain ⟨pre, hpre, hends⟩ := endsIn_of_seek hkw hseek
      rw [List.append_nil] at hpre
      rw [← hpre] at hends
      obtain ⟨m, hm, hfirstEnd⟩ := exists_firstEnd hends
      have hfound := (seek_firstEnd_iff hkw hfirst hfirstEnd).mpr
        (heven m hfirstEnd)
      obtain ⟨d, rfl⟩ := Nat.exists_eq_add_of_le hm
      rw [List.take_add, seek_append, hfound] at hseek
      have hnil := Sum.inr.inj hseek
      rw [List.nil_append, List.take_eq_nil_iff, List.drop_eq_nil_iff] at hnil
      obtain rfl : d = 0 := by omega
      exact hfirstEnd
    · exact (seek_firstEnd_iff hkw hfirst hn).mpr (heven n hn)

end Socksv5.Support
