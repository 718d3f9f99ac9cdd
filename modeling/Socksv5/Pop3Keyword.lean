import Socksv5.Pop3Dialogue
import Socksv5.Support.Restart

/-!
# Where the sniffer finds a command

`read_user_command` and `read_pass_command` begin again after a byte that breaks
a match, and do not look at that byte again.  Neither keyword has its first letter
a second time, so a command is missed only where it directly follows such a
beginning that was taken for it.
-/

namespace Socksv5

open Support

/-- The last bytes are the keyword, in any letter case. -/
def EndsWith (keyword bytes : List UInt8) : Prop :=
  keyword.map tolower <:+ bytes.map tolower

instance (keyword bytes : List UInt8) : Decidable (EndsWith keyword bytes) :=
  inferInstanceAs (Decidable (_ <:+ _))

/-- The first position at which the last bytes are the keyword. -/
def FirstPosition (keyword bytes : List UInt8) (n : ℕ) : Prop :=
  EndsWith keyword (bytes.take n) ∧ ∀ m < n, ¬ EndsWith keyword (bytes.take m)

/-- The sniffer is in the state after `n` of the bytes for the first time. -/
def Pop3Sniffer.MovesAt (s : Pop3Sniffer) (state : Pop3SnifferState)
    (bytes : List UInt8) (n : ℕ) : Prop :=
  (∃ s', s.feed (bytes.take n) = .ok s' ∧ s'.state = state) ∧
    ∀ m < n, ∀ s', s.feed (bytes.take m) = .ok s' → s'.state ≠ state

/-- The sniffer, with nothing matched yet, moves on at the first position of the
command and at no other. -/
def FindsExactly (c : Pop3Command) (s : Pop3Sniffer) (bytes : List UInt8) : Prop :=
  ∀ n ≤ bytes.length,
    (c.seeking 5 0 s).MovesAt c.next bytes n ↔ FirstPosition c.text bytes n

/-! ## The keywords -/

theorem endsIn_iff_endsWith {keyword bytes : List UInt8} :
    EndsIn sameLetter keyword bytes ↔ EndsWith keyword bytes := by
  constructor
  · rintro ⟨pre, k, rfl, hk⟩
    rw [EndsWith, List.map_append, forall₂_sameLetter_iff.mp hk]
    exact List.suffix_append _ _
  · rintro ⟨p, hp⟩
    obtain ⟨pre, k, rfl, -, hk⟩ := List.map_eq_append_iff.mp hp.symm
    exact ⟨pre, k, rfl, forall₂_sameLetter_iff.mpr hk⟩

theorem firstEnd_iff {keyword bytes : List UInt8} {n : ℕ} :
    FirstEnd sameLetter keyword bytes n ↔ FirstPosition keyword bytes n := by
  unfold FirstEnd FirstPosition
  simp only [endsIn_iff_endsWith]

/-- The first letter of a command stands in it once. -/
theorem Pop3Command.firstOnly (c : Pop3Command) : FirstOnly sameLetter c.text := by
  intro b i h
  obtain ⟨f, ds, htext, hds⟩ : ∃ f ds, c.text = f :: ds ∧
      ∀ d ∈ ds, tolower d ≠ tolower f := by
    cases c with
    | user => exact ⟨85, [83, 69, 82, 32], rfl, by decide +kernel⟩
    | pass name => exact ⟨80, [65, 83, 83, 32], rfl, by decide +kernel⟩
  rw [htext] at h ⊢
  cases hd : ds[i]? with
  | none => simp [goesOn, hd] at h
  | some d =>
      have hne := hds d (List.mem_of_getElem? hd)
      have hsame : tolower b = tolower d := by simpa [goesOn, hd, sameLetter] using h
      rw [← hsame] at hne
      simpa [goesOn, sameLetter] using hne

/-! ## What is fed -/

/-- The sniffer moves on where the search ends. -/
theorem movesAt_iff (c : Pop3Command) (s : Pop3Sniffer) {bytes : List UInt8}
    {n : ℕ} (hn : n ≤ bytes.length) :
    (c.seeking 5 0 s).MovesAt c.next bytes n ↔
      seek sameLetter c.text 0 (bytes.take n) = .inr [] := by
  have hfeed : ∀ m, (c.seeking 5 0 s).feed (bytes.take m) = _ :=
    fun m => feed_seeking c s (bytes.take m) (by omega)
  have hne : ∀ j, (c.seeking 5 j s).state ≠ c.next := by
    intro j
    cases c <;> exact Pop3SnifferState.noConfusion
  constructor
  · rintro ⟨⟨s', hs', hstate⟩, hbefore⟩
    rw [hfeed] at hs'
    cases hseek : seek sameLetter c.text 0 (bytes.take n) with
    | inl j =>
        rw [hseek] at hs'
        cases hs'
        exact absurd hstate (hne j)
    | inr rest =>
        obtain ⟨pre, hpre, hfound⟩ := seek_found hseek
        have hlen := congrArg List.length hpre
        rw [List.length_take, Nat.min_eq_left hn, List.length_append] at hlen
        have htake : bytes.take pre.length = pre := by
          have h := congrArg (List.take pre.length) hpre
          rwa [List.take_take, List.take_left, Nat.min_eq_left (by omega)] at h
        by_contra hrest
        have hpos : 0 < rest.length :=
          List.length_pos_of_ne_nil fun h => hrest (by rw [h])
        refine hbefore pre.length (by omega) (c.matched s) ?_ rfl
        rw [hfeed, htake, hfound]
        rfl
  · intro hseek
    refine ⟨⟨c.matched s, ?_, rfl⟩, ?_⟩
    · rw [hfeed, hseek]
      rfl
    · intro m hm s' hs'
      rw [hfeed] at hs'
      cases hbefore : seek sameLetter c.text 0 (bytes.take m) with
      | inl j =>
          rw [hbefore] at hs'
          cases hs'
          exact hne j
      | inr rest =>
          obtain ⟨d, rfl⟩ := Nat.exists_eq_add_of_lt hm
          rw [Nat.add_assoc, List.take_add, seek_append, hbefore] at hseek
          have hnil := congrArg List.length (Sum.inr.inj hseek)
          rw [List.length_append, List.length_take, List.length_drop,
            List.length_nil] at hnil
          omega

/-- The sniffer finds a command exactly where it is, unless an odd number of
beginnings of it directly follow each other in front of the first. -/
theorem findsExactly_iff (c : Pop3Command) (s : Pop3Sniffer)
    (bytes : List UInt8) :
    FindsExactly c s bytes ↔
      ∀ n, FirstPosition c.text bytes n →
        EvenBeginnings sameLetter c.text (bytes.take (n - 5)) := by
  unfold FindsExactly
  have hexact := seek_exact_iff c.text_ne_nil c.firstOnly bytes
  rw [c.text_length] at hexact
  simp only [firstEnd_iff] at hexact
  rw [← hexact]
  constructor
  · intro h n hn
    rw [← movesAt_iff c s hn]
    exact h n hn
  · intro h n hn
    rw [movesAt_iff c s hn]
    exact h n hn

/-- The second letter of `UUSER ` ends what the first began, and is not taken for
a beginning itself. -/
theorem not_findsExactly_repeated :
    ¬ FindsExactly .user {} [85, 85, 83, 69, 82, 32] := by
  intro h
  have hposition : FirstPosition userText [85, 85, 83, 69, 82, 32] 6 :=
    ⟨by decide, by decide⟩
  have hmoves := (h 6 (by decide)).mpr hposition
  rw [movesAt_iff .user {} (by decide)] at hmoves
  exact absurd hmoves (by decide)

end Socksv5
