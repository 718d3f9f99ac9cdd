import Socksv5.Support.Run
import Mathlib.Data.List.Induction

/-!
# Refinement

An abstract system says which labels may follow one another.  A concrete system,
whose steps emit such labels, refines it if every step can be followed: if from
any abstract state that is related to the state before it, what it emits leads to
one that is related to the state after it.  Then what a whole run emits is
allowed by the abstract system, and what is proved there of sequences of labels
holds of the runs.
-/

namespace Socksv5.Support

universe u v w z

variable {σ : Type u} {τ : Type v} {α : Type w} {β : Type z}
  {step : σ → τ → σ → Prop} {rule : α → β → α → Prop} {a b : α} {ls ls' : List β}

/-- `LeadsTo rule a ls b`: the labels, in this order, lead from `a` to `b`. -/
def LeadsTo (rule : α → β → α → Prop) (a : α) (ls : List β) (b : α) : Prop :=
  ∃ tr, Run rule a tr b ∧ tr.map Prod.snd = ls

namespace LeadsTo

theorem nil (a : α) : LeadsTo rule a [] a :=
  ⟨[], .nil, rfl⟩

theorem single {l : β} (h : rule a l b) : LeadsTo rule a [l] b :=
  ⟨[(a, l)], .single h, rfl⟩

theorem append {c : α} (h : LeadsTo rule a ls b) (h' : LeadsTo rule b ls' c) :
    LeadsTo rule a (ls ++ ls') c := by
  obtain ⟨tr, hrun, rfl⟩ := h
  obtain ⟨tr', hrun', rfl⟩ := h'
  exact ⟨tr ++ tr', hrun.append hrun', List.map_append⟩

theorem eq_of_nil (h : LeadsTo rule a [] b) : b = a := by
  obtain ⟨tr, hrun, htr⟩ := h
  cases hrun with
  | nil => rfl
  | snoc => simp at htr

/-- The last label is taken last. -/
theorem last {l : β} (h : LeadsTo rule a (ls ++ [l]) b) :
    ∃ c, LeadsTo rule a ls c ∧ rule c l b := by
  obtain ⟨tr, hrun, htr⟩ := h
  cases hrun with
  | nil => simp at htr
  | @snoc tr s₁ s₂ l' hpre hstep =>
      rw [List.map_append] at htr
      obtain ⟨rfl, hlast⟩ := List.append_inj' htr rfl
      cases hlast
      exact ⟨s₁, ⟨tr, hpre, rfl⟩, hstep⟩

/-- What comes first is taken first. -/
theorem split (h : LeadsTo rule a (ls ++ ls') b) :
    ∃ c, LeadsTo rule a ls c ∧ LeadsTo rule c ls' b := by
  induction ls' using List.reverseRecOn generalizing b with
  | nil =>
      rw [List.append_nil] at h
      exact ⟨b, h, .nil b⟩
  | append_singleton ls' l ih =>
      rw [← List.append_assoc] at h
      obtain ⟨c, hpre, hstep⟩ := h.last
      obtain ⟨d, hd, hd'⟩ := ih hpre
      exact ⟨d, hd, hd'.append (.single hstep)⟩

/-- What every rule keeps, all labels keep. -/
theorem invariant {I : α → Prop} (h : LeadsTo rule a ls b) (h₀ : I a)
    (hrule : ∀ a l b, I a → rule a l b → I b) : I b := by
  obtain ⟨tr, hrun, -⟩ := h
  exact hrun.invariant h₀ hrule

end LeadsTo

end Socksv5.Support
