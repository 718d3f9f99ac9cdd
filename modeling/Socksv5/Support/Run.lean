import Mathlib.Tactic.Common

/-!
# Runs of labelled transition systems

A run is recorded with the state before each of its steps and the label of the
step.  An invariant is proved once for one step and holds at the end of every
run; `Run.invariant_of` does the same for the runs whose steps all meet a
condition, and `Run.forall_iff` turns an equivalence about one step into one
about whole runs.  A run whose steps can be computed is found by `moves`.
-/

namespace Socksv5.Support

universe u v w

variable {σ : Type u} {τ : Type v} {step : σ → τ → σ → Prop}

/-- `Run step s tr s'`: the steps of `tr`, taken in order, lead from `s` to
`s'`. -/
inductive Run (step : σ → τ → σ → Prop) (s : σ) : List (σ × τ) → σ → Prop
  | nil : Run step s [] s
  | snoc {tr : List (σ × τ)} {s₁ s₂ : σ} {l : τ} :
      Run step s tr s₁ → step s₁ l s₂ → Run step s (tr ++ [(s₁, l)]) s₂

namespace Run

/-- One step, as a run. -/
theorem single {s s' : σ} {l : τ} (h : step s l s') :
    Run step s [(s, l)] s' :=
  .snoc .nil h

theorem append {s s₁ s₂ : σ} {tr tr' : List (σ × τ)}
    (h : Run step s tr s₁) (h' : Run step s₁ tr' s₂) :
    Run step s (tr ++ tr') s₂ := by
  induction h' with
  | nil => simpa using h
  | snoc _ hstep ih =>
      rw [← List.append_assoc]
      exact .snoc ih hstep

/-- A predicate that the steps meeting `C` preserve holds at the end of every
run of such steps. -/
theorem invariant_of {C : σ → τ → Prop} {I : σ → Prop} {s s' : σ}
    {tr : List (σ × τ)} (h : Run step s tr s') (hC : ∀ x ∈ tr, C x.1 x.2)
    (h₀ : I s)
    (hstep : ∀ s₁ l s₂, I s₁ → C s₁ l → step s₁ l s₂ → I s₂) : I s' := by
  induction h with
  | nil => exact h₀
  | @snoc tr s₁ s₂ l _ hs ih =>
      have hpre : I s₁ := ih fun x hx => hC x (by simp [hx])
      exact hstep s₁ l s₂ hpre (hC (s₁, l) (by simp)) hs

/-- An inductive invariant holds at the end of every run. -/
theorem invariant {I : σ → Prop} {s s' : σ} {tr : List (σ × τ)}
    (h : Run step s tr s') (h₀ : I s)
    (hstep : ∀ s₁ l s₂, I s₁ → step s₁ l s₂ → I s₂) : I s' :=
  h.invariant_of (C := fun _ _ => True) (fun _ _ => trivial) h₀
    fun s₁ l s₂ hI _ => hstep s₁ l s₂ hI

/-- A preorder that every step respects relates every state of a run to its
end. -/
theorem forall_rel {R : σ → σ → Prop} {s s' : σ} {tr : List (σ × τ)}
    (h : Run step s tr s') (htrans : ∀ a b c, R a b → R b c → R a c)
    (hstep : ∀ s₁ l s₂, step s₁ l s₂ → R s₁ s₂) : ∀ x ∈ tr, R x.1 s' := by
  induction h with
  | nil => simp
  | @snoc tr s₁ s₂ l _ hs ih =>
      have hlast := hstep s₁ l s₂ hs
      intro x hx
      rcases List.mem_append.mp hx with hx | hx
      · exact htrans x.1 s₁ s₂ (ih x hx) hlast
      · rw [List.mem_singleton] at hx
        rw [hx]
        exact hlast

/-- If, under an invariant, a step from a good state leads to a good state
exactly when it meets `C`, then a run goes through good states only exactly
when all its steps meet `C`.  The invariant need only be kept by those steps. -/
theorem forall_iff_of {C : σ → τ → Prop} {I G : σ → Prop} {s s' : σ}
    {tr : List (σ × τ)} (h : Run step s tr s') (hI : I s) (hG : G s)
    (hstep : ∀ s₁ l s₂, I s₁ → G s₁ → C s₁ l → step s₁ l s₂ → I s₂)
    (hiff : ∀ s₁ l s₂, I s₁ → G s₁ → step s₁ l s₂ → (G s₂ ↔ C s₁ l)) :
    ((∀ x ∈ tr, G x.1) ∧ G s') ↔ ∀ x ∈ tr, C x.1 x.2 := by
  have hboth : ((∀ x ∈ tr, C x.1 x.2) → I s') ∧
      (((∀ x ∈ tr, G x.1) ∧ G s') ↔ ∀ x ∈ tr, C x.1 x.2) := by
    induction h with
    | nil => exact ⟨fun _ => hI, by simpa using hG⟩
    | @snoc tr s₁ s₂ l hrun hs ih =>
        obtain ⟨hinv, hpre⟩ := ih
        simp only [List.forall_mem_append, List.forall_mem_singleton]
        constructor
        · rintro ⟨hC, hCl⟩
          exact hstep s₁ l s₂ (hinv hC) (hpre.mpr hC).2 hCl hs
        · rw [← hpre, and_assoc]
          constructor
          · rintro ⟨hGs, hG₁, hG₂⟩
            have hI₁ := hinv (hpre.mp ⟨hGs, hG₁⟩)
            exact ⟨⟨hGs, hG₁⟩, (hiff s₁ l s₂ hI₁ hG₁ hs).mp hG₂⟩
          · rintro ⟨⟨hGs, hG₁⟩, hCl⟩
            have hI₁ := hinv (hpre.mp ⟨hGs, hG₁⟩)
            exact ⟨hGs, hG₁, (hiff s₁ l s₂ hI₁ hG₁ hs).mpr hCl⟩
  exact hboth.2

/-- The same for an invariant that every step keeps. -/
theorem forall_iff {C : σ → τ → Prop} {I G : σ → Prop} {s s' : σ}
    {tr : List (σ × τ)} (h : Run step s tr s') (hI : I s) (hG : G s)
    (hIstep : ∀ s₁ l s₂, I s₁ → step s₁ l s₂ → I s₂)
    (hiff : ∀ s₁ l s₂, I s₁ → G s₁ → step s₁ l s₂ → (G s₂ ↔ C s₁ l)) :
    ((∀ x ∈ tr, G x.1) ∧ G s') ↔ ∀ x ∈ tr, C x.1 x.2 :=
  h.forall_iff_of hI hG (fun s₁ l s₂ hI₁ _ _ hs => hIstep s₁ l s₂ hI₁ hs) hiff

section Annotated

variable {τ' : Type w} {step' : σ → τ' → σ → Prop} {f : τ → τ'}

/-- A run whose labels say more is a run. -/
theorem forget (hf : ∀ s l s', step s l s' → step' s (f l) s') {s s' : σ}
    {tr : List (σ × τ)} (h : Run step s tr s') :
    Run step' s (tr.map fun x => (x.1, f x.2)) s' := by
  induction h with
  | nil => exact .nil
  | snoc _ hs ih =>
      rw [List.map_append]
      exact .snoc ih (hf _ _ _ hs)

/-- The labels of a run can be made to say more, if those of a step can. -/
theorem exists_annotated
    (hf : ∀ s l' s', step' s l' s' → ∃ l, f l = l' ∧ step s l s') {s s' : σ}
    {tr' : List (σ × τ')} (h : Run step' s tr' s') :
    ∃ tr, Run step s tr s' ∧ (tr.map fun x => (x.1, f x.2)) = tr' := by
  induction h with
  | nil => exact ⟨[], .nil, rfl⟩
  | @snoc tr' s₁ s₂ l' _ hs ih =>
      obtain ⟨tr, hrun, htr⟩ := ih
      obtain ⟨l, rfl, hstep⟩ := hf s₁ l' s₂ hs
      exact ⟨tr ++ [(s₁, l)], .snoc hrun hstep, by simp [htr]⟩

end Annotated

end Run

/-! ## Runs that are computed -/

/-- Where moves lead to, if they can be made: `perform` takes a state and a
move to the label of a step and the state after it. -/
def moves {μ : Type w} (perform : σ → μ → Option (τ × σ)) : σ → List μ → Option σ
  | s, [] => some s
  | s, m :: ms => (perform s m).bind fun p => moves perform p.2 ms

/-- Moves that can be made are a run, whose steps meet the condition that the moves
meet under an invariant. -/
theorem Run.of_moves_under {μ : Type w} {perform : σ → μ → Option (τ × σ)}
    {C : σ → τ → Prop} {I : σ → Prop}
    (hperform : ∀ s m l s', I s → perform s m = some (l, s') →
      step s l s' ∧ C s l ∧ I s') {s s' : σ} {ms : List μ} (h₀ : I s)
    (h : moves perform s ms = some s') :
    ∃ tr, Run step s tr s' ∧ ∀ x ∈ tr, C x.1 x.2 := by
  induction ms generalizing s with
  | nil =>
      cases h
      exact ⟨[], .nil, by simp⟩
  | cons m ms ih =>
      obtain ⟨⟨l, s₁⟩, hm, hrest⟩ := Option.bind_eq_some_iff.mp h
      obtain ⟨hstep, hC, hI⟩ := hperform s m l s₁ h₀ hm
      obtain ⟨tr, hrun, htr⟩ := ih hI hrest
      refine ⟨_, (Run.single hstep).append hrun, ?_⟩
      rw [List.forall_mem_append]
      exact ⟨List.forall_mem_singleton.mpr hC, htr⟩

theorem Run.of_moves_of {μ : Type w} {perform : σ → μ → Option (τ × σ)}
    {C : σ → τ → Prop}
    (hperform : ∀ s m l s', perform s m = some (l, s') → step s l s' ∧ C s l)
    {s s' : σ} {ms : List μ} (h : moves perform s ms = some s') :
    ∃ tr, Run step s tr s' ∧ ∀ x ∈ tr, C x.1 x.2 := by
  apply Run.of_moves_under (I := fun _ => True) _ trivial h
  intro s m l s' _ hm
  obtain ⟨hstep, hC⟩ := hperform s m l s' hm
  exact ⟨hstep, hC, trivial⟩

theorem Run.of_moves {μ : Type w} {perform : σ → μ → Option (τ × σ)}
    (hperform : ∀ s m l s', perform s m = some (l, s') → step s l s') {s s' : σ}
    {ms : List μ} (h : moves perform s ms = some s') :
    ∃ tr, Run step s tr s' := by
  obtain ⟨tr, hrun, -⟩ := Run.of_moves_of (C := fun _ _ => True)
    (fun s m l s' hm => ⟨hperform s m l s' hm, trivial⟩) h
  exact ⟨tr, hrun⟩

end Socksv5.Support
