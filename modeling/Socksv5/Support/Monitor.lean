import Mathlib.Logic.Equiv.Defs
import Socksv5.Support.Partial
import Socksv5.Support.Run

/-!
# Monitors

A system is monitored when each of its steps is a step of a system that does
not know of the monitor, together with what the monitor makes of what it
observes of that step.  The monitor does not interfere: the runs of the
monitored system are those of the other one that the monitor does not fail on,
and the monitor ends where the observations of the whole run lead it.
-/

namespace Socksv5.Support

universe u v w

variable {σ σ₀ : Type u} {τ : Type v} {μ ο ε : Type w}

/-- `Monitors step step₀ parts observe feed`: a state of the system `step` has a
state of the system `step₀` and one of the monitor as its `parts`; the monitor
is fed what is observed of a step of `step₀`. -/
structure Monitors (step : σ → τ → σ → Prop) (step₀ : σ₀ → τ → σ₀ → Prop)
    (parts : σ ≃ σ₀ × μ) (observe : σ₀ → τ → List ο)
    (feed : μ → ο → Except ε μ) : Prop where
  step_iff : ∀ s l s', step s l s' ↔ step₀ (parts s).1 l (parts s').1 ∧
    (observe (parts s).1 l).foldlM feed (parts s).2 = .ok (parts s').2

/-- What is observed of the steps of a trace. -/
def observations (observe : σ₀ → τ → List ο) (tr : List (σ₀ × τ)) : List ο :=
  tr.flatMap fun x => observe x.1 x.2

theorem observations_snoc (observe : σ₀ → τ → List ο) (tr : List (σ₀ × τ))
    (x : σ₀ × τ) : observations observe (tr ++ [x]) =
      observations observe tr ++ observe x.1 x.2 := by
  simp [observations]

namespace Monitors

variable {step : σ → τ → σ → Prop} {step₀ : σ₀ → τ → σ₀ → Prop}
  {parts : σ ≃ σ₀ × μ} {observe : σ₀ → τ → List ο} {feed : μ → ο → Except ε μ}
  {s s' : σ} {tr : List (σ × τ)} {tr₀ : List (σ₀ × τ)}

/-- Without the monitor, the same happens. -/
theorem unmonitored (h : Monitors step step₀ parts observe feed)
    (hrun : Run step s tr s') :
    ∃ tr₀, Run step₀ (parts s).1 tr₀ (parts s').1 ∧
      tr₀.map Prod.snd = tr.map Prod.snd ∧
      (observations observe tr₀).foldlM feed (parts s).2 = .ok (parts s').2 := by
  induction hrun with
  | nil => exact ⟨[], .nil, rfl, rfl⟩
  | @snoc tr s₁ s₂ l _ hstep ih =>
      obtain ⟨tr₀, hrun₀, hlabels, hfeed⟩ := ih
      obtain ⟨hstep₀, hfeed'⟩ := (h.step_iff s₁ l s₂).mp hstep
      refine ⟨tr₀ ++ [((parts s₁).1, l)], .snoc hrun₀ hstep₀, by simp [hlabels], ?_⟩
      rw [observations_snoc, List.foldlM_append, hfeed]
      exact hfeed'

/-- With the monitor, the same happens as long as it does not fail. -/
theorem monitored (h : Monitors step step₀ parts observe feed) {s₀ : σ₀}
    (hrun : Run step₀ (parts s).1 tr₀ s₀) {m : μ}
    (hfeed : (observations observe tr₀).foldlM feed (parts s).2 = .ok m) :
    ∃ tr, Run step s tr (parts.symm (s₀, m)) ∧
      tr.map Prod.snd = tr₀.map Prod.snd := by
  induction hrun generalizing m with
  | nil =>
      have hm : (parts s).2 = m := Except.ok.inj hfeed
      refine ⟨[], ?_, rfl⟩
      have hs : parts.symm ((parts s).1, m) = s := by
        rw [← hm]
        exact parts.symm_apply_apply s
      rw [hs]
      exact .nil
  | @snoc tr₀ s₁ s₂ l _ hstep ih =>
      rw [observations_snoc, List.foldlM_append] at hfeed
      obtain ⟨m₁, hfirst, hlast⟩ := bind_eq_ok.mp hfeed
      obtain ⟨tr, hrun, hlabels⟩ := ih hfirst
      refine ⟨tr ++ [(parts.symm (s₁, m₁), l)], .snoc hrun ?_, by simp [hlabels]⟩
      rw [h.step_iff, Equiv.apply_symm_apply, Equiv.apply_symm_apply]
      exact ⟨hstep, hlast⟩

/-- The runs of the monitored system with given labels are those of the other
system on which the monitor does not fail. -/
theorem run_iff (h : Monitors step step₀ parts observe feed) {ls : List τ} :
    (∃ tr, Run step s tr s' ∧ tr.map Prod.snd = ls) ↔
      ∃ tr₀, Run step₀ (parts s).1 tr₀ (parts s').1 ∧
        tr₀.map Prod.snd = ls ∧
        (observations observe tr₀).foldlM feed (parts s).2 =
          .ok (parts s').2 := by
  constructor
  · rintro ⟨tr, hrun, rfl⟩
    exact h.unmonitored hrun
  · rintro ⟨tr₀, hrun, rfl, hfeed⟩
    obtain ⟨tr, hrun', hlabels⟩ := h.monitored hrun hfeed
    have hs' : parts.symm ((parts s').1, (parts s').2) = s' :=
      parts.symm_apply_apply s'
    rw [hs'] at hrun'
    exact ⟨tr, hrun', hlabels⟩

end Monitors

end Socksv5.Support
