import Mathlib.Tactic.Common

/-!
# Computations that may fail

What is known of a computation written with `do` that has given a value: so
have the computations it is made of.
-/

namespace Socksv5.Support

universe u v

variable {ε : Type u} {α β : Type v}

/-- A value is passed on. -/
@[simp] theorem ok_bind (a : α) (f : α → Except ε β) :
    ((.ok a : Except ε α) >>= f) = f a := rfl

/-- What a bound computation gave, when the whole of it gave a value. -/
theorem bind_eq_ok {x : Except ε α} {f : α → Except ε β} {b : β} :
    (x >>= f) = .ok b ↔ ∃ a, x = .ok a ∧ f a = .ok b := by
  cases x with
  | error e => simp [Bind.bind, Except.bind]
  | ok a => simp [Bind.bind, Except.bind]

theorem toOption_eq_some {x : Except ε α} {a : α} :
    x.toOption = some a ↔ x = .ok a := by
  cases x <;> simp [Except.toOption]

/-- What every turn of a loop keeps holds when the loop has ended. -/
theorem foldlM_invariant {γ : Type u} {f : α → γ → Except ε α} {I : α → Prop}
    {xs : List γ} {a b : α} (h : xs.foldlM f a = .ok b) (h₀ : I a)
    (hstep : ∀ a x b, I a → f a x = .ok b → I b) : I b := by
  induction xs generalizing a with
  | nil =>
      cases h
      exact h₀
  | cons x xs ih =>
      rw [List.foldlM_cons] at h
      obtain ⟨a', hfirst, hrest⟩ := bind_eq_ok.mp h
      exact ih hrest (hstep a x a' h₀ hfirst)

end Socksv5.Support
