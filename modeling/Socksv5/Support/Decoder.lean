import Socksv5.Support.Partial

/-!
# Resumable decoders

A decoder reads symbols one at a time into a state, until the state is one in
which it stops.  Input comes in chunks: what is not needed to reach a stopping
state is left unread, and a decoder that has not stopped goes on with the next
chunk.  `Reads` is the relation between the symbols read so far, over any
number of chunks, and the state they led to.
-/

namespace Socksv5.Support

universe u v

variable {ε : Type u} {σ α : Type v} {step : α → σ → Except ε σ}
  {stop : σ → Bool}

/-- Read from the list until the state is a stopping one; the rest of the list
is returned with it. -/
def decode (step : α → σ → Except ε σ) (stop : σ → Bool) :
    List α → σ → Except ε (σ × List α)
  | [], s => .ok (s, [])
  | c :: cs, s => do
      let s' ← step c s
      if stop s' then .ok (s', cs) else decode step stop cs s'

/-- More input is read where the decoder was left, unless it has stopped. -/
theorem decode_append {xs ys : List α} {s : σ} (hs : stop s = false) :
    decode step stop (xs ++ ys) s = decode step stop xs s >>= fun r =>
      if stop r.1 then .ok (r.1, r.2 ++ ys)
      else decode step stop ys r.1 := by
  induction xs generalizing s with
  | nil => simp [decode, hs]
  | cons c cs ih =>
      rw [List.cons_append, decode, decode]
      rcases hstep : step c s with e | s₁
      · rfl
      · rw [ok_bind, ok_bind]
        by_cases hstop : stop s₁ = true
        · simp only [if_pos hstop, ok_bind]
        · rw [if_neg hstop, if_neg hstop]
          exact ih (by simpa using hstop)

/-- A decoder that stops nowhere has read everything. -/
theorem decode_rest_eq_nil {xs : List α} {s s' : σ} {rest : List α}
    (h : decode step stop xs s = .ok (s', rest)) (hstop : stop s' = false) :
    rest = [] := by
  induction xs generalizing s with
  | nil =>
      cases h
      rfl
  | cons c cs ih =>
      obtain ⟨s₁, -, hrest⟩ := bind_eq_ok.mp h
      by_cases hstop₁ : stop s₁ = true
      · rw [if_pos hstop₁] at hrest
        cases hrest
        exact absurd hstop₁ (by simp [hstop])
      · rw [if_neg hstop₁] at hrest
        exact ih hrest

/-- What a decoder does not read is the end of its input, and makes no
difference to it. -/
theorem decode_used {xs : List α} {s s' : σ} {rest : List α}
    (h : decode step stop xs s = .ok (s', rest)) :
    ∃ used, xs = used ++ rest ∧ decode step stop used s = .ok (s', []) := by
  induction xs generalizing s with
  | nil =>
      cases h
      exact ⟨[], rfl, rfl⟩
  | cons c cs ih =>
      obtain ⟨s₁, hstep, hrest⟩ := bind_eq_ok.mp h
      by_cases hstop : stop s₁ = true
      · rw [if_pos hstop] at hrest
        cases hrest
        refine ⟨[c], rfl, bind_eq_ok.mpr ⟨s', hstep, ?_⟩⟩
        rw [if_pos hstop]
      · rw [if_neg hstop] at hrest
        obtain ⟨used, rfl, hused⟩ := ih hrest
        refine ⟨c :: used, rfl, bind_eq_ok.mpr ⟨s₁, hstep, ?_⟩⟩
        rw [if_neg hstop]
        exact hused

/-- A beginning that is not all that a decoder needs in order to stop leaves it
waiting for more. -/
theorem decode_of_incomplete {xs more : List α} {s s' : σ}
    (hs : stop s = false) (hmore : more ≠ [])
    (h : decode step stop (xs ++ more) s = .ok (s', [])) :
    ∃ s₁, decode step stop xs s = .ok (s₁, []) ∧ stop s₁ = false := by
  rw [decode_append hs] at h
  obtain ⟨⟨s₁, rest⟩, hdecode, h⟩ := bind_eq_ok.mp h
  by_cases hstop : stop s₁ = true
  · rw [if_pos hstop] at h
    cases rest with
    | nil =>
        rw [List.nil_append] at h
        cases h
        exact absurd rfl hmore
    | cons => cases h
  · have hstop' : stop s₁ = false := by simpa using hstop
    obtain rfl := decode_rest_eq_nil hdecode hstop'
    exact ⟨s₁, hdecode, hstop'⟩

/-- A field of `n` symbols: `S xs` is the state after `xs` of them, and `t xs`
the one after all of them. -/
theorem decode_field {n : ℕ} {S t : List α → σ}
    (hgoes : ∀ xs c, xs.length + 1 < n →
      step c (S xs) = .ok (S (xs ++ [c])) ∧ stop (S (xs ++ [c])) = false)
    (hlast : ∀ xs c, xs.length + 1 = n → step c (S xs) = .ok (t (xs ++ [c])))
    {xs rest tail : List α} (hlen : xs.length + rest.length = n)
    (hne : rest ≠ []) :
    decode step stop (rest ++ tail) (S xs) =
      if stop (t (xs ++ rest)) then .ok (t (xs ++ rest), tail)
      else decode step stop tail (t (xs ++ rest)) := by
  induction rest generalizing xs with
  | nil => exact absurd rfl hne
  | cons c rest ih =>
      rw [List.cons_append, decode]
      by_cases hnil : rest = []
      · subst hnil
        rw [hlast xs c hlen, ok_bind, List.nil_append]
      · obtain ⟨hstep, hstop⟩ := hgoes xs c (by
          have := List.length_pos_iff.mpr hnil
          simp only [List.length_cons] at hlen
          omega)
        rw [hstep, ok_bind, if_neg (by simp [hstop]), ih _ hnil,
          List.append_assoc, List.singleton_append]
        simp only [List.length_append, List.length_cons, List.length_nil] at hlen ⊢
        omega

/-- A decoder that goes along with another one, state by state. -/
theorem decode_map {τ : Type v} (step : α → σ → Except ε σ) (stop : σ → Bool)
    (step' : α → τ → Except ε τ) (stop' : τ → Bool) (f : σ → τ) (I : σ → Prop)
    (hstep : ∀ c s, I s → stop s = false →
      step' c (f s) = (step c s >>= fun s' => .ok (f s')) ∧
        ∀ s', step c s = .ok s' → I s' ∧ stop' (f s') = stop s')
    (xs : List α) {s : σ} (hs : I s) (hstop : stop s = false) :
    decode step' stop' xs (f s) =
      (decode step stop xs s >>= fun r => .ok (f r.1, r.2)) := by
  induction xs generalizing s with
  | nil => rfl
  | cons c cs ih =>
      obtain ⟨hf, hI⟩ := hstep c s hs hstop
      rw [decode, decode, hf]
      rcases hfirst : step c s with e | s₁
      · rfl
      · obtain ⟨hs₁, hstop₁⟩ := hI s₁ hfirst
        simp only [ok_bind, hstop₁]
        by_cases h : stop s₁ = true
        · rw [if_pos h, if_pos h, ok_bind]
        · rw [if_neg h, if_neg h]
          exact ih hs₁ (by simpa using h)

/-- A decoder whose steps all succeed under an invariant that they keep gives a
result, of which the invariant holds. -/
theorem exists_decode (step : α → σ → Except ε σ) (stop : σ → Bool)
    (I : List α → σ → Prop) (xs : List α) (s : σ) (h₀ : I [] s) (hs : stop s = false)
    (hstep : ∀ ys c s₁, ys ++ [c] <+: xs → I ys s₁ → stop s₁ = false →
      ∃ s₂, step c s₁ = .ok s₂ ∧ I (ys ++ [c]) s₂) :
    ∃ s' used rest, decode step stop xs s = .ok (s', rest) ∧
      xs = used ++ rest ∧ I used s' ∧ (stop s' = false → rest = []) := by
  induction xs generalizing I s with
  | nil => exact ⟨s, [], [], rfl, rfl, h₀, fun _ => rfl⟩
  | cons c cs ih =>
      obtain ⟨s₁, hfirst, hI⟩ := hstep [] c s ⟨cs, rfl⟩ h₀ hs
      rw [decode, hfirst, ok_bind]
      by_cases hstop : stop s₁ = true
      · rw [if_pos hstop]
        exact ⟨s₁, [c], cs, rfl, rfl, hI, fun h => absurd hstop (by simp [h])⟩
      · rw [if_neg hstop]
        obtain ⟨s', used, rest, hdecode, rfl, hI', hrest⟩ :=
          ih (fun ys => I (c :: ys)) s₁ hI (by simpa using hstop) (by
            intro ys d s₂ hpre hI₂ hstop₂
            exact hstep (c :: ys) d s₂
              (List.cons_prefix_cons.mpr ⟨rfl, hpre⟩) hI₂ hstop₂)
        exact ⟨s', c :: used, rest, hdecode, rfl, hI', hrest⟩

/-- `Reads step stop s xs s'`: from `s` the symbols `xs` were read, none of
them in a stopping state, and led to `s'`. -/
inductive Reads (step : α → σ → Except ε σ) (stop : σ → Bool) (s : σ) :
    List α → σ → Prop
  | nil : Reads step stop s [] s
  | snoc {xs : List α} {c : α} {s₁ s₂ : σ} :
      Reads step stop s xs s₁ → stop s₁ = false → step c s₁ = .ok s₂ →
      Reads step stop s (xs ++ [c]) s₂

theorem Reads.trans {s s₁ s₂ : σ} {xs ys : List α}
    (h : Reads step stop s xs s₁) (h' : Reads step stop s₁ ys s₂) :
    Reads step stop s (xs ++ ys) s₂ := by
  induction h' with
  | nil => simpa using h
  | snoc _ hstop hstep ih =>
      rw [← List.append_assoc]
      exact .snoc ih hstop hstep

/-- What every single read preserves holds after any number of them. -/
theorem Reads.invariant {I : List α → σ → Prop} {s s' : σ} {xs : List α}
    (h : Reads step stop s xs s') (h₀ : I [] s)
    (hstep : ∀ xs c s₁ s₂, I xs s₁ → stop s₁ = false → step c s₁ = .ok s₂ →
      I (xs ++ [c]) s₂) : I xs s' := by
  induction h with
  | nil => exact h₀
  | snoc _ hstop hs ih => exact hstep _ _ _ _ ih hstop hs

theorem Reads.eq_of_nil {s s' : σ} (h : Reads step stop s [] s') : s' = s := by
  generalize hxs : ([] : List α) = xs at h
  cases h with
  | nil => rfl
  | snoc => simp at hxs

/-- What has been read need not be read again. -/
theorem Reads.decode_append {s s' : σ} {xs : List α}
    (h : Reads step stop s xs s') (hs : stop s = false) (ys : List α) :
    decode step stop (xs ++ ys) s =
      if stop s' then .ok (s', ys) else decode step stop ys s' := by
  induction h generalizing ys with
  | nil => rw [hs, List.nil_append, if_neg Bool.false_ne_true]
  | @snoc xs c s₁ s₂ _ hstop hstep ih =>
      rw [List.append_assoc, ih, hstop, if_neg Bool.false_ne_true,
        List.singleton_append, decode, hstep, ok_bind]

/-- Reading a list reads a prefix of it, and stops only in a stopping state or
at its end. -/
theorem decode_reads {xs : List α} {s s' : σ} {rest : List α}
    (hs : stop s = false) (h : decode step stop xs s = .ok (s', rest)) :
    ∃ used, xs = used ++ rest ∧ Reads step stop s used s' ∧
      (stop s' = true ∨ rest = [] ∧ stop s' = false) := by
  induction xs generalizing s with
  | nil =>
      cases h
      exact ⟨[], rfl, .nil, Or.inr ⟨rfl, hs⟩⟩
  | cons c cs ih =>
      obtain ⟨s₁, hstep, hrest⟩ := bind_eq_ok.mp h
      have hone : Reads step stop s [c] s₁ := .snoc .nil hs hstep
      by_cases hstop : stop s₁ = true
      · rw [if_pos hstop] at hrest
        cases hrest
        exact ⟨[c], rfl, hone, Or.inl hstop⟩
      · have hstop' : stop s₁ = false := by simpa using hstop
        rw [if_neg hstop] at hrest
        obtain ⟨used, rfl, hreads, hend⟩ := ih hstop' hrest
        exact ⟨c :: used, rfl, hone.trans hreads, hend⟩

end Socksv5.Support
