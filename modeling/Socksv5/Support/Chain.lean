import Mathlib.Data.List.Basic
import Mathlib.Logic.Function.Basic
import Mathlib.Tactic.Common

/-!
# Linked lists in a heap

A heap is a partial map from addresses to nodes, and `next` is where a node
points to.  `Segment next heap p xs q` says that following `next` from the
pointer `p` visits the nodes `xs` and gets to the pointer `q`; a list that ends
is a segment that gets to the null pointer.
-/

namespace Socksv5.Support

universe u v

variable {A : Type u} {N : Type v} {next : N → Option A} {heap : A → Option N}

/-- From the pointer `p`, through the nodes `xs`, to the pointer `q`. -/
def Segment (next : N → Option A) (heap : A → Option N) :
    Option A → List A → Option A → Prop
  | p, [], q => p = q
  | p, a :: xs, q =>
      p = some a ∧ ∃ node, heap a = some node ∧ Segment next heap (next node) xs q

theorem segment_append {p q : Option A} {xs ys : List A} :
    Segment next heap p (xs ++ ys) q ↔
      ∃ r, Segment next heap p xs r ∧ Segment next heap r ys q := by
  induction xs generalizing p with
  | nil =>
      constructor
      · intro h
        exact ⟨p, rfl, h⟩
      · rintro ⟨r, rfl, h⟩
        exact h
  | cons a xs ih =>
      simp only [List.cons_append, Segment, ih]
      constructor
      · rintro ⟨rfl, node, hnode, r, hxs, hys⟩
        exact ⟨r, ⟨rfl, node, hnode, hxs⟩, hys⟩
      · rintro ⟨r, ⟨rfl, node, hnode, hxs⟩, hys⟩
        exact ⟨rfl, node, hnode, r, hxs, hys⟩

/-- A segment whose last node is `a`. -/
theorem segment_concat {p q : Option A} {xs : List A} {a : A} :
    Segment next heap p (xs ++ [a]) q ↔
      Segment next heap p xs (some a) ∧
        ∃ node, heap a = some node ∧ next node = q := by
  rw [segment_append]
  constructor
  · rintro ⟨r, hxs, rfl, node, hnode, hq⟩
    exact ⟨hxs, node, hnode, hq⟩
  · rintro ⟨hxs, node, hnode, hq⟩
    exact ⟨some a, hxs, rfl, node, hnode, hq⟩

/-- The nodes outside a segment may change. -/
theorem Segment.congr {heap' : A → Option N} {p q : Option A} {xs : List A}
    (h : Segment next heap p xs q) (heq : ∀ a ∈ xs, heap' a = heap a) :
    Segment next heap' p xs q := by
  induction xs generalizing p with
  | nil => exact h
  | cons a xs ih =>
      obtain ⟨hp, node, hnode, hxs⟩ := h
      refine ⟨hp, node, ?_, ih hxs fun b hb => heq b (List.mem_cons_of_mem _ hb)⟩
      rw [heq a (List.mem_cons_self ..), hnode]

/-- Only the pointer matters for where a segment leads. -/
theorem Segment.exists_node {p q : Option A} {xs : List A}
    (h : Segment next heap p xs q) {a : A} (ha : a ∈ xs) :
    ∃ node, heap a = some node := by
  induction xs generalizing p with
  | nil => exact absurd ha List.not_mem_nil
  | cons b xs ih =>
      obtain ⟨-, node, hnode, hxs⟩ := h
      rcases List.mem_cons.mp ha with rfl | hmem
      · exact ⟨node, hnode⟩
      · exact ih hxs hmem

/-- A pointer leads through one list of nodes to the null pointer. -/
theorem Segment.unique {p : Option A} {xs ys : List A}
    (hxs : Segment next heap p xs none) (hys : Segment next heap p ys none) :
    xs = ys := by
  induction xs generalizing p ys with
  | nil =>
      cases ys with
      | nil => rfl
      | cons b ys => exact absurd (hys.1.symm.trans hxs) (Option.some_ne_none b)
  | cons a xs ih =>
      obtain ⟨rfl, node, hnode, hxs⟩ := hxs
      cases ys with
      | nil => exact absurd hys (Option.some_ne_none a)
      | cons b ys =>
          obtain ⟨hab, node', hnode', hys⟩ := hys
          cases hab
          rw [hnode] at hnode'
          cases hnode'
          rw [ih hxs hys]

/-- The pointer to a nonempty segment. -/
theorem Segment.head_eq {p q : Option A} {a : A} {xs : List A}
    (h : Segment next heap p (a :: xs) q) : p = some a :=
  h.1

end Socksv5.Support
