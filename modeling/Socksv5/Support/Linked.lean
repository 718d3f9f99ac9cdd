import Socksv5.Support.Chain
import Mathlib.Data.List.Nodup

/-!
# Doubly linked lists in a heap

`Linked next prev heap first xs` says that `xs` is the list that starts at
`first`: each node points to the one after it and to the one before it.  The
pointers of a node are told by any way of splitting the list at it.
-/

namespace Socksv5.Support

universe u v

variable {A : Type u} {N : Type v} {next prev : N → Option A}
  {heap heap' : A → Option N} {first first' : Option A} {xs ys zs : List A}

/-- What comes after the last node of a list without repetitions. -/
theorem eq_nil_of_getLast? {a : A} (hnodup : (ys ++ a :: zs).Nodup)
    (h : (ys ++ a :: zs).getLast? = some a) : zs = [] := by
  rcases List.eq_nil_or_concat' zs with rfl | ⟨zs, b, rfl⟩
  · rfl
  · have hlast : (ys ++ a :: (zs ++ [b])).getLast? = some b := by
      rw [← List.cons_append, ← List.append_assoc, List.getLast?_append]
      rfl
    rw [hlast] at h
    cases h
    have htail := (List.nodup_append.mp hnodup).2.1
    exact absurd (List.mem_append_right zs (List.mem_singleton_self a))
      (List.nodup_cons.mp htail).1

/-- The nodes that start at `first` are `xs`, linked in both directions. -/
structure Linked (next prev : N → Option A) (heap : A → Option N)
    (first : Option A) (xs : List A) : Prop where
  first_eq : first = xs.head?
  nodup : xs.Nodup
  node : ∀ {ys : List A} {a : A} {zs : List A}, xs = ys ++ a :: zs →
    ∃ node, heap a = some node ∧ next node = zs.head? ∧
      prev node = ys.getLast?

theorem linked_nil : Linked next prev heap none [] where
  first_eq := rfl
  nodup := List.nodup_nil
  node := by
    intro ys a zs h
    exact absurd h.symm (by simp)

theorem Linked.exists_node (h : Linked next prev heap first xs) {a : A}
    (ha : a ∈ xs) : ∃ node, heap a = some node := by
  obtain ⟨ys, zs, rfl⟩ := List.append_of_mem ha
  obtain ⟨node, hnode, -⟩ := h.node rfl
  exact ⟨node, hnode⟩

theorem Linked.first_eq_none_iff (h : Linked next prev heap first xs) :
    first = none ↔ xs = [] := by
  rw [h.first_eq, List.head?_eq_none_iff]

/-- Following `next` from `first` visits the nodes in order, and ends. -/
theorem Linked.segment (h : Linked next prev heap first xs) :
    Segment next heap first xs none := by
  have hsuffix : ∀ ys zs : List A, xs = ys ++ zs →
      Segment next heap zs.head? zs none := by
    intro ys zs
    induction zs generalizing ys with
    | nil =>
        intro _
        rfl
    | cons a zs ih =>
        intro hxs
        obtain ⟨node, hnode, hnext, -⟩ := h.node hxs
        refine ⟨rfl, node, hnode, ?_⟩
        rw [hnext]
        exact ih (ys ++ [a]) (by rw [hxs, List.append_assoc]; rfl)
  rw [h.first_eq]
  exact hsuffix [] xs rfl

/-- The node that `next` leads to points back. -/
theorem Linked.prev_of_next (h : Linked next prev heap first xs) {a b : A}
    {node : N} (ha : a ∈ xs) (hnode : heap a = some node)
    (hnext : next node = some b) :
    ∃ node', heap b = some node' ∧ prev node' = some a := by
  obtain ⟨ys, zs, hxs⟩ := List.append_of_mem ha
  obtain ⟨node₁, hnode₁, hnext₁, -⟩ := h.node hxs
  rw [hnode] at hnode₁
  cases hnode₁
  rw [hnext] at hnext₁
  obtain ⟨zs, rfl⟩ := List.head?_eq_some_iff.mp hnext₁.symm
  have hsplit : xs = (ys ++ [a]) ++ b :: zs := by
    rw [hxs, List.append_assoc]
    rfl
  obtain ⟨node', hnode', -, hprev⟩ := h.node hsplit
  refine ⟨node', hnode', ?_⟩
  rw [hprev, List.getLast?_append, List.getLast?_singleton, Option.some_or]

/-- The node that `prev` leads to points back. -/
theorem Linked.next_of_prev (h : Linked next prev heap first xs) {a b : A}
    {node : N} (hb : b ∈ xs) (hnode : heap b = some node)
    (hprev : prev node = some a) :
    ∃ node', heap a = some node' ∧ next node' = some b := by
  obtain ⟨ys, zs, hxs⟩ := List.append_of_mem hb
  obtain ⟨node₁, hnode₁, -, hprev₁⟩ := h.node hxs
  rw [hnode] at hnode₁
  cases hnode₁
  rw [hprev] at hprev₁
  obtain ⟨ys, rfl⟩ := List.getLast?_eq_some_iff.mp hprev₁.symm
  have hsplit : xs = ys ++ a :: b :: zs := by
    rw [hxs, List.append_assoc]
    rfl
  obtain ⟨node', hnode', hnext, -⟩ := h.node hsplit
  exact ⟨node', hnode', hnext⟩

/-- The nodes may change, but for their pointers. -/
theorem Linked.congr (h : Linked next prev heap first xs)
    (hsame : ∀ a node, heap a = some node → ∃ node', heap' a = some node' ∧
      next node' = next node ∧ prev node' = prev node) :
    Linked next prev heap' first xs where
  first_eq := h.first_eq
  nodup := h.nodup
  node := by
    intro ys a zs hxs
    obtain ⟨node, hnode, hnext, hprev⟩ := h.node hxs
    obtain ⟨node', hnode', hnext', hprev'⟩ := hsame a node hnode
    exact ⟨node', hnode', hnext'.trans hnext, hprev'.trans hprev⟩

/-- A node is put at the end: the last one points to it. -/
theorem Linked.concat {a : A} {new : N} (h : Linked next prev heap first xs)
    (ha : a ∉ xs) (hfirst : first' = (xs ++ [a]).head?)
    (hnew : heap' a = some new) (hnext : next new = none)
    (hprev : prev new = xs.getLast?)
    (hlast : ∀ b node, xs.getLast? = some b → heap b = some node →
      ∃ node', heap' b = some node' ∧ next node' = some a ∧
        prev node' = prev node)
    (hothers : ∀ c ∈ xs, xs.getLast? ≠ some c → heap' c = heap c) :
    Linked next prev heap' first' (xs ++ [a]) where
  first_eq := hfirst
  nodup := by
    rw [List.nodup_append]
    refine ⟨h.nodup, List.nodup_singleton a, ?_⟩
    intro c hc d hd hcd
    rw [List.mem_singleton] at hd
    exact ha (hd ▸ hcd ▸ hc)
  node := by
    intro ys c zs hsplit
    rcases List.eq_nil_or_concat' zs with rfl | ⟨zs, d, rfl⟩
    · obtain ⟨rfl, hca⟩ := List.append_inj' hsplit rfl
      cases hca
      exact ⟨new, hnew, hnext, hprev⟩
    · rw [← List.cons_append, ← List.append_assoc] at hsplit
      obtain ⟨hxs, hda⟩ := List.append_inj' hsplit rfl
      cases hda
      obtain ⟨node, hnode, hnext', hprev'⟩ := h.node hxs
      have hc : c ∈ xs := hxs ▸ List.mem_append_right ys List.mem_cons_self
      by_cases hend : xs.getLast? = some c
      · obtain ⟨node', hnode', hnext₁, hprev₁⟩ := hlast c node hend hnode
        have hzs : zs = [] := by
          have hnodup := h.nodup
          rw [hxs] at hend hnodup
          exact eq_nil_of_getLast? hnodup hend
        subst hzs
        exact ⟨node', hnode', hnext₁, hprev₁.trans hprev'⟩
      · refine ⟨node, (hothers c hc hend).trans hnode, ?_, hprev'⟩
        cases zs with
        | nil =>
            rw [hxs, List.getLast?_append] at hend
            exact absurd rfl hend
        | cons e zs => exact hnext'

/-- A node is taken out: the nodes around it point to each other. -/
theorem Linked.erase {a : A} (h : Linked next prev heap first (ys ++ a :: zs))
    (hfirst : first' = (ys ++ zs).head?)
    (hbefore : ∀ b node, ys.getLast? = some b → heap b = some node →
      ∃ node', heap' b = some node' ∧ next node' = zs.head? ∧
        prev node' = prev node)
    (hafter : ∀ b node, zs.head? = some b → heap b = some node →
      ∃ node', heap' b = some node' ∧ next node' = next node ∧
        prev node' = ys.getLast?)
    (hothers : ∀ c, c ∈ ys ++ zs → ys.getLast? ≠ some c →
      zs.head? ≠ some c → heap' c = heap c) :
    Linked next prev heap' first' (ys ++ zs) where
  first_eq := hfirst
  nodup := by
    have hnodup := h.nodup
    exact hnodup.sublist
      (List.Sublist.append_left (List.sublist_cons_self a zs) ys)
  node := by
    intro ys' c zs' hsplit
    have hnodup := h.nodup
    have hmem : c ∈ ys ++ zs :=
      hsplit ▸ List.mem_append_right ys' List.mem_cons_self
    have hnext_to : ys' = ys → zs = c :: zs' →
        ∃ node, heap' c = some node ∧ next node = zs'.head? ∧
          prev node = ys'.getLast? := by
      rintro rfl rfl
      have hold : ys' ++ a :: c :: zs' = (ys' ++ [a]) ++ c :: zs' := by
        rw [List.append_assoc]
        rfl
      obtain ⟨node, hnode, hnext, -⟩ := h.node hold
      obtain ⟨node', hnode', hnext', hprev'⟩ := hafter c node rfl hnode
      exact ⟨node', hnode', hnext'.trans hnext, hprev'⟩
    rcases List.append_eq_append_iff.mp hsplit with ⟨ts, rfl, rfl⟩ | ⟨ts, rfl, hts⟩
    · -- `c` comes after the node that is taken out.
      cases ts with
      | nil => exact hnext_to (List.append_nil ys) rfl
      | cons d ts =>
          have hold : ys ++ a :: (d :: ts ++ c :: zs') =
              (ys ++ a :: d :: ts) ++ c :: zs' := by
            rw [List.append_assoc]
            rfl
          obtain ⟨node, hnode, hnext, hprev⟩ := h.node hold
          have hend : ys.getLast? ≠ some c := by
            intro hlast
            exact List.disjoint_of_nodup_append hnodup
              (List.mem_of_getLast? hlast) (by simp)
          have hhead : (d :: ts ++ c :: zs').head? ≠ some c := by
            intro hdc
            cases hdc
            have htail := (List.nodup_append.mp hnodup).2.1.of_cons
            exact (List.nodup_cons.mp htail).1 (by simp)
          refine ⟨node, (hothers c hmem hend hhead).trans hnode, hnext, ?_⟩
          rw [hprev, List.getLast?_append, List.getLast?_append,
            List.getLast?_cons_cons]
    · -- `c` comes before it, or is the next one.
      cases ts with
      | nil => exact hnext_to (List.append_nil ys').symm hts.symm
      | cons d ts =>
          obtain ⟨rfl, rfl⟩ := List.cons.inj hts
          have hold : ys' ++ c :: ts ++ a :: zs = ys' ++ c :: (ts ++ a :: zs) := by
            rw [List.append_assoc]
            rfl
          obtain ⟨node, hnode, hnext, hprev⟩ := h.node hold
          cases ts with
          | nil =>
              obtain ⟨node', hnode', hnext', hprev'⟩ := hbefore c node
                (by rw [List.getLast?_append]; rfl) hnode
              exact ⟨node', hnode', hnext', hprev'.trans hprev⟩
          | cons e ts =>
              have hend : (ys' ++ c :: e :: ts).getLast? ≠ some c := by
                intro hlast
                have hnil := eq_nil_of_getLast? hnodup.of_append_left hlast
                cases hnil
              have hhead : zs.head? ≠ some c := by
                intro hzs
                exact List.disjoint_of_nodup_append hnodup (by simp)
                  (List.mem_cons_of_mem a (List.mem_of_head? hzs))
              exact ⟨node, (hothers c hmem hend hhead).trans hnode, hnext, hprev⟩

end Socksv5.Support
