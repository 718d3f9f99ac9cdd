import Socksv5.Fault
import Socksv5.Support.Chain
import Socksv5.Support.Partial
import Mathlib.Algebra.Group.Nat.Defs
import Mathlib.Data.Int.Notation
import Mathlib.Data.List.Nodup

/-!
# The list of administrators

What `new_admin` and `destroy_admin` of `admin_server.c` do to the list that
starts at `first`.  The loops that follow pointers are given fuel, and run out
of it when they do not end.
-/

namespace Socksv5

open Support

/-- The fields of `struct admin` that make the list. -/
structure AdminNode where
  adminFd : ℤ := 0
  listIndex : ℤ := 0
  next : Option ℕ := none
deriving DecidableEq, Repr

/-- The allocated administrators, and `first`. -/
structure AdminList where
  heap : ℕ → Option AdminNode := fun _ => none
  first : Option ℕ := none

namespace AdminList

/-- `*p` -/
def deref (l : AdminList) : Option ℕ → Except Fault AdminNode
  | none => .error .nullDereference
  | some a =>
      match l.heap a with
      | some node => .ok node
      | none => .error .outOfBounds

/-- `*p = node` -/
def put (l : AdminList) (a : ℕ) (node : AdminNode) : AdminList :=
  { l with heap := Function.update l.heap a (some node) }

/-- `free(p)` -/
def free (l : AdminList) (a : ℕ) : AdminList :=
  { l with heap := Function.update l.heap a none }

@[simp] theorem put_first (l : AdminList) (a : ℕ) (node : AdminNode) :
    (l.put a node).first = l.first :=
  rfl

@[simp] theorem put_heap_self (l : AdminList) (a : ℕ) (node : AdminNode) :
    (l.put a node).heap a = some node :=
  Function.update_self ..

theorem put_heap_of_ne (l : AdminList) {a b : ℕ} (node : AdminNode)
    (h : b ≠ a) : (l.put a node).heap b = l.heap b :=
  Function.update_of_ne h ..

theorem free_heap_of_ne (l : AdminList) {a b : ℕ} (h : b ≠ a) :
    (l.free a).heap b = l.heap b :=
  Function.update_of_ne h ..

theorem deref_of_heap {l : AdminList} {a : ℕ} {node : AdminNode}
    (h : l.heap a = some node) : l.deref (some a) = .ok node := by
  simp only [deref, h]

end AdminList

/-- The loop of `new_admin` to the end of the list. -/
def lastAdmin (l : AdminList) : ℕ → ℕ → ℤ → Except Fault (ℕ × ℤ)
  | 0, _, _ => .error .diverges
  | fuel + 1, aux, i => do
      let node ← l.deref (some aux)
      match node.next with
      | none => .ok (aux, i)
      | some next => lastAdmin l fuel next (i + 1)

/-- `new_admin`; `address` is what `malloc` returns. -/
def newAdmin (fuel : ℕ) (fd : ℤ) (address : Option ℕ) (l : AdminList) :
    Except Fault (Option ℕ × AdminList) :=
  match address with
  | none => .ok (none, l)
  | some admin =>
      match l.first with
      | none =>
          .ok (some admin,
            { l.put admin { adminFd := fd } with first := some admin })
      | some first => do
          let l := l.put admin {}
          let (aux, i) ← lastAdmin l fuel first 0
          let node ← l.deref (some aux)
          let l := l.put aux { node with next := some admin }
          .ok (some admin, l.put admin { adminFd := fd, listIndex := i + 1 })

/-- The first loop of `destroy_admin`, for `n` turns. -/
def skipAdmins (l : AdminList) : ℕ → Option ℕ → Except Fault (Option ℕ)
  | 0, aux => .ok aux
  | n + 1, aux => do
      let node ← l.deref aux
      skipAdmins l n node.next

/-- The second loop of `destroy_admin`, which renumbers `aux` for as long as
another administrator comes after it. -/
def renumberAdmins (aux : ℕ) : ℕ → ℤ → AdminList → Except Fault AdminList
  | 0, _, _ => .error .diverges
  | fuel + 1, i, l => do
      let node ← l.deref (some aux)
      match node.next with
      | none => .ok l
      | some _ =>
          renumberAdmins aux fuel (i + 1)
            (l.put aux { node with listIndex := i + 1 })

/-- What `destroy_admin` does to the list. -/
def removeAdmin (fuel : ℕ) (ad : ℕ) (l : AdminList) : Except Fault AdminList := do
  let node ← l.deref (some ad)
  let n := (node.listIndex - 1).toNat
  let aux ← skipAdmins l n l.first
  let auxNode ← l.deref aux
  match aux with
  | none => .error .nullDereference
  | some aux => do
      let l := l.put aux { auxNode with next := node.next }
      let l ← renumberAdmins aux fuel n l
      let l := if l.first = some ad then { l with first := none } else l
      .ok (l.free ad)

/-! ## The administrators in the list -/

/-- The list that starts at `first` is `xs`. -/
def AdminList.Lists (l : AdminList) (xs : List ℕ) : Prop :=
  Segment AdminNode.next l.heap l.first xs none

/-- The list that starts at `first` is `xs`, and the index of each
administrator is its position. -/
structure AdminList.Integral (l : AdminList) (xs : List ℕ) : Prop where
  segment : l.Lists xs
  index : ∀ (i : ℕ) (a : ℕ), xs[i]? = some a →
    ∃ node, l.heap a = some node ∧ node.listIndex = i

/-- The indices tell the administrators apart. -/
theorem AdminList.Integral.nodup {l : AdminList} {xs : List ℕ}
    (h : l.Integral xs) : xs.Nodup := by
  rw [List.nodup_iff_getElem?_ne_getElem?]
  intro i j hij hj heq
  obtain ⟨node, hnode, hindex⟩ := h.index j _ (List.getElem?_eq_getElem hj)
  rw [List.getElem?_eq_getElem hj] at heq
  obtain ⟨node', hnode', hindex'⟩ := h.index i _ heq
  rw [hnode] at hnode'
  cases hnode'
  omega

/-- Every administrator of the list is allocated. -/
theorem AdminList.Integral.ne_of_fresh {l : AdminList} {xs : List ℕ}
    (h : l.Integral xs) {a b : ℕ} (ha : l.heap a = none) (hb : b ∈ xs) :
    b ≠ a := by
  rintro rfl
  obtain ⟨node, hnode⟩ := h.segment.exists_node hb
  rw [ha] at hnode
  cases hnode

theorem AdminList.integral_empty : ({} : AdminList).Integral [] := by
  constructor
  · rfl
  · intro i a ha
    simp at ha

/-! ## Opening -/

/-- The loop of `new_admin` ends at the last administrator. -/
theorem lastAdmin_spec {l : AdminList} {fuel p b : ℕ} {i j : ℤ} {xs : List ℕ}
    (h : lastAdmin l fuel p i = .ok (b, j))
    (hxs : Segment AdminNode.next l.heap (some p) xs none) :
    ∃ ys, xs = ys ++ [b] ∧ j = i + ys.length := by
  induction fuel generalizing p i xs with
  | zero => cases h
  | succ fuel ih =>
      cases xs with
      | nil => cases hxs
      | cons a xs =>
          obtain ⟨hp, node, hnode, hxs⟩ := hxs
          cases hp
          simp only [lastAdmin, AdminList.deref, hnode, ok_bind] at h
          cases hnext : node.next with
          | none =>
              rw [hnext] at h hxs
              cases h
              cases xs with
              | nil => exact ⟨[], rfl, by simp⟩
              | cons => exact absurd hxs.1 (by simp)
          | some next =>
              rw [hnext] at h hxs
              obtain ⟨ys, rfl, rfl⟩ := ih h hxs
              refine ⟨p :: ys, rfl, ?_⟩
              rw [List.length_cons]
              omega

/-- An administrator that the last one points to, with the next index. -/
theorem AdminList.Integral.concat {l l' : AdminList} {ys : List ℕ} {a b : ℕ}
    {node new : AdminNode} (h : l.Integral (ys ++ [b])) (ha : a ∉ ys ++ [b])
    (hfirst : l'.first = l.first) (hb : l.heap b = some node)
    (hb' : l'.heap b = some { node with next := some a })
    (ha' : l'.heap a = some new) (hnext : new.next = none)
    (hindex : new.listIndex = ys.length + 1)
    (hothers : ∀ c, c ≠ a → c ≠ b → l'.heap c = l.heap c) :
    l'.Integral (ys ++ [b] ++ [a]) := by
  have hnodup := h.nodup
  have hkept : ∀ c ∈ ys, l'.heap c = l.heap c := by
    intro c hc
    refine hothers c ?_ ?_
    · rintro rfl
      exact ha (List.mem_append_left _ hc)
    · rintro rfl
      exact (List.disjoint_of_nodup_append hnodup) hc (List.mem_singleton_self _)
  refine ⟨?_, ?_⟩
  · rw [AdminList.Lists, segment_concat, segment_concat, hfirst]
    refine ⟨⟨?_, _, hb', rfl⟩, new, ha', hnext⟩
    exact (segment_concat.mp h.segment).1.congr hkept
  · intro i c hc
    rcases Nat.lt_trichotomy i (ys ++ [b]).length with hlt | heq | hgt
    · rw [List.getElem?_append_left hlt] at hc
      obtain ⟨old, hold, holdIndex⟩ := h.index i c hc
      by_cases hcb : c = b
      · subst hcb
        rw [hb] at hold
        cases hold
        exact ⟨_, hb', holdIndex⟩
      · have hca : c ≠ a := by
          rintro rfl
          exact ha (List.mem_of_getElem? hc)
        exact ⟨old, (hothers c hca hcb).trans hold, holdIndex⟩
    · subst heq
      simp only [List.getElem?_concat_length, Option.some.injEq] at hc
      subst hc
      refine ⟨new, ha', ?_⟩
      rw [hindex, List.length_append, List.length_singleton]
      push_cast
      rfl
    · rw [List.getElem?_eq_none (by simp at hgt ⊢; omega)] at hc
      cases hc

/-- `new_admin` puts the new administrator at the end, with its position. -/
theorem newAdmin_integral {fuel a : ℕ} {fd : ℤ} {p : Option ℕ}
    {l l' : AdminList} {xs : List ℕ}
    (h : newAdmin fuel fd (some a) l = .ok (p, l')) (hl : l.Integral xs)
    (hfresh : l.heap a = none) : p = some a ∧ l'.Integral (xs ++ [a]) := by
  cases hfirst : l.first with
  | none =>
      simp only [newAdmin, hfirst] at h
      cases h
      have hxs : xs = [] := by
        cases xs with
        | nil => rfl
        | cons b xs =>
            have hhead := hl.segment.head_eq
            rw [hfirst] at hhead
            cases hhead
      subst hxs
      refine ⟨rfl, ⟨rfl, _, Function.update_self .., rfl⟩, ?_⟩
      intro i b hb
      rcases i with _ | i
      · cases hb
        exact ⟨_, Function.update_self .., rfl⟩
      · simp at hb
  | some first =>
      simp only [newAdmin, hfirst] at h
      obtain ⟨⟨b, j⟩, hlast, h⟩ := bind_eq_ok.mp h
      obtain ⟨node, hnode, h⟩ := bind_eq_ok.mp h
      cases h
      have hne : ∀ c ∈ xs, c ≠ a := fun c hc => hl.ne_of_fresh hfresh hc
      have hsegment : Segment AdminNode.next (l.put a {}).heap (some first) xs
          none := by
        rw [← hfirst]
        exact hl.segment.congr fun c hc => l.put_heap_of_ne {} (hne c hc)
      obtain ⟨ys, rfl, rfl⟩ := lastAdmin_spec hlast hsegment
      have hb : b ≠ a := hne b (by simp)
      have hnode' : l.heap b = some node := by
        rw [AdminList.deref, l.put_heap_of_ne {} hb] at hnode
        split at hnode
        · cases hnode
          assumption
        · cases hnode
      refine ⟨rfl, hl.concat (fun ha => hne a ha rfl) rfl hnode' ?_
        (AdminList.put_heap_self ..) rfl ?_ ?_⟩
      · rw [AdminList.put_heap_of_ne _ _ hb, AdminList.put_heap_self]
      · simp only [Int.zero_add]
      · intro c hca hcb
        rw [AdminList.put_heap_of_ne _ _ hca, AdminList.put_heap_of_ne _ _ hcb,
          AdminList.put_heap_of_ne _ _ hca]

/-! ## Closing -/

/-- The first loop of `destroy_admin` goes past the nodes that it counts. -/
theorem skipAdmins_spec {l : AdminList} {p q : Option ℕ} {xs : List ℕ}
    (h : Segment AdminNode.next l.heap p xs q) :
    skipAdmins l xs.length p = .ok q := by
  induction xs generalizing p with
  | nil =>
      cases h
      rfl
  | cons a xs ih =>
      obtain ⟨rfl, node, hnode, hxs⟩ := h
      rw [List.length_cons, skipAdmins, AdminList.deref_of_heap hnode]
      exact ih hxs

/-- The second loop of `destroy_admin` never gets past an administrator that
another one comes after. -/
theorem renumberAdmins_diverges {aux : ℕ} (fuel : ℕ) {i : ℤ} {l : AdminList}
    {node : AdminNode} (hnode : l.heap aux = some node)
    (hnext : node.next ≠ none) :
    renumberAdmins aux fuel i l = .error .diverges := by
  induction fuel generalizing i l node with
  | zero => rfl
  | succ fuel ih =>
      rcases Option.ne_none_iff_exists'.mp hnext with ⟨next, hsome⟩
      rw [renumberAdmins, AdminList.deref_of_heap hnode]
      simp only [ok_bind, hsome]
      exact ih (AdminList.put_heap_self ..) (by simp)

/-- It ends at once at an administrator that none comes after. -/
theorem renumberAdmins_last {aux : ℕ} (fuel : ℕ) {i : ℤ} {l : AdminList}
    {node : AdminNode} (hnode : l.heap aux = some node)
    (hnext : node.next = none) :
    renumberAdmins aux (fuel + 1) i l = .ok l := by
  rw [renumberAdmins, AdminList.deref_of_heap hnode]
  simp only [ok_bind, hnext]

/-- `destroy_admin` gets to the administrator before the one that it removes,
or to the first one when it removes that. -/
theorem skipAdmins_before {l : AdminList} {p : Option ℕ} {ys zs : List ℕ}
    {a : ℕ} (h : Segment AdminNode.next l.heap p (ys ++ a :: zs) none) :
    skipAdmins l (ys.length - 1) p = .ok (some (ys.getLast?.getD a)) := by
  obtain ⟨r, hys, rfl, -⟩ := segment_append.mp h
  rcases List.eq_nil_or_concat' ys with rfl | ⟨ws, b, rfl⟩
  · exact congrArg _ hys
  · rw [segment_concat] at hys
    simpa using skipAdmins_spec hys.1

/-- What `destroy_admin` does once it has got there. -/
theorem removeAdmin_eq {l : AdminList} {ys zs : List ℕ} {a : ℕ} (fuel : ℕ)
    (h : l.Integral (ys ++ a :: zs)) :
    ∃ node before, l.heap a = some node ∧
      l.heap (ys.getLast?.getD a) = some before ∧
      removeAdmin fuel a l =
        renumberAdmins (ys.getLast?.getD a) fuel ((ys.length - 1 : ℕ) : ℤ)
            (l.put (ys.getLast?.getD a) { before with next := node.next }) >>=
          fun l => .ok ((if l.first = some a then
            { l with first := none } else l).free a) := by
  obtain ⟨node, hnode, hindex⟩ := h.index ys.length a (by simp)
  have hmem : ys.getLast?.getD a ∈ ys ++ a :: zs := by
    rcases List.eq_nil_or_concat' ys with rfl | ⟨ws, b, rfl⟩ <;> simp
  obtain ⟨before, hbefore⟩ := h.segment.exists_node hmem
  refine ⟨node, before, hnode, hbefore, ?_⟩
  have hn : (node.listIndex - 1).toNat = ys.length - 1 := by
    omega
  rw [removeAdmin, AdminList.deref_of_heap hnode, ok_bind, hn]
  simp only [skipAdmins_before h.segment, AdminList.deref_of_heap hbefore,
    ok_bind]

/-- `destroy_admin` does not end when another administrator comes after the
one that it is called for. -/
theorem removeAdmin_diverges {l : AdminList} {ys zs : List ℕ} {a c : ℕ}
    (h : l.Integral (ys ++ a :: c :: zs)) (fuel : ℕ) :
    removeAdmin fuel a l = .error .diverges := by
  obtain ⟨node, before, hnode, hbefore, heq⟩ := removeAdmin_eq fuel h
  obtain ⟨r, -, rfl, node', hnode', hnext, -⟩ := segment_append.mp h.segment
  rw [hnode] at hnode'
  cases hnode'
  rw [heq, renumberAdmins_diverges fuel (AdminList.put_heap_self ..)
    (by simp [hnext])]
  rfl

/-- The list without its last administrator. -/
theorem AdminList.Integral.dropLast {l l' : AdminList} {ws : List ℕ} {a b : ℕ}
    {before : AdminNode} (h : l.Integral (ws ++ [b] ++ [a]))
    (hfirst : l'.first = l.first) (hb : l.heap b = some before)
    (hb' : l'.heap b = some { before with next := none })
    (hothers : ∀ c, c ≠ a → c ≠ b → l'.heap c = l.heap c) :
    l'.Integral (ws ++ [b]) := by
  have hnodup := h.nodup
  have hne : ∀ c ∈ ws ++ [b], c ≠ a := by
    rintro c hc rfl
    exact (List.disjoint_of_nodup_append hnodup) hc (List.mem_singleton_self _)
  have hkept : ∀ c ∈ ws, l'.heap c = l.heap c := by
    intro c hc
    refine hothers c (hne c (List.mem_append_left _ hc)) ?_
    rintro rfl
    exact (List.disjoint_of_nodup_append hnodup.of_append_left) hc
      (List.mem_singleton_self _)
  have hsegment := (segment_concat.mp (segment_concat.mp h.segment).1).1
  refine ⟨segment_concat.mpr ⟨?_, _, hb', rfl⟩, ?_⟩
  · rw [hfirst]
    exact hsegment.congr hkept
  · intro i c hc
    have hlt := (List.getElem?_eq_some_iff.mp hc).1
    obtain ⟨old, hold, holdIndex⟩ := h.index i c
      ((List.getElem?_append_left hlt).trans hc)
    by_cases hcb : c = b
    · subst hcb
      rw [hb] at hold
      cases hold
      exact ⟨_, hb', holdIndex⟩
    · exact ⟨old, (hothers c (hne c (List.mem_of_getElem? hc)) hcb).trans hold,
        holdIndex⟩

/-- `destroy_admin` removes the last administrator. -/
theorem removeAdmin_last {l : AdminList} {ys : List ℕ} {a : ℕ} (fuel : ℕ)
    (h : l.Integral (ys ++ [a])) :
    ∃ l', removeAdmin (fuel + 1) a l = .ok l' ∧ l'.Integral ys := by
  obtain ⟨node, before, hnode, hbefore, heq⟩ := removeAdmin_eq (fuel + 1) h
  obtain ⟨r, hys, rfl, node', hnode', hnext⟩ := segment_append.mp h.segment
  rw [hnode] at hnode'
  cases hnode'
  have hnext : node.next = none := hnext
  rw [hnext, renumberAdmins_last fuel (AdminList.put_heap_self ..) rfl] at heq
  refine ⟨_, heq, ?_⟩
  have hhead : ∀ b zs, ys = b :: zs → l.first ≠ some a := by
    rintro b zs rfl hfirst
    have hb : l.first = some b := h.segment.head_eq
    rw [hb] at hfirst
    cases hfirst
    simpa using h.nodup
  rcases List.eq_nil_or_concat' ys with rfl | ⟨ws, b, rfl⟩
  · have hfirst : l.first = some a := hys
    refine ⟨?_, by simp⟩
    simp only [AdminList.put_first, hfirst, if_true]
    rfl
  · have hfirst : l.first ≠ some a := by
      rcases ws with _ | ⟨c, ws⟩
      · exact hhead b [] rfl
      · exact hhead c (ws ++ [b]) rfl
    have hba : b ≠ a := by
      rintro rfl
      exact List.disjoint_of_nodup_append h.nodup
        (List.mem_append_right ws (List.mem_singleton_self b))
        (List.mem_singleton_self b)
    simp only [List.getLast?_append, List.getLast?_singleton, Option.some_or,
      Option.getD_some] at hbefore ⊢
    simp only [AdminList.put_first, hfirst, if_false]
    refine h.dropLast rfl hbefore ?_ ?_
    · rw [AdminList.free_heap_of_ne _ hba, AdminList.put_heap_self]
    · intro c hca hcb
      rw [AdminList.free_heap_of_ne _ hca, AdminList.put_heap_of_ne _ _ hcb]

end Socksv5
