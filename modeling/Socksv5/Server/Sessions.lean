import Socksv5.Server.State
import Socksv5.Support.Linked

/-!
# The list of sessions

`new_socksv5` puts a session at the end of the list that starts at `first`,
`socksv5_destroy` takes one out wherever it is, and `destroy_socksv5_pool`
destroys them all, reading where each one points to before it is freed.
-/

namespace Socksv5

open Support

namespace SessionList

/-- The loop of `destroy_socksv5_pool`, with the sessions that it calls
`socksv5_destroy` for. -/
def destroyPoolLoop : ℕ → Option ℕ → SessionList →
    Except Fault (List ℕ × SessionList)
  | _, none, l => .ok ([], l)
  | 0, some _, _ => .error .diverges
  | fuel + 1, some aux, l => do
      let node ← l.deref (some aux)
      let l ← l.socksv5Destroy (some aux)
      let (destroyed, l) ← destroyPoolLoop fuel node.next l
      .ok (aux :: destroyed, l)

/-- `destroy_socksv5_pool` -/
def destroySocksv5Pool (fuel : ℕ) (l : SessionList) :
    Except Fault (List ℕ × SessionList) :=
  destroyPoolLoop fuel l.first l

/-- Where `a->next` points to. -/
def nextOf (l : SessionList) (a : ℕ) : Option ℕ :=
  (l.heap a).bind SessionNode.next

/-- Where `a->prev` points to. -/
def prevOf (l : SessionList) (a : ℕ) : Option ℕ :=
  (l.heap a).bind SessionNode.prev

/-- The list consists of `xs`, linked in both directions, and of nothing
else. -/
structure Integral (l : SessionList) (xs : List ℕ) : Prop where
  linked : Linked SessionNode.next SessionNode.prev l.heap l.first xs
  allocated : ∀ a, l.heap a ≠ none ↔ a ∈ xs

end SessionList

/-- What can happen to the list: a session is created, where `calloc` returns
the address, or one is destroyed. -/
inductive SessionEvent
  | created (clientFd : ℤ) (address : Option ℕ)
  | destroyed (a : ℕ)
deriving DecidableEq, Repr

/-- The call for an event. -/
def SessionEvent.perform (fuel : ℕ) :
    SessionEvent → SessionList → Except Fault SessionList
  | .created clientFd address, l => do
      let (_, l) ← l.newSocksv5 fuel clientFd address
      .ok l
  | .destroyed a, l => l.socksv5Destroy (some a)

/-- The sessions that there are after an event, in the order of their
creation. -/
def SessionEvent.leaves : SessionEvent → List ℕ → List ℕ
  | .created _ address, xs => xs ++ address.toList
  | .destroyed a, xs => xs.erase a

/-- `calloc` does not return what is in use, and what is destroyed is in the
list. -/
def SessionEvent.Possible : SessionEvent → List ℕ → Prop
  | .created _ address, xs => ∀ a, address = some a → a ∉ xs
  | .destroyed a, xs => a ∈ xs

/-- The sessions that have been created and not yet destroyed. -/
def sessionsLeft (xs : List ℕ) (es : List SessionEvent) : List ℕ :=
  es.foldl (fun xs e => e.leaves xs) xs

/-- Every event of a sequence is possible when it comes. -/
def PossibleFrom (xs : List ℕ) : List SessionEvent → Prop
  | [] => True
  | e :: es => e.Possible xs ∧ PossibleFrom (e.leaves xs) es

/-- The calls for a sequence of events. -/
def performSessions (fuel : ℕ) (es : List SessionEvent) (l : SessionList) :
    Except Fault SessionList :=
  es.foldlM (fun l e => e.perform fuel l) l

namespace SessionList

theorem deref_of_heap {l : SessionList} {a : ℕ} {node : SessionNode}
    (h : l.heap a = some node) : l.deref (some a) = .ok node := by
  simp only [deref, h]

@[simp] theorem put_first (l : SessionList) (a : ℕ) (node : SessionNode) :
    (l.put a node).first = l.first :=
  rfl

@[simp] theorem put_heap_self (l : SessionList) (a : ℕ) (node : SessionNode) :
    (l.put a node).heap a = some node :=
  Function.update_self ..

theorem put_heap_of_ne (l : SessionList) {a b : ℕ} (node : SessionNode)
    (h : b ≠ a) : (l.put a node).heap b = l.heap b :=
  Function.update_of_ne h ..

theorem integral_empty : ({} : SessionList).Integral [] where
  linked := linked_nil
  allocated := by
    intro a
    exact iff_of_false (fun h => h rfl) List.not_mem_nil

variable {l : SessionList} {xs : List ℕ}

theorem Integral.not_mem (h : l.Integral xs) {a : ℕ} (ha : l.heap a = none) :
    a ∉ xs := by
  intro hmem
  exact (h.allocated a).mpr hmem ha

theorem Integral.heap_eq_none (h : l.Integral xs) {a : ℕ} (ha : a ∉ xs) :
    l.heap a = none := by
  by_contra hne
  exact ha ((h.allocated a).mp hne)

/-- `prev` is the inverse of `next`. -/
theorem Integral.inverse (h : l.Integral xs) (a b : ℕ) :
    l.nextOf a = some b ↔ l.prevOf b = some a := by
  constructor
  · intro hnext
    obtain ⟨node, hnode, hb⟩ := Option.bind_eq_some_iff.mp hnext
    have ha : a ∈ xs := (h.allocated a).mp (by rw [hnode]; simp)
    obtain ⟨node', hnode', hprev⟩ := h.linked.prev_of_next ha hnode hb
    rw [prevOf, hnode']
    exact hprev
  · intro hprev
    obtain ⟨node, hnode, ha⟩ := Option.bind_eq_some_iff.mp hprev
    have hb : b ∈ xs := (h.allocated b).mp (by rw [hnode]; simp)
    obtain ⟨node', hnode', hnext⟩ := h.linked.next_of_prev hb hnode ha
    rw [nextOf, hnode']
    exact hnext

/-! ## Creating -/

/-- The loop of `new_socksv5` ends at the last session. -/
theorem exists_lastSocksv5 {fuel p : ℕ}
    (h : Segment SessionNode.next l.heap (some p) xs none)
    (hfuel : xs.length ≤ fuel) :
    ∃ b, xs.getLast? = some b ∧ lastSocksv5 l fuel p = .ok b := by
  induction xs generalizing fuel p with
  | nil => cases h
  | cons a xs ih =>
      obtain ⟨hp, node, hnode, hxs⟩ := h
      cases hp
      cases fuel with
      | zero => cases hfuel
      | succ fuel =>
          have hle : xs.length ≤ fuel := Nat.le_of_succ_le_succ hfuel
          rw [lastSocksv5, deref_of_heap hnode, ok_bind]
          cases hnext : node.next with
          | none =>
              rw [hnext] at hxs
              cases xs with
              | nil => exact ⟨a, rfl, rfl⟩
              | cons b xs => exact absurd hxs.1 (by simp)
          | some q =>
              rw [hnext] at hxs
              obtain ⟨b, hb, hlast⟩ := ih hxs hle
              refine ⟨b, ?_, hlast⟩
              cases xs with
              | nil => cases hb
              | cons c xs => exact hb

/-- `new_socksv5` puts the session at the end. -/
theorem Integral.exists_newSocksv5 (h : l.Integral xs) {a fuel : ℕ}
    (ha : a ∉ xs) (hfuel : xs.length ≤ fuel) (clientFd : ℤ) :
    ∃ l', l.newSocksv5 fuel clientFd (some a) = .ok (some a, l') ∧
      l'.Integral (xs ++ [a]) := by
  let node : SessionNode := { session := Socksv5.newSocksv5 clientFd }
  cases hfirst : l.first with
  | none =>
      have hxs : xs = [] := h.linked.first_eq_none_iff.mp hfirst
      subst hxs
      have hnew : l.newSocksv5 fuel clientFd (some a) =
          .ok (some a, { l.put a node with first := some a }) := by
        rw [newSocksv5, hfirst]
      refine ⟨_, hnew, ?_, ?_⟩
      · apply h.linked.concat ha rfl (l.put_heap_self a node) rfl rfl
        · intro b node hb
          cases hb
        · intro c hc
          cases hc
      · intro c
        by_cases hca : c = a
        · subst hca
          simp
        · simpa [l.put_heap_of_ne node hca, hca] using h.allocated c
  | some first =>
      have hne : ∀ c ∈ xs, c ≠ a := by
        rintro c hc rfl
        exact ha hc
      have hsegment : Segment SessionNode.next (l.put a node).heap (some first)
          xs none := by
        rw [← hfirst]
        exact h.linked.segment.congr fun c hc => l.put_heap_of_ne node (hne c hc)
      obtain ⟨b, hb, hlast⟩ := exists_lastSocksv5 hsegment hfuel
      have hmem : b ∈ xs := List.mem_of_getLast? hb
      obtain ⟨last, hnode⟩ := h.linked.exists_node hmem
      have hba : b ≠ a := hne b hmem
      have hnode' : (l.put a node).heap b = some last :=
        (l.put_heap_of_ne node hba).trans hnode
      have hnew : l.newSocksv5 fuel clientFd (some a) =
          .ok (some a, ((l.put a node).put b { last with next := some a }).put a
            { node with prev := some b }) := by
        rw [newSocksv5, hfirst]
        dsimp only
        rw [hlast, ok_bind, deref_of_heap hnode', ok_bind]
      have hothers : ∀ c, c ≠ a → c ≠ b →
          (((l.put a node).put b { last with next := some a }).put a
            { node with prev := some b }).heap c = l.heap c := by
        intro c hca hcb
        rw [put_heap_of_ne _ _ hca, put_heap_of_ne _ _ hcb,
          put_heap_of_ne _ _ hca]
      refine ⟨_, hnew, ?_, ?_⟩
      · apply h.linked.concat ha ?_ (put_heap_self _ a _) rfl hb.symm
        · intro c old hc hold
          rw [hb] at hc
          cases hc
          rw [hnode] at hold
          cases hold
          refine ⟨{ last with next := some a }, ?_, rfl, rfl⟩
          rw [put_heap_of_ne _ _ hba, put_heap_self]
        · intro c hc hcb
          apply hothers c (hne c hc)
          rintro rfl
          exact hcb hb
        · rw [put_first, put_first, put_first, h.linked.first_eq]
          cases xs with
          | nil => cases hmem
          | cons x xs => rfl
      · intro c
        by_cases hca : c = a
        · subst hca
          simp
        · by_cases hcb : c = b
          · subst hcb
            simp [put_heap_of_ne _ _ hca, hmem]
          · rw [hothers c hca hcb, h.allocated c]
            simp [hca]

/-! ## Destroying -/

/-- `p->prev = q`, when `p` is not null. -/
def setPrev (l : SessionList) (p q : Option ℕ) : Except Fault SessionList :=
  match p with
  | some next => do
      let after ← l.deref (some next)
      .ok (l.put next { after with prev := q })
  | none => .ok l

/-- `p->next = q`, or `first = q` when `p` is null. -/
def setNext (l : SessionList) (p q : Option ℕ) : Except Fault SessionList :=
  match p with
  | some prev => do
      let before ← l.deref (some prev)
      .ok (l.put prev { before with next := q })
  | none => .ok { l with first := q }

/-- The steps of `socksv5_destroy`. -/
theorem socksv5Destroy_of_steps {a : ℕ} {node : SessionNode}
    {l₁ l₂ : SessionList} (hnode : l.heap a = some node)
    (hset₁ : l.setPrev node.next node.prev = .ok l₁)
    (hnode₁ : l₁.heap a = some node)
    (hset₂ : l₁.setNext node.prev node.next = .ok l₂)
    (hfirst : l₂.first ≠ some a) :
    l.socksv5Destroy (some a) = .ok (l₂.free a) := by
  have hlast : ∀ {l₁ : SessionList}, l₁.heap a = some node →
      l₁.setNext node.prev node.next = .ok l₂ → (do
        let node ← l₁.deref (some a)
        let l ← match node.prev with
          | some prev => do
              let before ← l₁.deref (some prev)
              .ok (l₁.put prev { before with next := node.next })
          | none => .ok { l₁ with first := node.next }
        let l := if l.first = some a then { l with first := none } else l
        .ok (l.free a) : Except Fault SessionList) = .ok (l₂.free a) := by
    intro l₁ hnode₁ hset₂
    rw [deref_of_heap hnode₁, ok_bind]
    cases hprev : node.prev with
    | none =>
        rw [hprev] at hset₂
        cases hset₂
        dsimp only
        rw [ok_bind, if_neg hfirst]
    | some prev =>
        rw [hprev] at hset₂
        obtain ⟨before, hbefore, hset₂⟩ := bind_eq_ok.mp hset₂
        cases hset₂
        dsimp only
        rw [hbefore, ok_bind, ok_bind, if_neg hfirst]
  rw [socksv5Destroy, deref_of_heap hnode, ok_bind]
  cases hnext : node.next with
  | none =>
      rw [hnext] at hset₁
      cases hset₁
      rw [hnext] at hlast
      exact hlast hnode₁ (hnext ▸ hset₂)
  | some next =>
      rw [hnext] at hset₁
      obtain ⟨after, hafter, hset₁⟩ := bind_eq_ok.mp hset₁
      cases hset₁
      dsimp only
      rw [hafter, ok_bind, ok_bind]
      exact hlast hnode₁ hset₂

/-- Writing over an allocated node changes that node only. -/
theorem put_spec {a : ℕ} {old : SessionNode} (hold : l.heap a = some old)
    (f : SessionNode → SessionNode) :
    (∀ c node, some a = some c → l.heap c = some node →
      (l.put a (f old)).heap c = some (f node)) ∧
    ∀ c, some a ≠ some c → (l.put a (f old)).heap c = l.heap c := by
  constructor
  · intro c node hc hnode
    cases hc
    rw [hold] at hnode
    cases hnode
    exact put_heap_self ..
  · intro c hc
    apply put_heap_of_ne
    rintro rfl
    exact hc rfl

/-- Setting the `prev` of the session after the one that is destroyed. -/
theorem exists_setPrev {p : Option ℕ} (q : Option ℕ)
    (hp : ∀ c, p = some c → ∃ node, l.heap c = some node) :
    ∃ l', l.setPrev p q = .ok l' ∧
      l'.first = l.first ∧
      (∀ c node, p = some c → l.heap c = some node →
        l'.heap c = some { node with prev := q }) ∧
      ∀ c, p ≠ some c → l'.heap c = l.heap c := by
  cases p with
  | none =>
      refine ⟨l, rfl, rfl, ?_, fun c _ => rfl⟩
      intro c node hc
      cases hc
  | some next =>
      obtain ⟨after, hafter⟩ := hp next rfl
      refine ⟨l.put next { after with prev := q }, ?_, rfl,
        l.put_spec hafter fun node => { node with prev := q }⟩
      rw [setPrev, deref_of_heap hafter, ok_bind]

/-- Setting the `next` of the session before the one that is destroyed, or
`first`. -/
theorem exists_setNext {p : Option ℕ} (q : Option ℕ)
    (hp : ∀ c, p = some c → ∃ node, l.heap c = some node) :
    ∃ l', l.setNext p q = .ok l' ∧
      l'.first = (if p = none then q else l.first) ∧
      (∀ c node, p = some c → l.heap c = some node →
        l'.heap c = some { node with next := q }) ∧
      ∀ c, p ≠ some c → l'.heap c = l.heap c := by
  cases p with
  | none =>
      refine ⟨{ l with first := q }, rfl, rfl, ?_, fun c _ => rfl⟩
      intro c node hc
      cases hc
  | some prev =>
      obtain ⟨before, hbefore⟩ := hp prev rfl
      refine ⟨l.put prev { before with next := q }, ?_, rfl,
        l.put_spec hbefore fun node => { node with next := q }⟩
      rw [setNext, deref_of_heap hbefore, ok_bind]

/-- `socksv5_destroy` takes the session out, wherever it is. -/
theorem Integral.exists_socksv5Destroy {ys zs : List ℕ} {a : ℕ}
    (h : l.Integral (ys ++ a :: zs)) :
    ∃ l', l.socksv5Destroy (some a) = .ok l' ∧ l'.Integral (ys ++ zs) := by
  obtain ⟨node, hnode, hnext, hprev⟩ := h.linked.node rfl
  have hnodup := h.linked.nodup
  have hnot : ∀ c ∈ ys ++ zs, c ≠ a := by
    rintro c hc rfl
    rcases List.mem_append.mp hc with hc | hc
    · exact List.disjoint_of_nodup_append hnodup hc List.mem_cons_self
    · exact (List.nodup_cons.mp (List.nodup_append.mp hnodup).2.1).1 hc
  have hapart : ∀ c, ys.getLast? = some c → zs.head? ≠ some c := by
    intro c hlast hhead
    exact List.disjoint_of_nodup_append hnodup (List.mem_of_getLast? hlast)
      (List.mem_cons_of_mem a (List.mem_of_head? hhead))
  have hnext_ne : node.next ≠ some a := by
    intro heq
    rw [hnext] at heq
    exact hnot a (List.mem_append_right ys (List.mem_of_head? heq)) rfl
  have hprev_ne : node.prev ≠ some a := by
    intro heq
    rw [hprev] at heq
    exact hnot a (List.mem_append_left zs (List.mem_of_getLast? heq)) rfl
  obtain ⟨l₁, hset₁, hfirst₁, hafter₁, hothers₁⟩ :=
    l.exists_setPrev (p := node.next) node.prev (by
      intro c hc
      rw [hnext] at hc
      exact h.linked.exists_node (List.mem_append_right ys
        (List.mem_cons_of_mem a (List.mem_of_head? hc))))
  have hnode₁ : l₁.heap a = some node := (hothers₁ a hnext_ne).trans hnode
  obtain ⟨l₂, hset₂, hfirst₂, hbefore₂, hothers₂⟩ :=
    l₁.exists_setNext (p := node.prev) node.next (by
      intro c hc
      rw [hprev] at hc
      rw [hothers₁ c (hnext ▸ hapart c hc)]
      exact h.linked.exists_node
        (List.mem_append_left _ (List.mem_of_getLast? hc)))
  have hhead : l₂.first = (ys ++ zs).head? := by
    rw [hfirst₂, hfirst₁, h.linked.first_eq, hprev, hnext]
    cases ys with
    | nil => rfl
    | cons b ys =>
        rw [List.getLast?_cons, if_neg (Option.some_ne_none _)]
        rfl
  have hfirst_ne : l₂.first ≠ some a := by
    intro heq
    rw [hhead] at heq
    exact hnot a (List.mem_of_head? heq) rfl
  have hdestroy : l.socksv5Destroy (some a) = .ok (l₂.free a) :=
    socksv5Destroy_of_steps hnode hset₁ hnode₁ hset₂ hfirst_ne
  have hfree : ∀ c ∈ ys ++ zs, (l₂.free a).heap c = l₂.heap c := by
    intro c hc
    exact Function.update_of_ne (hnot c hc) ..
  have hlinked : Linked SessionNode.next SessionNode.prev (l₂.free a).heap
      (l₂.free a).first (ys ++ zs) := by
    apply h.linked.erase hhead
    · intro c old hlast hold
      have hmem : c ∈ ys ++ zs :=
        List.mem_append_left zs (List.mem_of_getLast? hlast)
      rw [hfree c hmem]
      have hold₁ := (hothers₁ c (hnext ▸ hapart c hlast)).trans hold
      exact ⟨_, hbefore₂ c old (hprev.trans hlast) hold₁, hnext, rfl⟩
    · intro c old hhead hold
      have hmem : c ∈ ys ++ zs :=
        List.mem_append_right ys (List.mem_of_head? hhead)
      have hne : node.prev ≠ some c := by
        intro heq
        exact hapart c (hprev ▸ heq) hhead
      rw [hfree c hmem, hothers₂ c hne]
      exact ⟨_, hafter₁ c old (hnext.trans hhead) hold, rfl, hprev⟩
    · intro c hmem hlast hhead
      rw [hfree c hmem, hothers₂ c (hprev ▸ hlast), hothers₁ c (hnext ▸ hhead)]
  refine ⟨_, hdestroy, hlinked, ?_⟩
  intro c
  constructor
  · intro halive
    by_contra hmem
    rw [List.mem_append, not_or] at hmem
    by_cases hca : c = a
    · subst hca
      exact halive (Function.update_self ..)
    · have hold : l.heap c = none := by
        apply h.heap_eq_none
        simp [hmem, hca]
      have hne₁ : node.next ≠ some c := fun heq =>
        hmem.2 (List.mem_of_head? (hnext ▸ heq))
      have hne₂ : node.prev ≠ some c := fun heq =>
        hmem.1 (List.mem_of_getLast? (hprev ▸ heq))
      apply halive
      calc
        (l₂.free a).heap c = l₂.heap c := Function.update_of_ne hca ..
        _ = l.heap c := (hothers₂ c hne₂).trans (hothers₁ c hne₁)
        _ = none := hold
  · intro hmem
    obtain ⟨node', hnode'⟩ := hlinked.exists_node hmem
    rw [hnode']
    exact Option.some_ne_none _

/-- The same, for the list without the session. -/
theorem Integral.exists_erase (h : l.Integral xs) {a : ℕ} (ha : a ∈ xs) :
    ∃ l', l.socksv5Destroy (some a) = .ok l' ∧ l'.Integral (xs.erase a) := by
  obtain ⟨ys, zs, rfl⟩ := List.append_of_mem ha
  have hnot : a ∉ ys := fun hmem =>
    List.disjoint_of_nodup_append h.linked.nodup hmem List.mem_cons_self
  rw [List.erase_append_right _ hnot, List.erase_cons_head]
  exact h.exists_socksv5Destroy

/-- `destroy_socksv5_pool` destroys the sessions in order, each once. -/
theorem Integral.exists_destroySocksv5Pool (h : l.Integral xs) {fuel : ℕ}
    (hfuel : xs.length ≤ fuel) :
    ∃ l', l.destroySocksv5Pool fuel = .ok (xs, l') ∧ l'.Integral [] := by
  induction xs generalizing l fuel with
  | nil =>
      refine ⟨l, ?_, h⟩
      rw [destroySocksv5Pool, h.linked.first_eq_none_iff.mpr rfl]
      cases fuel <;> rfl
  | cons a xs ih =>
      cases fuel with
      | zero => cases hfuel
      | succ fuel =>
          obtain ⟨node, hnode, hnext, -⟩ := h.linked.node (List.nil_append _).symm
          have hcons : l.Integral ([] ++ a :: xs) := h
          obtain ⟨l₁, hdestroy, h₁⟩ := hcons.exists_socksv5Destroy
          have hle : xs.length ≤ fuel := Nat.le_of_succ_le_succ hfuel
          obtain ⟨l', hpool, h'⟩ := ih h₁ hle
          refine ⟨l', ?_, h'⟩
          rw [destroySocksv5Pool, h₁.linked.first_eq, List.nil_append,
            ← hnext] at hpool
          have hfirst : l.first = some a := h.linked.first_eq
          rw [destroySocksv5Pool, hfirst, destroyPoolLoop, deref_of_heap hnode,
            ok_bind, hdestroy, ok_bind, hpool]
          rfl

end SessionList

/-! ## Sequences -/

/-- What one call does. -/
theorem SessionEvent.exists_perform {e : SessionEvent} {l : SessionList}
    {xs : List ℕ} {fuel : ℕ} (h : l.Integral xs) (he : e.Possible xs)
    (hfuel : xs.length ≤ fuel) :
    ∃ l', e.perform fuel l = .ok l' ∧ l'.Integral (e.leaves xs) := by
  cases e with
  | created clientFd address =>
      cases address with
      | none => exact ⟨l, rfl, by simpa [leaves] using h⟩
      | some a =>
          obtain ⟨l', hnew, h'⟩ := h.exists_newSocksv5 (he a rfl) hfuel clientFd
          refine ⟨l', ?_, h'⟩
          rw [perform, hnew]
          rfl
  | destroyed a => exact h.exists_erase he

theorem SessionEvent.length_leaves (e : SessionEvent) (xs : List ℕ) :
    (e.leaves xs).length ≤ xs.length + 1 := by
  cases e with
  | created clientFd address =>
      rw [leaves, List.length_append]
      cases address <;> simp
  | destroyed a =>
      exact (List.length_erase_le (a := a)).trans (Nat.le_succ _)

/-- What the calls for a sequence do. -/
theorem exists_performSessions {es : List SessionEvent} {l : SessionList}
    {xs : List ℕ} {fuel : ℕ} (h : l.Integral xs) (hes : PossibleFrom xs es)
    (hfuel : xs.length + es.length ≤ fuel) :
    ∃ l', performSessions fuel es l = .ok l' ∧
      l'.Integral (sessionsLeft xs es) ∧
      (sessionsLeft xs es).length ≤ fuel := by
  induction es generalizing l xs with
  | nil => exact ⟨l, rfl, h, hfuel⟩
  | cons e es ih =>
      obtain ⟨he, hes⟩ := hes
      rw [List.length_cons] at hfuel
      have hroom : xs.length ≤ fuel := by omega
      obtain ⟨l₁, hperform, h₁⟩ := e.exists_perform h he hroom
      have hlen := e.length_leaves xs
      obtain ⟨l', hrest, h', hle⟩ := ih h₁ hes (by omega)
      refine ⟨l', ?_, h', hle⟩
      rw [performSessions, List.foldlM_cons, hperform]
      exact hrest

/-- After every sequence of calls, the list that starts at `first` consists of
the sessions that are left, in the order of their creation, `prev` is the
inverse of `next`, and `destroy_socksv5_pool` destroys each of them once. -/
theorem session_list_integral {es : List SessionEvent}
    (hes : PossibleFrom [] es) {fuel : ℕ} (hfuel : es.length ≤ fuel) :
    ∃ l, performSessions fuel es {} = .ok l ∧
      Segment SessionNode.next l.heap l.first (sessionsLeft [] es) none ∧
      (sessionsLeft [] es).Nodup ∧
      (∀ a, l.heap a ≠ none ↔ a ∈ sessionsLeft [] es) ∧
      (∀ a b, l.nextOf a = some b ↔ l.prevOf b = some a) ∧
      (l.first = none ↔ sessionsLeft [] es = []) ∧
      ∃ l', l.destroySocksv5Pool fuel = .ok (sessionsLeft [] es, l') ∧
        l'.first = none ∧ ∀ a, l'.heap a = none := by
  have hroom : ([] : List ℕ).length + es.length ≤ fuel := by
    rw [List.length_nil]
    omega
  obtain ⟨l, hperform, h, hle⟩ :=
    exists_performSessions SessionList.integral_empty hes hroom
  obtain ⟨l', hpool, h'⟩ := h.exists_destroySocksv5Pool hle
  exact ⟨l, hperform, h.linked.segment, h.linked.nodup, h.allocated, h.inverse,
    h.linked.first_eq_none_iff, l', hpool, h'.linked.first_eq_none_iff.mpr rfl,
    fun a => h'.heap_eq_none List.not_mem_nil⟩

/-- Three sessions, of which the second and then the first are destroyed, and
one more, where the second was. -/
theorem session_list_of_four :
    ∃ l, performSessions 6 [.created 5 (some 0), .created 6 (some 1),
        .created 7 (some 2), .destroyed 1, .destroyed 0, .created 6 (some 1)]
          {} = .ok l ∧
      Segment SessionNode.next l.heap l.first [2, 1] none := by
  have hes : PossibleFrom [] [.created 5 (some 0), .created 6 (some 1),
      .created 7 (some 2), .destroyed 1, .destroyed 0,
      .created 6 (some 1)] := by
    simp [PossibleFrom, SessionEvent.Possible, SessionEvent.leaves]
  obtain ⟨l, hperform, hsegment, -⟩ := session_list_integral hes (le_refl 6)
  exact ⟨l, hperform, hsegment⟩

/-! ## What is in the list -/

namespace SessionList

/-- A session and its machine, without its links. -/
def body (l : SessionList) (a : ℕ) : Option (Session × Machine) :=
  (l.heap a).map fun node => (node.session, node.stm)

theorem body_of_heap {l : SessionList} {a : ℕ} {node : SessionNode}
    (h : l.heap a = some node) : l.body a = some (node.session, node.stm) := by
  rw [body, h]
  rfl

theorem exists_node_of_body {l : SessionList} {a : ℕ} {session : Session}
    {stm : Machine} (h : l.body a = some (session, stm)) :
    ∃ node, l.heap a = some node ∧ node.session = session ∧ node.stm = stm := by
  obtain ⟨node, hnode, heq⟩ := Option.map_eq_some_iff.mp h
  cases heq
  exact ⟨node, hnode, rfl, rfl⟩

theorem body_put (l : SessionList) (a : ℕ) (node : SessionNode) :
    (l.put a node).body =
      Function.update l.body a (some (node.session, node.stm)) := by
  funext b
  unfold body put
  by_cases hb : b = a
  · subst hb
    simp only [Function.update_self, Option.map_some]
  · simp only [Function.update_of_ne hb]

theorem body_free (l : SessionList) (a : ℕ) :
    (l.free a).body = Function.update l.body a none := by
  funext b
  unfold body free
  by_cases hb : b = a
  · subst hb
    simp only [Function.update_self, Option.map_none]
  · simp only [Function.update_of_ne hb]

theorem heap_of_deref {l : SessionList} {a : ℕ} {node : SessionNode}
    (h : l.deref (some a) = .ok node) : l.heap a = some node := by
  unfold deref at h
  split at h
  · cases h
  · rename_i heq
    cases heq
    split at h
    · cases h
      assumption
    · cases h

/-- Changing the links of a session changes no session. -/
theorem body_put_of_deref {l : SessionList} {a : ℕ} {node : SessionNode}
    (node' : SessionNode) (h : l.deref (some a) = .ok node)
    (hsession : node'.session = node.session)
    (hstm : node'.stm = node.stm) : (l.put a node').body = l.body := by
  rw [body_put, hsession, hstm, ← body_of_heap (heap_of_deref h),
    Function.update_eq_self]

/-- `new_socksv5` adds a new session. -/
theorem newSocksv5_body {fuel a : ℕ} {clientFd : ℤ} {p : Option ℕ}
    {l l' : SessionList}
    (h : l.newSocksv5 fuel clientFd (some a) = .ok (p, l')) :
    p = some a ∧ l'.body =
      Function.update l.body a (some (Socksv5.newSocksv5 clientFd, {})) := by
  cases hfirst : l.first with
  | none =>
      simp only [newSocksv5, hfirst] at h
      cases h
      exact ⟨rfl, l.body_put a _⟩
  | some first =>
      simp only [newSocksv5, hfirst] at h
      obtain ⟨aux, -, h⟩ := bind_eq_ok.mp h
      obtain ⟨last, hlast, h⟩ := bind_eq_ok.mp h
      cases h
      have hlinked := body_put_of_deref { last with next := some a } hlast rfl rfl
      rw [body_put, hlinked, body_put]
      exact ⟨rfl, Function.update_idem _ _ _⟩

/-- The second half of `socksv5_destroy`. -/
theorem unlink_body {a : ℕ} {l l' : SessionList}
    (h : (do
      let node ← l.deref (some a)
      let l ← match node.prev with
        | some prev => do
            let before ← l.deref (some prev)
            .ok (l.put prev { before with next := node.next })
        | none => .ok { l with first := node.next }
      let l := if l.first = some a then { l with first := none } else l
      .ok (l.free a)) = .ok l') : l'.body = Function.update l.body a none := by
  have hfree (l₁ : SessionList) : ((if l₁.first = some a then
      { l₁ with first := none } else l₁).free a).body =
        Function.update l₁.body a none := by
    rw [body_free]
    split <;> rfl
  obtain ⟨node, -, h⟩ := bind_eq_ok.mp h
  cases hprev : node.prev with
  | none =>
      simp only [hprev] at h
      cases h
      exact hfree _
  | some prev =>
      simp only [hprev] at h
      obtain ⟨before, hbefore, h⟩ := bind_eq_ok.mp h
      cases h
      rw [hfree, body_put_of_deref { before with next := node.next } hbefore rfl
        rfl]

/-- `socksv5_destroy` removes the session. -/
theorem socksv5Destroy_body {a : ℕ} {l l' : SessionList}
    (h : l.socksv5Destroy (some a) = .ok l') :
    l'.body = Function.update l.body a none := by
  obtain ⟨node, -, h⟩ := bind_eq_ok.mp h
  cases hnext : node.next with
  | none =>
      simp only [hnext] at h
      exact unlink_body h
  | some next =>
      simp only [hnext] at h
      obtain ⟨after, hafter, h⟩ := bind_eq_ok.mp h
      rw [unlink_body h, body_put_of_deref { after with prev := node.prev } hafter
        rfl rfl]

end SessionList

end Socksv5
