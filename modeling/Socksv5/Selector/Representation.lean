import Socksv5.Selector

/-!
# The representation of the table

The selector keeps the registrations three times: in the items, in the two
descriptor sets for `pselect`, and, as to which is the greatest descriptor, in
`max_fd`.  `FdSelector.Represents` says how these belong together; every
operation keeps it, on the selector that `main` creates.
-/

namespace Socksv5

open Support

namespace FdInterest

/-- The interest with the given members. -/
def ofBits : Bool → Bool → FdInterest
  | false, false => .noop
  | true, false => .read
  | false, true => .write
  | true, true => .readWrite

/-- The interests in either. -/
def union (a b : FdInterest) : FdInterest :=
  ofBits (a.reads || b.reads) (a.writes || b.writes)

/-- The interests of `a` that are not in `b`. -/
def diff (a b : FdInterest) : FdInterest :=
  ofBits (a.reads && !b.reads) (a.writes && !b.writes)

end FdInterest

theorem additive_eq_union {i : FdInterest} (hi : i ≠ .readWrite)
    (old : FdInterest) : (additive i old).getD old = old.union i := by
  cases i with
  | readWrite => exact absurd rfl hi
  | noop | read | write => cases old <;> rfl

theorem reduction_eq_diff {i : FdInterest} (hi : i ≠ .readWrite)
    (old : FdInterest) : (reduction i old).getD old = old.diff i := by
  cases i with
  | readWrite => exact absurd rfl hi
  | noop | read | write => cases old <;> rfl

/-- The three representations of the registered descriptors agree, in a table
of the size that `selector_new(1024)` gives it. -/
structure FdSelector.Represents (s : FdSelector) : Prop where
  size : s.fdSize = itemsMaxSize + 1
  fd_eq : ∀ i, (s.fds i).used = true → (s.fds i).fd = i ∧ i < itemsMaxSize
  masterR_eq : ∀ i, s.masterR i = ((s.fds i).used && (s.fds i).interest.reads)
  masterW_eq : ∀ i, s.masterW i = ((s.fds i).used && (s.fds i).interest.writes)
  le_maxFd : ∀ i, (s.fds i).used = true → (i : ℤ) ≤ s.maxFd
  maxFd_used : s.maxFd = 0 ∨ ∃ i : ℕ, s.maxFd = i ∧ (s.fds i).used = true

theorem selectorNew_represents : (selectorNew 1024).Represents where
  size := by decide
  fd_eq := by simp [selectorNew, Item.used]
  masterR_eq := by simp [selectorNew, Item.used]
  masterW_eq := by simp [selectorNew, Item.used]
  le_maxFd := by simp [selectorNew, Item.used]
  maxFd_used := Or.inl rfl

/-! ## The greatest descriptor -/

/-- What `items_max_fd` has found among the first `n` items. -/
def MaxOf (fds : ℕ → Item) (n : ℕ) (max : ℤ) : Prop :=
  (∀ i, i < n → (fds i).used = true → (i : ℤ) ≤ max) ∧
    (max = 0 ∨ ∃ i : ℕ, max = i ∧ (fds i).used = true)

theorem MaxOf.next {fds : ℕ → Item} {n : ℕ} {max : ℤ}
    (hfd : ∀ i, (fds i).used = true → (fds i).fd = i) (h : MaxOf fds n max) :
    MaxOf fds (n + 1)
      (if (fds n).used && decide (max < (fds n).fd) then (fds n).fd
        else max) := by
  obtain ⟨hle, hmax⟩ := h
  by_cases hused : (fds n).used = true
  · rw [hused, Bool.true_and, hfd n hused]
    by_cases hlt : max < n
    · rw [if_pos (by simpa using hlt)]
      refine ⟨?_, Or.inr ⟨n, rfl, hused⟩⟩
      intro i hi _
      omega
    · rw [if_neg (by simpa using hlt)]
      refine ⟨?_, hmax⟩
      intro i hi hi'
      rcases Nat.lt_succ_iff_lt_or_eq.mp hi with hin | rfl
      · exact hle i hin hi'
      · omega
  · rw [if_neg (by simp [hused])]
    refine ⟨?_, hmax⟩
    intro i hi hi'
    rcases Nat.lt_succ_iff_lt_or_eq.mp hi with hin | rfl
    · exact hle i hin hi'
    · exact absurd hi' hused

theorem FdSelector.itemsMaxFd_spec {s : FdSelector}
    (hfd : ∀ i, (s.fds i).used = true → (s.fds i).fd = i) :
    MaxOf s.fds (s.maxFd.toNat + 1) s.itemsMaxFd := by
  unfold FdSelector.itemsMaxFd
  generalize s.maxFd.toNat + 1 = n
  induction n with
  | zero => exact ⟨fun i hi => absurd hi (Nat.not_lt_zero i), Or.inl rfl⟩
  | succ n ih =>
      rw [List.range_succ, List.foldl_append]
      exact ih.next hfd

/-! ## What the operations do to the representation -/

/-- Giving a valid descriptor an item keeps the representation, with the
greatest descriptor raised to it. -/
theorem FdSelector.Represents.set {s : FdSelector} (h : s.Represents) {fd : ℤ}
    (item : Item) (max : ℤ) (hfd : invalidFd fd = false) (hitem : item.fd = fd)
    (hmax : max = if s.maxFd < fd then fd else s.maxFd) :
    { (s.setSlot fd.toNat item).itemsUpdateFdsetForFd item with
      maxFd := max }.Represents := by
  have hvalid := invalidFd_eq_false_iff.mp hfd
  have hcast : (fd.toNat : ℤ) = fd := Int.toNat_of_nonneg hvalid.1
  have hused : item.used = true := by
    rw [Item.used, hitem, decide_eq_true_iff]
    omega
  have hfds : ∀ i, Function.update s.fds fd.toNat item i =
      if i = fd.toNat then item else s.fds i := by
    intro i
    rw [Function.update_apply]
  have hle : ∀ i, (s.fds i).used = true → (i : ℤ) ≤ max := by
    intro i hi
    have := h.le_maxFd i hi
    rw [hmax]
    split <;> omega
  constructor
  · exact h.size
  · intro i hi
    simp only [FdSelector.itemsUpdateFdsetForFd, FdSelector.setSlot, hfds] at hi ⊢
    by_cases heq : i = fd.toNat
    · simp only [heq, if_true, hitem, itemsMaxSize]
      omega
    · simp only [heq, if_false] at hi ⊢
      exact h.fd_eq i hi
  · intro i
    simp only [FdSelector.itemsUpdateFdsetForFd, FdSelector.setSlot, hfds, hitem,
      Function.update_apply]
    by_cases heq : i = fd.toNat
    · simp only [heq, if_true]
    · simp only [heq, if_false, h.masterR_eq]
  · intro i
    simp only [FdSelector.itemsUpdateFdsetForFd, FdSelector.setSlot, hfds, hitem,
      Function.update_apply]
    by_cases heq : i = fd.toNat
    · simp only [heq, if_true]
    · simp only [heq, if_false, h.masterW_eq]
  · intro i hi
    simp only [FdSelector.itemsUpdateFdsetForFd, FdSelector.setSlot, hfds] at hi ⊢
    by_cases heq : i = fd.toNat
    · rw [heq, hcast, hmax]
      split <;> omega
    · simp only [heq, if_false] at hi
      exact hle i hi
  · simp only [FdSelector.itemsUpdateFdsetForFd, FdSelector.setSlot, hfds]
    rw [hmax]
    by_cases hlt : s.maxFd < fd
    · rw [if_pos hlt]
      exact Or.inr ⟨fd.toNat, hcast.symm, by simp only [if_true, hused]⟩
    · rw [if_neg hlt]
      rcases h.maxFd_used with hzero | ⟨i, hi, hi'⟩
      · exact Or.inl hzero
      · refine Or.inr ⟨i, hi, ?_⟩
        by_cases heq : i = fd.toNat
        · simp only [heq, if_true, hused]
        · simp only [heq, if_false, hi']

/-- Taking the item of a valid descriptor away keeps the representation, with
the greatest descriptor looked for again. -/
theorem FdSelector.Represents.clear {s s' : FdSelector} (h : s.Represents)
    {fd : ℤ} (hsize : s'.fdSize = s.fdSize) (hmaxFd : s'.maxFd = s.maxFd)
    (hfds : s'.fds = Function.update s.fds fd.toNat {})
    (hr : s'.masterR = Function.update s.masterR fd.toNat false)
    (hw : s'.masterW = Function.update s.masterW fd.toNat false) :
    { s' with maxFd := s'.itemsMaxFd }.Represents := by
  have hused : ∀ i, (s'.fds i).used = true →
      i ≠ fd.toNat ∧ s'.fds i = s.fds i := by
    intro i hi
    rw [hfds, Function.update_apply] at hi ⊢
    by_cases heq : i = fd.toNat
    · rw [if_pos heq] at hi
      exact absurd hi (by decide)
    · exact ⟨heq, if_neg heq⟩
  have hfd : ∀ i, (s'.fds i).used = true → (s'.fds i).fd = i ∧
      i < itemsMaxSize := by
    intro i hi
    have heq := (hused i hi).2
    rw [heq] at hi ⊢
    exact h.fd_eq i hi
  obtain ⟨hle, hmax⟩ := s'.itemsMaxFd_spec fun i hi => (hfd i hi).1
  have hcleared : ({} : Item).used = false := by decide
  constructor
  · exact hsize.trans h.size
  · exact hfd
  · intro i
    dsimp only
    rw [hr, hfds, Function.update_apply, Function.update_apply]
    by_cases heq : i = fd.toNat
    · rw [if_pos heq, if_pos heq, hcleared, Bool.false_and]
    · rw [if_neg heq, if_neg heq]
      exact h.masterR_eq i
  · intro i
    dsimp only
    rw [hw, hfds, Function.update_apply, Function.update_apply]
    by_cases heq : i = fd.toNat
    · rw [if_pos heq, if_pos heq, hcleared, Bool.false_and]
    · rw [if_neg heq, if_neg heq]
      exact h.masterW_eq i
  · intro i hi
    have hi' : (s.fds i).used = true := by rwa [(hused i hi).2] at hi
    have hbound := h.le_maxFd i hi'
    rw [← hmaxFd] at hbound
    exact hle i (by omega) hi
  · exact hmax

theorem FdSelector.Represents.slot {s : FdSelector} (h : s.Represents) {fd : ℤ}
    (hfd : invalidFd fd = false) : s.slot fd.toNat = .ok (s.fds fd.toNat) := by
  have hvalid := invalidFd_eq_false_iff.mp hfd
  have hsize := h.size
  rw [FdSelector.slot, if_pos]
  rw [hsize, itemsMaxSize]
  omega

theorem FdSelector.Represents.fd_item {s : FdSelector} (h : s.Represents)
    {fd : ℤ} (hfd : invalidFd fd = false)
    (hused : (s.fds fd.toNat).used = true) : (s.fds fd.toNat).fd = fd := by
  rw [(h.fd_eq _ hused).1]
  exact Int.toNat_of_nonneg (invalidFd_eq_false_iff.mp hfd).1

/-- `Keeps s r`: an operation on `s` returns, keeps the representation, and
changes nothing unless it succeeds. -/
def Keeps (s : FdSelector) (r : Except Fault (SelectorStatus × FdSelector)) :
    Prop :=
  ∃ ret s', r = .ok (ret, s') ∧ s'.Represents ∧ (ret ≠ .success → s' = s)

theorem FdSelector.Represents.refused {s : FdSelector} (h : s.Represents)
    (ret : SelectorStatus) : Keeps s (.ok (ret, s)) :=
  ⟨ret, s, rfl, h, fun _ => rfl⟩

theorem FdSelector.Represents.register {s : FdSelector} (h : s.Represents)
    (fd : ℤ) (handler : Option FdHandler) (interest : FdInterest)
    (data : Option ℕ) (alloc : Bool) :
    Keeps s (selectorRegister s fd handler interest data alloc) := by
  unfold selectorRegister
  by_cases hargs : (invalidFd fd || handler.isNone) = true
  · rw [if_pos hargs]
    exact h.refused _
  · rw [if_neg hargs]
    rw [Bool.not_eq_true, Bool.or_eq_false_iff] at hargs
    obtain ⟨hfd, -⟩ := hargs
    have hvalid := invalidFd_eq_false_iff.mp hfd
    have hsize := h.size
    have hfits : ¬ s.fdSize < fd.toNat := by
      rw [hsize, itemsMaxSize]
      omega
    simp only [if_neg hfits, ne_eq, not_true_eq_false, if_false, h.slot hfd,
      ok_bind]
    by_cases hused : (s.fds fd.toNat).used = true
    · rw [if_pos hused]
      exact h.refused _
    · rw [if_neg hused]
      refine ⟨_, _, rfl, ?_, fun hret => absurd rfl hret⟩
      exact h.set ⟨fd, interest, handler, data⟩ _ hfd rfl rfl

theorem FdSelector.Represents.unregister {s : FdSelector} (h : s.Represents)
    (fd : ℤ) : Keeps s (selectorUnregisterFd s fd) := by
  unfold selectorUnregisterFd
  by_cases hfd : invalidFd fd = true
  · rw [if_pos hfd]
    exact h.refused _
  · rw [if_neg hfd]
    rw [Bool.not_eq_true] at hfd
    rw [h.slot hfd, ok_bind]
    by_cases hused : (s.fds fd.toNat).used = true
    · rw [if_neg (by simp [hused])]
      have hitem := h.fd_item hfd hused
      refine ⟨_, _, rfl, ?_, fun hret => absurd rfl hret⟩
      apply h.clear
      · rfl
      · rfl
      · exact Function.update_idem _ _ _
      · simp [FdSelector.itemsUpdateFdsetForFd, FdSelector.setSlot, hitem,
          FdInterest.reads]
      · simp [FdSelector.itemsUpdateFdsetForFd, FdSelector.setSlot, hitem,
          FdInterest.writes]
    · rw [if_pos (by simp [hused])]
      exact h.refused _

theorem FdSelector.Represents.update {s : FdSelector} (h : s.Represents)
    (fd : ℤ) (change : FdInterest → Option FdInterest) :
    Keeps s (updateInterest s fd change) := by
  unfold updateInterest
  by_cases hfd : invalidFd fd = true
  · rw [if_pos hfd]
    exact h.refused _
  · rw [if_neg hfd]
    rw [Bool.not_eq_true] at hfd
    rw [h.slot hfd, ok_bind]
    by_cases hused : (s.fds fd.toNat).used = true
    · rw [if_neg (by simp [hused])]
      cases hchange : change (s.fds fd.toNat).interest with
      | none => exact h.refused _
      | some i =>
          have hitem := h.fd_item hfd hused
          have hle := h.le_maxFd _ hused
          have hvalid := invalidFd_eq_false_iff.mp hfd
          have hset := h.set { (s.fds fd.toNat) with interest := i } s.maxFd hfd
            hitem (by rw [if_neg]; omega)
          exact ⟨_, _, rfl, hset, fun hret => absurd rfl hret⟩
    · rw [if_pos (by simp [hused])]
      exact h.refused _

/-! ## Runs -/

/-- The operations on the table. -/
inductive SelectorOp
  | register (fd : ℤ) (handler : Option FdHandler) (interest : FdInterest)
      (data : Option ℕ) (alloc : Bool)
  | unregister (fd : ℤ)
  | setInterest (fd : ℤ) (i : FdInterest)
  | setInterestKey (fd : ℤ) (i : FdInterest)
  | setInterestAdditive (fd : ℤ) (i : FdInterest)
  | setInterestReduction (fd : ℤ) (i : FdInterest)

/-- The call of an operation. -/
def SelectorOp.call (s : FdSelector) :
    SelectorOp → Except Fault (SelectorStatus × FdSelector)
  | .register fd handler interest data alloc =>
      selectorRegister s fd handler interest data alloc
  | .unregister fd => selectorUnregisterFd s fd
  | .setInterest fd i => selectorSetInterest s fd i
  | .setInterestKey fd i => selectorSetInterestKey s fd i
  | .setInterestAdditive fd i => selectorSetInterestAdditive s fd i
  | .setInterestReduction fd i => selectorSetInterestReduction s fd i

/-- The calls of the operations, one after the other. -/
def callAll : List SelectorOp → FdSelector → Except Fault FdSelector
  | [], s => .ok s
  | op :: ops, s => do
      let (_, s) ← op.call s
      callAll ops s

theorem SelectorOp.call_keeps {s : FdSelector} (h : s.Represents)
    (op : SelectorOp) : Keeps s (op.call s) := by
  cases op with
  | register fd handler interest data alloc =>
      exact h.register fd handler interest data alloc
  | unregister fd => exact h.unregister fd
  | setInterest fd i => exact h.update fd fun _ => some i
  | setInterestKey fd i =>
      rw [SelectorOp.call, selectorSetInterestKey_eq]
      exact h.update fd fun _ => some i
  | setInterestAdditive fd i => exact h.update fd _
  | setInterestReduction fd i => exact h.update fd _

theorem callAll_represents (ops : List SelectorOp) {s : FdSelector}
    (h : s.Represents) : ∃ s', callAll ops s = .ok s' ∧ s'.Represents := by
  induction ops generalizing s with
  | nil => exact ⟨s, rfl, h⟩
  | cons op ops ih =>
      obtain ⟨ret, s₁, hcall, hs₁, -⟩ := op.call_keeps h
      rw [callAll, hcall, ok_bind]
      exact ih hs₁

/-- An operation on the interest of a descriptor that succeeds. -/
theorem interest?_of_update {s s' : FdSelector} {fd : ℤ}
    {change : FdInterest → Option FdInterest}
    (h : updateInterest s fd change = .ok (.success, s')) :
    ∃ old, s.interest? fd = some old ∧
      s'.interest? = Function.update s.interest? fd
        (some ((change old).getD old)) :=
  (updateInterest_spec h).interest_eq

/-- The descriptor that an operation is about. -/
def SelectorOp.fd : SelectorOp → ℤ
  | .register fd _ _ _ _ | .unregister fd | .setInterest fd _
  | .setInterestKey fd _ | .setInterestAdditive fd _
  | .setInterestReduction fd _ => fd

/-- An operation has what it needs: a descriptor that is valid and not registered
yet, with a table of callbacks, or one that is registered. -/
def SelectorOp.Applies (s : FdSelector) : SelectorOp → Prop
  | .register fd handler _ _ _ =>
      invalidFd fd = false ∧ handler ≠ none ∧ ¬ s.Registered fd
  | op => s.Registered op.fd

/-- The interest in the descriptor after an operation that succeeds, from the one
before it. -/
def SelectorOp.newInterest (old : Option FdInterest) :
    SelectorOp → Option FdInterest
  | .register _ _ interest _ _ => some interest
  | .unregister _ => none
  | .setInterest _ i | .setInterestKey _ i => some i
  | .setInterestAdditive _ i => old.map fun old => (additive i old).getD old
  | .setInterestReduction _ i => old.map fun old => (reduction i old).getD old

/-- `op.Answers s ret s'`: the operation succeeds exactly where it applies.  It
sets the interest in its descriptor then, and touches no other; otherwise it
changes nothing. -/
structure SelectorOp.Answers (op : SelectorOp) (s : FdSelector) (ret : SelectorStatus)
    (s' : FdSelector) : Prop where
  success_iff : ret = .success ↔ op.Applies s
  interest_eq : ret = .success → s'.interest? =
    Function.update s.interest? op.fd (op.newInterest (s.interest? op.fd))
  refused : ret ≠ .success → s' = s

/-- An operation on an interest answers as it should. -/
theorem updateInterest_answers {s s' : FdSelector} {op : SelectorOp}
    {ret : SelectorStatus} (change : FdInterest → Option FdInterest)
    (hop : op.Applies s ↔ s.Registered op.fd)
    (hnew : ∀ old, op.newInterest (some old) = some ((change old).getD old))
    (h : updateInterest s op.fd change = .ok (ret, s'))
    (hrefused : ret ≠ .success → s' = s) : op.Answers s ret s' := by
  have hchanges := updateInterest_spec h
  refine ⟨?_, ?_, hrefused⟩
  · rw [hop]
    constructor
    · rintro rfl
      obtain ⟨old, hold, -⟩ := hchanges.interest_eq
      rw [FdSelector.Registered, hold]
      exact Option.some_ne_none old
    · exact hchanges.success_of_registered
  · rintro rfl
    obtain ⟨old, hold, hs'⟩ := hchanges.interest_eq
    rw [hs', hold, hnew]

/-- In a table of this size there is room for every valid descriptor, so that it can
be registered once. -/
theorem FdSelector.Represents.register_answers {s s' : FdSelector}
    (hs : s.Represents) {fd : ℤ} {handler : Option FdHandler} {interest : FdInterest}
    {data : Option ℕ} {alloc : Bool} {ret : SelectorStatus}
    (h : selectorRegister s fd handler interest data alloc = .ok (ret, s'))
    (hrefused : ret ≠ .success → s' = s) :
    (SelectorOp.register fd handler interest data alloc).Answers s ret s' := by
  cases handler with
  | none =>
      have hargs : (invalidFd fd || (none : Option FdHandler).isNone) = true :=
        Bool.or_true _
      rw [selectorRegister, if_pos hargs] at h
      cases h
      refine ⟨iff_of_false (by decide) fun happlies => happlies.2.1 rfl, ?_, hrefused⟩
      intro hret
      cases hret
  | some handler =>
      have hroom : invalidFd fd = false → s.HasRoom alloc fd := by
        intro hfd
        have hvalid := invalidFd_eq_false_iff.mp hfd
        refine ⟨hfd, .inl ?_⟩
        rw [hs.size, itemsMaxSize]
        omega
      refine ⟨⟨?_, ?_⟩, ?_, hrefused⟩
      · intro hret
        rcases selectorRegister_cases h with ⟨hne, -⟩ | ⟨-, hnone, hfd, -⟩
        · exact absurd hret hne
        · exact ⟨hfd, Option.some_ne_none handler, fun hreg => hreg hnone⟩
      · rintro ⟨hfd, -, hnot⟩
        exact selectorRegister_success h (hroom hfd) (not_not.mp hnot)
      · intro hret
        rcases selectorRegister_cases h with ⟨hne, -⟩ | ⟨-, -, -, hs', -⟩
        · exact absurd hret hne
        · exact hs'

theorem selectorUnregisterFd_answers {s s' : FdSelector} {fd : ℤ}
    {ret : SelectorStatus} (h : selectorUnregisterFd s fd = .ok (ret, s')) :
    (SelectorOp.unregister fd).Answers s ret s' := by
  rcases selectorUnregisterFd_cases h with ⟨hret, hnone, hs'⟩ | ⟨hret, hsome, hs', -⟩
  · exact ⟨iff_of_false hret fun hreg => hreg hnone, fun hok => absurd hok hret,
      fun _ => hs'⟩
  · exact ⟨iff_of_true hret hsome, fun _ => hs', fun hne => absurd hret hne⟩

/-- Every operation on a sound table answers as it should, and leaves a sound
table. -/
theorem SelectorOp.exists_answer {s : FdSelector} (hs : s.Represents)
    (op : SelectorOp) : ∃ ret s', op.call s = .ok (ret, s') ∧ s'.Represents ∧
      op.Answers s ret s' := by
  obtain ⟨ret, s', hcall, hs', hrefused⟩ := op.call_keeps hs
  refine ⟨ret, s', hcall, hs', ?_⟩
  cases op with
  | register fd handler interest data alloc => exact hs.register_answers hcall hrefused
  | unregister fd => exact selectorUnregisterFd_answers hcall
  | setInterest fd i =>
      exact updateInterest_answers (fun _ => some i) Iff.rfl (fun _ => rfl) hcall hrefused
  | setInterestKey fd i =>
      rw [SelectorOp.call, selectorSetInterestKey_eq] at hcall
      exact updateInterest_answers (fun _ => some i) Iff.rfl (fun _ => rfl) hcall hrefused
  | setInterestAdditive fd i =>
      exact updateInterest_answers (additive i) Iff.rfl (fun _ => rfl) hcall hrefused
  | setInterestReduction fd i =>
      exact updateInterest_answers (reduction i) Iff.rfl (fun _ => rfl) hcall hrefused

/-- After any operations on the selector that `main` creates its representation
is sound.  One more operation leaves it sound; it succeeds exactly where it
applies, and changes nothing otherwise.  In particular, adding an interest to that
of a registered descriptor gives the union, and taking one away the
difference. -/
theorem selector_representation (ops : List SelectorOp) :
    ∃ s, callAll ops (selectorNew 1024) = .ok s ∧ s.Represents ∧
      (∀ op : SelectorOp, ∃ ret s', op.call s = .ok (ret, s') ∧
        s'.Represents ∧ op.Answers s ret s') ∧
      ∀ fd old i, s.interest? fd = some old → i ≠ .readWrite →
        (∃ s', selectorSetInterestAdditive s fd i = .ok (.success, s') ∧
          s'.interest? = Function.update s.interest? fd (some (old.union i))) ∧
        ∃ s', selectorSetInterestReduction s fd i = .ok (.success, s') ∧
          s'.interest? = Function.update s.interest? fd (some (old.diff i)) := by
  obtain ⟨s, hcalls, hs⟩ := callAll_represents ops selectorNew_represents
  refine ⟨s, hcalls, hs, fun op => op.exists_answer hs, ?_⟩
  intro fd old i hold hi
  have hreg : s.Registered fd := by
    rw [FdSelector.Registered, hold]
    exact Option.some_ne_none old
  constructor
  · obtain ⟨s', hadd⟩ := exists_updateInterest (additive i) hreg
    obtain ⟨old', hold', hs'⟩ := interest?_of_update hadd
    rw [hold, Option.some.injEq] at hold'
    subst hold'
    rw [additive_eq_union hi] at hs'
    exact ⟨s', hadd, hs'⟩
  · obtain ⟨s', hreduce⟩ := exists_updateInterest (reduction i) hreg
    obtain ⟨old', hold', hs'⟩ := interest?_of_update hreduce
    rw [hold, Option.some.injEq] at hold'
    subst hold'
    rw [reduction_eq_diff hi] at hs'
    exact ⟨s', hreduce, hs'⟩

/-- The operations on a client: it is registered for reading. -/
def registersClient : List SelectorOp :=
  [.register 7 (some .socksv5Active) .read none true]

/-- A client that is registered for reading can be made to be written to as well;
descriptor 9 is not registered, and cannot be unregistered. -/
theorem selector_representation_of_client : ∃ s s₁, ∃ ret ≠ SelectorStatus.success,
    callAll registersClient (selectorNew 1024) = .ok s ∧
      selectorSetInterestAdditive s 7 .write = .ok (.success, s₁) ∧
      s₁.interest? 7 = some .readWrite ∧
      selectorUnregisterFd s 9 = .ok (ret, s) := by
  obtain ⟨s, hcalls, hs, hops, hchange⟩ := selector_representation registersClient
  have hclient : s.interest? 7 = some .read ∧ s.interest? 9 = none := by
    have hplay : (callAll registersClient (selectorNew 1024)).toOption.map
        (fun s => (s.interest? 7, s.interest? 9)) = some (some .read, none) := by
      decide
    rw [hcalls] at hplay
    exact Prod.mk.inj (Option.some.inj hplay)
  obtain ⟨⟨s₁, hadd, hs₁⟩, -⟩ := hchange 7 .read .write hclient.1 (by decide)
  obtain ⟨ret, s', hcall, -, hanswers⟩ := hops (.unregister 9)
  have hret : ret ≠ .success := fun hok => hanswers.success_iff.mp hok hclient.2
  obtain rfl := hanswers.refused hret
  refine ⟨s', s₁, ret, hret, hcalls, hadd, ?_, hcall⟩
  rw [hs₁, Function.update_self]
  rfl

end Socksv5
