import Socksv5.Selector.Representation

/-!
# The size of the table

`selector_register` makes the table larger for a descriptor that is greater than
its size; a descriptor that is the size itself has no item, but is not greater.
The other operations never look at the size.  A call stays in the table exactly
when it avoids both, and then it does what it is for.
-/

namespace Socksv5

open Support

/-- What `selector_new` gives to `ensure_capacity`: a selector without items. -/
def blankSelector : FdSelector where
  fds := fun _ => {}
  fdSize := 0
  maxFd := 0
  masterR := fun _ => false
  masterW := fun _ => false
  resolutionJobs := []

/-- `op.Serves s ret s'`: the call of `op` on `s`, which returned `ret` and left
`s'`, was one as it should be.  What `items_max_fd` goes through is in the table;
every other slot is as it was; those that are new are not in use; and a valid
descriptor that is not registered could be, with an allocation that succeeds. -/
structure SelectorOp.Serves (op : SelectorOp) (s : FdSelector)
    (ret : SelectorStatus) (s' : FdSelector) : Prop where
  scanned : s.maxFd < s.fdSize
  size_le : s.fdSize ≤ s'.fdSize
  kept : ∀ i < s.fdSize, i ≠ op.fd.toNat → s'.fds i = s.fds i
  fresh : ∀ i, s.fdSize ≤ i → i < s'.fdSize → i ≠ op.fd.toNat →
    (s'.fds i).used = false
  registers : ∀ fd handler interest data,
    op = .register fd (some handler) interest data true →
      invalidFd fd = false →
        (s.Registered fd → ret = .fdinuse ∧ s' = s) ∧
        (¬ s.Registered fd → ret = .success ∧ fd.toNat < s'.fdSize ∧
          s'.fds fd.toNat = ⟨fd, interest, some handler, data⟩)

/-- Every call of a run accesses slots of the table only, and is as it should
be. -/
def SafelyCalled : List SelectorOp → FdSelector → Prop
  | [], _ => True
  | op :: ops, s => ∃ ret s', op.call s = .ok (ret, s') ∧
      op.Serves s ret s' ∧ SafelyCalled ops s'

/-- The descriptor is not the one for which no room is made, or has an item. -/
def SelectorOp.Fits (s : FdSelector) : SelectorOp → Prop
  | .register fd handler _ _ _ =>
      invalidFd fd = true ∨ handler = none ∨ fd.toNat ≠ s.fdSize
  | op => invalidFd op.fd = true ∨ op.fd.toNat < s.fdSize

/-- The condition on every call of a run. -/
def AllFit : List SelectorOp → FdSelector → Prop
  | [], _ => True
  | op :: ops, s => op.Fits s ∧ ∀ ret s', op.call s = .ok (ret, s') →
      AllFit ops s'

/-! ## The table between two calls -/

/-- Only slots of the table are in use, each by its own descriptor, and
`items_max_fd` stays among them. -/
structure FdSelector.Tabled (s : FdSelector) : Prop where
  size_pos : 0 < s.fdSize
  fd_eq : ∀ i, (s.fds i).used = true → (s.fds i).fd = i ∧ i < s.fdSize
  maxFd_lt : s.maxFd < s.fdSize

theorem nextCapacity_pos (n : ℕ) : 0 < nextCapacity n :=
  Nat.succ_pos _

theorem selectorNew_tabled (n : ℕ) : (selectorNew n).Tabled where
  size_pos := nextCapacity_pos n
  fd_eq := by simp [selectorNew, Item.used]
  maxFd_lt := Int.natCast_pos.mpr (nextCapacity_pos n)

namespace FdSelector.Tabled

variable {s s' : FdSelector} {fd : ℤ}

/-- The registered descriptors are those whose slots are in use. -/
theorem registered_iff (h : s.Tabled) (hfd : invalidFd fd = false) :
    s.Registered fd ↔ (s.fds fd.toNat).used = true := by
  constructor
  · intro hreg
    exact hreg.item.2.2
  · intro hused
    have hlt := (h.fd_eq _ hused).2
    simp [Registered, interest?, hfd, hlt, hused]

/-- Another item in a slot of the table. -/
theorem update (h : s.Tabled) (item : Item) {i : ℕ} (hlt : i < s.fdSize)
    (hitem : item.used = true → item.fd = i) (hsize : s'.fdSize = s.fdSize)
    (hfds : s'.fds = Function.update s.fds i item)
    (hmax : s'.maxFd < s.fdSize) : s'.Tabled where
  size_pos := by
    rw [hsize]
    exact h.size_pos
  fd_eq := by
    intro k hk
    rw [hfds, Function.update_apply] at hk ⊢
    by_cases hki : k = i
    · rw [if_pos hki] at hk ⊢
      rw [hki, hsize]
      exact ⟨hitem hk, hlt⟩
    · rw [if_neg hki] at hk ⊢
      rw [hsize]
      exact h.fd_eq k hk
  maxFd_lt := by
    rw [hsize]
    exact hmax

/-- The greatest descriptor that `items_max_fd` finds has an item. -/
theorem itemsMaxFd_lt (h : s.Tabled) : s.itemsMaxFd < s.fdSize := by
  rcases (itemsMaxFd_spec fun i hi => (h.fd_eq i hi).1).2 with hzero | ⟨i, hi, hused⟩
  · rw [hzero]
    exact Int.natCast_pos.mpr h.size_pos
  · rw [hi]
    exact Int.ofNat_lt.mpr (h.fd_eq i hused).2

/-- The table that has grown for a descriptor. -/
theorem ensureCapacity (h : s.Tabled) {n : ℕ} (hgrow : s.fdSize < n)
    (hmax : n ≤ itemsMaxSize) :
    ∃ g, s.ensureCapacity n true = (.success, g) ∧ g.Tabled ∧ n < g.fdSize ∧
      g.maxFd = s.maxFd ∧ g.fds = fun i => if i < s.fdSize then s.fds i else {} := by
  have hlt := lt_nextCapacity hmax
  have hsize : ¬ n < s.fdSize := Nat.lt_asymm hgrow
  refine ⟨{ s with
      fds := fun i => if i < s.fdSize then s.fds i else {}
      fdSize := nextCapacity n }, ?_, ?_, hlt, rfl, rfl⟩
  · rw [FdSelector.ensureCapacity, if_neg hsize, if_neg (Nat.not_lt.mpr hmax)]
    rfl
  · refine ⟨nextCapacity_pos n, ?_, ?_⟩
    · intro i hi
      dsimp only at hi ⊢
      by_cases hold : i < s.fdSize
      · rw [if_pos hold] at hi ⊢
        exact ⟨(h.fd_eq i hi).1, by omega⟩
      · rw [if_neg hold] at hi
        cases hi
    · have := h.maxFd_lt
      dsimp only
      omega

end FdSelector.Tabled

/-! ## The calls -/

section Calls

variable {s s' : FdSelector} {fd : ℤ}

/-- A call that touches no slot but that of its descriptor, in a table that keeps
its size. -/
theorem SelectorOp.Serves.of_kept {op : SelectorOp} {ret : SelectorStatus}
    (h : s.Tabled) (hsize : s'.fdSize = s.fdSize)
    (hkept : ∀ i, i ≠ op.fd.toNat → s'.fds i = s.fds i)
    (hop : ∀ fd handler interest data,
      op ≠ .register fd (some handler) interest data true ∨
        invalidFd fd = true) : op.Serves s ret s' where
  scanned := h.maxFd_lt
  size_le := Nat.le_of_eq hsize.symm
  kept := fun i _ hi => hkept i hi
  fresh := by
    intro i hge hlt
    omega
  registers := by
    intro fd handler interest data heq hfd
    rcases hop fd handler interest data with hne | hinv
    · exact absurd heq hne
    · rw [hfd] at hinv
      cases hinv

/-- `Stays s op`: the call of `op` on `s` is as it should be. -/
def Stays (s : FdSelector) (op : SelectorOp) : Prop :=
  ∃ ret s', op.call s = .ok (ret, s') ∧ s'.Tabled ∧ op.Serves s ret s'

theorem FdSelector.Tabled.slot (h : fd.toNat < s.fdSize) :
    s.slot fd.toNat = .ok (s.fds fd.toNat) :=
  if_pos h

/-- A change of interest of a descriptor that has an item. -/
theorem stays_updateInterest (h : s.Tabled) (op : SelectorOp)
    (change : FdInterest → Option FdInterest)
    (hcall : op.call s = updateInterest s op.fd change)
    (hop : ∀ fd handler interest data alloc,
      op ≠ .register fd handler interest data alloc)
    (hfits : invalidFd op.fd = true ∨ op.fd.toNat < s.fdSize) : Stays s op := by
  have hserves : ∀ {ret : SelectorStatus} {s' : FdSelector},
      s'.fdSize = s.fdSize → (∀ i, i ≠ op.fd.toNat → s'.fds i = s.fds i) →
        op.Serves s ret s' :=
    fun hsize hkept => .of_kept h hsize hkept
      fun fd handler interest data => .inl (hop fd (some handler) interest data true)
  have hsame : ∀ ret, op.call s = .ok (ret, s) → Stays s op :=
    fun ret hret => ⟨ret, s, hret, h, hserves rfl fun _ _ => rfl⟩
  unfold updateInterest at hcall
  by_cases hfd : invalidFd op.fd = true
  · rw [if_pos hfd] at hcall
    exact hsame _ hcall
  · have hlt := hfits.resolve_left hfd
    rw [if_neg hfd, FdSelector.Tabled.slot hlt, ok_bind] at hcall
    by_cases hused : (s.fds op.fd.toNat).used = true
    · rw [if_neg (by simp [hused])] at hcall
      cases hchange : change (s.fds op.fd.toNat).interest with
      | none =>
          simp only [hchange] at hcall
          exact hsame _ hcall
      | some i =>
          simp only [hchange] at hcall
          have hitem := (h.fd_eq _ hused).1
          refine ⟨_, _, hcall,
            h.update { (s.fds op.fd.toNat) with interest := i } hlt
              (fun _ => hitem) rfl rfl h.maxFd_lt,
            hserves rfl ?_⟩
          intro k hk
          exact Function.update_of_ne hk _ _
    · rw [if_pos (by simp [hused])] at hcall
      exact hsame _ hcall

theorem stays_unregister (h : s.Tabled)
    (hfits : invalidFd fd = true ∨ fd.toNat < s.fdSize) :
    Stays s (.unregister fd) := by
  have hserves : ∀ {ret : SelectorStatus} {s' : FdSelector},
      s'.fdSize = s.fdSize → (∀ i, i ≠ fd.toNat → s'.fds i = s.fds i) →
        (SelectorOp.unregister fd).Serves s ret s' :=
    fun hsize hkept => .of_kept h hsize hkept
      fun _ _ _ _ => .inl SelectorOp.noConfusion
  have hsame : ∀ ret, selectorUnregisterFd s fd = .ok (ret, s) →
      Stays s (.unregister fd) :=
    fun ret hret => ⟨ret, s, hret, h, hserves rfl fun _ _ => rfl⟩
  by_cases hfd : invalidFd fd = true
  · exact hsame .iargs (if_pos hfd)
  · have hlt := hfits.resolve_left hfd
    have hcall : selectorUnregisterFd s fd = _ := if_neg hfd
    rw [FdSelector.Tabled.slot hlt, ok_bind] at hcall
    by_cases hused : (s.fds fd.toNat).used = true
    · rw [if_neg (by simp [hused])] at hcall
      have hcleared := Function.update_idem (f := s.fds)
        (a := fd.toNat) { (s.fds fd.toNat) with interest := .noop } {}
      have htable : ∀ g : FdSelector, g.fdSize = s.fdSize →
          g.maxFd = s.maxFd → g.fds = Function.update s.fds fd.toNat {} →
          { g with maxFd := g.itemsMaxFd }.Tabled := by
        intro g hsize hmax hfds
        have hg : g.Tabled :=
          h.update {} hlt (fun hused => by cases hused) hsize hfds
            (by rw [hmax]; exact h.maxFd_lt)
        exact ⟨hg.size_pos, hg.fd_eq, hg.itemsMaxFd_lt⟩
      refine ⟨_, _, hcall, htable _ rfl rfl hcleared, hserves rfl ?_⟩
      intro k hk
      refine (congrFun hcleared k).trans ?_
      exact Function.update_of_ne hk _ _
    · rw [if_pos (by simp [hused])] at hcall
      exact hsame _ hcall

/-- A registration where the descriptor has an item. -/
theorem selectorRegister_slot (h : s.Tabled) (handler : FdHandler)
    (interest : FdInterest) (data : Option ℕ) (alloc : Bool)
    (hfd : invalidFd fd = false) (hlt : fd.toNat < s.fdSize) :
    if (s.fds fd.toNat).used = true then
      selectorRegister s fd (some handler) interest data alloc =
        .ok (.fdinuse, s)
    else
      ∃ s', selectorRegister s fd (some handler) interest data alloc =
          .ok (.success, s') ∧ s'.Tabled ∧ s'.fdSize = s.fdSize ∧
        s'.fds = Function.update s.fds fd.toNat
          ⟨fd, interest, some handler, data⟩ := by
  have hvalid := invalidFd_eq_false_iff.mp hfd
  have hcall : selectorRegister s fd (some handler) interest data alloc =
      if (s.fds fd.toNat).used then .ok (.fdinuse, s)
      else
        .ok (.success, { s.setSlot fd.toNat ⟨fd, interest, some handler, data⟩ with
          maxFd := if s.maxFd < fd then fd else s.maxFd }.itemsUpdateFdsetForFd
            ⟨fd, interest, some handler, data⟩) := by
    unfold selectorRegister
    simp [hfd, Nat.lt_asymm hlt, FdSelector.Tabled.slot hlt]
  by_cases hused : (s.fds fd.toNat).used = true
  · rw [if_pos hused, hcall, if_pos hused]
  · rw [if_neg hused, hcall, if_neg hused]
    refine ⟨_, rfl, ?_, rfl, rfl⟩
    have hitem : fd = (fd.toNat : ℤ) := (Int.toNat_of_nonneg hvalid.1).symm
    refine h.update ⟨fd, interest, some handler, data⟩ hlt (fun _ => hitem) rfl rfl
      ?_
    have hmax := h.maxFd_lt
    change (if s.maxFd < fd then fd else s.maxFd) < _
    split <;> omega

/-- A registration for which the table grows is one in the table that has
grown. -/
theorem selectorRegister_grown {g : FdSelector} (handler : FdHandler)
    (interest : FdInterest) (data : Option ℕ) (hfd : invalidFd fd = false)
    (hgrow : s.fdSize < fd.toNat) (hlt : fd.toNat < g.fdSize)
    (hg : s.ensureCapacity fd.toNat true = (.success, g)) :
    selectorRegister s fd (some handler) interest data true =
      selectorRegister g fd (some handler) interest data true := by
  unfold selectorRegister
  simp [hfd, hgrow, Nat.lt_asymm hlt, hg]

/-- A registration for which the table does not grow. -/
theorem stays_register_slot (h : s.Tabled) (handler : FdHandler)
    (interest : FdInterest) (data : Option ℕ) (alloc : Bool)
    (hfd : invalidFd fd = false) (hlt : fd.toNat < s.fdSize) :
    Stays s (.register fd (some handler) interest data alloc) := by
  have hslot := selectorRegister_slot h handler interest data alloc hfd hlt
  by_cases hused : (s.fds fd.toNat).used = true
  · rw [if_pos hused] at hslot
    refine ⟨_, _, hslot, h, h.maxFd_lt, Nat.le_refl _, fun _ _ _ => rfl, ?_, ?_⟩
    · intro i hge hlt'
      omega
    · intro fd' handler' interest' data' heq hfd'
      cases heq
      rw [h.registered_iff hfd]
      exact ⟨fun _ => ⟨rfl, rfl⟩, fun hnot => absurd hused hnot⟩
  · rw [if_neg hused] at hslot
    obtain ⟨s', hcall, hs', hsize, hfds⟩ := hslot
    refine ⟨_, _, hcall, hs', h.maxFd_lt, Nat.le_of_eq hsize.symm, ?_, ?_, ?_⟩
    · intro i _ hi
      rw [hfds]
      exact Function.update_of_ne hi _ _
    · intro i hge hlt'
      omega
    · intro fd' handler' interest' data' heq hfd'
      cases heq
      rw [h.registered_iff hfd, hfds, Function.update_self, hsize]
      exact ⟨fun hreg => absurd hreg hused, fun _ => ⟨rfl, hlt, rfl⟩⟩

/-- A registration for which the table has to grow. -/
theorem stays_register_growing (h : s.Tabled) (handler : FdHandler)
    (interest : FdInterest) (data : Option ℕ) (alloc : Bool)
    (hfd : invalidFd fd = false) (hgrow : s.fdSize < fd.toNat) :
    Stays s (.register fd (some handler) interest data alloc) := by
  have hvalid := invalidFd_eq_false_iff.mp hfd
  have hmax : fd.toNat ≤ itemsMaxSize := by
    rw [itemsMaxSize]
    omega
  have hnot : ¬ s.Registered fd := fun hreg => by
    have hlt := hreg.item.2.1
    omega
  cases alloc with
  | false =>
      have hcall : selectorRegister s fd (some handler) interest data false =
          .ok (.enomem, s) := by
        unfold selectorRegister FdSelector.ensureCapacity
        simp [hfd, hgrow, Nat.lt_asymm hgrow, Nat.not_lt.mpr hmax]
      refine ⟨_, _, hcall, h, h.maxFd_lt, Nat.le_refl _, fun _ _ _ => rfl, ?_, ?_⟩
      · intro i hge hlt'
        omega
      · intro fd' handler' interest' data' heq
        cases heq
  | true =>
      obtain ⟨g, hg, hgTabled, hlt, -, hgrown⟩ := h.ensureCapacity hgrow hmax
      have hfree : ¬ (g.fds fd.toNat).used = true := by
        rw [hgrown]
        dsimp only
        rw [if_neg (Nat.lt_asymm hgrow)]
        decide
      have hslot :=
        selectorRegister_slot hgTabled handler interest data true hfd hlt
      rw [if_neg hfree] at hslot
      obtain ⟨s', hcall, hs', hsize, hfds⟩ := hslot
      have hkept : ∀ i, i ≠ fd.toNat →
          s'.fds i = if i < s.fdSize then s.fds i else {} := by
        intro i hi
        rw [hfds, Function.update_of_ne hi, hgrown]
      refine ⟨_, _, (selectorRegister_grown handler interest data hfd hgrow hlt
        hg).trans hcall, hs', h.maxFd_lt, ?_, ?_, ?_, ?_⟩
      · rw [hsize]
        omega
      · intro i hi hne
        rw [hkept i hne, if_pos hi]
      · intro i hge _ hne
        rw [hkept i hne, if_neg (Nat.not_lt.mpr hge)]
        rfl
      · intro fd' handler' interest' data' heq _
        cases heq
        rw [hfds, Function.update_self, hsize]
        exact ⟨fun hreg => absurd hreg hnot, fun _ => ⟨rfl, hlt, rfl⟩⟩

/-- A registration that is refused for its arguments. -/
theorem stays_register_refused (h : s.Tabled) (handler : Option FdHandler)
    (interest : FdInterest) (data : Option ℕ) (alloc : Bool)
    (hargs : invalidFd fd = true ∨ handler = none) :
    Stays s (.register fd handler interest data alloc) := by
  have hcall : selectorRegister s fd handler interest data alloc =
      .ok (.iargs, s) := by
    unfold selectorRegister
    rcases hargs with hfd | rfl
    · simp [hfd]
    · simp
  refine ⟨_, _, hcall, h, .of_kept h rfl (fun _ _ => rfl) ?_⟩
  intro fd' handler' interest' data'
  rcases hargs with hfd | rfl
  · by_cases heq : SelectorOp.register fd handler interest data alloc =
        .register fd' (some handler') interest' data' true
    · cases heq
      exact .inr hfd
    · exact .inl heq
  · exact .inl fun heq => by cases heq

/-- A call that fits the table is as it should be. -/
theorem stays_of_fits (h : s.Tabled) {op : SelectorOp} (hfits : op.Fits s) :
    Stays s op := by
  cases op with
  | register fd handler interest data alloc =>
      cases handler with
      | none => exact stays_register_refused h _ _ _ _ (.inr rfl)
      | some handler =>
          by_cases hfd : invalidFd fd = true
          · exact stays_register_refused h _ _ _ _ (.inl hfd)
          · rw [Bool.not_eq_true] at hfd
            have hne : fd.toNat ≠ s.fdSize := by
              rcases hfits with hinv | hnone | hne
              · rw [hfd] at hinv
                cases hinv
              · cases hnone
              · exact hne
            rcases Nat.lt_or_gt_of_ne hne with hlt | hgt
            · exact stays_register_slot h _ _ _ _ hfd hlt
            · exact stays_register_growing h _ _ _ _ hfd hgt
  | unregister fd => exact stays_unregister h hfits
  | setInterest fd i =>
      exact stays_updateInterest h (.setInterest fd i) (fun _ => some i) rfl
        (fun _ _ _ _ _ => SelectorOp.noConfusion) hfits
  | setInterestKey fd i =>
      exact stays_updateInterest h (.setInterestKey fd i) (fun _ => some i)
        (selectorSetInterestKey_eq s fd i)
        (fun _ _ _ _ _ => SelectorOp.noConfusion) hfits
  | setInterestAdditive fd i =>
      exact stays_updateInterest h (.setInterestAdditive fd i) (additive i) rfl
        (fun _ _ _ _ _ => SelectorOp.noConfusion) hfits
  | setInterestReduction fd i =>
      exact stays_updateInterest h (.setInterestReduction fd i) (reduction i) rfl
        (fun _ _ _ _ _ => SelectorOp.noConfusion) hfits

/-- A call that does not fit accesses a slot that is not in the table. -/
theorem call_of_not_fits {op : SelectorOp} (hfits : ¬ op.Fits s) :
    op.call s = .error .outOfBounds := by
  have hupdate : ∀ change, ¬ (invalidFd op.fd = true ∨ op.fd.toNat < s.fdSize) →
      updateInterest s op.fd change = .error .outOfBounds := by
    intro change hnot
    rw [not_or] at hnot
    rw [updateInterest, if_neg hnot.1, FdSelector.slot, if_neg hnot.2]
    rfl
  cases op with
  | register fd handler interest data alloc =>
      rw [SelectorOp.Fits, not_or, not_or, not_not] at hfits
      obtain ⟨hfd, hhandler, hsize⟩ := hfits
      rw [Bool.not_eq_true] at hfd
      have hsome : handler.isNone = false := by
        cases handler with
        | none => exact absurd rfl hhandler
        | some handler => rfl
      rw [SelectorOp.call, selectorRegister]
      simp [hfd, hsome, hsize, FdSelector.slot]
      rfl
  | unregister fd =>
      have hinv : ¬ invalidFd fd = true := fun h => hfits (.inl h)
      have hsize : ¬ fd.toNat < s.fdSize := fun h => hfits (.inr h)
      rw [SelectorOp.call, selectorUnregisterFd, if_neg hinv, FdSelector.slot,
        if_neg hsize]
      rfl
  | setInterest fd i => exact hupdate (fun _ => some i) hfits
  | setInterestKey fd i =>
      exact (selectorSetInterestKey_eq s fd i).trans
        (hupdate (fun _ => some i) hfits)
  | setInterestAdditive fd i => exact hupdate (additive i) hfits
  | setInterestReduction fd i => exact hupdate (reduction i) hfits

end Calls

/-! ## Runs -/

theorem safelyCalled_iff (ops : List SelectorOp) {s : FdSelector} (h : s.Tabled) :
    SafelyCalled ops s ↔ AllFit ops s := by
  induction ops generalizing s with
  | nil => exact Iff.rfl
  | cons op ops ih =>
      rw [SafelyCalled, AllFit]
      constructor
      · rintro ⟨ret, s', hcall, -, hrest⟩
        have hfits : op.Fits s := by
          by_contra hnot
          rw [call_of_not_fits hnot] at hcall
          cases hcall
        obtain ⟨ret₁, s₁, hcall₁, hs₁, -⟩ := stays_of_fits h hfits
        rw [hcall] at hcall₁
        cases hcall₁
        refine ⟨hfits, ?_⟩
        intro ret' s'' hcall'
        rw [hcall] at hcall'
        cases hcall'
        exact (ih hs₁).mp hrest
      · rintro ⟨hfits, hrest⟩
        obtain ⟨ret, s', hcall, hs', hserves⟩ := stays_of_fits h hfits
        exact ⟨ret, s', hcall, hserves, (ih hs').mpr (hrest ret s' hcall)⟩

/-- In the table of the selector that `main` creates every run fits. -/
theorem FdSelector.Represents.allFit (ops : List SelectorOp) {s : FdSelector}
    (h : s.Represents) : AllFit ops s := by
  have hsize := h.size
  induction ops generalizing s with
  | nil => trivial
  | cons op ops ih =>
      have hfd : invalidFd op.fd = true ∨ op.fd.toNat < itemsMaxSize := by
        by_cases hfd : invalidFd op.fd = true
        · exact .inl hfd
        · rw [Bool.not_eq_true] at hfd
          have hvalid := invalidFd_eq_false_iff.mp hfd
          right
          rw [itemsMaxSize]
          omega
      refine ⟨?_, ?_⟩
      · cases op with
        | register fd handler interest data alloc =>
            refine hfd.imp_right fun hlt => .inr ?_
            change fd.toNat < itemsMaxSize at hlt
            omega
        | unregister | setInterest | setInterestKey | setInterestAdditive
        | setInterestReduction =>
            refine hfd.imp_right fun hlt => ?_
            omega
      · intro ret s' hcall
        obtain ⟨ret₁, s₁, hcall₁, hs₁, -⟩ := op.call_keeps h
        rw [hcall] at hcall₁
        cases hcall₁
        exact ih hs₁ hs₁.size

/-- From a new selector of any size, a run stays in the table, and makes the
room that its registrations need, exactly when no registration is of the
descriptor that is the size of the table, and no other operation of one beyond
it. -/
theorem new_safelyCalled_iff {n : ℕ} (hn : n ≤ itemsMaxSize)
    (ops : List SelectorOp) :
    blankSelector.ensureCapacity n true = (.success, selectorNew n) ∧
      (SafelyCalled ops (selectorNew n) ↔ AllFit ops (selectorNew n)) := by
  refine ⟨?_, safelyCalled_iff ops (selectorNew_tabled n)⟩
  have hsize : ¬ n < blankSelector.fdSize := Nat.not_lt_zero n
  rw [FdSelector.ensureCapacity, if_neg hsize, if_neg (Nat.not_lt.mpr hn)]
  rfl

/-- The table of a selector for one descriptor has three items, and grows for the
descriptor 4. -/
theorem new_safelyCalled_grows :
    SafelyCalled [.register 4 (some .socksv5Active) .read none true, .unregister 4]
      (selectorNew 1) := by
  refine (new_safelyCalled_iff (n := 1) (by decide) _).2.mpr
    ⟨.inr (.inr (by decide)), ?_⟩
  intro ret s' hcall
  have hsize : (SelectorOp.call (selectorNew 1)
      (.register 4 (some .socksv5Active) .read none true)).toOption.map
        (·.2.fdSize) = some 9 := by decide
  rw [hcall] at hsize
  have hnine : s'.fdSize = 9 := Option.some.inj hsize
  refine ⟨.inr ?_, fun _ _ _ => trivial⟩
  rw [hnine]
  decide

/-- It does not grow for the descriptor 3. -/
theorem not_safelyCalled_at_size :
    ¬ SafelyCalled [.register 3 (some .socksv5Active) .read none true]
      (selectorNew 1) := by
  rintro ⟨ret, s', hcall, -⟩
  have hfault : SelectorOp.call (selectorNew 1)
      (.register 3 (some .socksv5Active) .read none true) = .error .outOfBounds :=
    rfl
  rw [hfault] at hcall
  cases hcall

end Socksv5
