import Socksv5.Fault
import Socksv5.Stm
import Socksv5.Support.Partial
import Mathlib.Algebra.Group.Nat.Defs
import Mathlib.Data.Int.Notation
import Mathlib.Tactic.Common
import Mathlib.Logic.Function.Basic

/-!
# The selector

`selector.c`: the table of registered descriptors.  The three functions that
change an interest differ in the new interest only; each is an instance of
`updateInterest`.  What the rest of the server sees of the table is
`FdSelector.interest?`, and the last section says what each operation does to
it.
-/

namespace Socksv5

open Support

/-- `fd_interest`: the subsets of `OP_READ` and `OP_WRITE`. -/
inductive FdInterest
  | noop
  | read
  | write
  | readWrite
deriving DecidableEq, Repr

namespace FdInterest

/-- `OP_READ & interest` -/
def reads : FdInterest → Bool
  | .read | .readWrite => true
  | .noop | .write => false

/-- `OP_WRITE & interest` -/
def writes : FdInterest → Bool
  | .write | .readWrite => true
  | .noop | .read => false

/-- The interest includes the event. -/
def includes (i : FdInterest) : Ready → Bool
  | .read => i.reads
  | .write => i.writes
  | .block => false

end FdInterest

/-- `selector_status` -/
inductive SelectorStatus
  | success
  | enomem
  | maxfd
  | iargs
  | fdinuse
  | io
deriving DecidableEq, Repr

/-- The tables of callbacks that the server registers descriptors with. -/
inductive FdHandler
  | socksv5Passive
  | socksv5Active
  | adminPassive
  | adminActive
deriving DecidableEq, Repr

/-- `struct item`; `data` is an address. -/
structure Item where
  fd : ℤ := -1
  interest : FdInterest := .noop
  handler : Option FdHandler := none
  data : Option ℕ := none
deriving DecidableEq, Repr

/-- `ITEM_USED` -/
def Item.used (i : Item) : Bool := decide (i.fd ≠ -1)

/-- What a descriptor is registered with: an item without its interest. -/
structure Registration where
  fd : ℤ := -1
  handler : Option FdHandler := none
  data : Option ℕ := none
deriving DecidableEq, Repr

/-- What the item says about the descriptor, its interest left out. -/
def Item.registration (i : Item) : Registration := ⟨i.fd, i.handler, i.data⟩

/-- `ITEMS_MAX_SIZE`, which is `FD_SETSIZE` -/
def itemsMaxSize : ℕ := 1024

/-- `struct fdselector`; of `fds` only the first `fdSize` items exist.  A job
is the descriptor it is about. -/
structure FdSelector where
  fds : ℕ → Item
  fdSize : ℕ
  maxFd : ℤ
  masterR : ℕ → Bool
  masterW : ℕ → Bool
  resolutionJobs : List ℤ

/-- `INVALID_FD` -/
def invalidFd (fd : ℤ) : Bool := decide (fd < 0) || decide ((itemsMaxSize : ℤ) ≤ fd)

/-- `next_capacity` -/
def nextCapacity (n : ℕ) : ℕ :=
  let tmp := if n = 0 then 1 else 2 ^ (n.log2 + 1)
  min tmp itemsMaxSize + 1

namespace FdSelector

/-- `s->fds[i]` -/
def slot (s : FdSelector) (i : ℕ) : Except Fault Item :=
  if i < s.fdSize then .ok (s.fds i) else .error .outOfBounds

/-- `s->fds[i] = item` -/
def setSlot (s : FdSelector) (i : ℕ) (item : Item) : FdSelector :=
  { s with fds := Function.update s.fds i item }

/-- `items_max_fd` -/
def itemsMaxFd (s : FdSelector) : ℤ :=
  (List.range (s.maxFd.toNat + 1)).foldl (fun max i =>
    let item := s.fds i
    if item.used && decide (max < item.fd) then item.fd else max) 0

/-- `items_update_fdset_for_fd` -/
def itemsUpdateFdsetForFd (s : FdSelector) (item : Item) : FdSelector :=
  { s with
    masterR := Function.update s.masterR item.fd.toNat
      (item.used && item.interest.reads)
    masterW := Function.update s.masterW item.fd.toNat
      (item.used && item.interest.writes) }

/-- `ensure_capacity`; `alloc` says whether the allocation succeeds. -/
def ensureCapacity (s : FdSelector) (n : ℕ) (alloc : Bool) :
    SelectorStatus × FdSelector :=
  if n < s.fdSize then (.success, s)
  else if itemsMaxSize < n then (.maxfd, s)
  else if alloc then
    (.success, { s with
      fds := fun i => if i < s.fdSize then s.fds i else {}
      fdSize := nextCapacity n })
  else (.enomem, s)

end FdSelector

/-- `selector_new`, when its allocations succeed -/
def selectorNew (initialElements : ℕ) : FdSelector where
  fds := fun _ => {}
  fdSize := nextCapacity initialElements
  maxFd := 0
  masterR := fun _ => false
  masterW := fun _ => false
  resolutionJobs := []

/-- `selector_register` -/
def selectorRegister (s : FdSelector) (fd : ℤ) (handler : Option FdHandler)
    (interest : FdInterest) (data : Option ℕ) (alloc : Bool) :
    Except Fault (SelectorStatus × FdSelector) :=
  if invalidFd fd || handler.isNone then .ok (.iargs, s)
  else
    let ufd := fd.toNat
    let (ret, s) :=
      if s.fdSize < ufd then s.ensureCapacity ufd alloc else (.success, s)
    if ret ≠ .success then .ok (ret, s)
    else do
      let item ← s.slot ufd
      if item.used then .ok (.fdinuse, s)
      else
        let item : Item := ⟨fd, interest, handler, data⟩
        let s := { s.setSlot ufd item with
          maxFd := if s.maxFd < fd then fd else s.maxFd }
        .ok (.success, s.itemsUpdateFdsetForFd item)

/-- `selector_unregister_fd`.  No table of callbacks of the server has a
`handle_close`. -/
def selectorUnregisterFd (s : FdSelector) (fd : ℤ) :
    Except Fault (SelectorStatus × FdSelector) :=
  if invalidFd fd then .ok (.iargs, s)
  else do
    let item ← s.slot fd.toNat
    if !item.used then .ok (.iargs, s)
    else
      let item := { item with interest := .noop }
      let s := (s.setSlot fd.toNat item).itemsUpdateFdsetForFd item
      let s := s.setSlot fd.toNat {}
      .ok (.success, { s with maxFd := s.itemsMaxFd })

/-- Change the interest of a registered descriptor; `change` gives the new
interest, or nothing to do. -/
def updateInterest (s : FdSelector) (fd : ℤ)
    (change : FdInterest → Option FdInterest) :
    Except Fault (SelectorStatus × FdSelector) :=
  if invalidFd fd then .ok (.iargs, s)
  else do
    let item ← s.slot fd.toNat
    if !item.used then .ok (.iargs, s)
    else
      match change item.interest with
      | none => .ok (.success, s)
      | some i =>
          let item := { item with interest := i }
          .ok (.success, (s.setSlot fd.toNat item).itemsUpdateFdsetForFd item)

/-- `selector_set_interest` -/
def selectorSetInterest (s : FdSelector) (fd : ℤ) (i : FdInterest) :
    Except Fault (SelectorStatus × FdSelector) :=
  updateInterest s fd fun _ => some i

/-- `selector_set_interest_key` -/
def selectorSetInterestKey (s : FdSelector) (fd : ℤ) (i : FdInterest) :
    Except Fault (SelectorStatus × FdSelector) :=
  if invalidFd fd then .ok (.iargs, s) else selectorSetInterest s fd i

/-- The interest that `selector_set_interest_additive` changes `old` to. -/
def additive (i old : FdInterest) : Option FdInterest :=
  if old = .noop then some i
  else if (old = .read ∧ i = .write) ∨ (old = .write ∧ i = .read) then
    some .readWrite
  else none

/-- `selector_set_interest_additive` -/
def selectorSetInterestAdditive (s : FdSelector) (fd : ℤ) (i : FdInterest) :
    Except Fault (SelectorStatus × FdSelector) :=
  updateInterest s fd (additive i)

/-- The interest that `selector_set_interest_reduction` changes `old` to. -/
def reduction (i old : FdInterest) : Option FdInterest :=
  if old = .readWrite then
    some (if i = .read then .write else if i = .write then .read else old)
  else if (old = .read ∧ i = .read) ∨ (old = .write ∧ i = .write) then
    some .noop
  else none

/-- `selector_set_interest_reduction` -/
def selectorSetInterestReduction (s : FdSelector) (fd : ℤ) (i : FdInterest) :
    Except Fault (SelectorStatus × FdSelector) :=
  updateInterest s fd (reduction i)

/-- `selector_notify_block`; `alloc` says whether the allocation succeeds. -/
def selectorNotifyBlock (s : FdSelector) (fd : ℤ) (alloc : Bool) :
    SelectorStatus × FdSelector :=
  if alloc then
    (.success, { s with resolutionJobs := fd :: s.resolutionJobs })
  else (.enomem, s)

/-! ## The registered descriptors and their interests -/

theorem invalidFd_eq_false_iff {fd : ℤ} :
    invalidFd fd = false ↔ 0 ≤ fd ∧ fd < 1024 := by
  rw [invalidFd, Bool.or_eq_false_iff, decide_eq_false_iff_not,
    decide_eq_false_iff_not]
  simp only [itemsMaxSize]
  omega

namespace FdSelector

/-- The interest of a registered descriptor. -/
def interest? (s : FdSelector) (fd : ℤ) : Option FdInterest :=
  if invalidFd fd then none
  else if fd.toNat < s.fdSize ∧ (s.fds fd.toNat).used then
    some (s.fds fd.toNat).interest
  else none

/-- The descriptor is registered. -/
def Registered (s : FdSelector) (fd : ℤ) : Prop := s.interest? fd ≠ none

instance (s : FdSelector) (fd : ℤ) : Decidable (s.Registered fd) :=
  inferInstanceAs (Decidable (_ ≠ _))

theorem interest?_of_invalid {s : FdSelector} {fd : ℤ}
    (h : invalidFd fd = true) : s.interest? fd = none :=
  if_pos h

theorem Registered.valid {s : FdSelector} {fd : ℤ} (h : s.Registered fd) :
    invalidFd fd = false := by
  by_contra hinv
  rw [Bool.not_eq_false] at hinv
  exact h (interest?_of_invalid hinv)

theorem Registered.nonneg {s : FdSelector} {fd : ℤ} (h : s.Registered fd) :
    0 ≤ fd := by
  have hvalid := invalidFd_eq_false_iff.mp h.valid
  exact hvalid.1

theorem Registered.lt {s : FdSelector} {fd : ℤ} (h : s.Registered fd) :
    fd < 1024 := by
  have hvalid := invalidFd_eq_false_iff.mp h.valid
  exact hvalid.2

/-- The item of a registered descriptor is in use. -/
theorem Registered.item {s : FdSelector} {fd : ℤ} (h : s.Registered fd) :
    ¬ invalidFd fd = true ∧ fd.toNat < s.fdSize ∧
      (s.fds fd.toNat).used = true := by
  refine ⟨by simp [h.valid], ?_, ?_⟩
  · by_contra hlt
    exact h (by simp [interest?, hlt])
  · by_contra hused
    exact h (by simp [interest?, hused])

theorem slot_eq_ok {s : FdSelector} {i : ℕ} {item : Item}
    (h : s.slot i = .ok item) : i < s.fdSize ∧ item = s.fds i := by
  unfold slot at h
  split at h
  case isTrue hi =>
    cases h
    exact ⟨hi, rfl⟩
  case isFalse => cases h

/-- Replacing the item of a valid descriptor changes the interest of that
descriptor only. -/
theorem interest?_setSlot {s s' : FdSelector} {fd : ℤ} {item : Item}
    (hfd : invalidFd fd = false) (hlt : fd.toNat < s.fdSize)
    (hsize : s'.fdSize = s.fdSize)
    (hfds : s'.fds = Function.update s.fds fd.toNat item) :
    s'.interest? = Function.update s.interest? fd
      (if item.used then some item.interest else none) := by
  funext d
  by_cases hd : d = fd
  · subst hd
    simp [interest?, hfd, hfds, hsize, hlt]
  · rw [Function.update_of_ne hd]
    by_cases hinv : invalidFd d = true
    · rw [interest?_of_invalid hinv, interest?_of_invalid hinv]
    · have hne : d.toNat ≠ fd.toNat := by
        have hd' := invalidFd_eq_false_iff.mp (Bool.eq_false_iff.mpr hinv)
        have hfd' := invalidFd_eq_false_iff.mp hfd
        omega
      simp [interest?, hfds, hsize, Function.update_of_ne hne]

theorem lt_nextCapacity {n : ℕ} (h : n ≤ itemsMaxSize) :
    n < nextCapacity n := by
  have hlt := Nat.lt_log2_self (n := n)
  simp only [nextCapacity]
  split <;> omega

/-- Growing the table registers nothing. -/
theorem interest?_ensureCapacity (s : FdSelector) (n : ℕ) (alloc : Bool) :
    (s.ensureCapacity n alloc).2.interest? = s.interest? ∧
      (s.ensureCapacity n alloc).2.resolutionJobs = s.resolutionJobs := by
  unfold ensureCapacity
  split
  · exact ⟨rfl, rfl⟩
  · split
    · exact ⟨rfl, rfl⟩
    · rename_i hsize hmax
      rw [Nat.not_lt] at hmax
      split
      · refine ⟨?_, rfl⟩
        funext d
        unfold interest?
        split
        · rfl
        · by_cases hd : d.toNat < s.fdSize
          · have hgrown : d.toNat < nextCapacity n := by
              have := lt_nextCapacity hmax
              omega
            simp [hd, hgrown]
          · simp [hd, Item.used]
      · exact ⟨rfl, rfl⟩

/-- A notification changes no interest. -/
theorem interest?_notified (s : FdSelector) (fd : ℤ) (alloc : Bool) :
    (selectorNotifyBlock s fd alloc).2.interest? = s.interest? := by
  cases alloc <;> rfl

theorem registered_notified (s : FdSelector) (fd d : ℤ) (alloc : Bool) :
    (selectorNotifyBlock s fd alloc).2.Registered d ↔ s.Registered d := by
  rw [Registered, interest?_notified, Registered]

/-- A notification is one job at most. -/
theorem count_notified_le (s : FdSelector) (fd d : ℤ) (alloc : Bool) :
    (selectorNotifyBlock s fd alloc).2.resolutionJobs.count d ≤
      s.resolutionJobs.count d + 1 := by
  unfold selectorNotifyBlock
  cases alloc with
  | false => exact Nat.le_succ _
  | true =>
      simp only [if_true]
      rw [List.count_cons]
      split <;> omega

end FdSelector

/-- What the slots hold, the interests left out. -/
def FdSelector.registration (s : FdSelector) (i : ℕ) : Registration :=
  (s.fds i).registration

theorem FdSelector.registration_setSlot (s : FdSelector) (i : ℕ) (item : Item) :
    (s.setSlot i item).registration =
      Function.update s.registration i item.registration := by
  funext k
  change ((Function.update s.fds i item) k).registration = _
  by_cases hk : k = i
  · subst hk
    rw [Function.update_self, Function.update_self]
  · rw [Function.update_of_ne hk, Function.update_of_ne hk]
    rfl

/-- `ChangesInterest s fd change ret s'`: changing the interest of `fd` returns
`ret` and leaves `s'`.  It succeeds exactly on the registered descriptors, and
changes nothing but the interest of `fd`. -/
inductive ChangesInterest (s : FdSelector) (fd : ℤ)
    (change : FdInterest → Option FdInterest) :
    SelectorStatus → FdSelector → Prop
  | refused {ret : SelectorStatus} : ret ≠ .success → ¬ s.Registered fd →
      ChangesInterest s fd change ret s
  | changed {s' : FdSelector} (i : FdInterest) : s.interest? fd = some i →
      s'.interest? = Function.update s.interest? fd
        (some ((change i).getD i)) →
      s'.resolutionJobs = s.resolutionJobs → s'.fdSize = s.fdSize →
      s'.registration = s.registration →
      ChangesInterest s fd change .success s'

theorem updateInterest_spec {s s' : FdSelector} {fd : ℤ}
    {change : FdInterest → Option FdInterest} {ret : SelectorStatus}
    (h : updateInterest s fd change = .ok (ret, s')) :
    ChangesInterest s fd change ret s' := by
  unfold updateInterest at h
  by_cases hfd : invalidFd fd = true
  · rw [if_pos hfd] at h
    cases h
    exact .refused (by decide)
      fun hreg => hreg (FdSelector.interest?_of_invalid hfd)
  · rw [if_neg hfd] at h
    rw [Bool.not_eq_true] at hfd
    obtain ⟨item, hslot, h⟩ := bind_eq_ok.mp h
    obtain ⟨hlt, rfl⟩ := FdSelector.slot_eq_ok hslot
    by_cases hused : (s.fds fd.toNat).used = true
    · rw [if_neg (by simp [hused])] at h
      have hinterest : s.interest? fd = some (s.fds fd.toNat).interest := by
        simp [FdSelector.interest?, hfd, hlt, hused]
      cases hchange : change (s.fds fd.toNat).interest with
      | none =>
          simp only [hchange] at h
          cases h
          refine .changed _ hinterest ?_ rfl rfl rfl
          rw [hchange, Option.getD_none, ← hinterest, Function.update_eq_self]
      | some i =>
          simp only [hchange] at h
          cases h
          have hregistration := s.registration_setSlot fd.toNat
            { (s.fds fd.toNat) with interest := i }
          refine .changed _ hinterest ?_ rfl rfl
            (hregistration.trans (Function.update_eq_self _ _))
          refine (FdSelector.interest?_setSlot hfd hlt (by rfl) (by rfl)).trans
            ?_
          have hused' : ({ (s.fds fd.toNat) with interest := i } : Item).used
              = true := hused
          simp only [hused', if_true, hchange, Option.getD_some]
    · rw [if_pos (by simp [hused])] at h
      cases h
      refine .refused (by decide) fun hreg => hreg ?_
      simp [FdSelector.interest?, hused]

/-- The interest of a registered descriptor can be changed. -/
theorem exists_updateInterest {s : FdSelector} {fd : ℤ}
    (change : FdInterest → Option FdInterest) (h : s.Registered fd) :
    ∃ s', updateInterest s fd change = .ok (.success, s') := by
  obtain ⟨hfd, hlt, hused⟩ := h.item
  rw [updateInterest, if_neg hfd]
  cases hchange : change (s.fds fd.toNat).interest <;>
    simp [FdSelector.slot, hlt, hused, hchange, ok_bind]

/-- Changing an interest registers and unregisters nothing. -/
theorem ChangesInterest.registered_iff {s s' : FdSelector} {fd : ℤ}
    {change : FdInterest → Option FdInterest} {ret : SelectorStatus}
    (h : ChangesInterest s fd change ret s') (d : ℤ) :
    s'.Registered d ↔ s.Registered d := by
  cases h with
  | refused => exact Iff.rfl
  | changed i hi hs _ _ =>
      unfold FdSelector.Registered
      rw [hs]
      by_cases hd : d = fd
      · subst hd
        simp [hi]
      · rw [Function.update_of_ne hd]

theorem ChangesInterest.jobs_eq {s s' : FdSelector} {fd : ℤ}
    {change : FdInterest → Option FdInterest} {ret : SelectorStatus}
    (h : ChangesInterest s fd change ret s') :
    s'.resolutionJobs = s.resolutionJobs := by
  cases h with
  | refused => rfl
  | changed i _ _ hj _ => exact hj

theorem ChangesInterest.fdSize_eq {s s' : FdSelector} {fd : ℤ}
    {change : FdInterest → Option FdInterest} {ret : SelectorStatus}
    (h : ChangesInterest s fd change ret s') : s'.fdSize = s.fdSize := by
  cases h with
  | refused => rfl
  | changed i _ _ _ hsize => exact hsize

/-- Changing an interest changes nothing else in the slots. -/
theorem ChangesInterest.registration_eq {s s' : FdSelector} {fd : ℤ}
    {change : FdInterest → Option FdInterest} {ret : SelectorStatus}
    (h : ChangesInterest s fd change ret s') :
    s'.registration = s.registration := by
  cases h with
  | refused => rfl
  | changed i _ _ _ _ hregistration => exact hregistration

/-- A change of the interest of a registered descriptor succeeds. -/
theorem ChangesInterest.success_of_registered {s s' : FdSelector} {fd : ℤ}
    {change : FdInterest → Option FdInterest} {ret : SelectorStatus}
    (h : ChangesInterest s fd change ret s') (hreg : s.Registered fd) :
    ret = .success := by
  cases h with
  | refused _ hnot => exact absurd hreg hnot
  | changed => rfl

/-- A change of interest that succeeds is to the new interest. -/
theorem ChangesInterest.interest_eq {s s' : FdSelector} {fd : ℤ}
    {change : FdInterest → Option FdInterest}
    (h : ChangesInterest s fd change .success s') :
    ∃ i, s.interest? fd = some i ∧
      s'.interest? = Function.update s.interest? fd
        (some ((change i).getD i)) := by
  cases h with
  | refused hret => exact absurd rfl hret
  | changed i hi hs _ _ => exact ⟨i, hi, hs⟩

/-- Registering succeeds on valid descriptors that are not registered. -/
theorem selectorRegister_cases {s s' : FdSelector} {fd : ℤ}
    {handler : FdHandler} {interest : FdInterest} {data : Option ℕ}
    {alloc : Bool} {ret : SelectorStatus}
    (h : selectorRegister s fd (some handler) interest data alloc =
      .ok (ret, s')) :
    (ret ≠ .success ∧ s'.interest? = s.interest? ∧
        s'.resolutionJobs = s.resolutionJobs) ∨
      (ret = .success ∧ s.interest? fd = none ∧ invalidFd fd = false ∧
        s'.interest? = Function.update s.interest? fd (some interest) ∧
        s'.resolutionJobs = s.resolutionJobs) := by
  unfold selectorRegister at h
  by_cases hfd : invalidFd fd = true
  · simp only [hfd, Bool.true_or, if_true] at h
    cases h
    exact Or.inl ⟨by decide, rfl, rfl⟩
  · rw [Bool.not_eq_true] at hfd
    simp only [hfd, Option.isNone_some, Bool.or_self, Bool.false_eq_true,
      if_false] at h
    obtain ⟨ret₁, s₁, hs₁, heq⟩ : ∃ ret₁ s₁,
        (if s.fdSize < fd.toNat then s.ensureCapacity fd.toNat alloc
          else (.success, s)) = (ret₁, s₁) ∧
        s₁.interest? = s.interest? ∧ s₁.resolutionJobs = s.resolutionJobs := by
      by_cases hsize : s.fdSize < fd.toNat
      · rw [if_pos hsize]
        exact ⟨_, _, rfl, FdSelector.interest?_ensureCapacity s _ alloc⟩
      · rw [if_neg hsize]
        exact ⟨_, _, rfl, rfl, rfl⟩
    simp only [hs₁] at h
    by_cases hret : ret₁ = .success
    · subst hret
      simp only [ne_eq, not_true_eq_false, if_false] at h
      obtain ⟨item, hslot, h⟩ := bind_eq_ok.mp h
      obtain ⟨hlt, rfl⟩ := FdSelector.slot_eq_ok hslot
      by_cases hused : (s₁.fds fd.toNat).used = true
      · rw [if_pos hused] at h
        cases h
        exact Or.inl ⟨by decide, heq⟩
      · rw [if_neg hused] at h
        cases h
        refine Or.inr ⟨rfl, ?_, hfd, ?_, heq.2⟩
        · rw [← heq.1]
          simp [FdSelector.interest?, hused]
        · rw [← heq.1]
          refine (FdSelector.interest?_setSlot hfd hlt (by rfl) (by rfl)).trans
            ?_
          have hne : fd ≠ -1 := by
            have := (invalidFd_eq_false_iff.mp hfd).1
            omega
          simp [Item.used, hne]
    · simp only [ne_eq, hret, not_false_eq_true, if_true] at h
      cases h
      exact Or.inl ⟨hret, heq⟩

/-- There is room for a descriptor, or there can be. -/
def FdSelector.HasRoom (s : FdSelector) (alloc : Bool) (fd : ℤ) : Prop :=
  invalidFd fd = false ∧ (fd.toNat ≤ s.fdSize ∨ alloc = true)

instance (s : FdSelector) (alloc : Bool) (fd : ℤ) :
    Decidable (s.HasRoom alloc fd) :=
  inferInstanceAs (Decidable (_ ∧ _))

/-- A descriptor that is not registered can be, where there is room. -/
theorem selectorRegister_success {s s' : FdSelector} {fd : ℤ}
    {handler : FdHandler} {interest : FdInterest} {data : Option ℕ}
    {alloc : Bool} {ret : SelectorStatus}
    (h : selectorRegister s fd (some handler) interest data alloc =
      .ok (ret, s')) (hroom : s.HasRoom alloc fd)
    (hnone : s.interest? fd = none) : ret = .success := by
  obtain ⟨hfd, hsize⟩ := hroom
  unfold selectorRegister at h
  simp only [hfd, Option.isNone_some, Bool.or_self, Bool.false_eq_true,
    if_false] at h
  obtain ⟨s₁, hs₁, hinterest⟩ : ∃ s₁,
      (if s.fdSize < fd.toNat then s.ensureCapacity fd.toNat alloc
        else (.success, s)) = (.success, s₁) ∧
      s₁.interest? = s.interest? := by
    by_cases hgrow : s.fdSize < fd.toNat
    · have halloc : alloc = true :=
        hsize.resolve_left (Nat.not_le_of_lt hgrow)
      have hmax : ¬ itemsMaxSize < fd.toNat := by
        have hlt := (invalidFd_eq_false_iff.mp hfd).2
        rw [itemsMaxSize]
        omega
      have hstatus : (s.ensureCapacity fd.toNat alloc).1 = .success := by
        rw [FdSelector.ensureCapacity, if_neg (Nat.lt_asymm hgrow),
          if_neg hmax, if_pos halloc]
      rw [if_pos hgrow]
      exact ⟨_, Prod.ext hstatus rfl,
        (FdSelector.interest?_ensureCapacity s _ alloc).1⟩
    · rw [if_neg hgrow]
      exact ⟨s, rfl, rfl⟩
  simp only [hs₁, ne_eq, not_true_eq_false, if_false] at h
  obtain ⟨item, hslot, h⟩ := bind_eq_ok.mp h
  obtain ⟨hlt, rfl⟩ := FdSelector.slot_eq_ok hslot
  by_cases hused : (s₁.fds fd.toNat).used = true
  · rw [← hinterest] at hnone
    simp [FdSelector.interest?, hfd, hlt, hused] at hnone
  · rw [if_neg hused] at h
    cases h
    rfl

/-- A descriptor that could be registered had room. -/
theorem hasRoom_of_selectorRegister {s s' : FdSelector} {fd : ℤ}
    {handler : FdHandler} {interest : FdInterest} {data : Option ℕ}
    {alloc : Bool}
    (h : selectorRegister s fd (some handler) interest data alloc =
      .ok (.success, s')) : s.HasRoom alloc fd := by
  have hfd : invalidFd fd = false := by
    rcases selectorRegister_cases h with ⟨hne, -⟩ | ⟨-, -, hfd, -⟩
    · exact absurd rfl hne
    · exact hfd
  refine ⟨hfd, ?_⟩
  by_contra hnot
  rw [not_or, Nat.not_le, Bool.not_eq_true] at hnot
  obtain ⟨hgrow, halloc⟩ := hnot
  unfold selectorRegister FdSelector.ensureCapacity at h
  simp only [hfd, hgrow, halloc, Nat.lt_asymm hgrow, Option.isNone_some,
    Bool.or_self, Bool.false_eq_true, if_true, if_false] at h
  split at h <;> simp at h

/-- Registering a descriptor that the table has an item for returns. -/
theorem exists_selectorRegister {s : FdSelector} {fd : ℤ}
    (handler : Option FdHandler) (interest : FdInterest) (data : Option ℕ)
    (alloc : Bool) (h : fd.toNat < s.fdSize) :
    ∃ ret s', selectorRegister s fd handler interest data alloc =
      .ok (ret, s') := by
  unfold selectorRegister
  split
  · exact ⟨_, _, rfl⟩
  · have hgrow : ¬ s.fdSize < fd.toNat := Nat.lt_asymm h
    by_cases hused : (s.fds fd.toNat).used = true <;>
      simp [hgrow, FdSelector.slot, h, hused, ok_bind]

/-- Unregistering succeeds exactly on the registered descriptors. -/
theorem selectorUnregisterFd_cases {s s' : FdSelector} {fd : ℤ}
    {ret : SelectorStatus} (h : selectorUnregisterFd s fd = .ok (ret, s')) :
    (ret ≠ .success ∧ s.interest? fd = none ∧ s' = s) ∨
      (ret = .success ∧ s.interest? fd ≠ none ∧
        s'.interest? = Function.update s.interest? fd none ∧
        s'.resolutionJobs = s.resolutionJobs) := by
  unfold selectorUnregisterFd at h
  by_cases hfd : invalidFd fd = true
  · rw [if_pos hfd] at h
    cases h
    exact Or.inl ⟨by decide, FdSelector.interest?_of_invalid hfd, rfl⟩
  · rw [if_neg hfd] at h
    rw [Bool.not_eq_true] at hfd
    obtain ⟨item, hslot, h⟩ := bind_eq_ok.mp h
    obtain ⟨hlt, rfl⟩ := FdSelector.slot_eq_ok hslot
    by_cases hused : (s.fds fd.toNat).used = true
    · rw [if_neg (by simp [hused])] at h
      cases h
      refine Or.inr ⟨rfl, by simp [FdSelector.interest?, hfd, hlt, hused], ?_,
        rfl⟩
      refine (FdSelector.interest?_setSlot hfd hlt (by rfl)
        (Function.update_idem _ _ _)).trans ?_
      simp [Item.used]
    · rw [if_pos (by simp [hused])] at h
      cases h
      exact Or.inl ⟨by decide, by simp [FdSelector.interest?, hused], rfl⟩

/-- A registered descriptor can be unregistered. -/
theorem selectorUnregisterFd_of_registered {s : FdSelector} {fd : ℤ}
    (h : s.Registered fd) :
    ∃ s', selectorUnregisterFd s fd = .ok (.success, s') ∧
      s'.interest? = Function.update s.interest? fd none := by
  obtain ⟨hfd, hlt, hused⟩ := h.item
  have hok : ∃ s', selectorUnregisterFd s fd = .ok (.success, s') := by
    rw [selectorUnregisterFd, if_neg hfd]
    simp [FdSelector.slot, hlt, hused, Bind.bind, Except.bind]
  obtain ⟨s', hs'⟩ := hok
  rcases selectorUnregisterFd_cases hs' with ⟨hret, -⟩ | ⟨-, -, hs, -⟩
  · exact absurd rfl hret
  · exact ⟨s', hs', hs⟩

theorem selectorSetInterestKey_eq (s : FdSelector) (fd : ℤ) (i : FdInterest) :
    selectorSetInterestKey s fd i = selectorSetInterest s fd i := by
  unfold selectorSetInterestKey
  by_cases hfd : invalidFd fd = true
  · rw [if_pos hfd, selectorSetInterest, updateInterest, if_pos hfd]
  · rw [if_neg hfd]

end Socksv5
