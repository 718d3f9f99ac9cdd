import Socksv5.Selector

/-!
# What registering and unregistering do to the slots

In a table that is as large as it gets, `selector_register` fills the slot of a
descriptor and `selector_unregister_fd` clears it; neither touches another slot.
-/

namespace Socksv5

open Support

/-- A slot that has handlers is in use. -/
theorem Registration.ne_of_handler {reg : Registration} {handler : FdHandler}
    (h : reg.handler = some handler) : reg ≠ {} := by
  rintro rfl
  cases h

namespace FdSelector

/-- The slots hold what was registered: the descriptor of the slot with a table
of callbacks, or nothing. -/
structure Slotted (s : FdSelector) : Prop where
  size : s.fdSize = itemsMaxSize + 1
  slots : ∀ i, s.registration i = {} ∨
    (s.registration i).fd = i ∧ (s.registration i).handler ≠ none ∧
      i < itemsMaxSize

variable {s s' : FdSelector}

theorem slotted_new : (selectorNew 1024).Slotted where
  size := by decide
  slots := fun _ => .inl rfl

theorem Slotted.of_registration (h : s.Slotted) (hsize : s'.fdSize = s.fdSize)
    (hslots : s'.registration = s.registration) : s'.Slotted where
  size := hsize.trans h.size
  slots := by
    rw [hslots]
    exact h.slots

theorem used_iff (s : FdSelector) (i : ℕ) :
    (s.fds i).used = true ↔ (s.registration i).fd ≠ -1 :=
  decide_eq_true_iff

/-- The item of a slot in use is that of its descriptor. -/
theorem Slotted.fd_eq (h : s.Slotted) {i : ℕ} (hi : (s.fds i).used = true) :
    (s.fds i).fd = i ∧ i < itemsMaxSize := by
  rcases h.slots i with hnone | ⟨hfd, -, hlt⟩
  · rw [used_iff, hnone] at hi
    exact absurd rfl hi
  · exact ⟨hfd, hlt⟩

/-- A descriptor is registered when its slot is in use. -/
theorem Slotted.registered_iff (h : s.Slotted) (fd : ℤ) :
    s.Registered fd ↔ 0 ≤ fd ∧ (s.fds fd.toNat).used = true := by
  constructor
  · intro hreg
    exact ⟨hreg.nonneg, hreg.item.2.2⟩
  · rintro ⟨hpos, hused⟩
    have hlt := (h.fd_eq hused).2
    have hsize := h.size
    unfold itemsMaxSize at hlt hsize
    have hvalid : invalidFd fd = false :=
      invalidFd_eq_false_iff.mpr ⟨hpos, by omega⟩
    have hroom : fd.toNat < s.fdSize := by omega
    simp [Registered, interest?, hvalid, hroom, hused]

/-- The slots after the descriptor has been unregistered, if it is one. -/
def cleared (slots : ℕ → Registration) (fd : ℤ) : ℕ → Registration :=
  if fd = -1 then slots else Function.update slots fd.toNat {}

end FdSelector

variable {s s' : FdSelector} {fd : ℤ} {ret : SelectorStatus}

/-- Registering fills the slot of the descriptor, or changes nothing. -/
theorem selectorRegister_registration {handler : FdHandler}
    {interest : FdInterest} {data : Option ℕ} {alloc : Bool} (hs : s.Slotted)
    (h : selectorRegister s fd (some handler) interest data alloc =
      .ok (ret, s')) :
    (ret ≠ .success ∧ s' = s ∧
        (invalidFd fd = true ∨ (s.fds fd.toNat).used = true)) ∨
      (ret = .success ∧ invalidFd fd = false ∧
        (s.fds fd.toNat).used = false ∧ s'.fdSize = s.fdSize ∧
        s'.resolutionJobs = s.resolutionJobs ∧
        s'.registration = Function.update s.registration fd.toNat
          ⟨fd, some handler, data⟩) := by
  unfold selectorRegister at h
  by_cases hfd : invalidFd fd = true
  · simp only [hfd, Bool.true_or, if_true] at h
    cases h
    exact .inl ⟨by decide, rfl, .inl hfd⟩
  · rw [Bool.not_eq_true] at hfd
    have hvalid := invalidFd_eq_false_iff.mp hfd
    have hfits : ¬ s.fdSize < fd.toNat := by
      rw [hs.size, itemsMaxSize]
      omega
    simp only [hfd, Option.isNone_some, Bool.or_self, Bool.false_eq_true,
      if_false, hfits, ne_eq, not_true_eq_false] at h
    obtain ⟨item, hslot, h⟩ := bind_eq_ok.mp h
    obtain ⟨-, rfl⟩ := FdSelector.slot_eq_ok hslot
    by_cases hused : (s.fds fd.toNat).used = true
    · rw [if_pos hused] at h
      cases h
      exact .inl ⟨by decide, rfl, .inr hused⟩
    · rw [if_neg hused] at h
      cases h
      rw [Bool.not_eq_true] at hused
      exact .inr ⟨rfl, hfd, hused, rfl, rfl, s.registration_setSlot fd.toNat _⟩

/-- Unregistering succeeds on a slot in use, and clears it. -/
theorem selectorUnregisterFd_registration
    (h : selectorUnregisterFd s fd = .ok (.success, s')) :
    invalidFd fd = false ∧ (s.fds fd.toNat).used = true ∧
      s'.fdSize = s.fdSize ∧ s'.resolutionJobs = s.resolutionJobs ∧
      s'.registration = Function.update s.registration fd.toNat {} := by
  unfold selectorUnregisterFd at h
  by_cases hfd : invalidFd fd = true
  · rw [if_pos hfd] at h
    cases h
  · rw [if_neg hfd] at h
    rw [Bool.not_eq_true] at hfd
    obtain ⟨item, hslot, h⟩ := bind_eq_ok.mp h
    obtain ⟨-, rfl⟩ := FdSelector.slot_eq_ok hslot
    by_cases hused : (s.fds fd.toNat).used = true
    · rw [if_neg (by simp [hused])] at h
      cases h
      refine ⟨hfd, hused, rfl, rfl, ?_⟩
      refine (FdSelector.registration_setSlot _ fd.toNat {}).trans ?_
      have hnoop := s.registration_setSlot fd.toNat
        { (s.fds fd.toNat) with interest := .noop }
      refine (congrArg (Function.update · fd.toNat _) hnoop).trans ?_
      exact Function.update_idem _ _ _
    · rw [if_pos (by simp [hused])] at h
      cases h

/-- Filling a slot with what it is registered with. -/
theorem FdSelector.Slotted.filled {reg : Registration} (hs : s.Slotted)
    (hsize : s'.fdSize = s.fdSize) (hfd : invalidFd fd = false)
    (hreg : reg.fd = fd) (hhandler : reg.handler ≠ none)
    (hslots : s'.registration = Function.update s.registration fd.toNat reg) :
    s'.Slotted where
  size := hsize.trans hs.size
  slots := by
    intro i
    have hvalid := invalidFd_eq_false_iff.mp hfd
    rw [hslots]
    by_cases hi : i = fd.toNat
    · subst hi
      rw [Function.update_self]
      refine .inr ⟨?_, hhandler, ?_⟩
      · rw [hreg]
        omega
      · unfold itemsMaxSize
        omega
    · rw [Function.update_of_ne hi]
      exact hs.slots i

/-- Clearing slots. -/
theorem FdSelector.Slotted.emptied (hs : s.Slotted)
    (hsize : s'.fdSize = s.fdSize)
    (hslots : ∀ i, s'.registration i ≠ {} →
      s'.registration i = s.registration i) : s'.Slotted where
  size := hsize.trans hs.size
  slots := by
    intro i
    by_cases hi : s'.registration i = {}
    · exact .inl hi
    · rw [hslots i hi]
      exact hs.slots i

end Socksv5
