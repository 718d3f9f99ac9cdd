import Socksv5.Selector.Representation
import Mathlib.Data.List.Basic

/-!
# One iteration of the selector

`handle_iteration` goes through the table once, with the two sets of
descriptors that `pselect` has reported, and calls the handlers of the ready
ones.  A handler can do anything to the table and to the descriptors that are
open; it is given by the actions that it takes.  Each slot of the table counts
the registrations made in it, which tells them apart.
-/

namespace Socksv5

open Support

/-- What a handler does. -/
inductive HandlerAction
  | select (op : SelectorOp)
  | close (fd : ℕ)
  | socket

/-- The descriptors that `pselect` has reported: `slave_r` and `slave_w`. -/
structure Reported where
  slaveR : ℕ → Bool := fun _ => false
  slaveW : ℕ → Bool := fun _ => false

/-- The descriptor has been reported ready for the event. -/
def Reported.has (rep : Reported) (fd : ℕ) : Ready → Bool
  | .read => rep.slaveR fd
  | .write => rep.slaveW fd
  | .block => false

/-- A call of a handler: the slot of the loop, the event, what the key carries,
and which registration is in the slot. -/
structure HandlerCall where
  slot : ℕ
  ready : Ready
  data : Option ℕ
  registration : Option ℕ
deriving DecidableEq, Repr

/-- The selector in an iteration, the descriptors that are open, the number of
registrations made in each slot, and the calls made so far. -/
structure Iteration where
  selector : FdSelector
  opened : List ℕ := []
  generation : ℕ → ℕ := fun _ => 0
  calls : List HandlerCall := []

/-- The registration in a slot. -/
def Iteration.registration (t : Iteration) (i : ℕ) : Option ℕ :=
  if (t.selector.fds i).used then some (t.generation i) else none

/-- The number that the kernel gives to a new descriptor. -/
def lowestFree (opened : List ℕ) : ℕ :=
  ((List.range (opened.length + 1)).find? fun n => !opened.contains n).getD 0

/-- The descriptor that an operation registers. -/
def SelectorOp.registers : SelectorOp → Option ℤ
  | .register fd _ _ _ _ => some fd
  | _ => none

/-- A registration that has been made is counted. -/
def Iteration.counted (t : Iteration) (op : SelectorOp) (ret : SelectorStatus)
    (k : ℕ) : ℕ :=
  if op.registers = some (k : ℤ) ∧ ret = .success then t.generation k + 1
  else t.generation k

/-- An action of a handler. -/
def HandlerAction.perform (t : Iteration) :
    HandlerAction → Except Fault Iteration
  | .select op => do
      let (ret, s) ← op.call t.selector
      .ok { t with selector := s, generation := t.counted op ret }
  | .close fd => .ok { t with opened := t.opened.erase fd }
  | .socket => .ok { t with opened := lowestFree t.opened :: t.opened }

/-- The actions of a handler, one after the other. -/
def performAll : List HandlerAction → Iteration → Except Fault Iteration
  | [], t => .ok t
  | a :: as, t => do
      let t ← a.perform t
      performAll as t

/-- The tables of callbacks have a callback for the event. -/
def FdHandler.handles : FdHandler → Ready → Bool
  | .socksv5Passive, .read | .adminPassive, .read => true
  | .socksv5Active, _ => true
  | .adminActive, .read | .adminActive, .write => true
  | _, _ => false

/-- The call of a handler is recorded. -/
def Iteration.called (t : Iteration) (i : ℕ) (r : Ready) (data : Option ℕ) :
    Iteration :=
  { t with calls := t.calls ++ [⟨i, r, data, t.registration i⟩] }

/-- One of the two branches of `handle_iteration` for slot `i`: `bit` is the
descriptor that is looked for in the set, and `data` what the key carries. -/
def handleReady (rep : Reported) (r : Ready) (i bit : ℕ) (data : Option ℕ)
    (actions : List HandlerAction) (t : Iteration) : Except Fault Iteration :=
  let item := t.selector.fds i
  if rep.has bit r && item.interest.includes r then
    match item.handler with
    | none => .error .nullDereference
    | some handler =>
        if handler.handles r then
          performAll actions (t.called i r data)
        else .error .assertion
  else .ok t

/-- The body of the loop of `handle_iteration`. -/
def handleSlot (rep : Reported) (actions : Ready → List HandlerAction) (i : ℕ)
    (t : Iteration) : Except Fault Iteration := do
  let item ← t.selector.slot i
  if item.used then do
    let t ← handleReady rep .read i item.fd.toNat item.data (actions .read) t
    handleReady rep .write i i item.data (actions .write) t
  else .ok t

/-- The loop of `handle_iteration`, over the slots given. -/
def handleSlots (rep : Reported) (actions : ℕ → Ready → List HandlerAction) :
    List ℕ → Iteration → Except Fault Iteration
  | [], t => .ok t
  | i :: slots, t => do
      let t ← handleSlot rep (actions i) i t
      handleSlots rep actions slots t

/-- `handle_iteration`; `actions` are what the handlers called for a slot do. -/
def handleIteration (rep : Reported) (actions : ℕ → Ready → List HandlerAction)
    (t : Iteration) : Except Fault Iteration :=
  handleSlots rep actions (List.range (t.selector.maxFd.toNat + 1)) t

/-! ## What an operation does to a slot -/

/-- `ItemStep op ret k old new`: the operation `op`, which returns `ret`, makes
the item `old` of slot `k` the item `new`. -/
inductive ItemStep (op : SelectorOp) (ret : SelectorStatus) (k : ℕ)
    (old : Item) : Item → Prop
  | kept : ItemStep op ret k old old
  | cleared : ItemStep op ret k old {}
  | changed (i : FdInterest) : old.used = true →
      ItemStep op ret k old { old with interest := i }
  | registered {fd : ℤ} {new : Item} : op.registers = some fd →
      ret = .success → 0 ≤ fd → k = fd.toNat → new.used = true →
      ItemStep op ret k old new

theorem itemStep_update {op : SelectorOp} {s s' : FdSelector} {fd : ℤ}
    {change : FdInterest → Option FdInterest} {ret : SelectorStatus}
    (h : updateInterest s fd change = .ok (ret, s')) (k : ℕ) :
    ItemStep op ret k (s.fds k) (s'.fds k) := by
  unfold updateInterest at h
  by_cases hfd : invalidFd fd = true
  · rw [if_pos hfd] at h
    cases h
    exact .kept
  · rw [if_neg hfd] at h
    obtain ⟨item, hslot, h⟩ := bind_eq_ok.mp h
    obtain ⟨-, rfl⟩ := FdSelector.slot_eq_ok hslot
    by_cases hused : (s.fds fd.toNat).used = true
    · rw [if_neg (by simp [hused])] at h
      cases hchange : change (s.fds fd.toNat).interest with
      | none =>
          simp only [hchange] at h
          cases h
          exact .kept
      | some i =>
          simp only [hchange] at h
          cases h
          change ItemStep op _ k (s.fds k) (Function.update s.fds fd.toNat _ k)
          by_cases hk : k = fd.toNat
          · subst hk
            rw [Function.update_self]
            exact .changed i hused
          · rw [Function.update_of_ne hk]
            exact .kept
    · rw [if_pos (by simp [hused])] at h
      cases h
      exact .kept

theorem itemStep_unregister {op : SelectorOp} {s s' : FdSelector} {fd : ℤ}
    {ret : SelectorStatus} (h : selectorUnregisterFd s fd = .ok (ret, s'))
    (k : ℕ) : ItemStep op ret k (s.fds k) (s'.fds k) := by
  unfold selectorUnregisterFd at h
  by_cases hfd : invalidFd fd = true
  · rw [if_pos hfd] at h
    cases h
    exact .kept
  · rw [if_neg hfd] at h
    obtain ⟨item, hslot, h⟩ := bind_eq_ok.mp h
    by_cases hused : item.used = true
    · rw [if_neg (by simp [hused])] at h
      cases h
      change ItemStep op _ k (s.fds k)
        (Function.update (Function.update s.fds fd.toNat _) fd.toNat {} k)
      by_cases hk : k = fd.toNat
      · subst hk
        rw [Function.update_self]
        exact .cleared
      · rw [Function.update_of_ne hk, Function.update_of_ne hk]
        exact .kept
    · rw [if_pos (by simp [hused])] at h
      cases h
      exact .kept

/-- In a table that is as large as it gets, registering changes the slot of the
descriptor only. -/
theorem itemStep_register {s s' : FdSelector} (hs : s.Represents) {fd : ℤ}
    {handler : Option FdHandler} {interest : FdInterest} {data : Option ℕ}
    {alloc : Bool} {ret : SelectorStatus}
    (h : selectorRegister s fd handler interest data alloc = .ok (ret, s'))
    (k : ℕ) :
    ItemStep (.register fd handler interest data alloc) ret k (s.fds k)
      (s'.fds k) := by
  unfold selectorRegister at h
  by_cases hargs : (invalidFd fd || handler.isNone) = true
  · rw [if_pos hargs] at h
    cases h
    exact .kept
  · rw [if_neg hargs] at h
    rw [Bool.not_eq_true, Bool.or_eq_false_iff] at hargs
    have hvalid := invalidFd_eq_false_iff.mp hargs.1
    have hfits : ¬ s.fdSize < fd.toNat := by
      rw [hs.size, itemsMaxSize]
      omega
    simp only [if_neg hfits, ne_eq, not_true_eq_false, if_false] at h
    obtain ⟨item, -, h⟩ := bind_eq_ok.mp h
    by_cases hused : item.used = true
    · rw [if_pos hused] at h
      cases h
      exact .kept
    · rw [if_neg hused] at h
      cases h
      change ItemStep _ _ k (s.fds k) (Function.update s.fds fd.toNat _ k)
      by_cases hk : k = fd.toNat
      · subst hk
        rw [Function.update_self]
        refine .registered rfl rfl hvalid.1 rfl ?_
        rw [Item.used, decide_eq_true_iff]
        change fd ≠ -1
        omega
      · rw [Function.update_of_ne hk]
        exact .kept

theorem SelectorOp.call_item {op : SelectorOp} {s s' : FdSelector}
    {ret : SelectorStatus} (hs : s.Represents)
    (h : op.call s = .ok (ret, s')) (k : ℕ) :
    ItemStep op ret k (s.fds k) (s'.fds k) := by
  cases op with
  | register => exact itemStep_register hs h k
  | unregister => exact itemStep_unregister h k
  | setInterest fd i =>
      have h : updateInterest s fd (fun _ => some i) = .ok (ret, s') := h
      exact itemStep_update h k
  | setInterestKey fd i =>
      rw [SelectorOp.call, selectorSetInterestKey_eq] at h
      have h : updateInterest s fd (fun _ => some i) = .ok (ret, s') := h
      exact itemStep_update h k
  | setInterestAdditive fd i =>
      have h : updateInterest s fd (additive i) = .ok (ret, s') := h
      exact itemStep_update h k
  | setInterestReduction fd i =>
      have h : updateInterest s fd (reduction i) = .ok (ret, s') := h
      exact itemStep_update h k

/-! ## The registrations of an iteration -/

/-- The table is sound, and no slot that is not in use has an interest. -/
structure FdSelector.Sound (s : FdSelector) : Prop where
  represents : s.Represents
  idle : ∀ i, (s.fds i).used = false → (s.fds i).interest = .noop

theorem selectorNew_sound : (selectorNew 1024).Sound :=
  ⟨selectorNew_represents, fun _ _ => rfl⟩

theorem SelectorOp.call_sound {op : SelectorOp} {s s' : FdSelector}
    {ret : SelectorStatus} (hs : s.Sound) (h : op.call s = .ok (ret, s')) :
    s'.Sound := by
  obtain ⟨ret', s₁, hcall, hs₁, -⟩ := op.call_keeps hs.represents
  rw [h] at hcall
  cases hcall
  refine ⟨hs₁, ?_⟩
  intro i hi
  have hstep := SelectorOp.call_item hs.represents h i
  generalize s'.fds i = new at hstep hi
  cases hstep with
  | kept => exact hs.idle i hi
  | cleared => rfl
  | changed _ hused =>
      have hi : (s.fds i).used = false := hi
      rw [hused] at hi
      cases hi
  | registered _ _ _ _ hused =>
      rw [hused] at hi
      cases hi

/-- `RegistersAt k a`: the action registers the descriptor `k`. -/
def HandlerAction.RegistersAt (k : ℕ) : HandlerAction → Prop
  | .select op => op.registers = some (k : ℤ)
  | _ => False

instance (k : ℕ) (a : HandlerAction) : Decidable (a.RegistersAt k) :=
  match a with
  | .select op => inferInstanceAs (Decidable (op.registers = some (k : ℤ)))
  | .close _ | .socket => inferInstanceAs (Decidable False)

/-- `Unregistered t t' k`: nothing has been registered in slot `k` since `t`. -/
structure Iteration.Unregistered (t t' : Iteration) (k : ℕ) : Prop where
  generation : t'.generation k = t.generation k
  used : (t'.selector.fds k).used = true → (t.selector.fds k).used = true

namespace Iteration.Unregistered

theorem refl (t : Iteration) (k : ℕ) : t.Unregistered t k := ⟨rfl, id⟩

theorem trans {t t₁ t₂ : Iteration} {k : ℕ} (h : t.Unregistered t₁ k)
    (h' : t₁.Unregistered t₂ k) : t.Unregistered t₂ k :=
  ⟨h'.generation.trans h.generation, fun hused => h.used (h'.used hused)⟩

end Iteration.Unregistered

/-- An action keeps the table sound, and registers nothing but what it says. -/
theorem HandlerAction.perform_spec {a : HandlerAction} {t t' : Iteration}
    (ht : t.selector.Sound) (h : a.perform t = .ok t') :
    t'.selector.Sound ∧ t'.calls = t.calls ∧
      ∀ k, ¬ a.RegistersAt k → t.Unregistered t' k := by
  cases a with
  | close fd =>
      cases h
      exact ⟨ht, rfl, fun k _ => ⟨rfl, id⟩⟩
  | socket =>
      cases h
      exact ⟨ht, rfl, fun k _ => ⟨rfl, id⟩⟩
  | select op =>
      obtain ⟨⟨ret, s⟩, hcall, h⟩ := bind_eq_ok.mp h
      cases h
      refine ⟨SelectorOp.call_sound ht hcall, rfl, ?_⟩
      intro k hk
      have hnot : op.registers ≠ some (k : ℤ) := hk
      refine ⟨if_neg fun hboth => hnot hboth.1, ?_⟩
      change (s.fds k).used = true → _
      have hstep := SelectorOp.call_item ht.represents hcall k
      generalize s.fds k = new at hstep
      cases hstep with
      | kept => exact id
      | cleared =>
          intro hused
          cases hused
      | changed _ hused => exact fun _ => hused
      | registered hregisters _ hpos hfd =>
          refine absurd ?_ hnot
          rw [hregisters, hfd, Int.toNat_of_nonneg hpos]

theorem performAll_spec {as : List HandlerAction} {t t' : Iteration}
    (ht : t.selector.Sound) (h : performAll as t = .ok t') :
    t'.selector.Sound ∧ t'.calls = t.calls ∧
      ∀ k, (∀ a ∈ as, ¬ a.RegistersAt k) → t.Unregistered t' k := by
  induction as generalizing t with
  | nil =>
      cases h
      exact ⟨ht, rfl, fun k _ => .refl _ k⟩
  | cons a as ih =>
      obtain ⟨t₁, ha, h⟩ := bind_eq_ok.mp h
      obtain ⟨ht₁, hcalls₁, hfirst⟩ := a.perform_spec ht ha
      obtain ⟨ht', hcalls, hrest⟩ := ih ht₁ h
      refine ⟨ht', hcalls.trans hcalls₁, ?_⟩
      intro k hk
      exact (hfirst k (hk a (List.mem_cons_self ..))).trans
        (hrest k fun b hb => hk b (List.mem_cons_of_mem _ hb))

/-! ## No stale readiness -/

/-- Every call is for the registration that was in its slot at first. -/
def Iteration.CallsFor (t₀ t : Iteration) : Prop :=
  ∀ c ∈ t.calls, c.registration ≠ none ∧
    c.registration = t₀.registration c.slot

/-- When the loop calls the handler of slot `i` for the event `r`, it has gone
past the event `r'` of slot `k`. -/
def Past (i : ℕ) (r : Ready) (k : ℕ) (r' : Ready) : Prop :=
  k < i ∨ (k = i ∧ (r' = .read ∨ r = .write))

/-- The handler called registers no descriptor that has been reported for an
event that the loop has not gone past. -/
def Reported.Spared (rep : Reported)
    (actions : ℕ → Ready → List HandlerAction) (c : HandlerCall) : Prop :=
  ∀ a ∈ actions c.slot c.ready, ∀ k, a.RegistersAt k →
    ∀ r, rep.has k r = true → Past c.slot c.ready k r

/-- What holds in the loop that began with `t₀`, when it has gone past the
events that `past` says. -/
structure Iteration.Follows (rep : Reported) (past : ℕ → Ready → Prop)
    (t₀ t : Iteration) : Prop where
  sound : t.selector.Sound
  calls : t₀.CallsFor t
  unregistered : ∀ k r, rep.has k r = true → ¬ past k r → t₀.Unregistered t k

theorem Iteration.Follows.mono {rep : Reported} {past past' : ℕ → Ready → Prop}
    {t₀ t : Iteration} (ht : Iteration.Follows rep past t₀ t)
    (hpast : ∀ k r, past k r → past' k r) :
    Iteration.Follows rep past' t₀ t :=
  ⟨ht.sound, ht.calls, fun k r hk hnot =>
    ht.unregistered k r hk fun h => hnot (hpast k r h)⟩

/-- A branch of the loop does nothing, or calls the handler of the slot. -/
theorem handleReady_cases {rep : Reported} {r : Ready} {i bit : ℕ}
    {data : Option ℕ} {as : List HandlerAction} {t t' : Iteration}
    (h : handleReady rep r i bit data as t = .ok t') :
    t' = t ∨ (rep.has bit r = true ∧
      (t.selector.fds i).interest.includes r = true ∧
      performAll as (t.called i r data) = .ok t') := by
  unfold handleReady at h
  dsimp only at h
  by_cases hready : (rep.has bit r &&
      (t.selector.fds i).interest.includes r) = true
  · rw [if_pos hready] at h
    rw [Bool.and_eq_true] at hready
    cases hhandler : (t.selector.fds i).handler with
    | none => simp [hhandler] at h
    | some handler =>
        simp only [hhandler] at h
        by_cases hhandles : handler.handles r = true
        · rw [if_pos hhandles] at h
          exact .inr ⟨hready.1, hready.2, h⟩
        · rw [if_neg hhandles] at h
          cases h
  · rw [if_neg hready] at h
    cases h
    exact .inl rfl

theorem handleReady_sound {rep : Reported} {r : Ready} {i bit : ℕ}
    {data : Option ℕ} {as : List HandlerAction} {t t' : Iteration}
    (ht : t.selector.Sound) (h : handleReady rep r i bit data as t = .ok t') :
    t'.selector.Sound ∧ t.calls <+: t'.calls := by
  rcases handleReady_cases h with rfl | ⟨-, -, h⟩
  · exact ⟨ht, List.prefix_rfl⟩
  · have hcalled : (t.called i r data).selector.Sound := ht
    obtain ⟨hsound, hcalls, -⟩ := performAll_spec hcalled h
    rw [hcalls]
    exact ⟨hsound, List.prefix_append _ _⟩

/-- Calling the handler of a slot, when the registration is the first one. -/
theorem handleReady_spec {rep : Reported} {r : Ready} {i : ℕ}
    {data : Option ℕ} {actions : ℕ → Ready → List HandlerAction}
    {t₀ t t' : Iteration} (ht : Iteration.Follows rep (Past i r) t₀ t)
    (hi : rep.has i r = true → t₀.Unregistered t i)
    (h : handleReady rep r i i data (actions i r) t = .ok t')
    (hspared : ∀ c ∈ t'.calls, rep.Spared actions c) :
    Iteration.Follows rep (Past i r) t₀ t' := by
  rcases handleReady_cases h with rfl | ⟨hrep, hincludes, h⟩
  · exact ht
  · have hcalled : (t.called i r data).selector.Sound := ht.sound
    obtain ⟨hsound, hcalls, hrest⟩ := performAll_spec hcalled h
    have hcalls : t'.calls = t.calls ++ [⟨i, r, data, t.registration i⟩] :=
      hcalls
    have hused : (t.selector.fds i).used = true := by
      by_contra hnot
      rw [Bool.not_eq_true] at hnot
      rw [ht.sound.idle i hnot] at hincludes
      cases r <;> cases hincludes
    obtain ⟨hgeneration, hfirst⟩ := hi hrep
    have hregistration : t.registration i = t₀.registration i := by
      rw [Iteration.registration, Iteration.registration, if_pos hused,
        if_pos (hfirst hused), hgeneration]
    refine ⟨hsound, ?_, ?_⟩
    · intro c hc
      rw [hcalls, List.mem_append, List.mem_singleton] at hc
      rcases hc with hc | rfl
      · exact ht.calls c hc
      · refine ⟨?_, hregistration⟩
        change t.registration i ≠ none
        rw [Iteration.registration, if_pos hused]
        exact Option.some_ne_none _
    · intro k r' hk hpast
      have hcall : t.Unregistered (t.called i r data) k := ⟨rfl, id⟩
      refine (ht.unregistered k r' hk hpast).trans (hcall.trans (hrest k ?_))
      intro a ha hregisters
      have hmem : (⟨i, r, data, t.registration i⟩ : HandlerCall) ∈
          t'.calls := by
        rw [hcalls]
        exact List.mem_append_right _ (List.mem_singleton_self _)
      exact hpast (hspared _ hmem a ha k hregisters r' hk)

/-- The body of the loop for a slot that is in use. -/
theorem handleSlot_cases {rep : Reported} {i : ℕ}
    {actions : Ready → List HandlerAction} {t t' : Iteration}
    (ht : t.selector.Represents) (h : handleSlot rep actions i t = .ok t') :
    t' = t ∨ ∃ t₁ data,
      handleReady rep .read i i data (actions .read) t = .ok t₁ ∧
        handleReady rep .write i i data (actions .write) t₁ = .ok t' := by
  obtain ⟨item, hslot, h⟩ := bind_eq_ok.mp h
  obtain ⟨-, rfl⟩ := FdSelector.slot_eq_ok hslot
  by_cases hused : (t.selector.fds i).used = true
  · rw [if_pos hused] at h
    obtain ⟨t₁, hread, hwrite⟩ := bind_eq_ok.mp h
    rw [(ht.fd_eq i hused).1, Int.toNat_natCast] at hread
    exact .inr ⟨t₁, _, hread, hwrite⟩
  · rw [if_neg hused] at h
    cases h
    exact .inl rfl

theorem handleSlot_sound {rep : Reported} {i : ℕ}
    {actions : Ready → List HandlerAction} {t t' : Iteration}
    (ht : t.selector.Sound) (h : handleSlot rep actions i t = .ok t') :
    t'.selector.Sound ∧ t.calls <+: t'.calls := by
  rcases handleSlot_cases ht.represents h with rfl | ⟨t₁, data, hread, hwrite⟩
  · exact ⟨ht, List.prefix_rfl⟩
  · obtain ⟨ht₁, hfirst⟩ := handleReady_sound ht hread
    obtain ⟨ht', hsecond⟩ := handleReady_sound ht₁ hwrite
    exact ⟨ht', hfirst.trans hsecond⟩

/-- A step of the loop. -/
theorem handleSlot_spec {rep : Reported} {i : ℕ}
    {actions : ℕ → Ready → List HandlerAction} {t₀ t t' : Iteration}
    (ht : Iteration.Follows rep (fun k _ => k < i) t₀ t)
    (h : handleSlot rep (actions i) i t = .ok t')
    (hspared : ∀ c ∈ t'.calls, rep.Spared actions c) :
    Iteration.Follows rep (fun k _ => k < i + 1) t₀ t' := by
  rcases handleSlot_cases ht.sound.represents h with
    rfl | ⟨t₁, data, hread, hwrite⟩
  · exact ht.mono fun k _ hk => Nat.lt_succ_of_lt hk
  · have ht₁ := (handleReady_sound ht.sound hread).1
    have hleading := (handleReady_sound ht₁ hwrite).2
    have hfollows : Iteration.Follows rep (Past i .read) t₀ t₁ := by
      refine handleReady_spec (ht.mono fun k _ hk => .inl hk) ?_ hread
        fun c hc => hspared c (hleading.mem hc)
      exact fun hrep => ht.unregistered i .read hrep (Nat.lt_irrefl i)
    have hwritten : Iteration.Follows rep (Past i .write) t₀ t' := by
      refine handleReady_spec (hfollows.mono ?_) ?_ hwrite hspared
      · rintro k r (hk | ⟨hk, -⟩)
        · exact .inl hk
        · exact .inr ⟨hk, .inr rfl⟩
      · intro hrep
        refine hfollows.unregistered i .write hrep ?_
        rintro (hlt | ⟨-, hready | hready⟩)
        · exact Nat.lt_irrefl i hlt
        · cases hready
        · cases hready
    refine hwritten.mono ?_
    rintro k r (hk | ⟨hk, -⟩)
    · exact Nat.lt_succ_of_lt hk
    · exact hk ▸ Nat.lt_succ_self k

theorem handleSlots_sound {rep : Reported} {slots : List ℕ}
    {actions : ℕ → Ready → List HandlerAction} {t t' : Iteration}
    (ht : t.selector.Sound) (h : handleSlots rep actions slots t = .ok t') :
    t'.selector.Sound ∧ t.calls <+: t'.calls := by
  induction slots generalizing t with
  | nil =>
      cases h
      exact ⟨ht, List.prefix_rfl⟩
  | cons i slots ih =>
      obtain ⟨t₁, hslot, h⟩ := bind_eq_ok.mp h
      obtain ⟨ht₁, hfirst⟩ := handleSlot_sound ht hslot
      obtain ⟨ht', hrest⟩ := ih ht₁ h
      exact ⟨ht', hfirst.trans hrest⟩

/-- The loop, from slot `i` on. -/
theorem handleSlots_spec {rep : Reported} {n i : ℕ}
    {actions : ℕ → Ready → List HandlerAction} {t₀ t t' : Iteration}
    (ht : Iteration.Follows rep (fun k _ => k < i) t₀ t)
    (h : handleSlots rep actions (List.range' i n) t = .ok t')
    (hspared : ∀ c ∈ t'.calls, rep.Spared actions c) : t₀.CallsFor t' := by
  induction n generalizing i t with
  | zero =>
      cases h
      exact ht.calls
  | succ n ih =>
      rw [List.range'_succ] at h
      obtain ⟨t₁, hslot, h⟩ := bind_eq_ok.mp h
      have ht₁ := (handleSlot_sound ht.sound hslot).1
      have hleading := (handleSlots_sound ht₁ h).2
      refine ih (handleSlot_spec ht hslot ?_) h
      exact fun c hc => hspared c (hleading.mem hc)

theorem callAll_sound {ops : List SelectorOp} {s s' : FdSelector}
    (hs : s.Sound) (h : callAll ops s = .ok s') : s'.Sound := by
  induction ops generalizing s with
  | nil =>
      cases h
      exact hs
  | cons op ops ih =>
      obtain ⟨r, hcall, h⟩ := bind_eq_ok.mp h
      exact ih (SelectorOp.call_sound hs hcall) h

/-- The handlers that an iteration calls are those of the registrations that
`pselect` has reported, when none of them registers a descriptor that has been
reported for an event that the loop has not gone past. -/
theorem handleIteration_callsFor {ops : List SelectorOp} {t t' : Iteration}
    {rep : Reported} {actions : ℕ → Ready → List HandlerAction}
    (hs : callAll ops (selectorNew 1024) = .ok t.selector)
    (hcalls : t.calls = []) (h : handleIteration rep actions t = .ok t')
    (hspared : ∀ c ∈ t'.calls, rep.Spared actions c) : t.CallsFor t' := by
  unfold handleIteration at h
  rw [List.range_eq_range'] at h
  refine handleSlots_spec ⟨callAll_sound selectorNew_sound hs, ?_, ?_⟩ h hspared
  · rw [Iteration.CallsFor, hcalls]
    intro c hc
    cases hc
  · exact fun k r _ _ => .refl t k

/-- Sessions on the descriptors 5, 6 and 7, and the origin of the first one on
descriptor 8. -/
def sessionsTable : List SelectorOp :=
  [5, 6, 7, 8].map fun fd =>
    .register fd (some .socksv5Active) (if fd = 8 then .write else .read)
      (some fd.toNat) true

/-- The clients have written, and the origin can be written to. -/
def sessionsReported : Reported :=
  ⟨fun fd => fd == 5 || fd == 6 || fd == 7, fun fd => fd == 8⟩

/-- The session of descriptor 5 ends, and as many of the other two as `origins`
says connect to their origins. -/
def sessionsActions (origins : ℕ) : ℕ → Ready → List HandlerAction
  | 5, .read =>
      [.select (.unregister 5), .close 5, .select (.unregister 8), .close 8]
  | 6, .read =>
      if origins < 1 then []
      else [.socket,
        .select (.register 5 (some .socksv5Active) .write (some 6) true)]
  | 7, .read =>
      if origins < 2 then []
      else [.socket,
        .select (.register 8 (some .socksv5Active) .write (some 7) true)]
  | _, _ => []

/-- One session connects to its origin, on the descriptor that the loop has
gone past. -/
theorem sessions_callsFor : ∃ t t',
    callAll sessionsTable (selectorNew 1024) = .ok t.selector ∧
      t.calls = [] ∧
      handleIteration sessionsReported (sessionsActions 1) t = .ok t' ∧
      t'.calls.length = 3 ∧ t.CallsFor t' := by
  have hplay : (callAll sessionsTable (selectorNew 1024)).toOption.any
      (fun s => (handleIteration sessionsReported (sessionsActions 1)
        ⟨s, List.range 9, fun _ => 0, []⟩).toOption.any fun t' =>
          decide (t'.calls = [⟨5, .read, some 5, some 0⟩,
            ⟨6, .read, some 6, some 0⟩, ⟨7, .read, some 7, some 0⟩])) =
        true := by
    decide
  obtain ⟨s, hs, hplay⟩ := (Option.any_eq_true _ _).mp hplay
  obtain ⟨t', ht', hplay⟩ := (Option.any_eq_true _ _).mp hplay
  have hs := toOption_eq_some.mp hs
  have ht' := toOption_eq_some.mp ht'
  have hcalls := of_decide_eq_true hplay
  refine ⟨⟨s, List.range 9, fun _ => 0, []⟩, t', hs, rfl, ht',
    congrArg List.length hcalls, ?_⟩
  refine @handleIteration_callsFor sessionsTable _ _ _ _ hs rfl ht' ?_
  rw [hcalls]
  intro c hc a ha k hk r hrep
  simp only [List.mem_cons, List.not_mem_nil, or_false] at hc
  rcases hc with rfl | rfl | rfl
  · simp only [sessionsActions, List.mem_cons, List.not_mem_nil,
      or_false] at ha
    rcases ha with rfl | rfl | rfl | rfl <;> cases hk
  · simp only [sessionsActions, Nat.lt_irrefl, if_false, List.mem_cons,
      List.not_mem_nil, or_false] at ha
    rcases ha with rfl | rfl
    · cases hk
    · have hk : some (5 : ℤ) = some (k : ℤ) := hk
      rw [Option.some.injEq] at hk
      have hlt : k < 6 := by omega
      exact .inl hlt
  · simp [sessionsActions] at ha

/-- Both sessions connect to their origins: the second one gets the descriptor
of the origin that was reported, and its handler is called. -/
theorem not_callsFor_of_reused : ∃ t t',
    callAll sessionsTable (selectorNew 1024) = .ok t.selector ∧
      t.opened = List.range 9 ∧ t.calls = [] ∧
      handleIteration sessionsReported (sessionsActions 2) t = .ok t' ∧
      t'.opened = [8, 5, 0, 1, 2, 3, 4, 6, 7] ∧ ¬ t.CallsFor t' := by
  have hplay : (callAll sessionsTable (selectorNew 1024)).toOption.any
      (fun s => (handleIteration sessionsReported (sessionsActions 2)
        ⟨s, List.range 9, fun _ => 0, []⟩).toOption.any fun t' =>
          decide (t'.opened = [8, 5, 0, 1, 2, 3, 4, 6, 7] ∧
            (s.fds 8).used = true ∧
            ⟨8, .write, some 7, some 1⟩ ∈ t'.calls)) = true := by
    decide
  obtain ⟨s, hs, hplay⟩ := (Option.any_eq_true _ _).mp hplay
  obtain ⟨t', ht', hplay⟩ := (Option.any_eq_true _ _).mp hplay
  obtain ⟨hopened, hused, hmem⟩ := of_decide_eq_true hplay
  refine ⟨⟨s, List.range 9, fun _ => 0, []⟩, t', toOption_eq_some.mp hs, rfl,
    rfl, toOption_eq_some.mp ht', hopened, ?_⟩
  intro hfor
  have hregistration := (hfor _ hmem).2
  rw [Iteration.registration] at hregistration
  simp only [hused, if_true] at hregistration
  cases hregistration

end Socksv5
