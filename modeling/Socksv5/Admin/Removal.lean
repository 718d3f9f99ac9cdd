import Socksv5.Server.Accepting

/-!
# Closing an administrator

Administrators come to the list by `new_admin` and leave it by `destroy_admin`.
The list is integral for as long as both return; `destroy_admin` does so for
the last administrator of the list, and for no other.
-/

namespace Socksv5

open Support

/-- What can happen to the list of administrators. -/
inductive AdminEvent
  | opened (fd : ℤ) (a : ℕ)
  | closed (fd : ℤ) (a : ℕ)
  | others

/-- `AdminStep srv e srv'`: the event takes the server from `srv` to `srv'`.
An administrator is allocated where nothing is, and closed while it is in the
list and its descriptor in the selector. -/
inductive AdminStep : Server → AdminEvent → Server → Prop
  | opened {srv : Server} {fuel a : ℕ} {fd : ℤ} {p : Option ℕ}
      {l : AdminList} :
      srv.admins.heap a = none →
      newAdmin fuel fd (some a) srv.admins = .ok (p, l) →
      AdminStep srv (.opened fd a) { srv with admins := l }
  | closed {srv srv' : Server} {fuel a : ℕ} {fd : ℤ} {xs : List ℕ} :
      srv.selector.Registered fd → srv.admins.Lists xs → a ∈ xs →
      destroyAdmin fuel ⟨fd, some a⟩ srv = .ok srv' →
      AdminStep srv (.closed fd a) srv'
  | others {srv srv' : Server} : srv'.admins = srv.admins →
      AdminStep srv .others srv'

/-- The servers that can be got to. -/
def AdminReachable (srv : Server) : Prop :=
  ∃ srv₀ tr, srv₀.Starts ∧ Run AdminStep srv₀ tr srv

/-! ## One administrator is closed -/

/-- What `destroy_admin` leaves of the list. -/
theorem destroyAdmin_admins {fuel a : ℕ} {fd : ℤ} {srv srv' : Server}
    (h : destroyAdmin fuel ⟨fd, some a⟩ srv = .ok srv') :
    removeAdmin fuel a srv.admins = .ok srv'.admins := by
  obtain ⟨⟨ret, s⟩, -, h⟩ := bind_eq_ok.mp h
  by_cases hret : ret = .success
  · simp only [hret, ne_eq, not_true_eq_false, if_false] at h
    obtain ⟨l, hl, h⟩ := bind_eq_ok.mp h
    cases h
    rw [← hl]
    by_cases hfd : fd = -1 <;> simp [hfd, Server.close]
  · simp [hret] at h

/-- `destroy_admin` of a registered descriptor returns when the list does. -/
theorem exists_destroyAdmin {fuel a : ℕ} {fd : ℤ} {srv : Server}
    {l : AdminList} (hfd : srv.selector.Registered fd)
    (h : removeAdmin fuel a srv.admins = .ok l) :
    ∃ srv', destroyAdmin fuel ⟨fd, some a⟩ srv = .ok srv' ∧
      srv'.admins = l := by
  obtain ⟨s, hs, -⟩ := selectorUnregisterFd_of_registered hfd
  have hne : fd ≠ -1 := by
    have := hfd.nonneg
    omega
  refine ⟨{ Server.close { srv with selector := s } fd with admins := l }, ?_,
    rfl⟩
  rw [destroyAdmin, hs]
  simp only [ok_bind, ne_eq, not_true_eq_false, if_false, hne, not_false_eq_true,
    if_true, Server.close, h]

/-- When `destroy_admin` returns, it has removed the last administrator of the
list. -/
theorem removeAdmin_integral {fuel a : ℕ} {l l' : AdminList} {xs : List ℕ}
    (hl : l.Integral xs) (ha : a ∈ xs) (h : removeAdmin fuel a l = .ok l') :
    xs.getLast? = some a ∧ l'.Integral (xs.erase a) := by
  obtain ⟨ys, zs, rfl⟩ := List.append_of_mem ha
  rcases zs with _ | ⟨c, zs⟩
  · have hnot : a ∉ ys := fun hmem =>
      List.disjoint_of_nodup_append hl.nodup hmem (List.mem_singleton_self a)
    refine ⟨by simp, ?_⟩
    rw [List.erase_append_right _ hnot, List.erase_cons_head, List.append_nil]
    rcases fuel with _ | fuel
    · obtain ⟨node, before, -, -, heq⟩ := removeAdmin_eq 0 hl
      rw [heq] at h
      cases h
    · obtain ⟨l₁, hl₁, hintegral⟩ := removeAdmin_last fuel hl
      rw [hl₁] at h
      cases h
      exact hintegral
  · rw [removeAdmin_diverges hl fuel] at h
    cases h

/-- `destroy_admin` removes the last administrator of the list, and does not
return for another. -/
theorem destroyAdmin_removes_iff {srv : Server} {xs : List ℕ} {a : ℕ} {fd : ℤ}
    (hxs : srv.admins.Integral xs) (ha : a ∈ xs)
    (hfd : srv.selector.Registered fd) :
    (∃ fuel srv', destroyAdmin fuel ⟨fd, some a⟩ srv = .ok srv' ∧
      srv'.admins.Integral (xs.erase a)) ↔ xs.getLast? = some a := by
  constructor
  · rintro ⟨fuel, srv', hdestroy, -⟩
    exact (removeAdmin_integral hxs ha (destroyAdmin_admins hdestroy)).1
  · intro hlast
    obtain ⟨ys, rfl⟩ := List.getLast?_eq_some_iff.mp hlast
    obtain ⟨l, hl, -⟩ := removeAdmin_last 0 hxs
    obtain ⟨srv', hdestroy, rfl⟩ := exists_destroyAdmin hfd hl
    exact ⟨1, srv', hdestroy, (removeAdmin_integral hxs ha hl).2⟩

/-! ## The list in every state -/

theorem AdminStep.integral {srv srv' : Server} {e : AdminEvent} {xs : List ℕ}
    (h : AdminStep srv e srv') (hxs : srv.admins.Integral xs) :
    ∃ ys, srv'.admins.Integral ys := by
  rcases h with ⟨hfresh, hnew⟩ | ⟨hfd, hlists, ha, hdestroy⟩ | hothers
  · exact ⟨_, (newAdmin_integral hnew hxs hfresh).2⟩
  · rw [hlists.unique hxs.segment] at ha
    exact ⟨_, (removeAdmin_integral hxs ha (destroyAdmin_admins hdestroy)).2⟩
  · exact ⟨xs, hothers ▸ hxs⟩

theorem AdminReachable.integral {srv : Server} (h : AdminReachable srv) :
    ∃ xs, srv.admins.Integral xs := by
  obtain ⟨srv₀, tr, ⟨_, _, _, _, s, -, rfl⟩, hrun⟩ := h
  refine hrun.invariant (I := fun srv => ∃ xs, srv.admins.Integral xs)
    ⟨[], AdminList.integral_empty⟩ ?_
  rintro srv e srv' ⟨xs, hxs⟩ hstep
  exact hstep.integral hxs

/-- What `admin_passive_accept` does to the list is an event of it. -/
theorem adminPassiveAccept_run {fuel : ℕ} {sys : AcceptSys} {key : SelectorKey}
    {srv srv' : Server} (hkey : key.data = none)
    (hfresh : ∀ a, sys.address = some a → srv.admins.heap a = none)
    (h : adminPassiveAccept fuel sys key srv = .ok srv') :
    ∃ tr, Run AdminStep srv tr srv' := by
  have others : ∀ srv₁ : Server, srv₁.admins = srv.admins →
      ∃ tr, Run AdminStep srv tr srv₁ :=
    fun srv₁ heq => ⟨_, .single (.others heq)⟩
  unfold adminPassiveAccept at h
  split at h
  case h_1 =>
    cases h
    exact others _ rfl
  case h_2 clientSock _ =>
    by_cases hnio : sys.nio = false
    · rw [if_pos hnio] at h
      cases h
      exact others _ rfl
    · rw [if_neg hnio] at h
      obtain ⟨⟨ad, l⟩, hnew, h⟩ := bind_eq_ok.mp h
      have had := newAdmin_address hnew
      subst had
      cases haddress : sys.address with
      | none =>
          rw [haddress] at hnew
          cases hnew
          simp only [haddress, if_true] at h
          cases h
          exact others _ rfl
      | some a =>
          simp only [haddress, reduceCtorEq, if_false] at h hnew
          obtain ⟨⟨ret, s⟩, -, h⟩ := bind_eq_ok.mp h
          by_cases hret : ret = .success
          · simp only [hret, ne_eq, not_true_eq_false, if_false] at h
            cases h
            exact ⟨_, .snoc (.single (.opened (hfresh a haddress) hnew))
              (.others rfl)⟩
          · simp only [ne_eq, hret, not_false_eq_true, if_true,
              adminAcceptFinally, reduceCtorEq] at h
            exact absurd h (destroyAdmin_ne_ok hkey)

/-- In every state that can be got to, the administrators are in a list that is
integral, and closing one of them leaves the list of the others, if it is the
last one; otherwise closing it does not end. -/
theorem closing_integral_iff {srv : Server} (h : AdminReachable srv) :
    ∃ xs, srv.admins.Integral xs ∧
      ∀ a ∈ xs, ∀ fd, srv.selector.Registered fd →
        ((∃ fuel srv', destroyAdmin fuel ⟨fd, some a⟩ srv = .ok srv' ∧
          srv'.admins.Integral (xs.erase a)) ↔ xs.getLast? = some a) := by
  obtain ⟨xs, hxs⟩ := h.integral
  refine ⟨xs, hxs, ?_⟩
  intro a ha fd hfd
  exact destroyAdmin_removes_iff hxs ha hfd

/-- Two administrators, the descriptors of which are 5 and 6. -/
theorem exists_twoAdmins : ∃ srv : Server, AdminReachable srv ∧
    srv.admins.Lists [0, 1] ∧ srv.selector.Registered 5 ∧
      srv.selector.Registered 6 := by
  have hplay : ((do
      let start ←
        (registerAllFds 3 (-1) 4 (-1) (selectorNew 1024)).toOption
      let srv ← (adminPassiveAccept 1 ⟨some 5, true, some 0, true⟩ ⟨4, none⟩
        { selector := start.2 }).toOption
      let srv' ← (adminPassiveAccept 2 ⟨some 6, true, some 1, true⟩ ⟨4, none⟩
        srv).toOption
      some (start, srv, srv')) : Option _).any (fun r =>
        r.1.1 && decide (r.2.1.admins.heap 1 = none) &&
          decide (r.2.2.admins.first = some 0) &&
          decide (r.2.2.admins.heap 0 = some ⟨4, 0, some 1⟩) &&
          decide (r.2.2.admins.heap 1 = some ⟨4, 1, none⟩) &&
          decide (r.2.2.selector.Registered 5) &&
          decide (r.2.2.selector.Registered 6)) = true := by
    decide
  obtain ⟨⟨⟨ok, s⟩, srv, srv'⟩, hrun, hplay⟩ :=
    (Option.any_eq_true _ _).mp hplay
  obtain ⟨_, hs, hrun⟩ := Option.bind_eq_some_iff.mp hrun
  obtain ⟨_, hfirst, hrun⟩ := Option.bind_eq_some_iff.mp hrun
  obtain ⟨_, hsecond, hrun⟩ := Option.bind_eq_some_iff.mp hrun
  cases hrun
  rw [toOption_eq_some] at hs hfirst hsecond
  simp only [Bool.and_eq_true, decide_eq_true_eq] at hplay
  obtain ⟨⟨⟨⟨⟨⟨rfl, hfree⟩, hlist⟩, hnode₀⟩, hnode₁⟩, hfd₅⟩, hfd₆⟩ := hplay
  obtain ⟨tr, htr⟩ := adminPassiveAccept_run rfl (fun _ _ => rfl) hfirst
  obtain ⟨tr', htr'⟩ := adminPassiveAccept_run rfl
    (fun a ha => by cases ha; exact hfree) hsecond
  refine ⟨srv', ⟨_, _, ⟨3, -1, 4, -1, s, hs, rfl⟩, htr.append htr'⟩, ?_, hfd₅,
    hfd₆⟩
  exact ⟨hlist, _, hnode₀, rfl, _, hnode₁, rfl⟩

/-- The second of two administrators can be closed, and the first one is left. -/
theorem closing_integral_of_second : ∃ srv : Server, AdminReachable srv ∧
    srv.admins.Lists [0, 1] ∧ srv.selector.Registered 6 ∧
    ∃ fuel srv', destroyAdmin fuel ⟨6, some 1⟩ srv = .ok srv' ∧
      srv'.admins.Integral [0] := by
  obtain ⟨srv, hreachable, hlists, -, hfd⟩ := exists_twoAdmins
  obtain ⟨xs, hxs, hiff⟩ := closing_integral_iff hreachable
  obtain rfl := hxs.segment.unique hlists
  have hcloses := (hiff 1 (by simp) 6 hfd).mpr rfl
  exact ⟨srv, hreachable, hlists, hfd, hcloses⟩

/-- The first of two administrators cannot. -/
theorem not_closing_of_first : ∃ srv : Server, AdminReachable srv ∧
    srv.admins.Integral [0, 1] ∧ srv.selector.Registered 5 ∧
      ∀ fuel, destroyAdmin fuel ⟨5, some 0⟩ srv = .error .diverges := by
  obtain ⟨srv, hreachable, hlists, hfd, -⟩ := exists_twoAdmins
  obtain ⟨xs, hxs⟩ := hreachable.integral
  obtain rfl := hxs.segment.unique hlists
  refine ⟨srv, hreachable, hxs, hfd, ?_⟩
  intro fuel
  obtain ⟨s, hs, -⟩ := selectorUnregisterFd_of_registered hfd
  have hremove : removeAdmin fuel 0 srv.admins = .error .diverges :=
    @removeAdmin_diverges srv.admins [] [] 0 1 hxs fuel
  simp only [destroyAdmin, hs, ok_bind, ne_eq, not_true_eq_false, if_false,
    Server.close, Int.reduceNeg, Int.reduceEq, not_false_eq_true, if_true,
    hremove]
  rfl

end Socksv5
