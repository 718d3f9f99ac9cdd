import Socksv5.Server.Callbacks

/-!
# The administrators of a running server

An administrator is in the list for as long as its descriptor is registered: it
joins the list when its connection is accepted and leaves it when that ends.  The
loop of `destroy_admin` does not end while another administrator comes after the
one that leaves, so that the administrators of a server that goes on leave in the
reverse order of their arrival.
-/

namespace Socksv5

open Support

namespace AdminList

variable {l l' : AdminList}

theorem heap_put_ne_none {a : ℕ} (ha : l.heap a ≠ none) (node : AdminNode) (c : ℕ) :
    (l.put a node).heap c ≠ none ↔ l.heap c ≠ none := by
  by_cases hc : c = a
  · subst hc
    rw [put_heap_self]
    exact iff_of_true (Option.some_ne_none _) ha
  · rw [put_heap_of_ne _ _ hc]

theorem heap_of_deref_eq {p : Option ℕ} {node : AdminNode}
    (h : l.deref p = .ok node) : ∃ a, p = some a ∧ l.heap a = some node := by
  cases p with
  | none => cases h
  | some a =>
      rw [deref] at h
      cases hnode : l.heap a with
      | none =>
          rw [hnode] at h
          cases h
      | some node' =>
          rw [hnode] at h
          cases h
          exact ⟨a, rfl, hnode⟩

end AdminList

section Lists

variable {l l' : AdminList} {fuel a : ℕ}

/-- `new_admin` allocates one administrator. -/
theorem newAdmin_heap {fd : ℤ} {p : Option ℕ}
    (h : newAdmin fuel fd (some a) l = .ok (p, l')) (c : ℕ) :
    l'.heap c ≠ none ↔ c = a ∨ l.heap c ≠ none := by
  have hput (node : AdminNode) :
      (l.put a node).heap c ≠ none ↔ c = a ∨ l.heap c ≠ none := by
    by_cases hc : c = a
    · subst hc
      simp
    · rw [AdminList.put_heap_of_ne _ _ hc]
      simp [hc]
  cases hfirst : l.first with
  | none =>
      simp only [newAdmin, hfirst] at h
      cases h
      exact hput _
  | some first =>
      simp only [newAdmin, hfirst] at h
      obtain ⟨⟨aux, i⟩, -, h⟩ := bind_eq_ok.mp h
      obtain ⟨node, hnode, h⟩ := bind_eq_ok.mp h
      cases h
      obtain ⟨b, hb, hnode⟩ := AdminList.heap_of_deref_eq hnode
      cases hb
      have haux : (l.put a {}).heap aux ≠ none := by simp [hnode]
      have hself : ((l.put a {}).put aux { node with next := some a }).heap a ≠
          none := (AdminList.heap_put_ne_none haux _ a).mpr (by simp)
      rw [AdminList.heap_put_ne_none hself, AdminList.heap_put_ne_none haux]
      exact hput _

theorem renumberAdmins_heap {aux : ℕ} {i : ℤ} (haux : l.heap aux ≠ none)
    (h : renumberAdmins aux fuel i l = .ok l') (c : ℕ) :
    l'.heap c ≠ none ↔ l.heap c ≠ none := by
  induction fuel generalizing i l with
  | zero => cases h
  | succ fuel ih =>
      obtain ⟨node, -, h⟩ := bind_eq_ok.mp h
      cases hnext : node.next with
      | none =>
          rw [hnext] at h
          cases h
          rfl
      | some next =>
          rw [hnext] at h
          have hput (renumbered : AdminNode) :=
            (AdminList.heap_put_ne_none haux renumbered aux).mpr haux
          rw [ih (hput _) h]
          exact AdminList.heap_put_ne_none haux _ c

/-- `destroy_admin` frees one administrator. -/
theorem removeAdmin_heap (h : removeAdmin fuel a l = .ok l') (c : ℕ) :
    l'.heap c ≠ none ↔ c ≠ a ∧ l.heap c ≠ none := by
  obtain ⟨node, -, h⟩ := bind_eq_ok.mp h
  obtain ⟨aux, -, h⟩ := bind_eq_ok.mp h
  obtain ⟨before, hbefore, h⟩ := bind_eq_ok.mp h
  obtain ⟨b, rfl, hb⟩ := AdminList.heap_of_deref_eq hbefore
  obtain ⟨l₁, hrenumber, h⟩ := bind_eq_ok.mp h
  cases h
  have hb : l.heap b ≠ none := by simp [hb]
  have hput := AdminList.heap_put_ne_none hb { before with next := node.next }
  have hheap := renumberAdmins_heap ((hput b).mpr hb) hrenumber c
  have hfirst : (if l₁.first = some a then { l₁ with first := none }
      else l₁).heap = l₁.heap := by
    split <;> rfl
  by_cases hc : c = a
  · subst hc
    simp [AdminList.free]
  · rw [AdminList.free_heap_of_ne _ hc, hfirst, hheap, hput]
    simp [hc]

/-- When `destroy_admin` ends, the administrator was the last in the list. -/
theorem AdminList.Integral.last_of_removed {ads : List ℕ} (hl : l.Integral ads)
    (ha : a ∈ ads) (h : removeAdmin fuel a l = .ok l') :
    ∃ ys, ads = ys ++ [a] ∧ l'.Integral ys := by
  obtain ⟨ys, zs, rfl⟩ := List.append_of_mem ha
  cases zs with
  | cons c zs =>
      rw [removeAdmin_diverges hl] at h
      cases h
  | nil =>
      cases fuel with
      | zero =>
          obtain ⟨node, before, -, -, heq⟩ := removeAdmin_eq 0 hl
          rw [heq] at h
          cases h
      | succ fuel =>
          obtain ⟨l₁, hl₁, hys⟩ := removeAdmin_last fuel hl
          cases h.symm.trans hl₁
          exact ⟨ys, rfl, hys⟩

end Lists

/-- The slot has callbacks, and they are not those of sessions. -/
def Registration.Sessionless (reg : Registration) : Prop :=
  reg.handler ≠ none ∧ reg.handler ≠ some .socksv5Active

namespace Registration

variable {reg : Registration}

theorem Sessionless.ne (h : reg.Sessionless) : reg ≠ {} := by
  rintro rfl
  exact h.1 rfl

theorem sessionless_of_handler {handler : FdHandler}
    (h : reg.handler = some handler) (hne : handler ≠ .socksv5Active) :
    reg.Sessionless := by
  constructor
  · simp [h]
  · simpa [h] using hne

end Registration

namespace Running

variable {x y : Running}

/-- What the slot of an administrator's descriptor holds. -/
def adminSeat (i : ℕ) (a : ℕ) : Registration := ⟨i, some .adminActive, some a⟩

theorem adminSeat_ne (i a : ℕ) : adminSeat i a ≠ {} :=
  Registration.ne_of_handler rfl

theorem sessionless_of_seated {i a : ℕ} {reg : Registration}
    (h : reg = adminSeat i a) : reg.Sessionless := by
  rw [h]
  exact Registration.sessionless_of_handler rfl (by decide)

/-- The administrators in the list are those that are registered, each with one
slot of its own. -/
structure Tended (x : Running) (ads : List ℕ) : Prop where
  integral : x.server.admins.Integral ads
  heap : ∀ a, x.server.admins.heap a ≠ none ↔ a ∈ ads
  slot : ∀ i, (x.slots i).handler = some .adminActive →
    ∃ a ∈ ads, x.slots i = adminSeat i a
  seated : ∀ a ∈ ads, ∃ i, x.slots i = adminSeat i a
  apart : ∀ i j a, x.slots i = adminSeat i a → x.slots j = adminSeat j a → i = j
  allocated : ∀ a ∈ ads, a ∈ x.allocated

/-- What a step does to the administrators, and to the slots that are not of
sessions. -/
inductive Tends (x y : Running) : Prop
  | same : (∀ i, (x.slots i).Sessionless ∨ (y.slots i).Sessionless →
        y.slots i = x.slots i) →
      y.server.admins = x.server.admins → Tends x y
  | joins {n a fuel : ℕ} {fd : ℤ} {p : Option ℕ} : x.slots n = {} →
      y.slots = Function.update x.slots n (adminSeat n a) → a ∉ x.allocated →
      a ∈ y.allocated →
      newAdmin fuel fd (some a) x.server.admins = .ok (p, y.server.admins) →
      Tends x y
  | leaves {i a fuel : ℕ} : x.slots i = adminSeat i a →
      y.slots = Function.update x.slots i {} →
      removeAdmin fuel a x.server.admins = .ok y.server.admins → Tends x y

theorem Tends.of_same (hslots : y.slots = x.slots)
    (hadmins : y.server.admins = x.server.admins) : x.Tends y :=
  .same (fun i _ => by rw [hslots]) hadmins

theorem adminSeat_inj {i j a b : ℕ} (h : adminSeat i a = adminSeat j b) :
    i = j ∧ a = b := by
  unfold adminSeat at h
  simp only [Registration.mk.injEq, Option.some.injEq, Int.natCast_inj] at h
  exact ⟨h.1, h.2.2⟩

/-- How the list changes: one administrator joins it at its end, or its last one
leaves it. -/
inductive ListMoves (ads ys : List ℕ) : Prop
  | same : ys = ads → ListMoves ads ys
  | joins {a : ℕ} : a ∉ ads → ys = ads ++ [a] → ListMoves ads ys
  | leaves {a : ℕ} : ads = ys ++ [a] → ListMoves ads ys

namespace Tended

variable {ads : List ℕ}

theorem of_same (hx : x.Tended ads)
    (hslots : ∀ i, (x.slots i).Sessionless ∨ (y.slots i).Sessionless →
      y.slots i = x.slots i)
    (hadmins : y.server.admins = x.server.admins)
    (hallocated : ∀ a ∈ x.allocated, a ∈ y.allocated) : y.Tended ads where
  integral := hadmins ▸ hx.integral
  heap := hadmins ▸ hx.heap
  slot := by
    intro i hi
    have hsame := hslots i
      (.inr (Registration.sessionless_of_handler hi (by decide)))
    rw [hsame] at hi ⊢
    exact hx.slot i hi
  seated := by
    intro a ha
    obtain ⟨i, hi⟩ := hx.seated a ha
    exact ⟨i, (hslots i (.inl (sessionless_of_seated hi))).trans hi⟩
  apart := by
    intro i j a hi hj
    rw [hslots i (.inr (sessionless_of_seated hi))] at hi
    rw [hslots j (.inr (sessionless_of_seated hj))] at hj
    exact hx.apart i j a hi hj
  allocated := fun a ha => hallocated a (hx.allocated a ha)

/-- An administrator arrives. -/
theorem concat (hx : x.Tended ads) {n a fuel : ℕ} {fd : ℤ} {p : Option ℕ}
    (hempty : x.slots n = {})
    (hslots : y.slots = Function.update x.slots n (adminSeat n a))
    (hnot : a ∉ ads)
    (hnew : newAdmin fuel fd (some a) x.server.admins = .ok (p, y.server.admins))
    (hmem : a ∈ y.allocated) (hallocated : ∀ a ∈ x.allocated, a ∈ y.allocated) :
    y.Tended (ads ++ [a]) := by
  have hfresh : x.server.admins.heap a = none :=
    not_ne_iff.mp ((hx.heap a).not.mpr hnot)
  have hself : y.slots n = adminSeat n a := by
    rw [hslots, Function.update_self]
  have hold {i : ℕ} (hi : i ≠ n) : y.slots i = x.slots i := by
    rw [hslots, Function.update_of_ne hi]
  -- An administrator's slot is the new one, or an old one.
  have hcases {i b : ℕ} (hi : y.slots i = adminSeat i b) :
      i = n ∧ b = a ∨ x.slots i = adminSeat i b ∧ b ∈ ads := by
    by_cases hin : i = n
    · subst hin
      exact .inl ⟨rfl, (adminSeat_inj (hi.symm.trans hself)).2⟩
    · rw [hold hin] at hi
      obtain ⟨c, hc, hslot⟩ := hx.slot i (by rw [hi]; rfl)
      obtain rfl := (adminSeat_inj (hi.symm.trans hslot)).2
      exact .inr ⟨hi, hc⟩
  refine ⟨(newAdmin_integral hnew hx.integral hfresh).2, fun c => ?_, fun i hi => ?_,
    fun b hb => ?_, fun i j b hi hj => ?_, fun b hb => ?_⟩
  · rw [newAdmin_heap hnew, hx.heap]
    simp [or_comm]
  · by_cases hin : i = n
    · subst hin
      exact ⟨a, by simp, hself⟩
    · rw [hold hin] at hi ⊢
      obtain ⟨b, hb, hslot⟩ := hx.slot i hi
      exact ⟨b, List.mem_append_left _ hb, hslot⟩
  · rcases List.mem_append.mp hb with hb | hb
    · obtain ⟨i, hi⟩ := hx.seated b hb
      have hin : i ≠ n := by
        rintro rfl
        exact adminSeat_ne i b (hi.symm.trans hempty)
      exact ⟨i, (hold hin).trans hi⟩
    · rw [List.mem_singleton.mp hb]
      exact ⟨n, hself⟩
  · rcases hcases hi with ⟨rfl, hba⟩ | ⟨hi, hb⟩ <;>
      rcases hcases hj with ⟨rfl, hba'⟩ | ⟨hj, hb'⟩
    · rfl
    · exact absurd (hba ▸ hb') hnot
    · exact absurd (hba' ▸ hb) hnot
    · exact hx.apart i j b hi hj
  · rcases List.mem_append.mp hb with hb | hb
    · exact hallocated b (hx.allocated b hb)
    · rw [List.mem_singleton.mp hb]
      exact hmem

/-- An administrator leaves. -/
theorem dropLast {ys : List ℕ} {i a : ℕ} (hx : x.Tended (ys ++ [a]))
    (hi : x.slots i = adminSeat i a)
    (hslots : y.slots = Function.update x.slots i {})
    (hintegral : y.server.admins.Integral ys)
    (hheap : ∀ c, y.server.admins.heap c ≠ none ↔
      c ≠ a ∧ x.server.admins.heap c ≠ none)
    (hallocated : ∀ a ∈ x.allocated, a ∈ y.allocated) : y.Tended ys := by
  have hnot : a ∉ ys := fun hmem => List.disjoint_of_nodup_append
    hx.integral.nodup hmem (List.mem_singleton_self a)
  have hold {j : ℕ} (hj : (y.slots j).handler = some .adminActive) :
      j ≠ i ∧ y.slots j = x.slots j := by
    have hji : j ≠ i := by
      rintro rfl
      rw [hslots, Function.update_self] at hj
      cases hj
    exact ⟨hji, by rw [hslots, Function.update_of_ne hji]⟩
  refine ⟨hintegral, fun c => ?_, fun j hj => ?_, fun c hc => ?_,
    fun j k c hj hk => ?_,
    fun c hc => hallocated c (hx.allocated c (List.mem_append_left _ hc))⟩
  · rw [hheap, hx.heap, List.mem_append, List.mem_singleton]
    constructor
    · rintro ⟨hca, hc | hc⟩
      · exact hc
      · exact absurd hc hca
    · intro hc
      exact ⟨fun heq => hnot (heq ▸ hc), .inl hc⟩
  · obtain ⟨hji, hsame⟩ := hold hj
    rw [hsame] at hj ⊢
    obtain ⟨c, hc, hslot⟩ := hx.slot j hj
    refine ⟨c, ?_, hslot⟩
    rcases List.mem_append.mp hc with hc | hc
    · exact hc
    · obtain rfl := List.mem_singleton.mp hc
      exact absurd (hx.apart j i c hslot hi) hji
  · obtain ⟨j, hj⟩ := hx.seated c (List.mem_append_left _ hc)
    have hji : j ≠ i := by
      rintro rfl
      obtain rfl := (adminSeat_inj (hj.symm.trans hi)).2
      exact hnot hc
    exact ⟨j, by rw [hslots, Function.update_of_ne hji, hj]⟩
  · rw [(hold (by rw [hj]; rfl)).2] at hj
    rw [(hold (by rw [hk]; rfl)).2] at hk
    exact hx.apart j k c hj hk

theorem tends (hx : x.Tended ads) (h : x.Tends y)
    (hallocated : ∀ a ∈ x.allocated, a ∈ y.allocated) :
    ∃ ys, y.Tended ys ∧ ListMoves ads ys := by
  cases h with
  | same hslots hadmins => exact ⟨ads, hx.of_same hslots hadmins hallocated, .same rfl⟩
  | @joins n a fuel fd p hempty hslots hnot hmem hnew =>
      have ha : a ∉ ads := fun h => hnot (hx.allocated a h)
      exact ⟨_, hx.concat hempty hslots ha hnew hmem hallocated, .joins ha rfl⟩
  | @leaves i a fuel hi hslots hremove =>
      obtain ⟨b, hb, hseat⟩ := hx.slot i (by rw [hi]; rfl)
      obtain rfl := (adminSeat_inj (hi.symm.trans hseat)).2
      obtain ⟨ys, rfl, hintegral⟩ := hx.integral.last_of_removed hb hremove
      exact ⟨ys, hx.dropLast hi hslots hintegral (removeAdmin_heap hremove)
        hallocated, .leaves rfl⟩

end Tended

/-! ## Callbacks -/

/-- The callback of a session leaves the administrators alone. -/
theorem Attended.tends (hx : x.Wired) {a : ℕ} {session : Session} {stm : Machine}
    (h : x.Attached a session stm) {c : Config} {l : SessionList}
    (hc : x.Attended a session c l) : x.Tends (x.afterSession a c.world l) := by
  have hsessions {i b : ℕ} {fd : ℤ} (hi : (x.slots i).Sessionless)
      (hslot : x.slots i = {} ∨ x.slots i = seat fd b) : False := by
    rcases hslot with hslot | hslot
    · exact hi.ne hslot
    · rw [hslot] at hi
      exact hi.2 rfl
  have hopened {i : ℕ} (hi : (x.slots i).Sessionless) : (i : ℤ) ∈ x.opened :=
    hx.opened i hi.ne
  cases hc with
  | goesOn hw _ _ =>
      refine .same (fun i hi => ?_) rfl
      rcases hi with hi | hi
      · exact hw.old i (hopened hi)
      · rcases hw.slot_cases hi.ne with ⟨-, hold⟩ | ⟨-, -, -, hnew⟩
        · exact hold
        · have hi : (c.world.selector.registration i).Sessionless := hi
          rw [hnew] at hi
          exact absurd rfl hi.2
  | @ends w _ hw hend _ =>
      refine .same (fun i hi => ?_) rfl
      rcases hi with hi | hi
      · have hclient : (i : ℤ) ≠ w.session.clientFd := by
          intro heq
          have hslot := h.client
          rw [← hw.clientFd, ← heq, Int.toNat_natCast] at hslot
          exact hsessions hi (.inr hslot)
        have horigin : (i : ℤ) ≠ w.session.originFd := by
          intro heq
          rcases hw.origin with hsame | hnone | hmem
          · rcases h.origin with hneg | ⟨-, -, hslot⟩
            · omega
            · rw [← hsame, ← heq, Int.toNat_natCast] at hslot
              exact hsessions hi hslot
          · omega
          · exact (hw.opened _ (heq ▸ hmem)).2 (hopened hi)
        obtain ⟨hpos, hnonneg⟩ := hw.nonneg h hend
        change c.world.selector.registration i = _
        rw [hend.slots, cleared_of_ne horigin hnonneg,
          cleared_of_ne hclient (.inr hpos)]
        exact hw.old i (hopened hi)
      · exact (hw.spared h hend hi.ne).2.1

theorem Admits.tends (hx : x.Wired) {sys : AcceptSys} {srv : Server}
    (hsys : x.Grants sys) (hadmins : srv.admins = x.server.admins)
    (h : x.Admits sys (x.afterAccept sys srv)) :
    x.Tends (x.afterAccept sys srv) := by
  cases h with
  | refuses hslots _ _ _ _ | strays _ _ hslots _ _ _ _ => exact .of_same hslots hadmins
  | @admits a n haccept _ _ hslots _ _ _ _ _ =>
      refine .same (fun i hi => ?_) hadmins
      rw [hslots] at hi ⊢
      by_cases hin : i = n
      · subst hin
        rw [hx.slot_eq_empty (hsys.accept i haccept), Function.update_self] at hi
        rcases hi with hi | hi
        · exact absurd rfl hi.1
        · exact absurd rfl hi.2
      · rw [Function.update_of_ne hin]

end Running

theorem socksv5PassiveAccept_admins {fuel : ℕ} {sys : AcceptSys} {key : SelectorKey}
    {srv srv' : Server} (hkey : key.data = none)
    (h : socksv5PassiveAccept fuel sys key srv = .ok srv') :
    srv'.admins = srv.admins := by
  have hfinally {clientSock socksv5 : Option ℕ} {srv : Server}
      (h : socksv5AcceptFinally key clientSock socksv5 srv = .ok srv') :
      srv'.admins = srv.admins := by
    unfold socksv5AcceptFinally at h
    rw [hkey] at h
    cases clientSock <;> cases socksv5 <;> cases h <;> rfl
  unfold socksv5PassiveAccept at h
  split at h
  · cases haccept : sys.accept with
    | none =>
        rw [haccept] at h
        exact hfinally h
    | some n =>
        simp only [haccept] at h
        split at h
        · exact hfinally h
        · obtain ⟨⟨socksv5, l⟩, -, h⟩ := bind_eq_ok.mp h
          dsimp only at h
          split at h
          · exact (hfinally h).trans rfl
          · obtain ⟨⟨ret, s⟩, -, h⟩ := bind_eq_ok.mp h
            dsimp only at h
            split at h
            · exact (hfinally h).trans rfl
            · cases h
              rfl
  · cases h
    rfl

namespace Running

variable {x y : Running}

theorem Grants.tends (hx : x.Wired) {sys : AcceptSys} (hsys : x.Grants sys)
    {fuel : ℕ} {key : SelectorKey} {srv : Server} (hkey : key.data = none)
    (h : adminPassiveAccept fuel sys key x.server = .ok srv) :
    x.Tends (x.afterAdminAccept sys srv) := by
  unfold adminPassiveAccept at h
  cases haccept : sys.accept with
  | none =>
      simp only [haccept] at h
      cases h
      exact .of_same rfl rfl
  | some n =>
      simp only [haccept] at h
      by_cases hnio : sys.nio = false
      · rw [if_pos hnio] at h
        cases h
        exact .of_same rfl rfl
      · rw [if_neg hnio] at h
        obtain ⟨⟨ad, l⟩, hnew, h⟩ := bind_eq_ok.mp h
        obtain rfl := newAdmin_address hnew
        cases haddress : sys.address with
        | none =>
            rw [haddress] at h hnew
            rw [if_pos rfl] at h
            cases hnew
            cases h
            exact .of_same rfl rfl
        | some a =>
            rw [haddress] at h hnew
            rw [if_neg (by simp)] at h
            obtain ⟨⟨ret, s⟩, hregister, h⟩ := bind_eq_ok.mp h
            dsimp only at h
            rcases selectorRegister_registration hx.slotted hregister with
              ⟨hret, -, -⟩ | ⟨rfl, -, -, -, -, hslots⟩
            · rw [if_pos hret] at h
              simp only [adminAcceptFinally, ne_eq, reduceCtorEq,
                not_false_eq_true, if_true] at h
              exact absurd h (destroyAdmin_ne_ok hkey)
            · rw [if_neg (by simp)] at h
              cases h
              refine .joins (hx.slot_eq_empty (hsys.accept n haccept)) hslots
                (hsys.address a haddress) ?_ hnew
              exact List.mem_append_left _ (by rw [haddress]; simp)

theorem Hosts.tends {r : Ready} {key : SelectorKey} {sys : AdminSys}
    {c c' : AdminConfig} (hc : x.Hosts key c)
    (hdispatch : adminDispatch r sys c = .ok c')
    (hlive : c'.world.destroyed = false) :
    x.Tends (x.after { x.server with
      selector := c'.world.selector
      metrics := c'.world.globals.metrics } []) := by
  rcases adminDispatch_quiet hdispatch with h | h
  · exact .of_same
      (h.registration.trans (congrArg FdSelector.registration hc.selector)) rfl
  · rw [h.destroyed] at hlive
    cases hlive

theorem Hosts.tends_of_ended {r : Ready} {key : SelectorKey} {sys : AdminSys}
    {c c' : AdminConfig} {i a fuel : ℕ} {l : AdminList} (hc : x.Hosts key c)
    (hdispatch : adminDispatch r sys c = .ok c')
    (hended : c'.world.destroyed = true) (hfd : key.fd = i)
    (hi : x.slots i = adminSeat i a)
    (hremove : removeAdmin fuel a x.server.admins = .ok l) :
    x.Tends (x.after { x.server with
      selector := c'.world.selector
      admins := l
      metrics := c'.world.globals.metrics
      closed := x.server.closed ++ [key.fd] } []) := by
  rcases adminDispatch_quiet hdispatch with h | h
  · rw [h.destroyed, hc.live] at hended
    cases hended
  · refine .leaves hi ?_ hremove
    have hslots := h.registration
    rw [hc.selector, hc.fd, hfd, Int.toNat_natCast] at hslots
    exact hslots

/-- A callback that is called with what its slot carries. -/
theorem Calls.tends (hx : x.Wired) {handler : FdHandler} {r : Ready}
    {key : SelectorKey} {i : ℕ} (hfd : key.fd = i)
    (hslot : x.slots i = ⟨i, some handler, key.data⟩)
    (h : x.Calls handler r key y) : x.Tends y := by
  have hhandler : (x.slots i).handler = some handler :=
    congrArg Registration.handler hslot
  have hdata : (x.slots i).data = key.data := congrArg Registration.data hslot
  cases h with
  | session ha hnode hfresh hdispatch hl =>
      obtain ⟨b, session, stm, hb, hbody, hattached, howns⟩ := hx.attached hslot
      rw [ha] at hb
      cases hb
      cases hbody.symm.trans (SessionList.body_of_heap hnode)
      rw [hfd] at hdispatch
      exact (hattached.attended hx hslot howns hfresh hdispatch hl).tends hx
        hattached
  | accept hgrants haccept =>
      have hkey : key.data = none := hdata ▸ hx.passive i (.inl hhandler)
      exact (hgrants.admits hx hkey haccept).1.tends hx hgrants
        (socksv5PassiveAccept_admins hkey haccept)
  | adminAccept hgrants haccept =>
      have hkey : key.data = none := hdata ▸ hx.passive i (.inr hhandler)
      exact hgrants.tends hx hkey haccept
  | admin hhosts hdispatch hlive => exact hhosts.tends hdispatch hlive
  | adminEnds hhosts hdispatch hended had hremove =>
      rw [had] at hslot
      exact hhosts.tends_of_ended hdispatch hended hfd hslot hremove

theorem taken_admins (x : Running) : x.taken.server.admins = x.server.admins := by
  unfold taken
  split <;> rfl

theorem taken_allocated (x : Running) : x.taken.allocated = x.allocated := by
  unfold taken
  split <;> rfl

/-- What is taken from the queue, and where the loop goes on, does not concern
the administrators. -/
theorem Tends.of_taken (h : x.taken.Tends y) (point : LoopPoint) :
    x.Tends { y with point := point } := by
  cases h with
  | same hslots hadmins =>
      rw [taken_slots] at hslots
      exact .same hslots (hadmins.trans x.taken_admins)
  | joins hempty hslots hnot hmem hnew =>
      rw [taken_slots] at hempty hslots
      rw [taken_allocated] at hnot
      rw [taken_admins] at hnew
      exact .joins hempty hslots hnot hmem hnew
  | leaves hi hslots hremove =>
      rw [taken_slots] at hi hslots
      rw [taken_admins] at hremove
      exact .leaves hi hslots hremove

theorem Step.tends (hx : x.Serving) {e : LoopEvent} (h : Step x e y) :
    x.Tends y := by
  cases h with
  | calls hdue _ hcall =>
      obtain ⟨i, hfd, hslot⟩ := hx.due_key hdue
      rw [← x.taken_slots] at hslot
      exact (hcall.tends hx.wired.taken_advances.wired hfd hslot).of_taken x.next
  | passes => exact .of_same x.taken_slots x.taken_admins
  | @notifies fd alloc =>
      refine .of_same ?_ rfl
      cases alloc <;> rfl
  | selects | interrupted | starts | finds => exact .of_same rfl rfl

theorem Starts.tended (hx : x.Starts) : x.Tended [] := by
  obtain ⟨srv, opened, ⟨fd1, fd2, fd3, fd4, s, hs, rfl⟩, -, rfl⟩ := hx
  have hlistening := registerAllFds_listening hs
  have hnone (i : ℕ) : (s.registration i).handler ≠ some .adminActive := by
    intro hi
    rcases hlistening.slots i with hempty | ⟨-, handler, hhandler, hslot⟩
    · rw [hempty] at hi
      cases hi
    · rw [hslot] at hi
      rcases hhandler with rfl | rfl <;> cases hi
  refine ⟨AdminList.integral_empty, fun a => ?_, fun i hi => absurd hi (hnone i),
    nofun, fun i j a hi _ => ?_, nofun⟩
  · simp
  · exact absurd (congrArg Registration.handler hi) (hnone i)

/-- A whole run of the server. -/
theorem Tended.run {x₀ x : Running} {tr : List (Running × LoopEvent)}
    (h₀ : x₀.Starts) (hrun : Run Step x₀ tr x) : ∃ ads, x.Tended ads := by
  induction hrun with
  | nil => exact ⟨[], h₀.tended⟩
  | snoc hrun hstep ih =>
      obtain ⟨ads, hads⟩ := ih
      have hserving := Serving.run h₀ hrun
      obtain ⟨ys, hys, -⟩ := hads.tends (hstep.tends hserving)
        (hserving.step hstep).1.allocated
      exact ⟨ys, hys⟩

theorem Tended.mem_iff {ads : List ℕ} (hx : x.Tended ads) (hwired : x.Wired)
    (a : ℕ) : a ∈ ads ↔ ∃ i, (x.item i).used = true ∧
      (x.item i).handler = some .adminActive ∧ (x.item i).data = some a := by
  constructor
  · intro ha
    obtain ⟨i, hi⟩ := hx.seated a ha
    refine ⟨i, (hwired.used_iff i).mpr (hi ▸ adminSeat_ne i a), ?_, ?_⟩
    · exact congrArg Registration.handler hi
    · exact congrArg Registration.data hi
  · rintro ⟨i, -, hhandler, hdata⟩
    obtain ⟨b, hb, hi⟩ := hx.slot i hhandler
    have hdata' : (x.item i).data = some b := congrArg Registration.data hi
    cases hdata.symm.trans hdata'
    exact hb

/-- In every run of the main loop the list of administrators consists of those
that are allocated, which are those that the slots with the callbacks of
administrators carry, so that every such callback is called for an administrator
in the list.  A step of a server that goes on adds an administrator at the end of
the list, or takes the last one away. -/
theorem administrators_tended {x₀ x : Running} {tr : List (Running × LoopEvent)}
    (h₀ : x₀.Starts) (hrun : Run Step x₀ tr x) :
    ∃ ads : List ℕ, ads.Nodup ∧ x.server.admins.Lists ads ∧
      (∀ a, x.server.admins.heap a ≠ none ↔ a ∈ ads) ∧
      (∀ a, a ∈ ads ↔ ∃ i, (x.item i).used = true ∧
        (x.item i).handler = some .adminActive ∧ (x.item i).data = some a) ∧
      (∀ r key, x.due = some (r, some .adminActive, key) →
        ∃ a ∈ ads, key.data = some a) ∧
      ∀ e y, Step x e y →
        ∃ ys, y.server.admins.Lists ys ∧ ListMoves ads ys := by
  obtain ⟨ads, hads⟩ := Tended.run h₀ hrun
  have hserving := Serving.run h₀ hrun
  refine ⟨ads, hads.integral.nodup, hads.integral.segment, hads.heap,
    hads.mem_iff hserving.wired, fun r key hdue => ?_, fun e y hstep => ?_⟩
  · obtain ⟨i, -, hslot⟩ := hserving.due_key hdue
    obtain ⟨a, ha, hi⟩ := hads.slot i (congrArg Registration.handler hslot)
    exact ⟨a, ha, congrArg Registration.data (hslot.symm.trans hi)⟩
  · obtain ⟨ys, hys, hmoves⟩ := hads.tends (hstep.tends hserving)
      (hserving.step hstep).1.allocated
    exact ⟨ys, hys.integral.segment, hmoves⟩

/-- `admin_passive_accept` is called, if it is due. -/
def acceptAdministrator (x : Running) (sys : AcceptSys) :
    Option (LoopEvent × Running) :=
  match x.due with
  | some (.read, some .adminPassive, key) =>
      if (∀ n, sys.accept = some n → (n : ℤ) ∉ x.taken.opened) ∧
          ∀ a, sys.address = some a → a ∉ x.taken.allocated then
        (adminPassiveAccept 8 sys key x.taken.server).toOption.map
          fun srv => (.calls .adminPassive .read key,
            { x.taken.afterAdminAccept sys srv with point := x.next })
      else none
  | _ => none

theorem acceptAdministrator_step {sys : AcceptSys} {e : LoopEvent}
    (h : x.acceptAdministrator sys = some (e, y)) : Step x e y := by
  unfold acceptAdministrator at h
  split at h
  · rename_i key hdue
    split at h
    · rename_i hgrants
      obtain ⟨srv, hsrv, heq⟩ := Option.map_eq_some_iff.mp h
      cases heq
      exact .calls hdue rfl
        (.adminAccept ⟨hgrants.1, hgrants.2⟩ (toOption_eq_some.mp hsrv))
    · cases h
  · cases h

/-- A move of the loop, or an administrator that is accepted. -/
def performAdmitting (x : Running) : Move ⊕ AcceptSys → Option (LoopEvent × Running)
  | .inl m => m.perform x
  | .inr sys => x.acceptAdministrator sys

/-- The listening sockets are 3 and 4; an administrator is accepted at 5, and the
loop gets to it when it has been reported ready to be read. -/
def admitsAdministrator : List (Move ⊕ AcceptSys) :=
  ([.selects [4], .passes, .passes, .passes, .passes, .passes] : List Move).map .inl ++
    .inr ⟨some 5, true, some 0, true⟩ ::
    ([.passes, .passes, .passes, .selects [5], .passes, .passes, .passes, .passes,
      .passes, .passes, .passes] : List Move).map .inl

/-- The administrator that has been accepted is in the list when its callback is
called. -/
theorem administrators_tended_of_accepted : ∃ x₀ x : Running, x₀.Starts ∧
    (∃ tr, Run Step x₀ tr x) ∧
    x.due = some (.read, some .adminActive, ⟨5, some 0⟩) ∧
    ∃ ads, x.server.admins.Lists ads ∧ 0 ∈ ads := by
  have hplay : (registerAllFds 3 (-1) 4 (-1) (selectorNew 1024)).toOption.any
      (fun r => r.1 && (moves performAdmitting
        { server := { selector := r.2 }, opened := [3, 4] } admitsAdministrator).any
          fun x => decide (x.due = some (.read, some .adminActive, ⟨5, some 0⟩))) =
      true := by
    decide +kernel
  obtain ⟨⟨ok, s⟩, hs, hplay⟩ := (Option.any_eq_true _ _).mp hplay
  have hs := toOption_eq_some.mp hs
  rw [Bool.and_eq_true] at hplay
  obtain ⟨rfl, hplay⟩ := hplay
  obtain ⟨x, hx, hdue⟩ := (Option.any_eq_true _ _).mp hplay
  rw [decide_eq_true_eq] at hdue
  have hstep (x : Running) (m : Move ⊕ AcceptSys) (e : LoopEvent) (y : Running)
      (h : x.performAdmitting m = some (e, y)) : Step x e y := by
    cases m with
    | inl m => exact Move.perform_step x m e y h
    | inr sys => exact acceptAdministrator_step h
  obtain ⟨tr, hrun⟩ := Run.of_moves hstep hx
  have h₀ := starts_of_sockets hs
  obtain ⟨ads, -, hlists, -, -, hcallbacks, -⟩ := administrators_tended h₀ hrun
  obtain ⟨a, ha, hdata⟩ := hcallbacks _ _ hdue
  cases hdata
  exact ⟨_, x, h₀, ⟨tr, hrun⟩, hdue, ads, hlists, ha⟩

end Running

end Socksv5
