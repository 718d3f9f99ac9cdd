import Socksv5.Server.Administrators

/-!
# The end of the server

From `finally` on, `main` destroys the sessions and frees the administrators
that are in their lists, and then destroys the selector, which unregisters what
is still registered.  No session and no administrator is told: their slots carry
pointers to them until the selector is destroyed.
-/

namespace Socksv5

open Support

/-! ## Freeing the administrators -/

/-- The loop of `free_all_admins`, with the administrators that it frees. -/
def freeAdminsLoop : ℕ → Option ℕ → AdminList → Except Fault (List ℕ × AdminList)
  | _, none, l => .ok ([], l)
  | 0, some _, _ => .error .diverges
  | fuel + 1, some aux, l => do
      let node ← l.deref (some aux)
      let l := l.free aux
      let (freed, l) ← freeAdminsLoop fuel node.next l
      .ok (aux :: freed, l)

/-- `free_all_admins` -/
def freeAllAdmins (fuel : ℕ) (l : AdminList) : Except Fault (List ℕ × AdminList) :=
  freeAdminsLoop fuel l.first l

/-- The loop of `selector_destroy` over the slots, with the descriptors that it
unregisters. -/
def unregisterItems : List ℕ → FdSelector → Except Fault (List ℤ × FdSelector)
  | [], s => .ok ([], s)
  | i :: is, s =>
      if (s.fds i).used then do
        let (ret, s) ← selectorUnregisterFd s i
        let (fds, s) ← unregisterItems is s
        .ok (if ret = .success then (i : ℤ) :: fds else fds, s)
      else unregisterItems is s

/-- `selector_destroy` -/
def selectorDestroy (s : FdSelector) : Except Fault (List ℤ × FdSelector) := do
  let (fds, s) ← unregisterItems (List.range s.fdSize) s
  .ok (fds, { s with fds := fun _ => {}, fdSize := 0, resolutionJobs := [] })

namespace FdSelector

variable {s : FdSelector}

end FdSelector

/-! ## The list of sessions of a running server -/

namespace SessionList

variable {l l' : SessionList} {xs : List ℕ}

theorem lastSocksv5_mono {fuel fuel' p b : ℕ} (h : lastSocksv5 l fuel p = .ok b)
    (hle : fuel ≤ fuel') : lastSocksv5 l fuel' p = .ok b := by
  induction fuel generalizing fuel' p with
  | zero => cases h
  | succ fuel ih =>
      obtain ⟨fuel', rfl⟩ := Nat.exists_eq_add_of_lt hle
      obtain ⟨node, hnode, h⟩ := bind_eq_ok.mp h
      rw [lastSocksv5, hnode, ok_bind]
      cases hnext : node.next with
      | none =>
          rw [hnext] at h
          exact h
      | some next =>
          rw [hnext] at h
          exact ih h (Nat.le_add_right ..)

theorem newSocksv5_mono {fuel fuel' : ℕ} {clientFd : ℤ} {address : Option ℕ}
    {r : Option ℕ × SessionList}
    (h : l.newSocksv5 fuel clientFd address = .ok r) (hle : fuel ≤ fuel') :
    l.newSocksv5 fuel' clientFd address = .ok r := by
  cases address with
  | none => exact h
  | some a =>
      cases hfirst : l.first with
      | none =>
          simp only [newSocksv5, hfirst] at h ⊢
          exact h
      | some first =>
          simp only [newSocksv5, hfirst] at h ⊢
          obtain ⟨aux, haux, h⟩ := bind_eq_ok.mp h
          rw [lastSocksv5_mono haux hle, ok_bind]
          exact h

/-- A session that `new_socksv5` has made is at the end. -/
theorem Integral.of_new (h : l.Integral xs) {fuel a : ℕ} {clientFd : ℤ}
    {p : Option ℕ} (ha : a ∉ xs)
    (hnew : l.newSocksv5 fuel clientFd (some a) = .ok (p, l')) :
    l'.Integral (xs ++ [a]) := by
  obtain ⟨l₁, hl₁, h₁⟩ :=
    h.exists_newSocksv5 ha (Nat.le_add_left xs.length fuel) clientFd
  cases hl₁.symm.trans (newSocksv5_mono hnew (Nat.le_add_right fuel xs.length))
  exact h₁

/-- Writing a session over changes no link. -/
theorem Integral.put (h : l.Integral xs) {a : ℕ} {old node : SessionNode}
    (hold : l.heap a = some old) (hnext : node.next = old.next)
    (hprev : node.prev = old.prev) : (l.put a node).Integral xs where
  linked := by
    apply h.linked.congr
    intro c node' hnode'
    by_cases hca : c = a
    · subst hca
      cases hold.symm.trans hnode'
      exact ⟨node, l.put_heap_self c node, hnext, hprev⟩
    · exact ⟨node', (l.put_heap_of_ne node hca).trans hnode', rfl, rfl⟩
  allocated := by
    intro c
    by_cases hca : c = a
    · subst hca
      rw [put_heap_self, ← h.allocated c, hold]
      simp
    · rw [put_heap_of_ne _ _ hca]
      exact h.allocated c

theorem Integral.setResolution (h : l.Integral xs) (a : ℕ)
    (addrs : List SockAddr) : (l.setResolution a addrs).Integral xs := by
  unfold SessionList.setResolution
  split
  · rename_i node hnode
    exact h.put hnode rfl rfl
  · exact h

/-- What a callback leaves of the list is a list. -/
theorem Integral.becomes (h : l.Integral xs) {a : ℕ} {node : SessionNode}
    {c : Config} (hnode : l.heap a = some node) (hl : l.Becomes a node c l') :
    ∃ ys, l'.Integral ys := by
  have hput : (l.put a { node with session := c.world.session, stm := c.stm
      }).Integral xs := h.put hnode rfl rfl
  unfold Becomes at hl
  dsimp only at hl
  split at hl
  · have ha : a ∈ xs := (h.allocated a).mp (by rw [hnode]; simp)
    obtain ⟨l₁, hl₁, h₁⟩ := hput.exists_erase ha
    cases hl₁.symm.trans hl
    exact ⟨_, h₁⟩
  · exact ⟨xs, hl ▸ hput⟩

end SessionList

/-- `socksv5_passive_accept` leaves the list as it is, or with one session more,
even where it fails after that. -/
theorem socksv5PassiveAccept_sessions {fuel : ℕ} {sys : AcceptSys}
    {key : SelectorKey} {srv srv' : Server} (hkey : key.data = none)
    (h : socksv5PassiveAccept fuel sys key srv = .ok srv') :
    srv'.sessions = srv.sessions ∨ ∃ (a : ℕ) (clientFd : ℤ) (p : Option ℕ),
      sys.address = some a ∧
        srv.sessions.newSocksv5 fuel clientFd (some a) = .ok (p, srv'.sessions) := by
  have hfinally {clientSock socksv5 : Option ℕ} {srv : Server}
      (h : socksv5AcceptFinally key clientSock socksv5 srv = .ok srv') :
      srv'.sessions = srv.sessions := by
    unfold socksv5AcceptFinally at h
    rw [hkey] at h
    cases clientSock <;> cases socksv5 <;> cases h <;> rfl
  unfold socksv5PassiveAccept at h
  split at h
  · cases haccept : sys.accept with
    | none =>
        rw [haccept] at h
        exact .inl (hfinally h)
    | some n =>
        simp only [haccept] at h
        split at h
        · exact .inl (hfinally h)
        · obtain ⟨⟨socksv5, l⟩, hnew, h⟩ := bind_eq_ok.mp h
          dsimp only at h
          have hl : srv'.sessions = l := by
            split at h
            · exact hfinally h
            · obtain ⟨⟨ret, s⟩, -, h⟩ := bind_eq_ok.mp h
              dsimp only at h
              split at h
              · exact hfinally h
              · cases h
                rfl
          subst hl
          cases haddress : sys.address with
          | none =>
              rw [haddress] at hnew
              exact .inl (Prod.mk.inj (Except.ok.inj hnew)).2.symm
          | some a =>
              rw [haddress] at hnew
              exact .inr ⟨a, n, socksv5, rfl, hnew⟩
  · cases h
    exact .inl rfl

theorem adminPassiveAccept_sessions {fuel : ℕ} {sys : AcceptSys}
    {key : SelectorKey} {srv srv' : Server} (hkey : key.data = none)
    (h : adminPassiveAccept fuel sys key srv = .ok srv') :
    srv'.sessions = srv.sessions := by
  unfold adminPassiveAccept at h
  cases haccept : sys.accept with
  | none =>
      simp only [haccept] at h
      cases h
      rfl
  | some n =>
      simp only [haccept] at h
      split at h
      · cases h
        rfl
      · obtain ⟨⟨ad, l⟩, -, h⟩ := bind_eq_ok.mp h
        dsimp only at h
        split at h
        · cases h
          rfl
        · rename_i had
          obtain ⟨⟨ret, s⟩, -, h⟩ := bind_eq_ok.mp h
          dsimp only at h
          split at h
          · rw [adminAcceptFinally, if_pos had] at h
            exact absurd h (destroyAdmin_ne_ok hkey)
          · cases h
            rfl

namespace Running

variable {x y : Running}

/-- The sessions in the list are those that are allocated. -/
def Pooled (x : Running) : Prop := ∃ xs, x.server.sessions.Integral xs

theorem taken_sessions (x : Running) :
    x.taken.server.sessions = x.server.sessions := by
  unfold taken
  split <;> rfl

theorem Calls.pooled (hx : x.Wired) (hpool : x.Pooled) {handler : FdHandler}
    {r : Ready} {key : SelectorKey} {i : ℕ}
    (hslot : x.slots i = ⟨i, some handler, key.data⟩)
    (h : x.Calls handler r key y) : y.Pooled := by
  have hdata : (x.slots i).data = key.data := congrArg Registration.data hslot
  have hhandler : (x.slots i).handler = some handler :=
    congrArg Registration.handler hslot
  obtain ⟨xs, hxs⟩ := hpool
  cases h with
  | session ha hnode hfresh hdispatch hl => exact hxs.becomes hnode hl
  | @accept _ sys fuel srv hgrants haccept =>
      have hkey : key.data = none := hdata ▸ hx.passive i (.inl hhandler)
      rcases socksv5PassiveAccept_sessions hkey haccept with
        hsame | ⟨a, clientFd, p, ha, hnew⟩
      · refine ⟨xs, ?_⟩
        change srv.sessions.Integral xs
        rw [hsame]
        exact hxs
      · have hnot : a ∉ xs := by
          intro hmem
          apply hgrants.address a ha
          obtain ⟨node, hnode⟩ := hxs.linked.exists_node hmem
          have hbody : x.body a = _ := SessionList.body_of_heap hnode
          exact hx.allocated a (.inl (by rw [hbody]; simp))
        exact ⟨_, hxs.of_new hnot hnew⟩
  | @adminAccept _ sys fuel srv hgrants haccept =>
      have hkey : key.data = none := hdata ▸ hx.passive i (.inr hhandler)
      refine ⟨xs, ?_⟩
      change srv.sessions.Integral xs
      rw [adminPassiveAccept_sessions hkey haccept]
      exact hxs
  | admin | adminEnds => exact ⟨xs, hxs⟩

theorem Step.pooled (hx : x.Serving) (hpool : x.Pooled) {e : LoopEvent}
    (h : Step x e y) : y.Pooled := by
  have htaken : x.taken.Pooled := by
    unfold Pooled
    rw [taken_sessions]
    exact hpool
  obtain ⟨xs, hxs⟩ := hpool
  cases h with
  | selects | interrupted | notifies => exact ⟨xs, hxs⟩
  | calls hdue _ hcall =>
      obtain ⟨i, -, hslot⟩ := hx.due_key hdue
      rw [← x.taken_slots] at hslot
      obtain ⟨ys, hys⟩ := hcall.pooled hx.wired.taken_advances.wired htaken hslot
      exact ⟨ys, hys⟩
  | passes =>
      obtain ⟨ys, hys⟩ := htaken
      exact ⟨ys, hys⟩
  | starts => exact ⟨xs, hxs.setResolution _ _⟩
  | finds => exact ⟨xs, hxs.setResolution _ _⟩

/-- A whole run of the server. -/
theorem Pooled.run {x₀ x : Running} {tr : List (Running × LoopEvent)}
    (h₀ : x₀.Starts) (hrun : Run Step x₀ tr x) : x.Pooled := by
  induction hrun with
  | nil =>
      obtain ⟨srv, opened, ⟨fd1, fd2, fd3, fd4, s, -, rfl⟩, -, rfl⟩ := h₀
      exact ⟨[], SessionList.integral_empty⟩
  | snoc hrun hstep ih => exact hstep.pooled (Serving.run h₀ hrun) ih

end Running

/-! ## The end -/

/-- What the end of the server has freed and unregistered, and what is left. -/
structure Ending where
  sessions : List ℕ
  admins : List ℕ
  unregistered : List ℤ
  server : Server

/-- `main` from `finally` on; the sockets are those that it has made to listen at,
or -1. -/
def Server.mainFinally (fuel : ℕ) (sockets : List ℤ) (srv : Server) :
    Except Fault Ending := do
  let (destroyed, sessions) ← srv.sessions.destroySocksv5Pool fuel
  let (freed, admins) ← freeAllAdmins fuel srv.admins
  let (unregistered, selector) ← selectorDestroy srv.selector
  let srv := { srv with sessions := sessions, admins := admins, selector := selector }
  .ok ⟨destroyed, freed, unregistered,
    sockets.foldl (fun srv fd => if 0 ≤ fd then srv.close fd else srv) srv⟩

theorem Server.foldl_close (sockets : List ℤ) (srv : Server) :
    sockets.foldl (fun srv fd => if 0 ≤ fd then srv.close fd else srv) srv =
      { srv with closed := srv.closed ++ sockets.filter (0 ≤ ·) } := by
  induction sockets generalizing srv with
  | nil => simp
  | cons fd sockets ih =>
      rw [List.foldl_cons, ih]
      by_cases hfd : 0 ≤ fd
      · simp [hfd, Server.close]
      · simp [hfd]

end Socksv5
