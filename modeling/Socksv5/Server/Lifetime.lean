import Socksv5.Server.Descriptors
import Socksv5.Server.Shutdown

/-!
# The server from its start to its end

`main` makes up to four sockets to listen at, goes through its loop when the
selector accepts one for each service, and closes the sockets at the end.  A
socket that could be made but not bound counts as one to listen at: it is
registered like the others.  Before it makes any, it exits if its output cannot
be made non-blocking.
-/

namespace Socksv5

open Support FdSelector

/-! ## Starting -/

/-- `enum socket_errors` -/
inductive SocketError
  | socket
  | bind
  | listen
  | inetPton
  | selectorFdSetNio
  | setsockopt
  | noFail
deriving DecidableEq, Repr

/-- The results of the calls for one socket. -/
structure SocketSys where
  inetPton : Bool := true
  socket : Option ℕ := none
  v6only : Bool := true
  bind : Bool := true
  listen : Bool := true
  nio : Bool := true
deriving DecidableEq, Repr

/-- The four functions that make a socket to listen at, with what is in
`*ret_socket` afterwards; they differ in the option that is set for IPv6. -/
def createPassiveSocket (ipv6 : Bool) (sys : SocketSys) : SocketError × ℤ :=
  if !sys.inetPton then (.inetPton, -1)
  else
    match sys.socket with
    | none => (.socket, -1)
    | some n =>
        if ipv6 && !sys.v6only then (.setsockopt, n)
        else if !sys.bind then (.bind, n)
        else if !sys.listen then (.listen, n)
        else if !sys.nio then (.selectorFdSetNio, n)
        else (.noFail, n)

/-- `create_ipv4_passive_socket` -/
def createIpv4PassiveSocket : SocketSys → SocketError × ℤ :=
  createPassiveSocket false

/-- `create_ipv6_passive_socket` -/
def createIpv6PassiveSocket : SocketSys → SocketError × ℤ :=
  createPassiveSocket true

/-- `create_ipv4_manager_passive_socket` -/
def createIpv4ManagerPassiveSocket : SocketSys → SocketError × ℤ :=
  createPassiveSocket false

/-- `create_ipv6_manager_passive_socket` -/
def createIpv6ManagerPassiveSocket : SocketSys → SocketError × ℤ :=
  createPassiveSocket true

/-- The results of the calls that `main` makes before its loop; the first two are
those of `selector_fd_set_nio`. -/
structure LaunchSys where
  stdout : Bool := true
  stderr : Bool := true
  ipv4 : SocketSys := {}
  ipv6 : SocketSys := {}
  managerIpv4 : SocketSys := {}
  managerIpv6 : SocketSys := {}
  selectorInit : Bool := true
  selectorNew : Bool := true
deriving DecidableEq, Repr

/-- What `main` has when it gets to its loop, or to `finally` without it. -/
structure Launch where
  sockets : List ℤ
  selector : Option FdSelector := none
  serves : Bool := false

/-- `set_std_non_blocking` -/
def setStdNonBlocking (sys : LaunchSys) : Except Fault Unit :=
  if !sys.stdout then .error .exit
  else if !sys.stderr then .error .exit
  else .ok ()

/-- `main` from `set_std_non_blocking` up to its loop -/
def launch (sys : LaunchSys) : Except Fault Launch := do
  setStdNonBlocking sys
  let (error, ipv4) := createIpv4PassiveSocket sys.ipv4
  let onePassiveSocketFailed := error ≠ .noFail
  let (error, ipv6) := createIpv6PassiveSocket sys.ipv6
  if error ≠ .noFail ∧ onePassiveSocketFailed then
    .ok { sockets := [ipv4, ipv6, -1, -1] }
  else
    let (_, managerIpv4) := createIpv4ManagerPassiveSocket sys.managerIpv4
    let (_, managerIpv6) := createIpv6ManagerPassiveSocket sys.managerIpv6
    let sockets := [ipv4, ipv6, managerIpv4, managerIpv6]
    if !sys.selectorInit then .ok { sockets := sockets }
    else if !sys.selectorNew then .ok { sockets := sockets }
    else do
      let (ok, s) ←
        registerAllFds ipv4 ipv6 managerIpv4 managerIpv6 (Socksv5.selectorNew 1024)
      .ok { sockets := sockets, selector := some s, serves := ok }

/-! ## Registering the sockets -/

/-- The slots after a socket has been registered, if there is one. -/
def listening (slots : ℕ → Registration) (fd : ℤ) (handler : FdHandler) :
    ℕ → Registration :=
  if fd = -1 then slots
  else Function.update slots fd.toNat ⟨fd, some handler, none⟩

/-- A socket that has been made is registered when its slot is free. -/
theorem exists_registerListening {s : FdSelector} (hs : s.Slotted) {fd : ℤ}
    (handler : FdHandler) (hfd : fd = -1 ∨ 0 ≤ fd ∧ fd < 1024)
    (hfree : fd ≠ -1 → s.registration fd.toNat = {}) :
    ∃ s', registerListening fd handler s = .ok (decide (fd = -1), s') ∧
      s'.Slotted ∧ s'.registration = listening s.registration fd handler := by
  unfold registerListening listening
  by_cases hnone : fd = -1
  · simp [hnone, hs]
  · obtain ⟨hpos, hlt⟩ := hfd.resolve_left hnone
    have hroom : fd.toNat < s.fdSize := by
      rw [hs.size, itemsMaxSize]
      omega
    obtain ⟨ret, s', hregister⟩ :=
      exists_selectorRegister (some handler) .read none true hroom
    rw [if_pos hnone, hregister, ok_bind]
    rcases selectorRegister_registration hs hregister with
      ⟨-, -, hinvalid | hused⟩ | ⟨rfl, hvalid, -, hsize, -, hslots⟩
    · rw [invalidFd_eq_false_iff.mpr ⟨hpos, hlt⟩] at hinvalid
      cases hinvalid
    · rw [used_iff, hfree hnone] at hused
      exact absurd rfl hused
    · refine ⟨s', by simp [hnone], hs.filled hsize hvalid rfl (by simp) hslots, ?_⟩
      rw [hslots, if_neg hnone]

section Listening

variable {slots : ℕ → Registration} {fd fd' : ℤ} {handler : FdHandler}

theorem listening_of_ne (hne : fd ≠ -1 → fd.toNat ≠ fd'.toNat) :
    listening slots fd handler fd'.toNat = slots fd'.toNat := by
  unfold listening
  by_cases hnone : fd = -1
  · rw [if_pos hnone]
  · rw [if_neg hnone, Function.update_of_ne (hne hnone).symm]

theorem listening_ne_empty {i : ℕ} (h : slots i ≠ {}) :
    listening slots fd handler i ≠ {} := by
  unfold listening
  by_cases hnone : fd = -1
  · rw [if_pos hnone]
    exact h
  · rw [if_neg hnone]
    by_cases hi : i = fd.toNat
    · rw [hi, Function.update_self]
      exact Registration.ne_of_handler rfl
    · rw [Function.update_of_ne hi]
      exact h

theorem listening_self (hfd : fd ≠ -1) :
    listening slots fd handler fd.toNat ≠ {} := by
  rw [listening, if_neg hfd, Function.update_self]
  exact Registration.ne_of_handler rfl

end Listening

/-- Two sockets that have been made are not the same. -/
def Distinct (fd fd' : ℤ) : Prop := fd ≠ -1 → fd' ≠ -1 → fd ≠ fd'

/-- `register_all_fds` registers every socket, and succeeds when there is one for
each service. -/
theorem exists_registerAllFds {fd1 fd2 fd3 fd4 : ℤ}
    (hfds : ∀ fd ∈ [fd1, fd2, fd3, fd4], fd = -1 ∨ 0 ≤ fd ∧ fd < 1024)
    (hdistinct : [fd1, fd2, fd3, fd4].Pairwise Distinct) :
    ∃ s, registerAllFds fd1 fd2 fd3 fd4 (selectorNew 1024) =
      .ok (decide ((fd1 ≠ -1 ∨ fd2 ≠ -1) ∧ (fd3 ≠ -1 ∨ fd4 ≠ -1)), s) ∧
      ∀ fd ∈ [fd1, fd2, fd3, fd4], fd ≠ -1 → s.Registered fd := by
  simp only [List.pairwise_cons, List.mem_cons, List.not_mem_nil, or_false,
    forall_eq_or_imp, forall_eq, IsEmpty.forall_iff, implies_true,
    List.Pairwise.nil, and_true] at hfds hdistinct
  obtain ⟨h1, h2, h3, h4⟩ := hfds
  obtain ⟨⟨h12, h13, h14⟩, ⟨h23, h24⟩, h34⟩ := hdistinct
  have hapart {a b : ℤ} (ha : a = -1 ∨ 0 ≤ a ∧ a < 1024)
      (hb : b = -1 ∨ 0 ≤ b ∧ b < 1024) (hab : Distinct a b) (hnone : b ≠ -1) :
      a ≠ -1 → a.toNat ≠ b.toNat := by
    intro hmade
    have hne := hab hmade hnone
    omega
  obtain ⟨s1, hs1, hslotted1, hslots1⟩ :=
    exists_registerListening slotted_new .socksv5Passive h1 fun _ => rfl
  obtain ⟨s2, hs2, hslotted2, hslots2⟩ :=
    exists_registerListening hslotted1 .socksv5Passive h2 fun hnone => by
      rw [hslots1, listening_of_ne (hapart h1 h2 h12 hnone)]
      rfl
  obtain ⟨s3, hs3, hslotted3, hslots3⟩ :=
    exists_registerListening hslotted2 .adminPassive h3 fun hnone => by
      rw [hslots2, listening_of_ne (hapart h2 h3 h23 hnone), hslots1,
        listening_of_ne (hapart h1 h3 h13 hnone)]
      rfl
  obtain ⟨s4, hs4, hslotted4, hslots4⟩ :=
    exists_registerListening hslotted3 .adminPassive h4 fun hnone => by
      rw [hslots3, listening_of_ne (hapart h3 h4 h34 hnone), hslots2,
        listening_of_ne (hapart h2 h4 h24 hnone), hslots1,
        listening_of_ne (hapart h1 h4 h14 hnone)]
      rfl
  refine ⟨s4, ?_, fun fd hfd hmade => ?_⟩
  · rw [registerAllFds, hs1, ok_bind]
    dsimp only
    rw [hs2, ok_bind]
    dsimp only
    rw [hs3, ok_bind]
    dsimp only
    rw [hs4, ok_bind]
    have hok : (!((decide (fd1 = -1) && decide (fd2 = -1)) ||
        (decide (fd3 = -1) && decide (fd4 = -1)))) =
        decide ((fd1 ≠ -1 ∨ fd2 ≠ -1) ∧ (fd3 ≠ -1 ∨ fd4 ≠ -1)) := by
      rw [Bool.eq_iff_iff]
      simp only [Bool.not_eq_true', Bool.or_eq_false_iff, Bool.and_eq_false_iff,
        decide_eq_false_iff_not, decide_eq_true_eq, ne_eq]
    rw [hok]
  · have hpos : 0 ≤ fd := by
      simp only [List.mem_cons, List.not_mem_nil, or_false] at hfd
      rcases hfd with rfl | rfl | rfl | rfl <;> omega
    rw [hslotted4.registered_iff]
    refine ⟨hpos, (used_iff s4 fd.toNat).mpr ?_⟩
    have hslot : s4.registration fd.toNat ≠ {} := by
      rw [hslots4, hslots3, hslots2, hslots1]
      simp only [List.mem_cons, List.not_mem_nil, or_false] at hfd
      rcases hfd with rfl | rfl | rfl | rfl
      · exact listening_ne_empty (listening_ne_empty (listening_ne_empty
          (listening_self hmade)))
      · exact listening_ne_empty (listening_ne_empty (listening_self hmade))
      · exact listening_ne_empty (listening_self hmade)
      · exact listening_self hmade
    rcases hslotted4.slots fd.toNat with hempty | ⟨hfd', -, -⟩
    · exact absurd hempty hslot
    · rw [hfd']
      omega

/-! ## Launching -/

/-- The socket that a call has made, which is the only one that `main` has of
it. -/
def SocketSys.made (sys : SocketSys) : Option ℕ :=
  if sys.inetPton then sys.socket else none

theorem createPassiveSocket_snd (ipv6 : Bool) (sys : SocketSys) :
    (createPassiveSocket ipv6 sys).2 = socketFd sys.made := by
  unfold createPassiveSocket SocketSys.made
  by_cases hpton : sys.inetPton = true
  · cases hsocket : sys.socket with
    | none => simp [hpton, socketFd]
    | some n =>
        simp only [hpton, Bool.not_true, Bool.false_eq_true, if_false, if_true,
          socketFd]
        repeat' split
        all_goals rfl
  · simp [hpton, socketFd]

theorem made_of_noFail {ipv6 : Bool} {sys : SocketSys}
    (h : (createPassiveSocket ipv6 sys).1 = .noFail) :
    socketFd sys.made ≠ -1 := by
  unfold createPassiveSocket at h
  unfold SocketSys.made
  by_cases hpton : sys.inetPton = true
  · cases hsocket : sys.socket with
    | none => simp [hpton, hsocket] at h
    | some n =>
        simp only [hpton, if_true, socketFd, ne_eq]
        omega
  · simp [hpton] at h

/-- The sockets that can be made, in order. -/
def LaunchSys.made (sys : LaunchSys) : List (Option ℕ) :=
  [sys.ipv4.made, sys.ipv6.made, sys.managerIpv4.made, sys.managerIpv6.made]

/-- The kernel gives every socket a descriptor of its own, among the least. -/
structure LaunchSys.Kernel (sys : LaunchSys) : Prop where
  distinct : sys.made.Pairwise fun p q => ∀ n, p = some n → q ≠ some n
  small : ∀ p ∈ sys.made, ∀ n, p = some n → n < 1024

/-- One of the two sockets for clients is ready. -/
def LaunchSys.Ready (sys : LaunchSys) : Prop :=
  (createIpv4PassiveSocket sys.ipv4).1 = .noFail ∨
    (createIpv6PassiveSocket sys.ipv6).1 = .noFail

theorem socketFd_cases (p : Option ℕ) :
    socketFd p = -1 ∧ p = none ∨ ∃ n : ℕ, socketFd p = n ∧ p = some n := by
  cases p with
  | none => exact .inl ⟨rfl, rfl⟩
  | some n => exact .inr ⟨n, rfl, rfl⟩

theorem distinct_socketFd {p q : Option ℕ} (h : ∀ n, p = some n → q ≠ some n) :
    Distinct (socketFd p) (socketFd q) := by
  intro hp hq heq
  rcases socketFd_cases p with ⟨hnone, -⟩ | ⟨n, hn, rfl⟩
  · exact hp hnone
  · rcases socketFd_cases q with ⟨hnone, -⟩ | ⟨k, hk, rfl⟩
    · exact hq hnone
    · apply h n rfl
      rw [hn, hk] at heq
      exact congrArg some (by omega)

theorem socketFd_ne_iff {p : Option ℕ} : socketFd p ≠ -1 ↔ p ≠ none := by
  rcases socketFd_cases p with ⟨hnone, rfl⟩ | ⟨n, hn, rfl⟩
  · simp [hnone]
  · rw [hn]
    simp

/-- What there is when `main` gets to its loop, or does not. -/
structure Launched (sys : LaunchSys) (l : Launch) : Prop where
  distinct : l.sockets.Pairwise Distinct
  made : ∀ fd ∈ l.sockets, fd = -1 ∨ 0 ≤ fd
  serves : l.serves = true ↔ sys.Ready ∧ sys.selectorInit = true ∧
    sys.selectorNew = true ∧
      (sys.managerIpv4.made ≠ none ∨ sys.managerIpv6.made ≠ none)
  selector : l.serves = true → ∃ s, l.selector = some s ∧
    Server.Starts { selector := s } ∧
    (∀ fd, s.Registered fd → fd ∈ l.sockets) ∧
    ∀ fd ∈ l.sockets, fd ≠ -1 → s.Registered fd

/-- Where `main` ends without its loop. -/
theorem launched_of_fails {sys : LaunchSys} {fds : List ℤ}
    (hdistinct : fds.Pairwise Distinct) (hmade : ∀ fd ∈ fds, fd = -1 ∨ 0 ≤ fd)
    (hnot : ¬ (sys.Ready ∧ sys.selectorInit = true ∧ sys.selectorNew = true)) :
    Launched sys { sockets := fds } where
  distinct := hdistinct
  made := hmade
  serves := by
    apply iff_of_false Bool.false_ne_true
    rintro ⟨hready, hinit, hnew, -⟩
    exact hnot ⟨hready, hinit, hnew⟩
  selector := nofun

/-- Where `main` has registered its sockets. -/
theorem launched_of_registers {sys : LaunchSys} {fd1 fd2 fd3 fd4 : ℤ} {ok : Bool}
    {s : FdSelector} (hdistinct : [fd1, fd2, fd3, fd4].Pairwise Distinct)
    (hmade : ∀ fd ∈ [fd1, fd2, fd3, fd4], fd = -1 ∨ 0 ≤ fd)
    (hs : registerAllFds fd1 fd2 fd3 fd4 (selectorNew 1024) = .ok (ok, s))
    (hregistered : ∀ fd ∈ [fd1, fd2, fd3, fd4], fd ≠ -1 → s.Registered fd)
    (hserves : ok = true ↔ sys.Ready ∧ sys.selectorInit = true ∧
      sys.selectorNew = true ∧
        (sys.managerIpv4.made ≠ none ∨ sys.managerIpv6.made ≠ none)) :
    Launched sys ⟨[fd1, fd2, fd3, fd4], some s, ok⟩ where
  distinct := hdistinct
  made := hmade
  serves := hserves
  selector := by
    rintro rfl
    refine ⟨s, rfl, ⟨fd1, fd2, fd3, fd4, s, hs, rfl⟩, fun fd hfd => ?_, hregistered⟩
    have hmem := ((registerAllFds_listening hs).mem hfd).2
    simp only [List.mem_cons, List.not_mem_nil, or_false] at hmem ⊢
    omega

/-- The output is non-blocking, or `main` has exited. -/
theorem setStdNonBlocking_eq (sys : LaunchSys) :
    setStdNonBlocking sys =
      if sys.stdout = true ∧ sys.stderr = true then .ok () else .error .exit := by
  unfold setStdNonBlocking
  cases sys.stdout <;> cases sys.stderr <;> rfl

theorem launch_of_blocking {sys : LaunchSys}
    (h : ¬ (sys.stdout = true ∧ sys.stderr = true)) :
    launch sys = .error .exit := by
  rw [launch, setStdNonBlocking_eq, if_neg h]
  rfl

theorem exists_launch {sys : LaunchSys} (hsys : sys.Kernel)
    (hstd : sys.stdout = true ∧ sys.stderr = true) :
    ∃ l, launch sys = .ok l ∧ Launched sys l := by
  let fds := sys.made.map socketFd
  have hdistinct : fds.Pairwise Distinct :=
    List.Pairwise.map _ (fun _ _ h => distinct_socketFd h) hsys.distinct
  have hfds : ∀ fd ∈ fds, fd = -1 ∨ 0 ≤ fd ∧ fd < 1024 := by
    intro fd hfd
    obtain ⟨p, hp, rfl⟩ := List.mem_map.mp hfd
    rcases socketFd_cases p with ⟨hnone, -⟩ | ⟨n, hn, hsome⟩
    · exact .inl hnone
    · have hlt := hsys.small p hp n hsome
      rw [hn]
      exact .inr ⟨Int.natCast_nonneg n, by omega⟩
  have hmade : ∀ fd ∈ fds, fd = -1 ∨ 0 ≤ fd := fun fd hfd =>
    (hfds fd hfd).imp_right And.left
  rcases h4 : createIpv4PassiveSocket sys.ipv4 with ⟨error4, ipv4⟩
  rcases h6 : createIpv6PassiveSocket sys.ipv6 with ⟨error6, ipv6⟩
  rcases hm4 : createIpv4ManagerPassiveSocket sys.managerIpv4 with
    ⟨errorM4, managerIpv4⟩
  rcases hm6 : createIpv6ManagerPassiveSocket sys.managerIpv6 with
    ⟨errorM6, managerIpv6⟩
  have hipv4 : socketFd sys.ipv4.made = ipv4 :=
    (createPassiveSocket_snd false sys.ipv4).symm.trans (congrArg Prod.snd h4)
  have hipv6 : socketFd sys.ipv6.made = ipv6 :=
    (createPassiveSocket_snd true sys.ipv6).symm.trans (congrArg Prod.snd h6)
  have hmanagerIpv4 : socketFd sys.managerIpv4.made = managerIpv4 :=
    (createPassiveSocket_snd false sys.managerIpv4).symm.trans
      (congrArg Prod.snd hm4)
  have hmanagerIpv6 : socketFd sys.managerIpv6.made = managerIpv6 :=
    (createPassiveSocket_snd true sys.managerIpv6).symm.trans
      (congrArg Prod.snd hm6)
  have hlist : fds = [ipv4, ipv6, managerIpv4, managerIpv6] := by
    rw [← hipv4, ← hipv6, ← hmanagerIpv4, ← hmanagerIpv6]
    rfl
  rw [hlist] at hdistinct hfds hmade
  have hready : sys.Ready ↔ error4 = .noFail ∨ error6 = .noFail := by
    rw [LaunchSys.Ready, h4, h6]
  have hclients (h : sys.Ready) : ipv4 ≠ -1 ∨ ipv6 ≠ -1 := by
    rw [← hipv4, ← hipv6]
    exact h.imp made_of_noFail made_of_noFail
  rw [launch, setStdNonBlocking_eq, if_pos hstd, ok_bind]
  simp only [h4, h6, hm4, hm6]
  by_cases hboth : error6 ≠ .noFail ∧ error4 ≠ .noFail
  · refine ⟨_, if_pos hboth, launched_of_fails ?_ ?_ ?_⟩
    · have hfirst := hdistinct.sublist
        (List.prefix_append [ipv4, ipv6] [managerIpv4, managerIpv6]).sublist
      have hnone (fd : ℤ) : Distinct fd (-1) := fun _ h => absurd rfl h
      simp only [List.pairwise_cons, List.mem_cons, List.not_mem_nil, or_false,
        forall_eq_or_imp, forall_eq, IsEmpty.forall_iff, implies_true,
        List.Pairwise.nil, and_true] at hfirst ⊢
      exact ⟨⟨hfirst, hnone _, hnone _⟩, ⟨hnone _, hnone _⟩, hnone _⟩
    · intro fd hfd
      simp only [List.mem_cons, List.not_mem_nil, or_false] at hfd
      rcases hfd with rfl | rfl | rfl | rfl
      · exact hmade _ (by simp)
      · exact hmade _ (by simp)
      · exact .inl rfl
      · exact .inl rfl
    · rintro ⟨h, -⟩
      rcases hready.mp h with h | h
      · exact hboth.2 h
      · exact hboth.1 h
  · rw [if_neg hboth]
    have hsysready : sys.Ready := by
      rw [hready]
      rcases not_and_or.mp hboth with h | h
      · exact .inr (not_ne_iff.mp h)
      · exact .inl (not_ne_iff.mp h)
    by_cases hinit : sys.selectorInit = true
    · by_cases hnew : sys.selectorNew = true
      · obtain ⟨s, hs, hregistered⟩ := exists_registerAllFds hfds hdistinct
        rw [if_neg (by simp [hinit]), if_neg (by simp [hnew]), hs]
        refine ⟨_, rfl, launched_of_registers hdistinct hmade hs hregistered ?_⟩
        rw [decide_eq_true_eq, ← hmanagerIpv4, ← hmanagerIpv6, socketFd_ne_iff,
          socketFd_ne_iff]
        exact ⟨fun h => ⟨hsysready, hinit, hnew, h.2⟩,
          fun h => ⟨hclients hsysready, h.2.2.2⟩⟩
      · refine ⟨_, by rw [if_neg (by simp [hinit]), if_pos (by simp [hnew])],
          launched_of_fails hdistinct hmade ?_⟩
        exact fun h => hnew h.2.2
    · refine ⟨_, if_pos (by simp [hinit]), launched_of_fails hdistinct hmade ?_⟩
      exact fun h => hinit h.2.1

/-- `main` exits when its output cannot be made non-blocking, and else always gets
to its loop or to `finally`.  It gets to its loop when one of its two sockets for
clients is ready, the selector could be made, and one of its two sockets for
administrators could be made, whether it is ready or not; and then every socket
that it has made is registered, and nothing else is. -/
theorem main_serves_iff {sys : LaunchSys} (hsys : sys.Kernel) :
    (¬ (sys.stdout = true ∧ sys.stderr = true) → launch sys = .error .exit) ∧
    (sys.stdout = true ∧ sys.stderr = true → ∃ l, launch sys = .ok l ∧
      (l.serves = true ↔ sys.Ready ∧ sys.selectorInit = true ∧
        sys.selectorNew = true ∧
          (sys.managerIpv4.made ≠ none ∨ sys.managerIpv6.made ≠ none)) ∧
      (l.serves = true → ∃ s, l.selector = some s ∧
        Server.Starts { selector := s } ∧
        ∀ fd, s.Registered fd ↔ fd ∈ l.sockets ∧ fd ≠ -1)) := by
  refine ⟨launch_of_blocking, fun hstd => ?_⟩
  obtain ⟨l, hl, hlaunched⟩ := exists_launch hsys hstd
  refine ⟨l, hl, hlaunched.serves, fun hserves => ?_⟩
  obtain ⟨s, hs, hstarts, hmem, hregistered⟩ := hlaunched.selector hserves
  refine ⟨s, hs, hstarts, fun fd => ⟨fun hfd => ⟨hmem fd hfd, ?_⟩, fun hfd => ?_⟩⟩
  · have hpos := hfd.nonneg
    omega
  · exact hregistered fd hfd.1 hfd.2

/-- All that is free gets a descriptor of its own; the server serves although its
sockets for administrators could not be bound. -/
theorem main_serves_unbound : ∃ l, launch
    { ipv4 := { socket := some 3 }
      ipv6 := { inetPton := false }
      managerIpv4 := { socket := some 4, bind := false }
      managerIpv6 := { socket := some 5, bind := false } } = .ok l ∧
    l.serves = true := by
  let sys : LaunchSys :=
    { ipv4 := { socket := some 3 }
      ipv6 := { inetPton := false }
      managerIpv4 := { socket := some 4, bind := false }
      managerIpv6 := { socket := some 5, bind := false } }
  have hkernel : sys.Kernel :=
    ⟨by simp [sys, LaunchSys.made, SocketSys.made],
      by simp [sys, LaunchSys.made, SocketSys.made]⟩
  obtain ⟨l, hl, hserves, -⟩ := (main_serves_iff hkernel).2 ⟨rfl, rfl⟩
  exact ⟨l, hl, hserves.mpr ⟨.inl (by decide), rfl, rfl, .inl (by decide)⟩⟩

/-! ## The end -/

/-- What `main` has closed when it returns: with the loop or without it, in which
case there is nothing else to be closed. -/
inductive Launch.Closes (l : Launch) : List ℤ → Prop
  | fails : l.serves = false → l.Closes (l.sockets.filter (0 ≤ ·))
  | serves {s : FdSelector} {opened : List ℤ} {tr : List (Running × LoopEvent)}
      {x : Running} {fuel : ℕ} {e : Ending} :
      l.serves = true → l.selector = some s →
      (∀ fd ∈ l.sockets, fd ≠ -1 → fd ∈ opened) →
      Run Running.Step { server := { selector := s }, opened := opened } tr x →
      x.point = .selecting → x.server.mainFinally fuel l.sockets = .ok e →
      l.Closes e.server.closed

theorem mainFinally_closed {fuel : ℕ} {sockets : List ℤ} {srv : Server} {e : Ending}
    (h : srv.mainFinally fuel sockets = .ok e) :
    e.server.closed = srv.closed ++ sockets.filter (0 ≤ ·) := by
  obtain ⟨⟨destroyed, sessions⟩, -, h⟩ := bind_eq_ok.mp h
  obtain ⟨⟨freed, admins⟩, -, h⟩ := bind_eq_ok.mp h
  obtain ⟨⟨unregistered, selector⟩, -, h⟩ := bind_eq_ok.mp h
  cases h
  rw [Server.foldl_close]

theorem Launched.nodup {sys : LaunchSys} {l : Launch} (h : Launched sys l) :
    (l.sockets.filter (0 ≤ ·)).Nodup := by
  have hfilter : (l.sockets.filter (0 ≤ ·)).Pairwise Distinct :=
    h.distinct.sublist List.filter_sublist
  apply hfilter.imp_of_mem
  intro fd fd' hfd hfd' hdistinct
  simp only [List.mem_filter, decide_eq_true_eq] at hfd hfd'
  apply hdistinct <;> omega

/-- `main` closes each socket that it has made to listen at exactly once. -/
theorem main_closes_each_socket_once {sys : LaunchSys} {l : Launch}
    {closed : List ℤ} (hsys : sys.Kernel) (hlaunch : launch sys = .ok l)
    (h : l.Closes closed) {fd : ℤ} (hfd : fd ∈ l.sockets) (hmade : fd ≠ -1) :
    closed.count fd = 1 := by
  have hstd : sys.stdout = true ∧ sys.stderr = true := by
    by_contra hblocking
    rw [launch_of_blocking hblocking] at hlaunch
    cases hlaunch
  obtain ⟨l', hl', hlaunched⟩ := exists_launch hsys hstd
  cases hlaunch.symm.trans hl'
  have hpos : 0 ≤ fd := (hlaunched.made fd hfd).resolve_left hmade
  have honce : (l.sockets.filter (0 ≤ ·)).count fd = 1 := by
    apply List.count_eq_one_of_mem hlaunched.nodup
    simp [hfd, hpos]
  cases h with
  | fails => exact honce
  | @serves s opened tr x fuel e hserves hselector hopened hrun hpoint hfinally =>
      obtain ⟨s', hs', hstarts, hmem, hregistered⟩ := hlaunched.selector hserves
      cases hselector.symm.trans hs'
      have h₀ : Running.Starts
          { server := { selector := s }, opened := opened } := by
        refine ⟨_, opened, hstarts, fun fd hfd => ?_, rfl⟩
        have hnonneg := FdSelector.Registered.nonneg hfd
        exact hopened fd (hmem fd hfd) (by omega)
      have hslot := (h₀.serving.wired.registered_iff fd).mp
        (hregistered fd hfd hmade)
      have hnever := (Running.listens h₀ hrun hslot.2).2.2
      rw [Int.toNat_of_nonneg hpos] at hnever
      rw [mainFinally_closed hfinally, List.count_append,
        List.count_eq_zero_of_not_mem hnever, honce]

/-- A server that is ended before anything has happened. -/
theorem main_closes_each_socket_once_of_idle : ∃ (l : Launch) (closed : List ℤ),
    launch { ipv4 := { socket := some 3 }, managerIpv4 := { socket := some 4 } } =
      .ok l ∧ l.serves = true ∧ l.Closes closed ∧ closed.count 3 = 1 := by
  let sys : LaunchSys :=
    { ipv4 := { socket := some 3 }, managerIpv4 := { socket := some 4 } }
  have hsys : sys.Kernel := by
    constructor
    · simp [sys, LaunchSys.made, SocketSys.made]
    · simp [sys, LaunchSys.made, SocketSys.made]
  have hplay : (launch sys).toOption.any (fun l => l.serves &&
      decide (3 ∈ l.sockets) && l.selector.any fun s =>
        (Server.mainFinally 1 l.sockets { selector := s }).toOption.isSome) = true := by
    decide +kernel
  obtain ⟨l, hl, hplay⟩ := (Option.any_eq_true _ _).mp hplay
  have hl := toOption_eq_some.mp hl
  simp only [Bool.and_eq_true, decide_eq_true_eq] at hplay
  obtain ⟨⟨hserves, hmem⟩, hplay⟩ := hplay
  obtain ⟨s, hs, hends⟩ := (Option.any_eq_true _ _).mp hplay
  obtain ⟨e, he⟩ := Option.isSome_iff_exists.mp hends
  have hcloses : l.Closes e.server.closed :=
    .serves hserves hs (fun fd hfd _ => hfd) .nil rfl (toOption_eq_some.mp he)
  exact ⟨l, _, hl, hserves, hcloses,
    main_closes_each_socket_once hsys hl hcloses hmem (by decide)⟩

end Socksv5
