import Socksv5.Admin.List
import Socksv5.Session.Run

/-!
# The server

What outlives a callback: the selector, the list of sessions that starts at
`first` in `socksv5_server.c`, the list of administrators and the metrics.  The
server also keeps the descriptors that it has closed.
-/

namespace Socksv5

open Support

/-- `struct selector_key`, but for the selector. -/
structure SelectorKey where
  fd : ℤ
  data : Option ℕ := none
deriving DecidableEq, Repr

/-- A `struct socksv5` in the list. -/
structure SessionNode where
  session : Session
  stm : Machine := {}
  prev : Option ℕ := none
  next : Option ℕ := none

/-- The allocated sessions, and `first`. -/
structure SessionList where
  heap : ℕ → Option SessionNode := fun _ => none
  first : Option ℕ := none

namespace SessionList

/-- `*p` -/
def deref (l : SessionList) : Option ℕ → Except Fault SessionNode
  | none => .error .nullDereference
  | some a =>
      match l.heap a with
      | some node => .ok node
      | none => .error .outOfBounds

/-- `*p = node` -/
def put (l : SessionList) (a : ℕ) (node : SessionNode) : SessionList :=
  { l with heap := Function.update l.heap a (some node) }

/-- `free(p)` -/
def free (l : SessionList) (a : ℕ) : SessionList :=
  { l with heap := Function.update l.heap a none }

/-- The loop of `new_socksv5` to the end of the list. -/
def lastSocksv5 (l : SessionList) : ℕ → ℕ → Except Fault ℕ
  | 0, _ => .error .diverges
  | fuel + 1, aux => do
      let node ← l.deref (some aux)
      match node.next with
      | none => .ok aux
      | some next => lastSocksv5 l fuel next

/-- `new_socksv5`; `address` is what `calloc` returns. -/
def newSocksv5 (fuel : ℕ) (clientFd : ℤ) (address : Option ℕ)
    (l : SessionList) : Except Fault (Option ℕ × SessionList) :=
  match address with
  | none => .ok (none, l)
  | some socksv5 =>
      let node : SessionNode := { session := Socksv5.newSocksv5 clientFd }
      match l.first with
      | none => .ok (some socksv5, { l.put socksv5 node with first := some socksv5 })
      | some first => do
          let l := l.put socksv5 node
          let aux ← lastSocksv5 l fuel first
          let last ← l.deref (some aux)
          let l := l.put aux { last with next := some socksv5 }
          .ok (some socksv5, l.put socksv5 { node with prev := some aux })

/-- `socksv5_destroy` -/
def socksv5Destroy (s : Option ℕ) (l : SessionList) :
    Except Fault SessionList :=
  match s with
  | none => .ok l
  | some a => do
      let node ← l.deref (some a)
      let l ← match node.next with
        | some next => do
            let after ← l.deref (some next)
            .ok (l.put next { after with prev := node.prev })
        | none => .ok l
      let node ← l.deref (some a)
      let l ← match node.prev with
        | some prev => do
            let before ← l.deref (some prev)
            .ok (l.put prev { before with next := node.next })
        | none => .ok { l with first := node.next }
      let l := if l.first = some a then { l with first := none } else l
      .ok (l.free a)

end SessionList

/-- `MAX_CONCURRENT_CONNECTIONS` -/
def maxConcurrentConnections : ℤ := 500

/-- The server between two callbacks. -/
structure Server where
  selector : FdSelector
  sessions : SessionList := {}
  admins : AdminList := {}
  metrics : Metrics := {}
  closed : List ℤ := []

/-- `close` -/
def Server.close (srv : Server) (fd : ℤ) : Server :=
  { srv with closed := srv.closed ++ [fd] }

/-! ## Starting -/

/-- The registration of a listening socket by `register_all_fds`, and whether
it failed. -/
def registerListening (fd : ℤ) (handler : FdHandler) (s : FdSelector) :
    Except Fault (Bool × FdSelector) :=
  if fd ≠ -1 then do
    let (ss, s) ← selectorRegister s fd (some handler) .read none true
    .ok (decide (ss ≠ .success), s)
  else .ok (true, s)

/-- `register_all_fds`, and whether it succeeds -/
def registerAllFds (fd1 fd2 fd3 fd4 : ℤ) (s : FdSelector) :
    Except Fault (Bool × FdSelector) := do
  let (fd1Failed, s) ← registerListening fd1 .socksv5Passive s
  let (fd2Failed, s) ← registerListening fd2 .socksv5Passive s
  let (fd3Failed, s) ← registerListening fd3 .adminPassive s
  let (fd4Failed, s) ← registerListening fd4 .adminPassive s
  .ok (!((fd1Failed && fd2Failed) || (fd3Failed && fd4Failed)), s)

/-- The server when `main` gets to its loop. -/
def Server.Starts (srv : Server) : Prop :=
  ∃ fd1 fd2 fd3 fd4 s,
    registerAllFds fd1 fd2 fd3 fd4 (selectorNew 1024) = .ok (true, s) ∧
      srv = { selector := s }

/-- A server that listens at two sockets. -/
theorem exists_starts : ∃ srv : Server, srv.Starts ∧
    srv.selector.Registered 3 ∧ srv.selector.Registered 4 ∧
      srv = { selector := srv.selector } := by
  have hplay : (registerAllFds 3 (-1) 4 (-1) (selectorNew 1024)).toOption.any
      (fun r => r.1 && decide (r.2.Registered 3) &&
        decide (r.2.Registered 4)) = true := by
    decide
  obtain ⟨⟨ok, s⟩, hs, hplay⟩ := (Option.any_eq_true _ _).mp hplay
  simp only [Bool.and_eq_true, decide_eq_true_eq] at hplay
  obtain ⟨⟨rfl, hsocksv5⟩, hadmin⟩ := hplay
  exact ⟨{ selector := s }, ⟨3, -1, 4, -1, s, toOption_eq_some.mp hs, rfl⟩,
    hsocksv5, hadmin, rfl⟩

/-! ## Accepting a connection -/

/-- The results of `accept`, `selector_fd_set_nio`, the allocation of the new
object, and the allocation that `selector_register` makes. -/
structure AcceptSys where
  accept : Option ℕ := none
  nio : Bool := true
  address : Option ℕ := none
  realloc : Bool := true
deriving DecidableEq, Repr

/-- `socksv5_passive_accept` from `finally` on -/
def socksv5AcceptFinally (key : SelectorKey) (clientSock socksv5 : Option ℕ)
    (srv : Server) : Except Fault Server := do
  let srv := match clientSock with
    | some fd => srv.close fd
    | none => srv
  if socksv5 ≠ none then do
    let l ← srv.sessions.socksv5Destroy key.data
    .ok { srv with sessions := l }
  else .ok srv

/-- `socksv5_passive_accept` -/
def socksv5PassiveAccept (fuel : ℕ) (sys : AcceptSys) (key : SelectorKey)
    (srv : Server) : Except Fault Server :=
  if srv.metrics.getConcurrentConnections < maxConcurrentConnections then
    match sys.accept with
    | none => socksv5AcceptFinally key none none srv
    | some clientSock =>
        if sys.nio = false then
          socksv5AcceptFinally key (some clientSock) none srv
        else do
          let (socksv5, l) ← srv.sessions.newSocksv5 fuel clientSock sys.address
          let srv := { srv with sessions := l }
          if socksv5 = none then
            socksv5AcceptFinally key (some clientSock) none srv
          else do
            let (ret, s) ← selectorRegister srv.selector clientSock
              (some .socksv5Active) .read socksv5 sys.realloc
            let srv := { srv with selector := s }
            if ret ≠ .success then
              socksv5AcceptFinally key (some clientSock) socksv5 srv
            else .ok { srv with metrics := srv.metrics.addConnection }
  else .ok srv

/-- `destroy_admin` -/
def destroyAdmin (fuel : ℕ) (key : SelectorKey) (srv : Server) :
    Except Fault Server := do
  let (ret, s) ← selectorUnregisterFd srv.selector key.fd
  let srv := { srv with selector := s }
  if ret ≠ .success then .error .exit
  else
    let srv := if key.fd ≠ -1 then srv.close key.fd else srv
    match key.data with
    | none => .error .nullDereference
    | some ad => do
        let l ← removeAdmin fuel ad srv.admins
        .ok { srv with admins := l }

/-- `admin_passive_accept` from `finally` on -/
def adminAcceptFinally (fuel : ℕ) (key : SelectorKey)
    (clientSock ad : Option ℕ) (srv : Server) : Except Fault Server :=
  let srv := match clientSock with
    | some fd => srv.close fd
    | none => srv
  if ad ≠ none then destroyAdmin fuel key srv else .ok srv

/-- `admin_passive_accept` -/
def adminPassiveAccept (fuel : ℕ) (sys : AcceptSys) (key : SelectorKey)
    (srv : Server) : Except Fault Server :=
  match sys.accept with
  | none => adminAcceptFinally fuel key none none srv
  | some clientSock =>
      if sys.nio = false then
        adminAcceptFinally fuel key (some clientSock) none srv
      else do
        let (ad, l) ← newAdmin fuel key.fd sys.address srv.admins
        let srv := { srv with admins := l }
        if ad = none then
          adminAcceptFinally fuel key (some clientSock) none srv
        else do
          let (ret, s) ← selectorRegister srv.selector clientSock
            (some .adminActive) .read ad sys.realloc
          let srv := { srv with selector := s }
          if ret ≠ .success then
            adminAcceptFinally fuel key (some clientSock) ad srv
          else .ok srv

end Socksv5
