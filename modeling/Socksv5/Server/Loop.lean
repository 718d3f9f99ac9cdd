import Socksv5.Admin.Connection
import Socksv5.Selector.Readiness
import Socksv5.Server.Sessions
import Socksv5.Session.Descriptors

/-!
# The main loop

`selector_select` in the loop of `main`, one callback at a time: where the loop
is, which handler it calls next, and what that does to the server.  The threads
of the resolver run beside it: each stores what it has found where its session
is, and queues its notification, for which it needs the lock that
`handle_block_notifications` holds.

An address stands for an allocation, so none is given out twice; what a thread
stores where a session has been is lost.
-/

namespace Socksv5

open Support

/-- Where the loop is: in front of `pselect`; in `handle_iteration`, in front
of the test for reading or of the one for writing of slot `i`, the latter with
the key that the slot had before; or in `handle_block_notifications`. -/
inductive LoopPoint
  | selecting
  | reading (rep : Reported) (n i : ℕ)
  | writing (rep : Reported) (n i : ℕ) (key : SelectorKey)
  | notifying

/-- The server while its loop runs.  What the program does not keep: the
descriptors that are open, for which descriptors each session's threads look up
a name, and for which ones a thread is about to queue a notification; the
addresses given out, and the sessions that have been registered so far. -/
structure Running where
  server : Server
  point : LoopPoint := .selecting
  opened : List ℤ
  threads : ℕ → List ℤ := fun _ => []
  notices : List ℤ := []
  allocated : List ℕ := []
  accepted : List ℕ := []

namespace Running

/-- The item of a slot. -/
def item (x : Running) (i : ℕ) : Item := x.server.selector.fds i

/-- The key for a slot. -/
def key (x : Running) (i : ℕ) : SelectorKey := ⟨(x.item i).fd, (x.item i).data⟩

/-- The handler that is to be called at this point, for what and with which
key; nothing where the tests fail. -/
def due (x : Running) : Option (Ready × Option FdHandler × SelectorKey) :=
  match x.point with
  | .selecting => none
  | .reading rep n i =>
      if i ≤ n ∧ (x.item i).used ∧ rep.slaveR (x.item i).fd.toNat ∧
          (x.item i).interest.reads then
        some (.read, (x.item i).handler, x.key i)
      else none
  | .writing rep _ i key =>
      if rep.slaveW i ∧ (x.item i).interest.writes then
        some (.write, (x.item i).handler, key)
      else none
  | .notifying =>
      match x.server.selector.resolutionJobs with
      | [] => none
      | fd :: _ =>
          if (x.item fd.toNat).used then
            some (.block, (x.item fd.toNat).handler, x.key fd.toNat)
          else none

/-- The point after this one. -/
def next (x : Running) : LoopPoint :=
  match x.point with
  | .selecting => .selecting
  | .reading rep n i =>
      if n < i then .notifying
      else if (x.item i).used then .writing rep n i (x.key i)
      else .reading rep n (i + 1)
  | .writing rep n i _ => .reading rep n (i + 1)
  | .notifying =>
      match x.server.selector.resolutionJobs with
      | [] => .selecting
      | _ :: _ => .notifying

/-- The notification that is looked at is taken from the queue. -/
def taken (x : Running) : Running :=
  match x.point with
  | .notifying => { x with server := { x.server with
      selector := { x.server.selector with
        resolutionJobs := x.server.selector.resolutionJobs.tail } } }
  | _ => x

/-- The server after a callback that has opened descriptors; those that it has
closed are in `closed`. -/
def after (x : Running) (srv : Server) (opened : List ℤ) : Running :=
  { x with
    server := srv
    opened := (opened ++ x.opened).filter fun fd =>
      decide (fd ∉ srv.closed.drop x.server.closed.length) }

end Running

/-! ## Sessions -/

/-- What a callback leaves of the list: the session as it is now, or the list
without it. -/
def SessionList.Becomes (l : SessionList) (a : ℕ) (node : SessionNode)
    (c : Config) (l' : SessionList) : Prop :=
  let l := l.put a { node with session := c.world.session, stm := c.stm }
  if c.world.destroyed then l.socksv5Destroy (some a) = .ok l' else l' = l

/-- `socksv5->origin_resolution = addrs`, lost where there is no session. -/
def SessionList.setResolution (l : SessionList) (a : ℕ)
    (addrs : List SockAddr) : SessionList :=
  match l.heap a with
  | some node => l.put a { node with
      session := { node.session with originResolution := addrs } }
  | none => l

namespace Running

/-- The world that a callback of a session finds. -/
def world (x : Running) (a : ℕ) (session : Session) : World where
  address := a
  session := session
  selector := x.server.selector
  metrics := x.server.metrics
  threads := x.threads a

/-- The server after a callback of a session, with the list that it leaves. -/
def afterSession (x : Running) (a : ℕ) (w : World) (l : SessionList) :
    Running :=
  { x.after { x.server with
      selector := w.selector
      sessions := l
      metrics := w.metrics
      closed := x.server.closed ++ w.closed } w.opened with
    threads := Function.update x.threads a w.threads }

/-! ## Accepting -/

/-- What `accept` and the allocation return is not in use. -/
structure Grants (x : Running) (sys : AcceptSys) : Prop where
  accept : ∀ n, sys.accept = some n → (n : ℤ) ∉ x.opened
  address : ∀ a, sys.address = some a → a ∉ x.allocated

end Running

/-- The descriptor that `accept` opens. -/
def AcceptSys.opens (sys : AcceptSys) : List ℤ :=
  sys.accept.toList.map fun n : ℕ => (n : ℤ)

/-- The session that the slot of the new descriptor carries. -/
def AcceptSys.registers (sys : AcceptSys) (s : FdSelector) : List ℕ :=
  match sys.accept, sys.address with
  | some n, some a =>
      if s.registration n = ⟨n, some .socksv5Active, some a⟩ then [a] else []
  | _, _ => []

namespace Running

/-- The server after `socksv5_passive_accept`, which may not have called
`accept`. -/
def afterAccept (x : Running) (sys : AcceptSys) (srv : Server) : Running :=
  { x.after srv (if x.server.metrics.getConcurrentConnections <
      maxConcurrentConnections then sys.opens else []) with
    allocated := sys.address.toList ++ x.allocated
    accepted := sys.registers srv.selector ++ x.accepted }

/-- The server after `admin_passive_accept`. -/
def afterAdminAccept (x : Running) (sys : AcceptSys) (srv : Server) : Running :=
  { x.after srv sys.opens with
    allocated := sys.address.toList ++ x.allocated }

/-! ## Steps -/

/-- The connection of an administrator, in whatever state it is, on the
descriptor and in the server. -/
structure Hosts (x : Running) (key : SelectorKey) (c : AdminConfig) : Prop where
  fd : c.world.fd = key.fd
  selector : c.world.selector = x.server.selector
  metrics : c.world.globals.metrics = x.server.metrics
  live : c.world.destroyed = false

/-- `Calls x handler r key y`: a callback of the table is called with the key,
and leads from `x` to `y`.  The kernel returns no descriptor that is open. -/
inductive Calls (x : Running) :
    FdHandler → Ready → SelectorKey → Running → Prop
  | session {r : Ready} {key : SelectorKey} {a : ℕ} {node : SessionNode}
      {sys : Sys} {c : Config} {l : SessionList} : key.data = some a →
      x.server.sessions.heap a = some node →
      (∀ k n, (sys.attempts k).socket = some n → (n : ℤ) ∉ x.opened) →
      dispatch r key.fd sys ⟨node.stm, x.world a node.session⟩ = .ok c →
      x.server.sessions.Becomes a node c l →
      Calls x .socksv5Active r key (x.afterSession a c.world l)
  | accept {key : SelectorKey} {sys : AcceptSys} {fuel : ℕ} {srv : Server} :
      x.Grants sys → socksv5PassiveAccept fuel sys key x.server = .ok srv →
      Calls x .socksv5Passive .read key (x.afterAccept sys srv)
  | adminAccept {key : SelectorKey} {sys : AcceptSys} {fuel : ℕ}
      {srv : Server} : x.Grants sys →
      adminPassiveAccept fuel sys key x.server = .ok srv →
      Calls x .adminPassive .read key (x.afterAdminAccept sys srv)
  | admin {r : Ready} {key : SelectorKey} {sys : AdminSys}
      {c c' : AdminConfig} : x.Hosts key c → adminDispatch r sys c = .ok c' →
      c'.world.destroyed = false →
      Calls x .adminActive r key (x.after { x.server with
        selector := c'.world.selector
        metrics := c'.world.globals.metrics } [])
  | adminEnds {r : Ready} {key : SelectorKey} {ad fuel : ℕ} {sys : AdminSys}
      {c c' : AdminConfig} {l : AdminList} : x.Hosts key c →
      adminDispatch r sys c = .ok c' → c'.world.destroyed = true →
      key.data = some ad → removeAdmin fuel ad x.server.admins = .ok l →
      Calls x .adminActive r key (x.after { x.server with
        selector := c'.world.selector
        admins := l
        metrics := c'.world.globals.metrics
        closed := x.server.closed ++ [key.fd] } [])

/-- The threads of a session when one of them is done. -/
def found (x : Running) (a : ℕ) (fd : ℤ) (addrs : List SockAddr) : Running :=
  { x with
    server := { x.server with
      sessions := x.server.sessions.setResolution a addrs }
    threads := Function.update x.threads a ((x.threads a).erase fd)
    notices := fd :: x.notices }

end Running

/-- What happens: `pselect` reports descriptors, or a signal interrupts it; the
loop calls a handler, or goes past a point where there is none to be called; a
thread starts, finds addresses, or queues its notification. -/
inductive LoopEvent
  | selects (rep : Reported)
  | interrupted
  | calls (handler : FdHandler) (r : Ready) (key : SelectorKey)
  | passes
  | starts (a : ℕ) (fd : ℤ)
  | finds (a : ℕ) (fd : ℤ) (addrs : List SockAddr)
  | notifies (fd : ℤ) (alloc : Bool)

/-- `Running.Step x e y`: the event leads from `x` to `y`. -/
inductive Running.Step : Running → LoopEvent → Running → Prop
  | selects {x : Running} (rep : Reported) : x.point = .selecting →
      Step x (.selects rep) { x with
        point := .reading rep x.server.selector.maxFd.toNat 0 }
  | interrupted {x : Running} : x.point = .selecting →
      Step x .interrupted { x with point := .notifying }
  | calls {x y : Running} {handler : FdHandler} {r : Ready}
      {key : SelectorKey} : x.due = some (r, some handler, key) →
      handler.handles r = true → x.taken.Calls handler r key y →
      Step x (.calls handler r key) { y with point := x.next }
  | passes {x : Running} : x.point ≠ .selecting → x.due = none →
      Step x .passes { x.taken with point := x.next }
  | starts {x : Running} {a : ℕ} {fd : ℤ} : fd ∈ x.threads a →
      Step x (.starts a fd) { x with server := { x.server with
        sessions := x.server.sessions.setResolution a [] } }
  | finds {x : Running} {a : ℕ} {fd : ℤ} (addrs : List SockAddr) :
      fd ∈ x.threads a → Step x (.finds a fd addrs) (x.found a fd addrs)
  | notifies {x : Running} {fd : ℤ} (alloc : Bool) : fd ∈ x.notices →
      x.point ≠ .notifying →
      Step x (.notifies fd alloc) { x with
        server := { x.server with
          selector := (selectorNotifyBlock x.server.selector fd alloc).2 }
        notices := x.notices.erase fd }

/-- The server when `main` gets to its loop; it listens at open
descriptors. -/
def Running.Starts (x : Running) : Prop :=
  ∃ srv opened, srv.Starts ∧
    (∀ fd, srv.selector.Registered fd → fd ∈ opened) ∧
    x = { server := srv, opened := opened }

end Socksv5
