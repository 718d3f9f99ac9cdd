import Socksv5.Admin.AuthParser
import Socksv5.Admin.Response
import Socksv5.Stm

/-!
# A connection of an administrator

`admin_auth.c`, `admin_request.c`, `admin_stm.c`, and the callbacks of
`admin_server.c` for one connection: the world that its callbacks change, the
callbacks, and the table of its states.  The list of all administrators, which
`destroy_admin` also changes, is modelled apart.
-/

namespace Socksv5

open Support

/-- `enum admin_state` -/
inductive AdminState
  | auth
  | request
  | done
  | error
deriving DecidableEq, Repr

/-- The number of a state. -/
def AdminState.id : AdminState → ℕ
  | .auth => 0
  | .request => 1
  | .done => 2
  | .error => 3

/-- The state that has a number. -/
def AdminState.ofId : ℕ → Option AdminState
  | 0 => some .auth
  | 1 => some .request
  | 2 => some .done
  | 3 => some .error
  | _ => none

/-- `struct admin` -/
structure Admin where
  readBuffer : Buffer := .init maxBuffSize fun _ => 0
  writeBuffer : Buffer := .init maxBuffSize fun _ => 0
  authParser : AdminAuthParser := {}
  reqParser : ReqParser := {}

/-- What the system calls and allocations of one callback return. -/
structure AdminSys where
  recv : RecvResult := .failed
  send : SendResult := .failed
  allocs : Allocs := []
  mallocs : Mallocs := []

/-- The calls that are logged.  A `recv` or `send` is logged with the state
whose callback makes it and with the bytes it transferred. -/
inductive AdminCall
  | recv (state : AdminState) (bs : List UInt8)
  | send (state : AdminState) (bs : List UInt8)
  | authenticate (user password : Block) (result : Bool)
  | perform (command : Performed)
deriving DecidableEq, Repr

/-- What a callback of the connection on `fd` changes; `log` is not data of the
program. -/
structure AdminWorld where
  fd : ℤ
  admin : Admin := {}
  selector : FdSelector
  globals : Globals := {}
  log : List AdminCall := []
  destroyed : Bool := false

namespace AdminWorld

/-- Log a call. -/
def record (w : AdminWorld) (c : AdminCall) : AdminWorld :=
  { w with log := w.log ++ [c] }

/-- Set `write_buffer`. -/
def setWriteBuffer (w : AdminWorld) (b : Buffer) : AdminWorld :=
  { w with admin := { w.admin with writeBuffer := b } }

/-- `selector_set_interest_key` -/
def setInterestKey (w : AdminWorld) (i : FdInterest) :
    Except Fault (SelectorStatus × AdminWorld) := do
  let (ret, s) ← selectorSetInterestKey w.selector w.fd i
  .ok (ret, { w with selector := s })

/-- `recv` where `buffer_write_ptr` points, then `buffer_write_adv`; `none` when
`recv` returns 0 or fails. -/
def recvInto (w : AdminWorld) (state : AdminState) (sys : AdminSys)
    (b : Buffer) : Except Fault (Option Buffer × AdminWorld) :=
  match sys.recv.upTo b.room with
  | .received (c :: cs) => do
      let b ← b.put (c :: cs)
      .ok (some b, w.record (.recv state (c :: cs)))
  | _ => .ok (none, w.record (.recv state []))

/-- `send` from where `buffer_read_ptr` points, then `buffer_read_adv`; `none`
when `send` returns 0 or fails. -/
def sendFrom (w : AdminWorld) (state : AdminState) (sys : AdminSys)
    (b : Buffer) : Except Fault (Option Buffer × AdminWorld) :=
  match sys.send, b.pending with
  | .accepted k, c :: cs => do
      let bs := (c :: cs).take (k + 1)
      let b ← b.readAdv bs.length
      .ok (some b, w.record (.send state bs))
  | _, _ => .ok (none, w.record (.send state []))

end AdminWorld

/-! ## `admin_auth.c` -/

/-- `admin_auth_init` -/
def adminAuthInit (w : AdminWorld) : AdminWorld :=
  { w with admin := { w.admin with
      authParser := adminAuthParserInit w.admin.authParser } }

/-- Set `admin_auth_parser.ret`. -/
def AdminWorld.setRet (w : AdminWorld) (ret : ℤ) : AdminWorld :=
  { w with admin := { w.admin with
      authParser := { w.admin.authParser with ret := ret } } }

/-- The branch of `admin_auth_read` that sets `ret`, for a message that has
ended. -/
def judge (w : AdminWorld) : Except Fault AdminWorld :=
  let parser := w.admin.authParser
  if parser.state = .done then
    match parser.user, parser.password with
    | some user, some password =>
        let ok := authenticateAdmin w.globals.parameters user password
        let w := w.record (.authenticate user password ok)
        .ok (w.setRet (if ok then adminAuthSuccess else adminAuthBadCredentials))
    | _, _ => .error .nullDereference
  else .ok (w.setRet adminAuthBadSyntax)

/-- `admin_auth_read` -/
def adminAuthRead (sys : AdminSys) (w : AdminWorld) :
    Except Fault (AdminState × AdminWorld) := do
  let (received, w) ← w.recvInto .auth sys w.admin.readBuffer
  match received with
  | some rb => do
      let (rb, parser, _) ←
        adminConsumeAuthBuffer rb w.admin.authParser sys.allocs
      let w := { w with admin := { w.admin with
        readBuffer := rb, authParser := parser } }
      if parser.state.final then do
        let w ← judge w
        let (ret, w) ← w.setInterestKey .write
        if ret ≠ .success then .ok (.error, w) else .ok (.auth, w)
      else .ok (.auth, w)
  | none => .ok (.error, w)

/-- `admin_auth_write` -/
def adminAuthWrite (sys : AdminSys) (w : AdminWorld) :
    Except Fault (AdminState × AdminWorld) := do
  let filled ← adminAuthFillMsg w.admin.writeBuffer w.admin.authParser.ret
  let (sent, w) ← w.sendFrom .auth sys (filled.getD w.admin.writeBuffer)
  match sent with
  | some wb =>
      let w := w.setWriteBuffer wb
      if wb.canRead then .ok (.auth, w)
      else do
        let (ret, w) ← w.setInterestKey .read
        if ret ≠ .success then .ok (.error, w)
        else if w.admin.authParser.ret = adminAuthSuccess then .ok (.request, w)
        else .ok (.done, w)
  | none => .ok (.error, w)

/-! ## `admin_request.c` -/

/-- `admin_request_init` -/
def adminRequestInit (w : AdminWorld) : AdminWorld :=
  { w with admin := { w.admin with
      readBuffer := w.admin.readBuffer.reset
      writeBuffer := w.admin.writeBuffer.reset
      reqParser := adminReqParserInit w.admin.reqParser } }

/-- `admin_request_read` -/
def adminRequestRead (sys : AdminSys) (w : AdminWorld) :
    Except Fault (AdminState × AdminWorld) := do
  let (received, w) ← w.recvInto .request sys w.admin.readBuffer
  match received with
  | some rb => do
      let (rb, parser, _) ←
        adminConsumeReqBuffer rb w.admin.reqParser sys.mallocs
      let w := { w with admin := { w.admin with
        readBuffer := rb, reqParser := parser } }
      let (ret, w) ← w.setInterestKey .write
      if ret ≠ .success then .ok (.error, w) else .ok (.request, w)
  | none => .ok (.error, w)

/-- Log what has been performed. -/
def AdminWorld.performed (w : AdminWorld) : Option Performed → AdminWorld
  | some command => w.record (.perform command)
  | none => w

/-- `admin_request_write` -/
def adminRequestWrite (sys : AdminSys) (w : AdminWorld) :
    Except Fault (AdminState × AdminWorld) := do
  let (wb, parser, globals, performed) ← adminReqFillMsg w.admin.writeBuffer
    w.admin.reqParser w.globals sys.mallocs
  let w := { w with
    admin := { w.admin with writeBuffer := wb, reqParser := parser }
    globals := globals }.performed performed
  let (sent, w) ← w.sendFrom .request sys wb
  match sent with
  | some wb =>
      let w := w.setWriteBuffer wb
      if wb.canRead then .ok (.request, w)
      else do
        let (ret, w) ← w.setInterestKey .read
        if ret ≠ .success then .ok (.error, w) else .ok (.request, w)
  | none => .ok (.error, w)

/-! ## `admin_stm.c` and `admin_server.c` -/

/-- A callback. -/
abbrev AdminCallback := AdminWorld → Except Fault (AdminState × AdminWorld)

/-- The `on_arrival` column of `admin_states_definition`. -/
def adminOnArrival : AdminState → Option (AdminWorld → AdminWorld)
  | .auth => some adminAuthInit
  | .request => some adminRequestInit
  | _ => none

/-- The columns of `admin_states_definition` for the events. -/
def adminOnReady (sys : AdminSys) : AdminState → Ready → Option AdminCallback
  | .auth, .read => some (adminAuthRead sys)
  | .auth, .write => some (adminAuthWrite sys)
  | .request, .read => some (adminRequestRead sys)
  | .request, .write => some (adminRequestWrite sys)
  | _, _ => none

/-- A callback, as the engine calls it. -/
def AdminCallback.numbered (f : AdminCallback) (w : AdminWorld) :
    Except Fault (ℕ × AdminWorld) := do
  let (s, w) ← f w
  .ok (s.id, w)

/-- `admin_states_definition` -/
def adminStatesDefinition (sys : AdminSys) (i : ℕ) :
    StateDefinition AdminWorld :=
  match AdminState.ofId i with
  | some s =>
      { state := s.id
        onArrival := (adminOnArrival s).map fun f _ w => .ok (s.id, f w)
        onReady := fun r => (adminOnReady sys s r).map AdminCallback.numbered }
  | none => { state := i }

/-- The table of a connection, as `new_admin` sets it. -/
def adminTable (sys : AdminSys) : StateTable AdminWorld where
  initial := AdminState.auth.id
  maxState := AdminState.error.id
  states := adminStatesDefinition sys

/-- What `destroy_admin` does to the connection itself. -/
def endAdmin (w : AdminWorld) : Except Fault AdminWorld := do
  let (ret, s) ← selectorUnregisterFd w.selector w.fd
  if ret ≠ .success then .error .exit
  else .ok { w with selector := s, destroyed := true }

/-- A connection's machine and its world. -/
structure AdminConfig where
  stm : Machine := {}
  world : AdminWorld

/-- `admin_read` and `admin_write`: no arrival redirects. -/
def adminDispatch (r : Ready) (sys : AdminSys) (c : AdminConfig) :
    Except Fault AdminConfig := do
  let (state, stm, w) ← stmHandler (adminTable sys) r 1 c.stm c.world
  if state = AdminState.error.id ∨ state = AdminState.done.id then do
    let w ← endAdmin w
    .ok ⟨stm, w⟩
  else .ok ⟨stm, w⟩

/-- `admin_read` -/
def adminRead := adminDispatch .read

/-- `admin_write` -/
def adminWrite := adminDispatch .write

end Socksv5
