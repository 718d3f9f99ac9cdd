import Socksv5.Session.World

/-!
# The handshake

`greeting_stm.c`, `auth_stm.c` and `request_stm.c`: the callbacks of the states
before and after `ORIGIN_CONNECT`.  A callback is given the descriptor it is
called for, which is `key->fd`.
-/

namespace Socksv5

open Support

/-! ## `greeting_stm.c` -/

/-- `NO_ACCEPTABLE_METHODS` -/
def noAcceptableMethods : UInt8 := 255

/-- `USERNAME_PASSWORD_AUTH` -/
def usernamePasswordAuth : UInt8 := 2

/-- `NO_AUTHENTICATION_REQUIRED` -/
def noAuthenticationRequired : UInt8 := 0

/-- `greeting_init` -/
def greetingInit (w : World) : World :=
  { w with session := { w.session with
      greeting := { parser := greetingParserInit, methodSelected := -1 } } }

/-- The loop of `select_method`, from index `i` for `n` more turns. -/
def selectMethodLoop (methods : Block) : ℕ → ℕ → UInt8 → Except Fault UInt8
  | 0, _, ret => .ok ret
  | n + 1, i, ret =>
      match methods[i]? with
      | none => .error .outOfBounds
      | some m =>
          if m = usernamePasswordAuth then .ok m
          else selectMethodLoop methods n (i + 1)
            (if m = noAuthenticationRequired then m else ret)

/-- `select_method` -/
def selectMethod (methods : Option Block) (numberOfMethods : UInt8) :
    Except Fault UInt8 :=
  match methods with
  | some methods =>
      selectMethodLoop methods numberOfMethods.toNat 0 noAcceptableMethods
  | none => .ok noAcceptableMethods

/-- `greeting_read` -/
def greetingRead (sys : Sys) (fd : ℤ) (w : World) :
    Except Fault (GlobalState × World) := do
  let (received, w) ← w.recvInto .greetingRead sys fd w.session.readBuffer
  match received with
  | .data _ rb => do
      let (rb, parser, _) ←
        consumeGreetingBuffer rb w.session.greeting.parser sys.allocs
      let w := { w with session := { w.session with
        readBuffer := rb
        greeting := { w.session.greeting with parser := parser } } }
      if parser.state.final then do
        let method ← selectMethod parser.methods parser.methodsRemaining
        let w := { w with session := { w.session with
          greeting := { w.session.greeting with
            methodSelected := method.toNat } } }
        let (ret, w) ← w.setInterestKey fd .write
        if ret ≠ .success then .ok (.error, w)
        else do
          let filled ← greetingFillMsg w.session.writeBuffer method
          match filled with
          | none => .ok (.error, w)
          | some wb => .ok (.greetingWrite, w.setWriteBuffer wb)
      else .ok (.greetingRead, w)
  | _ => .ok (.error, w)

/-- `greeting_write` -/
def greetingWrite (sys : Sys) (fd : ℤ) (w : World) :
    Except Fault (GlobalState × World) := do
  let (sent, w) ← w.sendFrom .greetingWrite sys fd w.session.writeBuffer
  match sent with
  | some (_, wb) =>
      let w := w.setWriteBuffer wb
      if wb.canRead then .ok (.greetingWrite, w)
      else do
        let (ret, w) ← w.setInterestKey fd .read
        if ret ≠ .success then .ok (.error, w)
        else if w.session.greeting.methodSelected =
            noAuthenticationRequired.toNat then .ok (.requestRead, w)
        else if w.session.greeting.methodSelected =
            usernamePasswordAuth.toNat then .ok (.authRead, w)
        else .ok (.error, w)
  | none => .ok (.error, w)

/-! ## `auth_stm.c` -/

/-- `AUTH_SUCCESS` -/
def authSuccess : UInt8 := 0

/-- `AUTH_FAIL` -/
def authFail : UInt8 := 1

/-- `auth_init` -/
def authInit (w : World) : World :=
  { w with session := { w.session with
      auth := { parser := authParserInit, reply := authFail } } }

/-- The branch of `auth_read` for a complete message. -/
def authenticate (sys : Sys) (w : World) : Except Fault World :=
  let parser := w.session.auth.parser
  if parser.state = .done then
    match parser.user, parser.password with
    | some user, some password =>
        let ok := authenticateUser sys.parameters user password
        let w := w.record (.authenticate user password ok)
        if ok then
          .ok { w with session := { w.session with
            auth := { w.session.auth with reply := authSuccess }
            connectedUser := some ⟨user, password⟩ } }
        else
          .ok { w with session := { w.session with
            auth := { w.session.auth with reply := authFail } } }
    | _, _ => .error .nullDereference
  else .ok w

/-- `auth_read` -/
def authRead (sys : Sys) (fd : ℤ) (w : World) :
    Except Fault (GlobalState × World) := do
  let (received, w) ← w.recvInto .authRead sys fd w.session.readBuffer
  match received with
  | .data _ rb => do
      let (rb, parser, _) ←
        consumeAuthBuffer rb w.session.auth.parser sys.allocs
      let w := { w with session := { w.session with
        readBuffer := rb
        auth := { w.session.auth with parser := parser } } }
      if parser.state.final then do
        let w ← authenticate sys w
        let (ret, w) ← w.setInterestKey fd .write
        if ret ≠ .success then .ok (.error, w)
        else do
          let wb ← authFillMsg w.session.writeBuffer w.session.auth.reply
          .ok (.authWrite, w.setWriteBuffer wb)
      else .ok (.authRead, w)
  | _ => .ok (.error, w)

/-- `auth_write` -/
def authWrite (sys : Sys) (fd : ℤ) (w : World) :
    Except Fault (GlobalState × World) := do
  let (sent, w) ← w.sendFrom .authWrite sys fd w.session.writeBuffer
  match sent with
  | some (_, wb) =>
      let w := w.setWriteBuffer wb
      if wb.canRead then .ok (.authWrite, w)
      else do
        let (ret, w) ← w.setInterestKey fd .read
        if ret ≠ .success then .ok (.error, w)
        else if w.session.auth.reply = authSuccess then .ok (.requestRead, w)
        else .ok (.done, w)
  | none => .ok (.error, w)

/-! ## `request_stm.c` -/

/-- `request_read_init` -/
def requestReadInit (w : World) : World :=
  { w with session := { w.session with
      request := { w.session.request with
        parser := requestParserInit w.session.request.parser } } }

/-- `request_read` -/
def requestRead (sys : Sys) (fd : ℤ) (w : World) :
    Except Fault (GlobalState × World) := do
  let (received, w) ← w.recvInto .requestRead sys fd w.session.readBuffer
  match received with
  | .data _ rb => do
      let (rb, parser, _) ←
        consumeRequestBuffer rb w.session.request.parser sys.allocs
      let w := { w with session := { w.session with
        readBuffer := rb
        request := { w.session.request with parser := parser } } }
      if parser.state = .done then do
        let (ret, w) ← w.setInterestKey fd .noop
        if ret ≠ .success then .ok (.error, w) else .ok (.originConnect, w)
      else if parser.state = .error then do
        let (ret, w) ← w.setInterestKey fd .write
        if ret ≠ .success then .ok (.error, w) else .ok (.requestWrite, w)
      else .ok (.requestRead, w)
  | _ => .ok (.error, w)

/-- `request_write` -/
def requestWrite (sys : Sys) (fd : ℤ) (w : World) :
    Except Fault (GlobalState × World) := do
  let wb ← requestFillMsg w.session.writeBuffer w.session.request.parser
  let (sent, w) ← (w.setWriteBuffer wb).sendFrom .requestWrite sys fd wb
  match sent with
  | some (_, wb) =>
      let w := w.setWriteBuffer wb
      if wb.canRead then .ok (.requestWrite, w)
      else if w.session.request.parser.reply = .succeded then do
        let (ret, w) ← w.setInterestKey fd .read
        if ret ≠ .success then .ok (.error, w)
        else do
          let (ret, w) ← w.setInterest w.session.originFd .read
          if ret ≠ .success then .ok (.error, w) else .ok (.copy, w)
      else .ok (.done, w)
  | none => .ok (.error, w)

end Socksv5
