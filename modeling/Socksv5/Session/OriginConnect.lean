import Socksv5.Session.World

/-!
# Connecting to the origin

`origin_connect_stm.c`.  The calls for the addresses of a list are made one
address after the other; the results for the `k`-th of them are `attempts k`.
-/

namespace Socksv5

open Support

/-- The label `finally` of `connect_through_ip`. -/
def connectFailed (fd : ℤ) (w : World) : Except Fault (GlobalState × World) := do
  let (ret, w) ← w.setInterestKey fd .write
  if ret ≠ .success then .ok (.error, w) else .ok (.requestWrite, w)

/-- The bytes `addr[0] ... addr[n - 1]`. -/
def readAddr (addr : Option Block) (n : ℤ) : Except Fault (List UInt8) :=
  match addr with
  | some block =>
      if n.toNat ≤ block.length then .ok (block.take n.toNat)
      else .error .outOfBounds
  | none => if n ≤ 0 then .ok [] else .error .nullDereference

/-- `htons` of the port of a request -/
def requestPort (p : RequestParser) : ℕ := (p.port % 65536).toNat

/-- Store the address of a request that is not for an FQDN where `connect` is
given it. -/
def fillOriginAddr (wasFqdn : Bool) (w : World) : Except Fault World :=
  if wasFqdn then .ok w
  else do
    let request := w.session.request
    let addr ← readAddr request.parser.addr request.parser.addrLen
    if request.parser.atyp = 1 then
      .ok { w with session := { w.session with request := { request with
        originAddrIpv4 := ⟨.inet, requestPort request.parser, addr⟩ } } }
    else
      .ok { w with session := { w.session with request := { request with
        originAddrIpv6 := ⟨.inet6, requestPort request.parser, addr⟩ } } }

/-- The descriptor that `socket` returned. -/
def socketFd : Option ℕ → ℤ
  | some n => n
  | none => -1

/-- The address that `connect` is given. -/
def RequestStm.originAddr (request : RequestStm) : SockAddr :=
  if request.parser.atyp = 1 then request.originAddrIpv4
  else request.originAddrIpv6

/-- `connect_through_ip`, with the results `a`; the families differ in the
address only. -/
def connectThroughIp (a : Attempt) (realloc : Bool) (fd : ℤ) (wasFqdn : Bool)
    (w : World) : Except Fault (GlobalState × World) := do
  let originFd := socketFd a.socket
  let w := { w with
    session := { w.session with originFd := originFd }
    conn := .none
    log := w.log ++ [.socket a.socket] }
  if originFd < 0 then connectFailed fd w
  else if !a.nio then connectFailed fd w
  else do
    let w ← fillOriginAddr wasFqdn w
    let w := w.record
      (.connect originFd w.session.request.originAddr a.connect)
    match a.connect with
    | .connected => .ok (.originConnect, { w with conn := .connected })
    | .inProgress => do
        let w := { w with conn := .connecting }
        let (ret, s) ← selectorRegister w.selector originFd
          (some .socksv5Active) .write (some w.address) realloc
        if ret ≠ .success then .ok (.error, { w with selector := s })
        else .ok (.originConnect, { w with selector := s })
    | .failed => connectFailed fd (w.setReply .hostUnreachable)

/-- `connect_through_fqdn`.  The result of the last call is not looked at. -/
def connectThroughFqdn (sys : Sys) (fd : ℤ) (w : World) :
    Except Fault (GlobalState × World) :=
  if !sys.malloc then .ok (.error, w)
  else if sys.pthreadCreate = -1 then .ok (.error, w)
  else do
    let w :=
      if sys.pthreadCreate = 0 then
        { w with threads := fd :: w.threads, log := w.log ++ [.thread fd] }
      else w
    let (_, w) ← w.setInterestKey fd .noop
    .ok (.originConnect, w)

/-- `connect_to_origin` -/
def connectToOrigin (sys : Sys) (fd : ℤ) (w : World) :
    Except Fault (GlobalState × World) :=
  let atyp := w.session.request.parser.atyp
  if atyp = 1 ∨ atyp = 4 then
    connectThroughIp (sys.attempts 0) sys.realloc fd false w
  else connectThroughFqdn sys fd w

/-- `connect_origin_init` -/
def connectOriginInit (sys : Sys) (fd : ℤ) (w : World) :
    Except Fault (GlobalState × World) :=
  if w.session.originFd < 0 then connectToOrigin sys fd w
  else .ok (.originConnect, w)

/-- `connect_origin_thread`, for the addresses that `getaddrinfo` found.  What
`selector_notify_block` returns is not looked at. -/
def connectOriginThread (fd : ℤ) (addrs : List SockAddr) (alloc : Bool)
    (w : World) : World :=
  { w with
    session := { w.session with originResolution := addrs }
    selector := (selectorNotifyBlock w.selector fd alloc).2
    threads := w.threads.erase fd }

/-- Make an address of the list the one that `connect_through_ip` uses. -/
def useAddress (addr : SockAddr) (w : World) : World :=
  let request := w.session.request
  { w with session := { w.session with request :=
      match addr.family with
      | .inet => { request with
          parser := { request.parser with atyp := 1 }, originAddrIpv4 := addr }
      | .inet6 => { request with
          parser := { request.parser with atyp := 4 },
          originAddrIpv6 := addr } } }

/-- `freeaddrinfo`, and the pointer set to 0 -/
def freeResolution (w : World) : World :=
  { w with session := { w.session with originResolution := [] } }

/-- The label `finally` of `connect_origin_block`. -/
def resolutionFailed (w : World) : Except Fault (GlobalState × World) := do
  let (ret, w) ← w.setInterest w.session.clientFd .write
  if ret ≠ .success then .ok (.error, w)
  else .ok (.requestWrite, w.setReply .hostUnreachable)

/-- The loop of `connect_origin_block` over the rest of the list, which starts
with its `k`-th address. -/
def connectOriginLoop (sys : Sys) (fd : ℤ) :
    ℕ → List SockAddr → World → Except Fault (GlobalState × World)
  | _, [], w => resolutionFailed (freeResolution w)
  | k, addr :: rest, w => do
      let (ret, w) ← connectThroughIp (sys.attempts k) sys.realloc fd true
        (useAddress addr w)
      if ret = .originConnect then .ok (.originConnect, freeResolution w)
      else if ret = .error then .ok (.error, w)
      else connectOriginLoop sys fd (k + 1) rest w

/-- `connect_origin_block` -/
def connectOriginBlock (sys : Sys) (fd : ℤ) (w : World) :
    Except Fault (GlobalState × World) :=
  match w.session.originResolution with
  | [] => resolutionFailed w
  | addrs => connectOriginLoop sys fd 0 addrs w

/-- The reply for an error of the connection: `ECONNREFUSED`, `ENETUNREACH`,
`EHOSTUNREACH` or another. -/
def replyOfError (error : ℕ) : Reply :=
  if error = 111 then .connectionRefused
  else if error = 101 then .networkUnreachable
  else if error = 113 then .hostUnreachable
  else .generalSocksServerFailure

/-- `verify_connection`.  The reply is set before the interests when the
connection failed, and after them when it did not. -/
def verifyConnection (sys : Sys) (fd : ℤ) (w : World) :
    Except Fault (GlobalState × World) := do
  let w := w.record (.getsockopt w.session.originFd sys.soError)
  match sys.soError with
  | none => .ok (.error, w)
  | some error => do
      let w := if error ≠ 0 then w.setReply (replyOfError error) else w
      let (ret, w) ← w.setInterestKey fd .noop
      if ret ≠ .success then .ok (.error, w)
      else do
        let (ret, w) ← w.setInterest w.session.clientFd .write
        if ret ≠ .success then .ok (.error, w)
        else if error ≠ 0 then .ok (.requestWrite, w)
        else .ok (.requestWrite, w.setReply .succeded)

end Socksv5
