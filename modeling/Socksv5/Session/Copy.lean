import Socksv5.Session.World

/-!
# The relay

`copy_stm.c`.  What the client sends goes through `write_buffer`, what the
origin sends through `read_buffer`.  The descriptor on the other side is kept
in a `uint8_t`.
-/

namespace Socksv5

open Support

/-- `copy_init` -/
def copyInit (w : World) : World :=
  { w with session := { w.session with copy := ⟨true, true, true, true⟩ } }

/-- The value of a descriptor in a `uint8_t`. -/
def uint8 (fd : ℤ) : ℤ := fd % 256

/-- The two sides of the relay. -/
inductive Side
  | client
  | origin
deriving DecidableEq, Repr

/-- The side that a descriptor is on; the client is tested first. -/
def Session.side? (s : Session) (fd : ℤ) : Option Side :=
  if fd = s.clientFd then some .client
  else if fd = s.originFd then some .origin
  else none

namespace Side

/-- The other side. -/
def peer : Side → Side
  | .client => .origin
  | .origin => .client

/-- The descriptor of a side. -/
def fd (s : Session) : Side → ℤ
  | .client => s.clientFd
  | .origin => s.originFd

/-- The buffer for what a side sends. -/
def inbox (s : Session) : Side → Buffer
  | .client => s.writeBuffer
  | .origin => s.readBuffer

/-- The buffer for what a side is sent. -/
def outbox (s : Session) (side : Side) : Buffer := side.peer.inbox s

/-- Replace the buffer for what a side sends. -/
def setInbox (w : World) (b : Buffer) : Side → World
  | .client => w.setWriteBuffer b
  | .origin => w.setReadBuffer b

/-- Replace the buffer for what a side is sent. -/
def setOutbox (w : World) (b : Buffer) (side : Side) : World :=
  side.peer.setInbox w b

/-- The flag for reading from a side. -/
def reading (c : CopyStm) : Side → Bool
  | .client => c.readingClient
  | .origin => c.readingOrigin

/-- The flag for writing to a side. -/
def writing (c : CopyStm) : Side → Bool
  | .client => c.writingClient
  | .origin => c.writingOrigin

/-- Clear the flag for reading from a side. -/
def stopReading (c : CopyStm) : Side → CopyStm
  | .client => { c with readingClient := false }
  | .origin => { c with readingOrigin := false }

/-- Clear the flag for writing to a side. -/
def stopWriting (c : CopyStm) : Side → CopyStm
  | .client => { c with writingClient := false }
  | .origin => { c with writingOrigin := false }

end Side

/-- Set the flags. -/
def World.setCopy (w : World) (c : CopyStm) : World :=
  { w with session := { w.session with copy := c } }

/-- `check_close_connection` -/
def checkCloseConnection (c : CopyStm) : GlobalState :=
  if c.readingClient = false ∧ c.readingOrigin = false ∧
    c.writingOrigin = false ∧ c.writingClient = false then .done
  else .copy

/-- `shutdown(fd, SHUT_WR)`, with the test of its result. -/
def World.shutdown (w : World) (sys : Sys) (fd : ℤ) : Bool × World :=
  (sys.shutdown, w.record (.shutdown fd))

/-- The call of `sniff_pop3` in `copy_read` and `copy_write`. -/
def sniff (sys : Sys) (side : Side) (bytes : List UInt8) (w : World) :
    Except Fault World :=
  if side = .origin ∧ sys.parameters.disectorsEnabled then do
    let sniffer ← sniffPop3 w.session.pop3sniffer bytes sys.allocs
    .ok { w with session := { w.session with pop3sniffer := sniffer } }
  else .ok w

/-- The flags that `copy_read` clears at the end of the stream of a side: both
of that side, and that for reading from the other. -/
def endOfStream (c : CopyStm) (side : Side) : CopyStm :=
  side.peer.stopReading (side.stopWriting (side.stopReading c))

/-- The branch of `copy_read` for the end of a stream. -/
def copyReadEnd (sys : Sys) (side : Side) (fd fdTarget : ℤ) (w : World) :
    Except Fault (GlobalState × World) := do
  let (ret, w) ← w.reduceInterest fd .read
  if ret ≠ .success then .ok (.error, w)
  else
    let w := w.setCopy (endOfStream w.session.copy side)
    if (side.inbox w.session).canRead then
      .ok (checkCloseConnection w.session.copy, w)
    else
      let (ok, w) := w.shutdown sys fdTarget
      if !ok then .ok (.error, w)
      else
        let w := w.setCopy (side.peer.stopWriting w.session.copy)
        .ok (checkCloseConnection w.session.copy, w)

/-- `copy_read` -/
def copyRead (sys : Sys) (fd : ℤ) (w : World) :
    Except Fault (GlobalState × World) :=
  match w.session.side? fd with
  | none => .error .exit
  | some side => do
      let fdTarget := uint8 (side.peer.fd w.session)
      let (received, w) ← w.recvInto .copy sys fd (side.inbox w.session)
      match received with
      | .data bs b => do
          let w := { w with
            metrics := w.metrics.addTotalBytesTransferred bs.length }
          let w ← sniff sys side bs w
          let (ret, w) ← (side.setInbox w b).reduceInterest fd .read
          if ret ≠ .success then .ok (.error, w)
          else do
            let (ret, w) ← w.addInterest fdTarget .write
            if ret ≠ .success then .ok (.error, w)
            else .ok (checkCloseConnection w.session.copy, w)
      | .eof | .reset => copyReadEnd sys side fd fdTarget w
      | .failed => .ok (.error, w)

/-- What `copy_write` does once the buffer for the side has been emptied; the
`Bool` says whether to go on. -/
def copyWriteDrained (sys : Sys) (side : Side) (fd : ℤ) (w : World) :
    Except Fault (Bool × World) :=
  if (side.outbox w.session).canRead then .ok (true, w)
  else do
    let (ret, w) ← w.reduceInterest fd .write
    if ret ≠ .success then .ok (false, w)
    else if side.peer.reading w.session.copy then .ok (true, w)
    else .ok ((w.setCopy (side.stopWriting w.session.copy)).shutdown sys fd)

/-- `copy_write` -/
def copyWrite (sys : Sys) (fd : ℤ) (w : World) :
    Except Fault (GlobalState × World) :=
  match w.session.side? fd with
  | none => .error .exit
  | some side => do
      let fdTarget := uint8 (side.peer.fd w.session)
      let (sent, w) ← w.sendFrom .copy sys fd (side.outbox w.session)
      match sent with
      | none => .ok (.error, w)
      | some (bs, b) => do
          let w ← sniff sys side bs w
          let (ok, w) ← copyWriteDrained sys side fd (side.setOutbox w b)
          if !ok then .ok (.error, w)
          else if side.peer.reading w.session.copy then do
            let (ret, w) ← w.addInterest fdTarget .read
            if ret ≠ .success then .ok (.error, w)
            else .ok (checkCloseConnection w.session.copy, w)
          else .ok (checkCloseConnection w.session.copy, w)

end Socksv5
