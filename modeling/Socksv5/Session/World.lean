import Socksv5.AuthParser
import Socksv5.GreetingParser
import Socksv5.Parameters
import Socksv5.Pop3Sniffer
import Socksv5.RequestParser
import Socksv5.Selector

/-!
# A session and its surroundings

`struct socksv5`, the results that the system calls of one callback have, and
the world a callback changes: the session, the selector, the metrics, and what
the kernel knows of the session's connection.  The world also keeps a log of
the calls made.

The pointers `rb` and `wb` of the states always point to `read_buffer` and
`write_buffer`; callbacks use those directly.
-/

namespace Socksv5

open Support

/-- `enum socksv5_global_state` -/
inductive GlobalState
  | greetingRead
  | greetingWrite
  | authRead
  | authWrite
  | requestRead
  | requestWrite
  | originConnect
  | copy
  | done
  | error
deriving DecidableEq, Repr

/-- The number of a state. -/
def GlobalState.id : GlobalState → ℕ
  | .greetingRead => 0
  | .greetingWrite => 1
  | .authRead => 2
  | .authWrite => 3
  | .requestRead => 4
  | .requestWrite => 5
  | .originConnect => 6
  | .copy => 7
  | .done => 8
  | .error => 9

/-- The address families that the resolver is asked for. -/
inductive Family
  | inet
  | inet6
deriving DecidableEq, Repr

/-- `struct sockaddr_in` and `struct sockaddr_in6` -/
structure SockAddr where
  family : Family
  port : ℕ := 0
  addr : List UInt8 := []
deriving DecidableEq, Repr

/-- `struct greeting_stm` -/
structure GreetingStm where
  parser : GreetingParser := {}
  methodSelected : ℤ := 0
deriving DecidableEq, Repr

/-- `struct auth_stm` -/
structure AuthStm where
  parser : AuthParser := {}
  reply : UInt8 := 0
deriving DecidableEq, Repr

/-- `struct request_stm` -/
structure RequestStm where
  parser : RequestParser := {}
  originAddrIpv4 : SockAddr := { family := .inet }
  originAddrIpv6 : SockAddr := { family := .inet6 }
deriving DecidableEq, Repr

/-- `struct copy_stm` -/
structure CopyStm where
  readingClient : Bool := false
  writingClient : Bool := false
  readingOrigin : Bool := false
  writingOrigin : Bool := false
deriving DecidableEq, Repr

/-- `struct socksv5`.  The list that `getaddrinfo` returns is the list of its
addresses, empty for `NULL`. -/
structure Session where
  clientFd : ℤ
  originFd : ℤ := -1
  originResolution : List SockAddr := []
  connectedUser : Option User := none
  pop3sniffer : Pop3Sniffer := {}
  greeting : GreetingStm := {}
  auth : AuthStm := {}
  request : RequestStm := {}
  copy : CopyStm := {}
  readBuffer : Buffer := .init maxBuffSize fun _ => 0
  writeBuffer : Buffer := .init maxBuffSize fun _ => 0

/-- `metrics.c` -/
structure Metrics where
  historicalConnections : ℤ := 0
  concurrentConnections : ℤ := 0
  totalBytesTransferred : ℕ := 0
deriving DecidableEq, Repr

/-- `add_total_bytes_transferred` -/
def Metrics.addTotalBytesTransferred (m : Metrics) (bytes : ℕ) : Metrics :=
  { m with totalBytesTransferred := (m.totalBytesTransferred + bytes) % 2 ^ 64 }

/-- `add_connection` -/
def Metrics.addConnection (m : Metrics) : Metrics :=
  { m with
    historicalConnections := m.historicalConnections + 1
    concurrentConnections := m.concurrentConnections + 1 }

/-- `remove_connection` -/
def Metrics.removeConnection (m : Metrics) : Metrics :=
  { m with concurrentConnections := m.concurrentConnections - 1 }

/-- `get_concurrent_connections`, which returns an `uint16_t` -/
def Metrics.getConcurrentConnections (m : Metrics) : ℤ :=
  m.concurrentConnections % 65536

/-! ## The results of system calls -/

/-- A result of `recv`: what is there to be received, where nothing means the
end of the stream; or an error, `ECONNRESET` or another. -/
inductive RecvResult
  | received (bs : List UInt8)
  | connReset
  | failed
deriving DecidableEq, Repr

/-- The result of asking for at most `n` bytes. -/
def RecvResult.upTo (n : ℕ) : RecvResult → RecvResult
  | .received bs => .received (bs.take n)
  | r => r

/-- A result of `send`: `accepted k` accepts `k + 1` bytes, or all where there
are fewer. -/
inductive SendResult
  | accepted (k : ℕ)
  | failed
deriving DecidableEq, Repr

/-- A result of `connect`; an error other than `EINPROGRESS` is `failed`. -/
inductive ConnectResult
  | connected
  | inProgress
  | failed
deriving DecidableEq, Repr

/-- The results of `socket`, `selector_fd_set_nio` and `connect` for one
address; `socket` is `none` when it fails. -/
structure Attempt where
  socket : Option ℕ := none
  nio : Bool := true
  connect : ConnectResult := .failed
deriving DecidableEq, Repr

/-- What the system calls of one callback return, and the parameters in force.
No callback makes two calls of one kind, `calloc` and the calls for an address
excepted.  `soError` is `none` when `getsockopt` fails. -/
structure Sys where
  recv : RecvResult := .failed
  send : SendResult := .failed
  shutdown : Bool := true
  allocs : Allocs := []
  malloc : Bool := true
  pthreadCreate : ℤ := 0
  attempts : ℕ → Attempt := fun _ => {}
  realloc : Bool := true
  soError : Option ℕ := some 0
  parameters : Parameters := {}

/-- The calls that are logged.  A `recv` or `send` is logged with the state
whose callback makes it and with the bytes it transferred. -/
inductive Call
  | recv (state : GlobalState) (fd : ℤ) (nbytes : ℕ) (result : RecvResult)
  | send (state : GlobalState) (fd : ℤ) (bs : List UInt8)
  | shutdown (fd : ℤ)
  | authenticate (user password : Block) (result : Bool)
  | socket (result : Option ℕ)
  | connect (fd : ℤ) (addr : SockAddr) (result : ConnectResult)
  | getsockopt (fd : ℤ) (value : Option ℕ)
  | thread (fd : ℤ)
  | setInterest (fd : ℤ) (i : FdInterest)
  | addInterest (fd : ℤ) (i : FdInterest)
  | reduceInterest (fd : ℤ) (i : FdInterest)
  | close (fd : ℤ)
deriving DecidableEq, Repr

/-! ## The world -/

/-- What the kernel knows of the connection of `origin_fd`. -/
inductive Conn
  | none
  | connecting
  | connected
  | failed
deriving DecidableEq, Repr

/-- What a callback of the session at `address` changes.  `conn`, `threads`
and `log` are not data of the program: they say how far the connection of
`origin_fd` is, for which descriptors a resolver thread runs, and which calls
have been made. -/
structure World where
  address : ℕ
  session : Session
  selector : FdSelector
  metrics : Metrics := {}
  conn : Conn := .none
  threads : List ℤ := []
  log : List Call := []
  destroyed : Bool := false

namespace World

/-- Log a call. -/
def record (w : World) (c : Call) : World := { w with log := w.log ++ [c] }

/-- Set `read_buffer`. -/
def setReadBuffer (w : World) (b : Buffer) : World :=
  { w with session := { w.session with readBuffer := b } }

/-- Set `write_buffer`. -/
def setWriteBuffer (w : World) (b : Buffer) : World :=
  { w with session := { w.session with writeBuffer := b } }

/-- Set `request.request_parser.reply`. -/
def setReply (w : World) (reply : Reply) : World :=
  { w with session := { w.session with request :=
      { w.session.request with parser :=
        { w.session.request.parser with reply := reply } } } }

/-- `selector_set_interest` -/
def setInterest (w : World) (fd : ℤ) (i : FdInterest) :
    Except Fault (SelectorStatus × World) := do
  let (ret, s) ← selectorSetInterest w.selector fd i
  .ok (ret, { w with selector := s }.record (.setInterest fd i))

/-- `selector_set_interest_key` -/
def setInterestKey (w : World) (fd : ℤ) (i : FdInterest) :
    Except Fault (SelectorStatus × World) := do
  let (ret, s) ← selectorSetInterestKey w.selector fd i
  .ok (ret, { w with selector := s }.record (.setInterest fd i))

/-- `selector_set_interest_additive` -/
def addInterest (w : World) (fd : ℤ) (i : FdInterest) :
    Except Fault (SelectorStatus × World) := do
  let (ret, s) ← selectorSetInterestAdditive w.selector fd i
  .ok (ret, { w with selector := s }.record (.addInterest fd i))

/-- `selector_set_interest_reduction` -/
def reduceInterest (w : World) (fd : ℤ) (i : FdInterest) :
    Except Fault (SelectorStatus × World) := do
  let (ret, s) ← selectorSetInterestReduction w.selector fd i
  .ok (ret, { w with selector := s }.record (.reduceInterest fd i))

end World

/-- What a `recv` into a buffer gave: bytes, with the buffer they have been put
into; the end of the stream; or an error. -/
inductive Received
  | data (bs : List UInt8) (b : Buffer)
  | eof
  | reset
  | failed

/-- `recv` where `buffer_write_ptr` points, then `buffer_write_adv`. -/
def World.recvInto (w : World) (state : GlobalState) (sys : Sys) (fd : ℤ)
    (b : Buffer) : Except Fault (Received × World) :=
  let nbytes := b.room
  let result := sys.recv.upTo nbytes
  let w := w.record (.recv state fd nbytes result)
  match result with
  | .received [] => .ok (.eof, w)
  | .received bs => do
      let b ← b.put bs
      .ok (.data bs b, w)
  | .connReset => .ok (.reset, w)
  | .failed => .ok (.failed, w)

/-- `send` from where `buffer_read_ptr` points, then `buffer_read_adv`; `none`
when `send` returns 0 or fails. -/
def World.sendFrom (w : World) (state : GlobalState) (sys : Sys) (fd : ℤ)
    (b : Buffer) : Except Fault (Option (List UInt8 × Buffer) × World) :=
  match sys.send, b.pending with
  | .accepted k, c :: cs => do
      let bs := (c :: cs).take (k + 1)
      let b ← b.readAdv bs.length
      .ok (some (bs, b), w.record (.send state fd bs))
  | _, _ => .ok (none, w.record (.send state fd []))

/-! ## What the calls do -/

theorem World.setInterest_spec {w w' : World} {fd : ℤ} {i : FdInterest}
    {ret : SelectorStatus} (h : w.setInterest fd i = .ok (ret, w')) :
    ∃ s, ChangesInterest w.selector fd (fun _ => some i) ret s ∧
      w' = { w with selector := s, log := w.log ++ [.setInterest fd i] } := by
  obtain ⟨⟨ret, s⟩, hs, h⟩ := bind_eq_ok.mp h
  cases h
  exact ⟨s, updateInterest_spec hs, rfl⟩

theorem World.setInterestKey_spec {w w' : World} {fd : ℤ} {i : FdInterest}
    {ret : SelectorStatus} (h : w.setInterestKey fd i = .ok (ret, w')) :
    ∃ s, ChangesInterest w.selector fd (fun _ => some i) ret s ∧
      w' = { w with selector := s, log := w.log ++ [.setInterest fd i] } := by
  obtain ⟨⟨ret, s⟩, hs, h⟩ := bind_eq_ok.mp h
  cases h
  rw [selectorSetInterestKey_eq] at hs
  exact ⟨s, updateInterest_spec hs, rfl⟩

theorem World.addInterest_spec {w w' : World} {fd : ℤ} {i : FdInterest}
    {ret : SelectorStatus} (h : w.addInterest fd i = .ok (ret, w')) :
    ∃ s, ChangesInterest w.selector fd (additive i) ret s ∧
      w' = { w with selector := s, log := w.log ++ [.addInterest fd i] } := by
  obtain ⟨⟨ret, s⟩, hs, h⟩ := bind_eq_ok.mp h
  cases h
  exact ⟨s, updateInterest_spec hs, rfl⟩

theorem World.reduceInterest_spec {w w' : World} {fd : ℤ} {i : FdInterest}
    {ret : SelectorStatus} (h : w.reduceInterest fd i = .ok (ret, w')) :
    ∃ s, ChangesInterest w.selector fd (reduction i) ret s ∧
      w' = { w with selector := s, log := w.log ++ [.reduceInterest fd i] } := by
  obtain ⟨⟨ret, s⟩, hs, h⟩ := bind_eq_ok.mp h
  cases h
  exact ⟨s, updateInterest_spec hs, rfl⟩

/-- `Receives sys b r`: a `recv` into the buffer `b` gives `r`. -/
inductive Receives (sys : Sys) (b : Buffer) : Received → Prop
  | data {bs : List UInt8} {b' : Buffer} :
      sys.recv.upTo b.room = .received bs → bs ≠ [] →
      b'.pending = b.pending ++ bs → b'.room + bs.length = b.room →
      b'.limit = b.limit → b'.Settled → Receives sys b (.data bs b')
  | eof : sys.recv.upTo b.room = .received [] → Receives sys b .eof
  | reset : sys.recv.upTo b.room = .connReset → Receives sys b .reset
  | failed : sys.recv.upTo b.room = .failed → Receives sys b .failed

theorem Receives.data_eq {sys : Sys} {b b' : Buffer} {bs : List UInt8}
    (h : Receives sys b (.data bs b')) :
    sys.recv.upTo b.room = .received bs := by
  cases h with
  | data hdata _ _ _ _ _ => exact hdata

theorem World.recvInto_spec {w w' : World} {state : GlobalState} {sys : Sys}
    {fd : ℤ} {b : Buffer} {r : Received}
    (h : w.recvInto state sys fd b = .ok (r, w')) :
    Receives sys b r ∧ w' = { w with
      log := w.log ++ [.recv state fd b.room (sys.recv.upTo b.room)] } := by
  unfold World.recvInto at h
  cases hresult : sys.recv.upTo b.room with
  | received bs =>
      rcases bs with - | ⟨c, cs⟩
      · simp only [hresult] at h
        cases h
        exact ⟨.eof hresult, rfl⟩
      · simp only [hresult] at h
        obtain ⟨b', hput, h⟩ := bind_eq_ok.mp h
        cases h
        obtain ⟨hpending, hroom, hlimit, hsettled⟩ := Buffer.put_spec hput
        exact ⟨.data hresult (by simp) hpending hroom hlimit
          (hsettled (by simp)), rfl⟩
  | connReset =>
      simp only [hresult] at h
      cases h
      exact ⟨.reset hresult, rfl⟩
  | failed =>
      simp only [hresult] at h
      cases h
      exact ⟨.failed hresult, rfl⟩

/-- `Sends sys b r`: a `send` from the buffer `b` gives `r`. -/
inductive Sends (sys : Sys) (b : Buffer) : Option (List UInt8 × Buffer) → Prop
  | sent {bs : List UInt8} {b' : Buffer} {k : ℕ} : sys.send = .accepted k →
      bs = b.pending.take (k + 1) → bs ≠ [] →
      b.pending = bs ++ b'.pending → b'.limit = b.limit → b'.Settled →
      (b'.pending ≠ [] → b'.room = b.room) → Sends sys b (some (bs, b'))
  | failed : sys.send = .failed ∨ b.pending = [] → Sends sys b none

theorem Sends.accepted {sys : Sys} {b b' : Buffer} {bs : List UInt8}
    (h : Sends sys b (some (bs, b'))) : sys.send ≠ .failed := by
  cases h with
  | sent hsend => simp [hsend]

/-- A `send` from the buffer would send all that is pending. -/
def Sys.sendsAll (sys : Sys) (b : Buffer) : Bool :=
  match sys.send with
  | .accepted k => decide (b.count ≤ k + 1)
  | .failed => false

theorem Sends.wholly {sys : Sys} {b b' : Buffer} {bs : List UInt8}
    (h : Sends sys b (some (bs, b'))) :
    b'.pending = [] ↔ sys.sendsAll b = true := by
  cases h with
  | @sent _ _ k hsend htake _ hpending =>
      rw [Sys.sendsAll, hsend, decide_eq_true_iff, ← b.length_pending]
      constructor
      · intro hempty
        rw [hempty, List.append_nil, htake] at hpending
        rw [hpending, List.length_take]
        exact Nat.min_le_left _ _
      · intro hle
        rw [List.take_of_length_le hle] at htake
        rw [← htake] at hpending
        simpa using hpending

/-- The bytes that `sendFrom` transferred. -/
def sentBytes : Option (List UInt8 × Buffer) → List UInt8
  | some (bs, _) => bs
  | none => []

theorem World.sendFrom_spec {w w' : World} {state : GlobalState} {sys : Sys}
    {fd : ℤ} {b : Buffer} {r : Option (List UInt8 × Buffer)}
    (h : w.sendFrom state sys fd b = .ok (r, w')) :
    Sends sys b r ∧
      w' = { w with log := w.log ++ [.send state fd (sentBytes r)] } := by
  unfold World.sendFrom at h
  cases hsend : sys.send with
  | failed =>
      simp only [hsend] at h
      cases h
      exact ⟨.failed (Or.inl hsend), rfl⟩
  | accepted k =>
      cases hpending : b.pending with
      | nil =>
          simp only [hsend, hpending] at h
          cases h
          exact ⟨.failed (Or.inr hpending), rfl⟩
      | cons c cs =>
          simp only [hsend, hpending] at h
          obtain ⟨b', hadv, h⟩ := bind_eq_ok.mp h
          cases h
          obtain ⟨-, hdrop, hlimit, hsettled, hroom⟩ := Buffer.readAdv_spec hadv
          refine ⟨.sent hsend (by rw [hpending]) (by simp) ?_ hlimit hsettled
            hroom, rfl⟩
          rw [hdrop, hpending, List.length_take]
          rcases Nat.le_total (k + 1) (c :: cs).length with hle | hle
          · rw [Nat.min_eq_left hle, List.take_append_drop]
          · rw [Nat.min_eq_right hle, List.take_of_length_le hle]
            simp

end Socksv5
