import Socksv5.Buffer
import Socksv5.Heap

/-!
# The POP3 sniffer

`pop3_sniffer.c`.  The sniffer follows both directions of a relayed dialogue
and keeps the credentials of the login.  It compares with keywords that are
string literals, whose terminator can be read but nothing after it.
-/

namespace Socksv5

open Support

/-- `CREDENTIALS_SIZE` -/
def credentialsSize : ℕ := 100

/-- `POP3_BUFF` -/
def pop3Buff : ℕ := 4096

/-- `enum pop3_sniffer_state` -/
inductive Pop3SnifferState
  | init
  | userCommand
  | readUser
  | passCommand
  | readPass
  | checkCreds
  | sniffSuccessful
  | finish
deriving DecidableEq, Repr

/-- `struct pop3_sniffer` -/
structure Pop3Sniffer where
  state : Pop3SnifferState := .init
  buffer : Buffer := .init 0 fun _ => 0
  user : Option Block := none
  pass : Option Block := none
  isParsing : Bool := false
  read : UInt8 := 0
  remaining : UInt8 := 0
  checkRead : UInt8 := 0
  checkRemaining : UInt8 := 0

/-- `"+OK"` -/
def okText : List UInt8 := [43, 79, 75]

/-- `"-ERR"` -/
def errText : List UInt8 := [45, 69, 82, 82]

/-- `"USER "` -/
def userText : List UInt8 := [85, 83, 69, 82, 32]

/-- `"PASS "` -/
def passText : List UInt8 := [80, 65, 83, 83, 32]

/-- `*(text + i)` for a string literal. -/
def charAt (text : List UInt8) (i : UInt8) : Except Fault UInt8 :=
  match (text ++ [0])[i.toNat]? with
  | some c => .ok c
  | none => .error .outOfBounds

/-- `tolower` -/
def tolower (c : UInt8) : UInt8 := if 65 ≤ c ∧ c ≤ 90 then c + 32 else c

/-- `reset_indexes` -/
def resetIndexes (s : Pop3Sniffer) (left : UInt8) : Pop3Sniffer :=
  { s with read := 0, remaining := left }

/-- `pop3_sniffer_init` -/
def pop3SnifferInit (s : Pop3Sniffer) (a : Allocs) : Pop3Sniffer :=
  let (user, a) := calloc credentialsSize a
  let (pass, _) := calloc credentialsSize a
  { s with
    state := .init
    buffer := .init pop3Buff fun _ => 0
    read := 0
    remaining := 3
    isParsing := true
    user := user
    pass := pass }

/-- `read_ok_msg` -/
def readOkMsg (s : Pop3Sniffer) (ch : UInt8) :
    Except Fault (Pop3SnifferState × Pop3Sniffer) := do
  let k ← charAt okText s.read
  if tolower ch = tolower k then
    let s := { s with read := s.read + 1, remaining := s.remaining - 1 }
    if s.remaining = 0 then .ok (.userCommand, resetIndexes s 5)
    else .ok (.init, s)
  else .ok (.finish, s)

/-- The body of `read_user_command` and `read_pass_command`, which differ in
the keyword and in the states. -/
def readCommand (text : List UInt8) (here next : Pop3SnifferState)
    (s : Pop3Sniffer) (ch : UInt8) :
    Except Fault (Pop3SnifferState × Pop3Sniffer) := do
  let k ← charAt text s.read
  if tolower ch = tolower k then
    let s := { s with read := s.read + 1, remaining := s.remaining - 1 }
    if s.remaining = 0 then .ok (next, { s with read := 0 }) else .ok (here, s)
  else if s.read ≠ 0 then .ok (here, resetIndexes s 5)
  else .ok (here, s)

/-- `read_user_command` -/
def readUserCommand := readCommand userText .userCommand .readUser

/-- `read_pass_command` -/
def readPassCommand := readCommand passText .passCommand .readPass

/-- `read_user` -/
def readUser (s : Pop3Sniffer) (ch : UInt8) :
    Except Fault (Pop3SnifferState × Pop3Sniffer) :=
  if ch ≠ 10 ∧ ch ≠ 13 then
    if s.read.toNat < credentialsSize then do
      let user ← putByte s.user s.read.toNat ch
      .ok (.readUser, { s with user := user, read := s.read + 1 })
    else .ok (.readUser, s)
  else do
    let user ← putByte s.user s.read.toNat 0
    .ok (.passCommand, { s with
      user := user, read := 0, remaining := 5, checkRead := 0,
      checkRemaining := 4 })

/-- `read_pass` -/
def readPass (s : Pop3Sniffer) (ch : UInt8) :
    Except Fault (Pop3SnifferState × Pop3Sniffer) :=
  if ch ≠ 10 ∧ ch ≠ 13 then
    if s.read.toNat < credentialsSize then do
      let pass ← putByte s.pass s.read.toNat ch
      .ok (.readPass, { s with pass := pass, read := s.read + 1 })
    else .ok (.readPass, s)
  else do
    let pass ← putByte s.pass s.read.toNat 0
    .ok (.checkCreds, { s with pass := pass, read := 0, checkRead := 0 })

/-- `check_response` -/
def checkResponse (s : Pop3Sniffer) (ch : UInt8) :
    Except Fault (Pop3SnifferState × Pop3Sniffer) := do
  let k ← charAt okText s.read
  if tolower ch = tolower k then
    let s := { s with read := s.read + 1 }
    .ok (if s.read = 3 then .sniffSuccessful else .checkCreds, s)
  else do
    let k ← charAt errText s.checkRead
    if tolower ch = tolower k then
      let s := { s with checkRead := s.checkRead + 1 }
      .ok (if s.checkRead = 4 then .userCommand else .checkCreds, s)
    else .ok (.checkCreds, s)

/-- `parse_pop3_sniffer` -/
def parsePop3Sniffer (s : Pop3Sniffer) (ch : UInt8) :
    Except Fault Pop3Sniffer := do
  let (state, s) ←
    match s.state with
    | .init => readOkMsg s ch
    | .userCommand => readUserCommand s ch
    | .readUser => readUser s ch
    | .passCommand => readPassCommand s ch
    | .readPass => readPass s ch
    | .checkCreds => checkResponse s ch
    | .sniffSuccessful => .ok (.sniffSuccessful, s)
    | .finish => .ok (.finish, s)
  .ok { s with state := state }

/-- The states in which nothing more is sniffed. -/
def Pop3SnifferState.final : Pop3SnifferState → Bool
  | .finish | .sniffSuccessful => true
  | _ => false

/-- The loop of `pop3_sniffer_consume`, of at most as many turns as there are
bytes pending. -/
def pop3SnifferLoop : ℕ → Pop3Sniffer → Except Fault Pop3Sniffer
  | 0, s => .ok s
  | n + 1, s =>
      if s.buffer.canRead && !s.state.final then do
        let (ch, buffer) ← s.buffer.readByte
        let s ← parsePop3Sniffer { s with buffer := buffer } ch
        pop3SnifferLoop n s
      else .ok s

/-- `pop3_sniffer_consume` -/
def pop3SnifferConsume (s : Pop3Sniffer) : Except Fault Pop3Sniffer :=
  pop3SnifferLoop s.buffer.count s

/-- `sniff_pop3` of `copy_stm.c`, for the bytes at `ptr`. -/
def sniffPop3 (s : Pop3Sniffer) (bytes : List UInt8) (a : Allocs) :
    Except Fault Pop3Sniffer :=
  let s := if s.isParsing then s else pop3SnifferInit s a
  if s.state.final then .ok s
  else do
    let count := s.buffer.room
    let size := if bytes.length ≤ count then bytes.length else count
    let buffer ← s.buffer.put (bytes.take size)
    pop3SnifferConsume { s with buffer := buffer }

end Socksv5
