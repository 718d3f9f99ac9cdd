import Socksv5.Admin.RequestParser
import Socksv5.Parameters
import Socksv5.Session.World

/-!
# The answers to the administration commands

`admin_req_fill_msg` of `admin_request_parser.c` and what it calls: it performs
the command that the parser has, stores the answer in the write buffer and
resets the parser.
-/

namespace Socksv5

open Support

/-- `ANSWER_LEN` -/
def answerLen : ℕ := 255

/-- `MIN_BUFFER_SIZE` -/
def minBufferSize : ℕ := 300

/-- The characters of a literal. -/
def ascii (text : String) : List UInt8 :=
  text.toList.map fun c => UInt8.ofNat c.toNat

/-- `%ld` -/
def decimal (n : ℤ) : List UInt8 :=
  (if n < 0 then [45] else []) ++
    (Nat.toDigits 10 n.natAbs).map fun c => UInt8.ofNat c.toNat

/-- The `long long` with the bits of an `unsigned long long`. -/
def asSigned (n : ℕ) : ℤ :=
  if n < 9223372036854775808 then n else n - 18446744073709551616

/-- `sprintf(p + i, …)` of a text. -/
def sprintf (p : Option Block) (i : ℕ) (text : List UInt8) :
    Except Fault (Option Block) :=
  match p with
  | none => .error .nullDereference
  | some block =>
      if i + text.length < block.length then
        .ok (some (block.take i ++ text ++ 0 ::
          block.drop (i + text.length + 1)))
      else .error .outOfBounds

/-- `memcpy(answer, aux, strlen(aux) + 1)`, where `answer` is the write pointer
of a buffer. -/
def copyAnswer (b : Buffer) (aux : Option Block) : Except Fault Buffer := do
  let n ← strlen aux
  b.store ((aux.getD []).take (n + 1))

/-- The global variables that the commands use. -/
structure Globals where
  parameters : Parameters := {}
  metrics : Metrics := {}
  bufferSize : ℕ := 4096
deriving DecidableEq, Repr

/-- The text of `load_metrics`. -/
def metricsText (m : Metrics) : List UInt8 :=
  ascii "\nHistorical connections: " ++ decimal m.historicalConnections ++
    ascii "\nConcurrent connections: " ++ decimal m.getConcurrentConnections ++
    ascii "\nTotal bytes transfered: " ++
    decimal (asSigned m.totalBytesTransferred) ++ ascii "\n"

/-- `load_metrics` -/
def loadMetrics (m : Metrics) (b : Buffer) (aux : Option Block) :
    Except Fault (Buffer × Option Block) := do
  let aux ← sprintf aux 0 (metricsText m)
  let b ← copyAnswer b aux
  .ok (b, aux)

/-- The line of `load_users` for one user. -/
def userLine (u : User) : List UInt8 :=
  ascii "username: " ++ cString u.name ++ ascii " - password: " ++
    cString u.pass ++ ascii "\n"

/-- The loop of `load_users`. -/
def loadUsersLoop : List User → Option Block → Mallocs →
    Except Fault (Option Block)
  | [], aux, _ => .ok aux
  | u :: us, aux, m => do
      let userStringSize := 25 + (← strlen (some u.name)) + (← strlen (some u.pass))
      let (aux, m) := realloc aux ((← strlen aux) + userStringSize) m
      let aux ← sprintf aux (← strlen aux) (userLine u)
      loadUsersLoop us aux m

/-- `load_users` -/
def loadUsers (parameters : Parameters) (b : Buffer) (aux : Option Block)
    (m : Mallocs) : Except Fault (Buffer × Option Block) := do
  let aux ← putByte aux 0 0
  let aux ← loadUsersLoop parameters.users aux m
  let b ← copyAnswer b aux
  .ok (b, aux)

/-- `create_user` -/
def createUser (p : ReqParser) (parameters : Parameters) :
    Except Fault (ℤ × Parameters) :=
  addUser p.user p.password parameters

/-- `new_size * 10 + (c - '0')`, for a `char` and an `uint64_t` -/
def nextSize (size : ℕ) (c : UInt8) : ℕ :=
  ((size * 10 + (c.toInt8.toInt - 48)) % 18446744073709551616).toNat

/-- `set_buff_size` -/
def setBuffSize (size bufferSize : ℕ) : ℤ × ℕ :=
  if size < minBufferSize ∨ maxBuffSize < size then (-1, bufferSize)
  else (0, size)

/-- `change_buffer_size` -/
def changeBufferSize (newBuffSize : Option Block) (bufferSize : ℕ) :
    Except Fault (ℤ × ℕ) := do
  let n ← strlen newBuffSize
  let newSize := ((newBuffSize.getD []).take n).foldl nextSize 0
  .ok (setBuffSize newSize bufferSize)

/-- What a call of `admin_req_fill_msg` performs, with the strings that it uses
and with what `add_user` or `set_buff_size` returns. -/
inductive Performed
  | metrics
  | addUser (name pass : List UInt8) (ret : ℤ)
  | listUsers
  | changeBufferSize (digits : List UInt8) (ret : ℤ)
deriving DecidableEq, Repr

/-- `"\nInvalid command\n"` -/
def invalidText : List UInt8 := ascii "\nInvalid command\n"

/-- The text for a result of `create_user`. -/
def createUserText (ret : ℤ) : List UInt8 :=
  if ret = 0 then ascii "\nSuccess - New user added\n"
  else if ret = -1 then ascii "\nError - already max number of users exist\n"
  else ascii "\nError - Credentials must have less than 50 characters\n"

/-- The text for a result of `change_buffer_size`. -/
def changeBufferSizeText (ret : ℤ) : List UInt8 :=
  if ret = 0 then ascii "\nSuccess - Buffer size changed\n"
  else ascii "\nError - Invalid buffer size given\n"

/-- The part of `admin_req_fill_msg` between `malloc` and `buffer_write_adv`.
The test of the second branch is `req_done`, a constant: only an invalid
command is not performed. -/
def performCommand (b : Buffer) (p : ReqParser) (g : Globals)
    (aux : Option Block) (m : Mallocs) :
    Except Fault (Buffer × Option Block × Globals × Option Performed) :=
  if p.state = .invalidCmd then do
    let aux ← sprintf aux 0 invalidText
    let b ← copyAnswer b aux
    .ok (b, aux, g, none)
  else if p.cmdSelected = 49 then do
    let (b, aux) ← loadMetrics g.metrics b aux
    .ok (b, aux, g, some .metrics)
  else if p.cmdSelected = 50 then do
    let (ret, parameters) ← createUser p g.parameters
    let aux ← sprintf aux 0 (createUserText ret)
    let b ← copyAnswer b aux
    .ok (b, aux, { g with parameters := parameters },
      some (.addUser (cString (p.user.getD [])) (cString (p.password.getD []))
        ret))
  else if p.cmdSelected = 51 then do
    let (b, aux) ← loadUsers g.parameters b aux m
    .ok (b, aux, g, some .listUsers)
  else if p.cmdSelected = 52 then do
    let (ret, size) ← changeBufferSize p.newBuffSize g.bufferSize
    let aux ← sprintf aux 0 (changeBufferSizeText ret)
    let b ← copyAnswer b aux
    .ok (b, aux, { g with bufferSize := size },
      some (.changeBufferSize (cString (p.newBuffSize.getD [])) ret))
  else .ok (b, aux, g, none)

/-- `admin_req_fill_msg` -/
def adminReqFillMsg (b : Buffer) (p : ReqParser) (g : Globals) (m : Mallocs) :
    Except Fault (Buffer × ReqParser × Globals × Option Performed) :=
  if b.room < 1 then .ok (b, p, g, none)
  else do
    let (aux, m) := malloc answerLen m
    let (b, aux, g, performed) ← performCommand b p g aux m
    let n ← strlen aux
    let b ← b.writeAdv (n + 1)
    .ok (b, adminReqParserInit p, g, performed)

/-! ## What is left alone -/

theorem addUser_admin {name pass : Option Block} {parameters p : Parameters}
    {ret : ℤ} (h : addUser name pass parameters = .ok (ret, p)) :
    p.admin = parameters.admin := by
  unfold addUser at h
  obtain ⟨n, -, h⟩ := bind_eq_ok.mp h
  split at h
  · cases h
    rfl
  · obtain ⟨k, -, h⟩ := bind_eq_ok.mp h
    split at h
    · cases h
      rfl
    · split at h
      · split at h
        · cases h
          rfl
        · cases h
      · cases h
        rfl

/-- The command that registers a user is the one that changes the
parameters. -/
theorem performCommand_parameters {b b' : Buffer} {p : ReqParser}
    {g g' : Globals} {aux aux' : Option Block} {m : Mallocs}
    {performed : Option Performed}
    (h : performCommand b p g aux m = .ok (b', aux', g', performed)) :
    ((p.state ≠ .invalidCmd ∧ p.cmdSelected = 50) ∧
        ∃ ret, createUser p g.parameters = .ok (ret, g'.parameters)) ∨
      (¬ (p.state ≠ .invalidCmd ∧ p.cmdSelected = 50) ∧
        g'.parameters = g.parameters) := by
  unfold performCommand at h
  by_cases hstate : p.state = .invalidCmd
  · rw [if_pos hstate] at h
    obtain ⟨aux₁, -, h⟩ := bind_eq_ok.mp h
    obtain ⟨b₁, -, h⟩ := bind_eq_ok.mp h
    cases h
    exact .inr ⟨fun hnot => hnot.1 hstate, rfl⟩
  · rw [if_neg hstate] at h
    by_cases hadd : p.cmdSelected = 50
    · left
      rw [if_neg (by rw [hadd]; decide), if_pos hadd] at h
      obtain ⟨⟨ret, parameters⟩, hcreate, h⟩ := bind_eq_ok.mp h
      obtain ⟨aux₁, -, h⟩ := bind_eq_ok.mp h
      obtain ⟨b₁, -, h⟩ := bind_eq_ok.mp h
      cases h
      exact ⟨⟨hstate, hadd⟩, ret, hcreate⟩
    · refine .inr ⟨fun hnot => hadd hnot.2, ?_⟩
      rw [if_neg hadd] at h
      split at h
      · obtain ⟨⟨b₁, aux₁⟩, -, h⟩ := bind_eq_ok.mp h
        cases h
        rfl
      · split at h
        · obtain ⟨⟨b₁, aux₁⟩, -, h⟩ := bind_eq_ok.mp h
          cases h
          rfl
        · split at h
          · obtain ⟨⟨ret, size⟩, -, h⟩ := bind_eq_ok.mp h
            obtain ⟨aux₁, -, h⟩ := bind_eq_ok.mp h
            obtain ⟨b₁, -, h⟩ := bind_eq_ok.mp h
            cases h
            rfl
          · cases h
            rfl

/-- What `admin_req_fill_msg` does to the parameters. -/
theorem adminReqFillMsg_parameters {b b' : Buffer} {p p' : ReqParser}
    {g g' : Globals} {m : Mallocs} {performed : Option Performed}
    (h : adminReqFillMsg b p g m = .ok (b', p', g', performed)) :
    ((0 < b.room ∧ p.state ≠ .invalidCmd ∧ p.cmdSelected = 50) ∧
        ∃ ret, createUser p g.parameters = .ok (ret, g'.parameters)) ∨
      (¬ (0 < b.room ∧ p.state ≠ .invalidCmd ∧ p.cmdSelected = 50) ∧
        g'.parameters = g.parameters) := by
  unfold adminReqFillMsg at h
  by_cases hroom : b.room < 1
  · rw [if_pos hroom] at h
    cases h
    exact .inr ⟨fun hnot => by omega, rfl⟩
  · rw [if_neg hroom] at h
    obtain ⟨⟨b₁, aux, g₁, performed₁⟩, hperform, h⟩ := bind_eq_ok.mp h
    obtain ⟨n, -, h⟩ := bind_eq_ok.mp h
    obtain ⟨b₂, -, h⟩ := bind_eq_ok.mp h
    cases h
    rcases performCommand_parameters hperform with ⟨hadd, hcreate⟩ | ⟨hnot, hsame⟩
    · exact .inl ⟨⟨by omega, hadd⟩, hcreate⟩
    · exact .inr ⟨fun hadd => hnot hadd.2, hsame⟩

/-- No command changes the administrators. -/
theorem adminReqFillMsg_admin {b b' : Buffer} {p p' : ReqParser}
    {g g' : Globals} {m : Mallocs} {performed : Option Performed}
    (h : adminReqFillMsg b p g m = .ok (b', p', g', performed)) :
    g'.parameters.admin = g.parameters.admin := by
  rcases adminReqFillMsg_parameters h with ⟨-, ret, hcreate⟩ | ⟨-, hsame⟩
  · exact addUser_admin hcreate
  · rw [hsame]

end Socksv5
