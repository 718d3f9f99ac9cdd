import Socksv5.Consume
import Socksv5.Heap

/-!
# The parser of the administration commands

`admin_req_parser_feed` and `admin_consume_req_buffer` of
`admin_request_parser.c`.  The arguments of a command are stored in blocks that
`malloc` has returned; what they held before is unknown.
-/

namespace Socksv5

open Support

/-- `USER_LEN` -/
def userLen : ℕ := 255

/-- `PASS_LEN` -/
def passLen : ℕ := 255

/-- `NEW_BUFF_SIZE` -/
def newBuffSize : ℕ := 255

/-- `CHUNK_SIZE` -/
def chunkSize : ℕ := 50

/-- `enum admin_req_state` -/
inductive AdminReqState
  | readingCmd
  | readingMetricsCmd
  | readingAddUserCmd
  | readingListUserCmd
  | readingChangeBuffSizeCmd
  | readingUser
  | readingPass
  | readingBuffSize
  | done
  | badSyntax
  | invalidCmd
deriving DecidableEq, Repr

/-- `struct req_parser` -/
structure ReqParser where
  state : AdminReqState := .readingCmd
  cmdSelected : UInt8 := 0
  chunksAdded : ℕ := 0
  user : Option Block := none
  password : Option Block := none
  newBuffSize : Option Block := none
  index : ℕ := 0
deriving DecidableEq, Repr

/-- `admin_req_parser_init`, which leaves `cmd_selected` as it is. -/
def adminReqParserInit (p : ReqParser) : ReqParser :=
  { state := .readingCmd, cmdSelected := p.cmdSelected, chunksAdded := 1 }

/-- Storing a byte of an argument, in a block that is grown when the index has
got to its presumed end. -/
def putGrowing (block : Option Block) (size index chunks : ℕ) (c : UInt8)
    (m : Mallocs) : Except Fault (Option Block × ℕ × Mallocs) :=
  let (block, chunks, m) :=
    if index = size + chunks * chunkSize then
      let (block, m) := realloc block (size + chunks * chunkSize) m
      (block, chunks + 1, m)
    else (block, chunks, m)
  putByte block index c >>= fun block => .ok (block, chunks, m)

/-- `admin_req_parser_feed` -/
def adminReqParserFeed (c : UInt8) :
    ReqParser × Mallocs → Except Fault (ReqParser × Mallocs)
  | (p, m) =>
    match p.state with
    | .readingCmd =>
        let state : AdminReqState :=
          if c = 49 then .readingMetricsCmd
          else if c = 50 then .readingAddUserCmd
          else if c = 51 then .readingListUserCmd
          else if c = 52 then .readingChangeBuffSizeCmd
          else .invalidCmd
        .ok ({ p with state := state, cmdSelected := c }, m)
    | .readingAddUserCmd =>
        if c = 32 then
          let (user, m) := malloc userLen m
          .ok ({ p with user := user, state := .readingUser }, m)
        else .ok ({ p with state := .invalidCmd }, m)
    | .readingUser =>
        if c = 32 then do
          let (password, m) := malloc passLen m
          let user ← putByte p.user p.index 0
          .ok ({ p with
            password := password, user := user, index := 0, chunksAdded := 0,
            state := .readingPass }, m)
        else if c ≠ 10 then do
          let (user, chunks, m) ←
            putGrowing p.user userLen p.index p.chunksAdded c m
          .ok ({ p with
            user := user, chunksAdded := chunks, index := p.index + 1 }, m)
        else .ok ({ p with state := .invalidCmd }, m)
    | .readingPass =>
        if c = 32 then .ok ({ p with state := .invalidCmd }, m)
        else if c = 10 then do
          let password ← putByte p.password p.index 0
          .ok ({ p with
            password := password, state := .done, index := 0,
            chunksAdded := 0 }, m)
        else do
          let (password, chunks, m) ←
            putGrowing p.password passLen p.index p.chunksAdded c m
          .ok ({ p with
            password := password, chunksAdded := chunks,
            index := p.index + 1 }, m)
    | .readingChangeBuffSizeCmd =>
        if c = 32 then
          let (size, m) := malloc Socksv5.newBuffSize m
          .ok ({ p with newBuffSize := size, state := .readingBuffSize }, m)
        else .ok ({ p with state := .invalidCmd }, m)
    | .readingBuffSize =>
        if c = 10 then do
          let size ← putByte p.newBuffSize p.index 0
          .ok ({ p with
            newBuffSize := size, chunksAdded := 0, index := 0,
            state := .done }, m)
        else if 48 ≤ c ∧ c ≤ 57 then do
          let (size, chunks, m) ← putGrowing p.newBuffSize Socksv5.newBuffSize
            p.index p.chunksAdded c m
          .ok ({ p with
            newBuffSize := size, chunksAdded := chunks,
            index := p.index + 1 }, m)
        else .ok ({ p with state := .invalidCmd }, m)
    | .readingMetricsCmd | .readingListUserCmd =>
        if c = 10 then .ok ({ p with state := .done }, m)
        else .ok ({ p with state := .invalidCmd }, m)
    | .done | .invalidCmd => .ok (p, m)
    | .badSyntax => .error .exit

/-- The test of `admin_consume_req_buffer` for the end of a command. -/
abbrev reqDone (s : ReqParser × Mallocs) : Bool := s.1.state = .done

/-- `admin_consume_req_buffer` -/
def adminConsumeReqBuffer (b : Buffer) (p : ReqParser) (m : Mallocs) :
    Except Fault (Buffer × ReqParser × Mallocs) :=
  consume adminReqParserFeed reqDone b (p, m)

end Socksv5
