import Socksv5.Admin.UserTable

/-!
# How an answer is appended

`admin_req_fill_msg` looks at the room of the write buffer before it knows the
answer: it returns when there is none, and otherwise stores the answer whatever
its length.  So an answer is appended whole exactly when it can be computed and
fits.
-/

namespace Socksv5

open Support

/-! ## The answer to what the parser has selected -/

/-- The string that a pointer points to. -/
def stringAt : Option Block → Option (List UInt8)
  | none => none
  | some block => if 0 ∈ block then some (cString block) else none

/-- The text that answers a call of `add_user`, when what it reads are
strings. -/
def addUserResponse (name pass : Option Block) (users : List User) :
    Option (List UInt8) := do
  let pass ← stringAt pass
  if maxCredentialsLen < pass.length then some (createUserText (-2))
  else do
    let name ← stringAt name
    some (createUserText (addUserResult name pass users))

/-- The text that answers a call of `change_buffer_size`. -/
def changeBufferSizeResponse (newBuffSize : Option Block) (bufferSize : ℕ) :
    Option (List UInt8) := do
  let digits ← stringAt newBuffSize
  some (changeBufferSizeText
    (setBuffSize (digits.foldl nextSize 0) bufferSize).1)

/-- The text that answers what the parser has selected; there is none for a
selection that is not a command, and for arguments that are not strings. -/
def ReqParser.response (p : ReqParser) (g : Globals) : Option (List UInt8) :=
  if p.state = .invalidCmd then some invalidText
  else if p.cmdSelected = 49 then some (metricsText g.metrics)
  else if p.cmdSelected = 50 then
    addUserResponse p.user p.password g.parameters.users
  else if p.cmdSelected = 51 then some (g.parameters.users.flatMap userLine)
  else if p.cmdSelected = 52 then
    changeBufferSizeResponse p.newBuffSize g.bufferSize
  else none

/-- How often `malloc` and `realloc` are called for the answer. -/
def ReqParser.allocations (p : ReqParser) (g : Globals) : ℕ :=
  if p.state ≠ .invalidCmd ∧ p.cmdSelected = 51 then
    g.parameters.users.length + 1
  else 1

/-- A call of `admin_req_fill_msg` returns, with every store inside the buffer,
and either leaves the pending bytes as they are or appends the answer and its
terminator. -/
def AppendsWhole (b : Buffer) (p : ReqParser) (g : Globals) (m : Mallocs) :
    Prop :=
  ∃ b' p' g' performed, adminReqFillMsg b p g m = .ok (b', p', g', performed) ∧
    (b'.pending = b.pending ∨
      ∃ text, p.response g = some text ∧
        b'.pending = b.pending ++ (text ++ [0]))

/-- There is no room at all, or the allocations succeed, there is an answer and
it fits. -/
def AnswerFits (b : Buffer) (p : ReqParser) (g : Globals) (m : Mallocs) :
    Prop :=
  b.room < 1 ∨
    (none ∉ m.take (p.allocations g) ∧
      ∃ text, p.response g = some text ∧ text.length < b.room)

theorem stringAt_eq_some {block : Option Block} {text : List UInt8}
    (h : stringAt block = some text) :
    ∃ b, block = some b ∧ 0 ∈ b ∧ cString b = text := by
  cases block with
  | none => cases h
  | some b =>
      rw [stringAt] at h
      split at h
      case isTrue hzero =>
        cases h
        exact ⟨b, rfl, hzero, rfl⟩
      case isFalse => cases h

/-- `add_user` returns what its answer tells. -/
theorem exists_addUser {name pass : Option Block} {parameters : Parameters}
    {text : List UInt8}
    (h : addUserResponse name pass parameters.users = some text) :
    ∃ ret parameters', addUser name pass parameters = .ok (ret, parameters') ∧
      text = createUserText ret := by
  obtain ⟨w, hpass, h⟩ := Option.bind_eq_some_iff.mp h
  obtain ⟨pass, rfl, hw, rfl⟩ := stringAt_eq_some hpass
  split at h
  case isTrue hlong =>
    cases h
    refine ⟨-2, parameters, ?_, rfl⟩
    unfold addUser
    rw [strlen_of_mem hw, ok_bind, if_pos hlong]
  case isFalse hshort =>
    obtain ⟨n, hname, h⟩ := Option.bind_eq_some_iff.mp h
    obtain ⟨name, rfl, hn, rfl⟩ := stringAt_eq_some hname
    cases h
    exact ⟨_, _, addUser_spec hn hw, rfl⟩

theorem exists_changeBufferSize {newBuffSize : Option Block}
    {bufferSize : ℕ} {text : List UInt8}
    (h : changeBufferSizeResponse newBuffSize bufferSize = some text) :
    ∃ ret size, changeBufferSize newBuffSize bufferSize = .ok (ret, size) ∧
      text = changeBufferSizeText ret := by
  obtain ⟨digits, hdigits, h⟩ := Option.bind_eq_some_iff.mp h
  obtain ⟨d, rfl, hd, rfl⟩ := stringAt_eq_some hdigits
  cases h
  have htake : d.take (cString d).length = cString d :=
    (List.prefix_iff_eq_take.mp (List.takeWhile_prefix _)).symm
  refine ⟨_, (setBuffSize ((cString d).foldl nextSize 0) bufferSize).2, ?_, rfl⟩
  rw [changeBufferSize, strlen_of_mem hd, ok_bind, Option.getD_some, htake]

variable {b : Buffer} {p : ReqParser} {g : Globals} {m : Mallocs}

/-! ## Where there is an answer -/

/-- The answer is printed into the block that has been allocated, and stored as
far as the buffer has room for it. -/
theorem exists_performCommand {block : Block} {text : List UInt8}
    (hresponse : p.response g = some text) (hg : g.Valid)
    (hm : p.state ≠ .invalidCmd → p.cmdSelected = 51 →
      none ∉ m.take g.parameters.users.length)
    (hblock : block.length = answerLen) :
    ∃ aux g' performed, performCommand b p g (some block) m =
        (b.store (text ++ [0]) >>= fun b' => .ok (b', aux, g', performed)) ∧
      HoldsText aux text ∧ 0 ∉ text := by
  unfold ReqParser.response at hresponse
  unfold performCommand
  by_cases hstate : p.state = .invalidCmd
  · rw [if_pos hstate] at hresponse ⊢
    cases hresponse
    obtain ⟨hzero, hlen⟩ := invalidText_spec
    rw [← hblock] at hlen
    obtain ⟨aux, hprint, hcopy, hholds⟩ := exists_printed b hzero hlen
    refine ⟨aux, g, none, ?_, hholds, hzero⟩
    rw [hprint, ok_bind, hcopy]
  · rw [if_neg hstate] at hresponse ⊢
    split at hresponse
    case isTrue hcmd =>
      cases hresponse
      have hzero := zero_not_mem_metricsText g.metrics
      have hlen := hg.length_metricsText
      rw [← hblock] at hlen
      obtain ⟨aux, hprint, hcopy, hholds⟩ := exists_printed b hzero hlen
      refine ⟨aux, g, some .metrics, ?_, hholds, hzero⟩
      rw [if_pos hcmd, loadMetrics, hprint, ok_bind, hcopy]
      cases b.store (metricsText g.metrics ++ [0]) <;> rfl
    case isFalse h49 =>
      rw [if_neg h49]
      split at hresponse
      case isTrue hcmd =>
        obtain ⟨ret, parameters, hadd, rfl⟩ := exists_addUser hresponse
        obtain ⟨hzero, hlen⟩ := createUserText_spec ret
        rw [← hblock] at hlen
        obtain ⟨aux, hprint, hcopy, hholds⟩ := exists_printed b hzero hlen
        refine ⟨aux, { g with parameters := parameters },
          some (.addUser (cString (p.user.getD []))
            (cString (p.password.getD [])) ret), ?_, hholds, hzero⟩
        rw [if_pos hcmd, createUser, hadd, ok_bind]
        dsimp only
        rw [hprint, ok_bind, hcopy]
      case isFalse h50 =>
        rw [if_neg h50]
        split at hresponse
        case isTrue hcmd =>
          cases hresponse
          have hpos : 0 < block.length := by
            rw [hblock]
            decide
          obtain ⟨aux, hload, hholds⟩ := exists_loadUsers b hpos (hm hstate hcmd)
            fun u hu => ⟨(hg.credentials u hu).1.1, (hg.credentials u hu).2.1⟩
          refine ⟨aux, g, some .listUsers, ?_, hholds,
            Globals.Valid.zero_not_mem_answer (g := g) .listUsers⟩
          rw [if_pos hcmd, hload]
          cases b.store (g.parameters.users.flatMap userLine ++ [0]) <;> rfl
        case isFalse h51 =>
          rw [if_neg h51]
          split at hresponse
          case isTrue hcmd =>
            obtain ⟨ret, size, hchange, rfl⟩ := exists_changeBufferSize hresponse
            obtain ⟨hzero, hlen⟩ := changeBufferSizeText_spec ret
            rw [← hblock] at hlen
            obtain ⟨aux, hprint, hcopy, hholds⟩ := exists_printed b hzero hlen
            refine ⟨aux, { g with bufferSize := size },
              some (.changeBufferSize (cString (p.newBuffSize.getD [])) ret), ?_,
              hholds, hzero⟩
            rw [if_pos hcmd, hchange, ok_bind]
            dsimp only
            rw [hprint, ok_bind, hcopy]
          case isFalse => cases hresponse

/-- A call of `admin_req_fill_msg` stores the answer, or fails because it does
not fit. -/
theorem exists_adminReqFillMsg {text : List UInt8} (hroom : 0 < b.room)
    (hresponse : p.response g = some text) (hg : g.Valid)
    (hm : none ∉ m.take (p.allocations g)) :
    ∃ g' performed, adminReqFillMsg b p g m =
      (b.put (text ++ [0]) >>= fun b' =>
        .ok (b', adminReqParserInit p, g', performed)) := by
  obtain ⟨k, hk, husers⟩ : ∃ k, p.allocations g = k + 1 ∧
      (p.state ≠ .invalidCmd → p.cmdSelected = 51 →
        k = g.parameters.users.length) := by
    unfold ReqParser.allocations
    split
    case isTrue => exact ⟨_, rfl, fun _ _ => rfl⟩
    case isFalse hother =>
      exact ⟨0, rfl, fun hstate hcmd => absurd ⟨hstate, hcmd⟩ hother⟩
  rw [hk] at hm
  obtain ⟨hm', block, hblock, hlen⟩ := malloc_of_not_mem hm answerLen
  have hmalloc : malloc answerLen m = (some block, (malloc answerLen m).2) := by
    rw [← hblock]
  obtain ⟨aux, g', performed, hperform, hholds, hzero⟩ :=
    exists_performCommand (b := b) hresponse hg
      (fun hstate hcmd => husers hstate hcmd ▸ hm') hlen
  refine ⟨g', performed, ?_⟩
  unfold adminReqFillMsg
  rw [if_neg (by omega), hmalloc]
  dsimp only
  rw [hperform]
  cases hstore : b.store (text ++ [0]) with
  | error e =>
      rw [Buffer.put, hstore]
      rfl
  | ok b₁ =>
      rw [ok_bind, ok_bind]
      dsimp only
      rw [hholds.strlen hzero, ok_bind, store_writeAdv hstore]

/-! ## Where there is none -/

/-- Nothing is printed to a null pointer. -/
theorem performCommand_null {b' : Buffer} {aux : Option Block} {g' : Globals}
    {performed : Option Performed}
    (h : performCommand b p g none m = .ok (b', aux, g', performed)) :
    aux = none := by
  unfold performCommand at h
  split at h
  · cases h
  · split at h
    · cases h
    · split at h
      · obtain ⟨⟨ret, parameters⟩, -, h⟩ := bind_eq_ok.mp h
        cases h
      · split at h
        · cases h
        · split at h
          · obtain ⟨⟨ret, size⟩, -, h⟩ := bind_eq_ok.mp h
            cases h
          · cases h
            rfl

/-- A list for which the memory does not suffice is not printed. -/
theorem loadUsersLoop_ne_ok {us : List User} {aux aux' : Option Block}
    (hm : none ∈ m.take us.length) : loadUsersLoop us aux m ≠ .ok aux' := by
  induction us generalizing aux m with
  | nil => cases hm
  | cons u us ih =>
      intro h
      obtain ⟨n, -, h⟩ := bind_eq_ok.mp h
      obtain ⟨k, -, h⟩ := bind_eq_ok.mp h
      obtain ⟨l, -, h⟩ := bind_eq_ok.mp h
      cases m with
      | nil => cases hm
      | cons contents m =>
          cases contents with
          | none => cases h
          | some contents =>
              obtain ⟨i, -, h⟩ := bind_eq_ok.mp h
              obtain ⟨aux₁, -, h⟩ := bind_eq_ok.mp h
              refine ih ?_ h
              rcases List.mem_cons.mp hm with hnone | hm
              · cases hnone
              · exact hm

/-- A call of `admin_req_fill_msg` for which the memory does not suffice does
not return. -/
theorem adminReqFillMsg_ne_ok {r : Buffer × ReqParser × Globals × Option Performed}
    (hroom : 0 < b.room) (hm : none ∈ m.take (p.allocations g)) :
    adminReqFillMsg b p g m ≠ .ok r := by
  intro h
  unfold adminReqFillMsg at h
  rw [if_neg (by omega)] at h
  obtain ⟨⟨b₁, aux, g₁, performed⟩, hperform, h⟩ := bind_eq_ok.mp h
  obtain ⟨n, hlen, -⟩ := bind_eq_ok.mp h
  cases m with
  | nil =>
      rw [List.take_nil] at hm
      cases hm
  | cons contents m =>
      cases contents with
      | none =>
          rw [performCommand_null hperform] at hlen
          cases hlen
      | some contents =>
          unfold ReqParser.allocations at hm
          split at hm
          case isTrue hlist =>
            obtain ⟨hstate, hcmd⟩ := hlist
            rcases List.mem_cons.mp hm with hnone | hm
            · cases hnone
            · unfold performCommand at hperform
              rw [if_neg hstate, if_neg (by rw [hcmd]; decide),
                if_neg (by rw [hcmd]; decide), if_pos hcmd] at hperform
              obtain ⟨⟨b₂, aux₂⟩, hload, -⟩ := bind_eq_ok.mp hperform
              obtain ⟨aux₃, -, hload⟩ := bind_eq_ok.mp hload
              obtain ⟨aux₄, hloop, -⟩ := bind_eq_ok.mp hload
              exact loadUsersLoop_ne_ok hm hloop
          case isFalse =>
            rw [List.take_succ_cons, List.take_zero, List.mem_singleton] at hm
            cases hm

/-- The pointers do not move before `buffer_write_adv`. -/
theorem copyAnswer_count {b' : Buffer} {aux : Option Block}
    (h : copyAnswer b aux = .ok b') : b'.count = b.count := by
  obtain ⟨n, -, h⟩ := bind_eq_ok.mp h
  unfold Buffer.store at h
  split at h
  case isTrue =>
    cases h
    rfl
  case isFalse => cases h

theorem performCommand_count {b' : Buffer} {aux aux' : Option Block}
    {g' : Globals} {performed : Option Performed}
    (h : performCommand b p g aux m = .ok (b', aux', g', performed)) :
    b'.count = b.count := by
  unfold performCommand at h
  split at h
  · obtain ⟨aux₁, -, h⟩ := bind_eq_ok.mp h
    obtain ⟨b₁, hcopy, h⟩ := bind_eq_ok.mp h
    cases h
    exact copyAnswer_count hcopy
  · split at h
    · obtain ⟨⟨b₁, aux₁⟩, hload, h⟩ := bind_eq_ok.mp h
      cases h
      obtain ⟨aux₂, -, hload⟩ := bind_eq_ok.mp hload
      obtain ⟨b₂, hcopy, hload⟩ := bind_eq_ok.mp hload
      cases hload
      exact copyAnswer_count hcopy
    · split at h
      · obtain ⟨⟨ret, parameters⟩, -, h⟩ := bind_eq_ok.mp h
        obtain ⟨aux₁, -, h⟩ := bind_eq_ok.mp h
        obtain ⟨b₁, hcopy, h⟩ := bind_eq_ok.mp h
        cases h
        exact copyAnswer_count hcopy
      · split at h
        · obtain ⟨⟨b₁, aux₁⟩, hload, h⟩ := bind_eq_ok.mp h
          cases h
          obtain ⟨aux₂, -, hload⟩ := bind_eq_ok.mp hload
          obtain ⟨aux₃, -, hload⟩ := bind_eq_ok.mp hload
          obtain ⟨b₂, hcopy, hload⟩ := bind_eq_ok.mp hload
          cases hload
          exact copyAnswer_count hcopy
        · split at h
          · obtain ⟨⟨ret, size⟩, -, h⟩ := bind_eq_ok.mp h
            obtain ⟨aux₁, -, h⟩ := bind_eq_ok.mp h
            obtain ⟨b₁, hcopy, h⟩ := bind_eq_ok.mp h
            cases h
            exact copyAnswer_count hcopy
          · cases h
            rfl

/-- Where there is room, something is appended, an answer or not. -/
theorem adminReqFillMsg_appends {b' : Buffer} {p' : ReqParser} {g' : Globals}
    {performed : Option Performed} (hroom : 0 < b.room)
    (h : adminReqFillMsg b p g m = .ok (b', p', g', performed)) :
    b'.pending ≠ b.pending := by
  unfold adminReqFillMsg at h
  rw [if_neg (by omega)] at h
  obtain ⟨⟨b₁, aux, g₁, performed₁⟩, hperform, h⟩ := bind_eq_ok.mp h
  obtain ⟨n, -, h⟩ := bind_eq_ok.mp h
  obtain ⟨b₂, hadv, h⟩ := bind_eq_ok.mp h
  cases h
  intro hsame
  have hcount := congrArg List.length hsame
  rw [Buffer.length_pending, Buffer.length_pending,
    ← performCommand_count hperform] at hcount
  have hle := b₁.read_le
  unfold Buffer.writeAdv at hadv
  rw [if_pos (by omega)] at hadv
  split at hadv
  case isFalse => cases hadv
  case isTrue =>
    cases hadv
    simp only [Buffer.count] at hcount
    omega

/-- An answer is appended whole, or nothing is, exactly when there is no room at
all or the answer fits. -/
theorem appendsWhole_iff (hg : g.Valid) :
    AppendsWhole b p g m ↔ AnswerFits b p g m := by
  by_cases hroom : b.room < 1
  · refine iff_of_true ⟨b, p, g, none, ?_, .inl rfl⟩ (.inl hroom)
    unfold adminReqFillMsg
    rw [if_pos hroom]
  · have hpos : 0 < b.room := by omega
    constructor
    · rintro ⟨b', p', g', performed, hfill, hsame | ⟨text, hresponse, -⟩⟩
      · exact absurd hsame (adminReqFillMsg_appends hpos hfill)
      · have hm : none ∉ m.take (p.allocations g) := fun hnone =>
          adminReqFillMsg_ne_ok hpos hnone hfill
        refine .inr ⟨hm, text, hresponse, ?_⟩
        obtain ⟨g₁, performed₁, heq⟩ :=
          exists_adminReqFillMsg hpos hresponse hg hm
        rw [heq] at hfill
        obtain ⟨b₁, hput, -⟩ := bind_eq_ok.mp hfill
        obtain ⟨-, hfits, -⟩ := Buffer.put_spec hput
        rw [List.length_append, List.length_singleton] at hfits
        omega
    · rintro (hnone | ⟨hm, text, hresponse, hfits⟩)
      · exact absurd hnone hroom
      · obtain ⟨g', performed, heq⟩ :=
          exists_adminReqFillMsg hpos hresponse hg hm
        have hlen : (text ++ [0]).length ≤ b.room := by
          rw [List.length_append, List.length_singleton]
          exact hfits
        obtain ⟨b', hput⟩ := Buffer.exists_put hlen
        rw [hput, ok_bind] at heq
        exact ⟨b', _, g', performed, heq,
          .inr ⟨text, hresponse, (Buffer.put_spec hput).1⟩⟩

/-- No answer is longer than the list of the users can be. -/
theorem ReqParser.length_response {text : List UInt8} (hg : g.Valid)
    (h : p.response g = some text) : text.length ≤ 1240 := by
  have hshort : ∀ {text : List UInt8}, text.length < answerLen →
      text.length ≤ 1240 := by
    intro text hlen
    unfold answerLen at hlen
    omega
  unfold ReqParser.response at h
  split at h
  · cases h
    exact hshort invalidText_spec.2
  · split at h
    · cases h
      exact hshort hg.length_metricsText
    · split at h
      · obtain ⟨ret, parameters, -, rfl⟩ := exists_addUser h
        exact hshort (createUserText_spec ret).2
      · split at h
        · cases h
          exact hg.length_users
        · split at h
          · obtain ⟨ret, size, -, rfl⟩ := exists_changeBufferSize h
            exact hshort (changeBufferSizeText_spec ret).2
          · cases h

/-- An answer fits into a buffer that has been sent completely. -/
theorem answerFits_of_room (hroom : 1240 < b.room) (hg : g.Valid)
    (hm : none ∉ m.take (p.allocations g)) {text : List UInt8}
    (h : p.response g = some text) : AnswerFits b p g m :=
  .inr ⟨hm, text, h, (p.length_response hg h).trans_lt hroom⟩

/-! ## The tables of a run -/

/-- The counters have values of their C types. -/
structure Metrics.Typed (m : Metrics) : Prop where
  historical_ge : -9223372036854775808 ≤ m.historicalConnections
  historical_lt : m.historicalConnections < 9223372036854775808
  total_lt : m.totalBytesTransferred < 18446744073709551616

/-- There are at most `MAX_USERS` entries, and they hold credentials. -/
def TableHeld (users : List User) : Prop :=
  users.length ≤ maxUsers ∧
    ∀ u ∈ users, IsCredential u.name ∧ IsCredential u.pass

theorem AdminServerStep.tableHeld {srv srv' : AdminServer}
    {e : AdminServerEvent} (hheld : TableHeld srv.users)
    (h : AdminServerStep srv e srv') : TableHeld srv'.users := by
  rcases h.users_cases with ⟨hsame, -⟩ |
    ⟨name, pass, hname, hpass, ⟨hroom, hn, hp⟩, husers, -⟩
  · rw [hsame]
    exact hheld
  · rw [husers]
    constructor
    · rw [List.length_append, List.length_singleton]
      exact hroom
    · intro u hu
      rcases List.mem_append.mp hu with hu | hu
      · exact hheld.2 u hu
      · rw [List.mem_singleton] at hu
        rw [hu]
        exact ⟨⟨hname, hn⟩, hpass, hp⟩

/-- The server keeps its global variables valid. -/
theorem globals_valid {args : List (Argument × Allocs)}
    {parameters : Parameters} {srv₀ srv : AdminServer}
    {tr : List (AdminServer × AdminServerEvent)}
    (hargs : parseArgs args = .ok parameters) (h₀ : srv₀.Starts parameters)
    (hrun : Run AdminServerStep srv₀ tr srv)
    (hmetrics : srv.globals.metrics.Typed) : srv.globals.Valid := by
  have hstart : TableHeld srv₀.users := by
    unfold AdminServer.users
    rw [h₀.1]
    have hvalid := parseArgs_valid hargs
    exact ⟨hvalid.length_le, fun u hu =>
      ⟨(hvalid.full u hu).1.1, (hvalid.full u hu).2.1⟩⟩
  have hheld := hrun.invariant (I := fun srv => TableHeld srv.users) hstart
    fun _ _ _ hheld hstep => hstep.tableHeld hheld
  exact ⟨hmetrics.historical_ge, hmetrics.historical_lt, hmetrics.total_lt,
    hheld.1, hheld.2⟩

/-- In every state of the server, for every state of a write buffer and of a
parser, `admin_req_fill_msg` appends an answer whole or not at all exactly when
there is no room at all or the answer fits. -/
theorem answer_appended_whole_iff {args : List (Argument × Allocs)}
    {parameters : Parameters} {srv₀ srv : AdminServer}
    {tr : List (AdminServer × AdminServerEvent)}
    (hargs : parseArgs args = .ok parameters) (h₀ : srv₀.Starts parameters)
    (hrun : Run AdminServerStep srv₀ tr srv)
    (hmetrics : srv.globals.metrics.Typed) (b : Buffer) (p : ReqParser)
    (m : Mallocs) :
    AppendsWhole b p srv.globals m ↔ AnswerFits b p srv.globals m :=
  appendsWhole_iff (globals_valid hargs h₀ hrun hmetrics)

/-- An administrator who has connected, and asks for the metrics. -/
theorem metrics_appended_whole :
    connectedServer.globals.metrics.Typed ∧
      AppendsWhole (.init maxBuffSize fun _ => 0)
        { state := .done, cmdSelected := 49 } connectedServer.globals [] := by
  have htyped : connectedServer.globals.metrics.Typed :=
    ⟨by decide, by decide, by decide⟩
  refine ⟨htyped, (answer_appended_whole_iff parseArgs_loneAdminArguments
    ⟨rfl, rfl⟩ connectedServer_run htyped _ _ _).mpr ?_⟩
  exact answerFits_of_room (by decide)
    (globals_valid parseArgs_loneAdminArguments ⟨rfl, rfl⟩ connectedServer_run
      htyped) (by rw [List.take_nil]; exact List.not_mem_nil) rfl

/-- A name and a password that are as long as they may be. -/
def longestUser : User where
  name := List.replicate 50 97 ++ List.replicate 51 0
  pass := List.replicate 50 98 ++ List.replicate 51 0

/-- The arguments `-a a:b`, and ten times `-u` with the longest name and the
longest password. -/
def crowdedArguments : List (Argument × Allocs) :=
  (.a (ascii "a:b"), []) :: List.replicate 10
    (.u (List.replicate 50 97 ++ 58 :: List.replicate 50 98), [])

/-- The parameters that they set. -/
def crowdedParameters : Parameters :=
  { loneAdminParameters with users := List.replicate 10 longestUser }

/-- A server that has started with these arguments. -/
def crowdedServer : AdminServer where
  selector := startedServer.selector
  globals := { parameters := crowdedParameters }

/-- The administrator has connected. -/
def crowdedConnected : AdminServer :=
  { crowdedServer with
    connections := Function.update crowdedServer.connections 5
      (some (newAdminConnection 5 crowdedServer.selector
        crowdedServer.globals)) }

/-- The administrator asks for the users, and `send` accepts a byte of the
answer at a time, four times. -/
def slowListing : List (Ready × AdminSys) :=
  authentication ++ (.read, { recv := .received (ascii "3\n") }) ::
    List.replicate 4 (.write, { send := .accepted 0 })

theorem crowdedArguments_parsed :
    parseArgs crowdedArguments = .ok crowdedParameters := by
  decide +kernel

/-- The fifth write event finds room for 36 bytes and stores 1241. -/
theorem list_not_appended_whole : ∃ tr srv c,
    parseArgs crowdedArguments = .ok crowdedParameters ∧
      crowdedServer.Starts crowdedParameters ∧
      Run AdminServerStep crowdedServer tr srv ∧ srv.connections 5 = some c ∧
      c.state = .request ∧
      (∀ m, ¬ AppendsWhole c.world.admin.writeBuffer c.world.admin.reqParser
        srv.globals m) ∧
      adminReqFillMsg c.world.admin.writeBuffer c.world.admin.reqParser
        srv.globals [] = .error .outOfBounds := by
  have hplay : (crowdedConnected.play 5 slowListing).map (fun srv =>
      (srv.globals, (srv.connections 5).map fun c =>
        (c.state, c.world.admin.writeBuffer.room, c.world.admin.reqParser))) =
      some (crowdedServer.globals, some (.request, 36,
        { cmdSelected := 51, chunksAdded := 1 })) := by
    decide +kernel
  obtain ⟨srv, hsrv, hstate⟩ := Option.map_eq_some_iff.mp hplay
  obtain ⟨hglobals, hconn⟩ := Prod.mk.inj hstate
  obtain ⟨c, hc, hconn⟩ := Option.map_eq_some_iff.mp hconn
  obtain ⟨hrequest, hconn⟩ := Prod.mk.inj hconn
  obtain ⟨hroom, hparser⟩ := Prod.mk.inj hconn
  obtain ⟨tr, hrun⟩ := AdminServer.play_run hsrv
  have haccept : AdminServerStep crowdedServer
      (.accept 5 crowdedServer.selector) crowdedConnected :=
    .accept rfl (by decide)
  have hvalid : crowdedServer.globals.Valid :=
    globals_valid crowdedArguments_parsed ⟨rfl, rfl⟩ .nil
      ⟨by decide, by decide, by decide⟩
  have hlen : ((List.replicate 10 longestUser).flatMap userLine).length =
      1240 := by
    decide +kernel
  have hresponse : c.world.admin.reqParser.response crowdedServer.globals =
      some ((List.replicate 10 longestUser).flatMap userLine) := by
    rw [hparser]
    rfl
  refine ⟨_, srv, c, crowdedArguments_parsed, ⟨rfl, rfl⟩,
    (Run.single haccept).append hrun, hc, hrequest, ?_, ?_⟩
  · intro m
    rw [hglobals, appendsWhole_iff hvalid]
    rintro (hnone | ⟨-, text, hsome, hfits⟩)
    · omega
    · rw [hresponse] at hsome
      cases hsome
      omega
  · have hpos : 0 < c.world.admin.writeBuffer.room := by omega
    obtain ⟨g', performed, heq⟩ := exists_adminReqFillMsg hpos hresponse hvalid
      (by rw [List.take_nil]; exact List.not_mem_nil)
    rw [hglobals, heq, Buffer.put, Buffer.store, if_neg]
    · rfl
    · rw [List.length_append, List.length_singleton, hlen, hroom]
      omega

end Socksv5
