import Socksv5.Admin.PartialSend

/-!
# Commands and lines

An administrator who has been let in sends a stream of lines, which arrives in
chunks.  `admin_request_read` takes one command at most out of every chunk and
asks for the event that answers it, whether or not a command has been parsed;
what is left in the buffer waits for the next chunk.  So the commands that are
performed are those of the lines only as long as the chunks go along with the
lines.
-/

namespace Socksv5

open Support

/-- A chunk that is received, and what the memory holds that is allocated while
it is parsed and answered. -/
structure AdminTurn where
  chunk : List UInt8
  parsing : List (ℕ → UInt8) := []
  answering : List (ℕ → UInt8) := []

/-- What the calls return while the chunk is read. -/
def AdminTurn.reading (t : AdminTurn) : AdminSys where
  recv := .received t.chunk
  mallocs := t.parsing.map some

/-- What the calls return while it is answered: the whole answer is accepted. -/
def AdminTurn.writing (t : AdminTurn) : WriteEvent where
  accepts := maxBuffSize
  contents := t.answering

/-- A chunk is read, and the answer is sent. -/
def turn (t : AdminTurn) (w : AdminWorld) : Except Fault (AdminState × AdminWorld) := do
  let (ret, w) ← adminRequestRead t.reading w
  if ret = .request then adminRequestWrite t.writing.sys w else .ok (ret, w)

/-- `AdminTurnStep s t s'`: `recv` returns the chunk of `t`, of which there is at
least a byte and no more than there is room for, and the turn leads to `s'`. -/
inductive AdminTurnStep : Except Fault (AdminState × AdminWorld) → AdminTurn →
    Except Fault (AdminState × AdminWorld) → Prop
  | turn {w : AdminWorld} {t : AdminTurn} : t.chunk ≠ [] →
      t.chunk.length ≤ w.admin.readBuffer.room →
      AdminTurnStep (.ok (.request, w)) t (turn t w)

/-- The connection goes on, and what has been performed are the commands of the
lines that have been received. -/
def LinesPerformed (s : Except Fault (AdminState × AdminWorld)) : Prop :=
  ∃ w, s = .ok (.request, w) ∧
    (commandsPerformed w.log).map Performed.command =
      commandsIn (adminReceived .request w.log)

/-- The chunk goes along with the lines.  What is pending begins with a line
then, and this is the one line that ends in the chunk; or it is rejected before
an argument gets too long, and no line of a command ends in the chunk. -/
def TakesLine (s : Except Fault (AdminState × AdminWorld)) (t : AdminTurn) : Prop :=
  ∃ w, s = .ok (.request, w) ∧
    let received := adminReceived .request w.log
    match (Position.start.scan (w.admin.readBuffer.pending ++ t.chunk)).1 with
    | .complete q => commandsIn (received ++ t.chunk) =
        commandsIn received ++ [q.asStrings]
    | .rejected => commandsIn (received ++ t.chunk) = commandsIn received
    | _ => False

/-! ## Lines of a stream -/

theorem commandsFrom_of_not_mem {xs : List UInt8} (h : 10 ∉ xs)
    (read : List UInt8) : commandsFrom read xs = [] := by
  induction xs generalizing read with
  | nil => rfl
  | cons c cs ih =>
      rw [List.mem_cons, not_or] at h
      rw [commandsFrom, if_neg (Ne.symm h.1)]
      exact ih h.2 _

/-- No line ends where there is no newline. -/
theorem commandsFrom_append_of_not_mem (xs : List UInt8) {ys : List UInt8}
    (h : 10 ∉ ys) (read : List UInt8) :
    commandsFrom read (xs ++ ys) = commandsFrom read xs := by
  induction xs generalizing read with
  | nil => exact commandsFrom_of_not_mem h read
  | cons c cs ih =>
      rw [List.cons_append, commandsFrom, commandsFrom]
      by_cases hc : c = 10
      · rw [if_pos hc, if_pos hc, ih]
      · rw [if_neg hc, if_neg hc, ih]

/-- A line is unfinished. -/
def Position.isUnfinished : Position → Bool
  | .complete _ | .rejected | .overflowed | .start => false
  | _ => true

theorem isWordByte_end : isWordByte 10 = false := by decide

theorem isDigit_end : isDigit 10 = false := by decide

/-- An unfinished line has no end in it. -/
theorem Position.Spells.not_mem {pos : Position} {xs : List UInt8}
    (h : pos.Spells xs) (hpos : pos.isUnfinished = true) : 10 ∉ xs := by
  cases pos with
  | metrics | addUser | listUsers | changeBufferSize =>
      have hxs := h
      rw [Position.Spells] at hxs
      rw [hxs]
      decide
  | user read =>
      obtain ⟨rfl, hread⟩ := h
      have hnot := not_mem_of_all hread isWordByte_end
      simp [hnot]
  | pass u read =>
      obtain ⟨rfl, hu, hread⟩ := h
      have hnot := not_mem_of_all hu isWordByte_end
      have hnot' := not_mem_of_all hread isWordByte_end
      simp [hnot, hnot']
  | digits read =>
      obtain ⟨rfl, hread⟩ := h
      have hnot := not_mem_of_all hread isDigit_end
      simp [hnot]
  | start | complete | rejected | overflowed => cases hpos

/-- The parser has selected the command of an unfinished line. -/
theorem ReqParser.At.selected {p : ReqParser} {pos : Position} (h : p.At pos)
    (hpos : pos.isUnfinished = true) :
    p.state ≠ .invalidCmd ∧ (p.cmdSelected = 49 ∨ p.cmdSelected = 50 ∨
      p.cmdSelected = 51 ∨ p.cmdSelected = 52) := by
  cases pos with
  | metrics | addUser | user | pass | listUsers | changeBufferSize | digits =>
      obtain ⟨hstate, hcmd, -⟩ := h
      rw [hstate]
      exact ⟨by decide, by simp [hcmd]⟩
  | start | complete | rejected | overflowed => cases hpos

/-! ## A turn -/

/-- A connection that is between two turns. -/
structure AdminWorld.Serving (w : AdminWorld) : Prop where
  awaits : w.Awaits
  limit : w.admin.writeBuffer.limit = maxBuffSize
  parser : w.admin.reqParser.At .start

/-- What is left to be parsed of a chunk, and how far it has been parsed. -/
structure AdminWorld.Took (w : AdminWorld) (chunk : List UInt8)
    (w' : AdminWorld) : Prop where
  fd : w'.fd = w.fd
  log : w'.log = w.log ++ [.recv .request chunk]
  parser : w'.admin.reqParser.At
    (Position.start.scan (w.admin.readBuffer.pending ++ chunk)).1
  pending : w'.admin.readBuffer.pending =
    (Position.start.scan (w.admin.readBuffer.pending ++ chunk)).2
  writeBuffer : w'.admin.writeBuffer = w.admin.writeBuffer
  globals : w'.globals = w.globals
  registered : w'.selector.Registered w'.fd

variable {w w' : AdminWorld} {t : AdminTurn} {ret : AdminState}

theorem AdminTurn.available (t : AdminTurn) : Available t.reading.mallocs := by
  intro hmem
  obtain ⟨contents, -, hnone⟩ := List.mem_map.mp hmem
  cases hnone

/-- A chunk that fits is received as it is. -/
theorem AdminWorld.exists_recvInto {chunk : List UInt8} {b : Buffer}
    {sys : AdminSys} (w : AdminWorld) (state : AdminState)
    (hrecv : sys.recv = .received chunk) (hne : chunk ≠ [])
    (hfits : chunk.length ≤ b.room) :
    ∃ b', b.put chunk = .ok b' ∧
      w.recvInto state sys b = .ok (some b', w.record (.recv state chunk)) := by
  obtain ⟨b', hput⟩ := Buffer.exists_put hfits
  obtain ⟨c, cs, rfl⟩ := List.exists_cons_of_ne_nil hne
  have hupTo : sys.recv.upTo b.room = .received (c :: cs) := by
    rw [hrecv, RecvResult.upTo, List.take_of_length_le hfits]
  refine ⟨b', hput, ?_⟩
  unfold recvInto
  rw [hupTo]
  dsimp only
  rw [hput]
  rfl

/-- What `admin_request_read` does with a chunk. -/
theorem AdminWorld.Serving.read (hw : w.Serving) (hne : t.chunk ≠ [])
    (hfits : t.chunk.length ≤ w.admin.readBuffer.room)
    (h : adminRequestRead t.reading w = .ok (ret, w')) :
    ret = .request ∧ w.Took t.chunk w' := by
  have hchunk : t.reading.recv = .received t.chunk := rfl
  obtain ⟨b, hput, hrecv⟩ := w.exists_recvInto .request hchunk hne hfits
  obtain ⟨hpending, -, -, hsettled⟩ := Buffer.put_spec hput
  unfold adminRequestRead at h
  rw [hrecv, ok_bind] at h
  obtain ⟨⟨rb, parser, m⟩, hconsume, h⟩ := bind_eq_ok.mp h
  obtain ⟨⟨status, w₁⟩, hset, h⟩ := bind_eq_ok.mp h
  obtain ⟨rfl, s, hs, rfl⟩ :=
    AdminWorld.setInterestKey_spec hset hw.awaits.registered
  cases h
  obtain ⟨hdecode, -⟩ := consume_spec (hsettled hne) hconsume
  rw [hpending] at hdecode
  obtain ⟨hat, hrest⟩ := hw.parser.decode hdecode
  refine ⟨rfl, rfl, rfl, hat, hrest, rfl, rfl, ?_⟩
  exact AdminWorld.registered_of_interest hs

/-- A chunk that does not make an argument too long can be read. -/
theorem AdminWorld.Serving.exists_read (hw : w.Serving) (hne : t.chunk ≠ [])
    (hfits : t.chunk.length ≤ w.admin.readBuffer.room)
    (hover : (Position.start.scan
      (w.admin.readBuffer.pending ++ t.chunk)).1 ≠ .overflowed) :
    ∃ ret w', adminRequestRead t.reading w = .ok (ret, w') := by
  have hchunk : t.reading.recv = .received t.chunk := rfl
  obtain ⟨b, hput, hrecv⟩ := w.exists_recvInto .request hchunk hne hfits
  obtain ⟨hpending, -, -, -⟩ := Buffer.put_spec hput
  rw [← hpending] at hover
  obtain ⟨parser, m, hdecode⟩ :=
    hw.parser.exists_decode trivial t.available hover
  have hloop : (adminConsumeReqBuffer b w.admin.reqParser t.reading.mallocs >>=
      fun r => .ok (r.2, r.1.pending)) = _ :=
    consumeLoop_decode (w.admin.reqParser, t.reading.mallocs) (le_refl b.count)
  rw [hdecode] at hloop
  obtain ⟨⟨rb, p', m'⟩, hconsume, -⟩ := bind_eq_ok.mp hloop
  unfold adminRequestRead
  rw [hrecv, ok_bind]
  dsimp only
  have hconsume' : adminConsumeReqBuffer b
      (w.record (.recv .request t.chunk)).admin.reqParser t.reading.mallocs =
        .ok (rb, p', m') := hconsume
  rw [hconsume', ok_bind]
  dsimp only
  obtain ⟨s, hs, -⟩ := AdminWorld.exists_setInterestKey
    (w := { w.record (.recv .request t.chunk) with
      admin := { w.admin with readBuffer := rb, reqParser := p' } })
    hw.awaits.registered .write
  exact ⟨_, _, bind_eq_ok.mpr ⟨_, hs, rfl⟩⟩

/-- `w.Turned chunk performed w'`: the log has grown by the chunk and by what
has been performed. -/
def AdminWorld.Turned (w : AdminWorld) (chunk : List UInt8)
    (performed : Option Performed) (w' : AdminWorld) : Prop :=
  commandsPerformed w'.log = commandsPerformed w.log ++ performed.toList ∧
    adminReceived .request w'.log = adminReceived .request w.log ++ chunk

theorem AdminWorld.turned_of_log {chunk bs : List UInt8}
    {performed : Option Performed}
    (h : w'.log = w.log ++ (.recv .request chunk ::
      (performed.toList.map AdminCall.perform ++ [.send .request bs]))) :
    w.Turned chunk performed w' := by
  constructor
  · rw [h, commandsPerformed_append]
    cases performed <;> rfl
  · rw [h, adminReceived_append]
    cases performed with
    | none => exact congrArg _ (List.append_nil chunk)
    | some command => exact congrArg _ (List.append_nil chunk)

/-- An answer that fits is sent as a whole, and the connection is between two
turns again. -/
theorem AdminWorld.Serving.answer {w₁ : AdminWorld} {chunk text : List UInt8}
    {wb : Buffer} {p : ReqParser} {g : Globals} {performed : Option Performed}
    (hw : w.Serving) (htook : w.Took chunk w₁)
    (hfill : adminReqFillMsg w₁.admin.writeBuffer w₁.admin.reqParser w₁.globals
      t.writing.sys.mallocs = .ok (wb, adminReqParserInit p, g, performed))
    (hput : w₁.admin.writeBuffer.put text = .ok wb) (hne : text ≠ [])
    (hlen : text.length ≤ maxBuffSize) (hg : g.Valid) :
    ∃ w', adminRequestWrite t.writing.sys w₁ = .ok (.request, w') ∧
      w'.Serving ∧ w.Turned chunk performed w' := by
  obtain ⟨hpending, -, hlimit, -⟩ := Buffer.put_spec hput
  rw [htook.writeBuffer, hw.awaits.empty, List.nil_append] at hpending
  rw [htook.writeBuffer, hw.limit] at hlimit
  have hne' : wb.pending ≠ [] := by
    rw [hpending]
    exact hne
  obtain ⟨w', hwrite, hsent⟩ :=
    exists_adminRequestWrite htook.registered hfill rfl hne'
  have hempty : w'.admin.writeBuffer.pending = [] := by
    rw [hsent.pending, hpending, List.drop_eq_nil_iff]
    exact hlen.trans (Nat.le_succ _)
  have hlimit' : w'.admin.writeBuffer.limit = maxBuffSize := by
    rw [hsent.limit, hlimit]
  refine ⟨w', hwrite, ⟨⟨hsent.registered, hempty, ?_, ?_⟩, hlimit', ?_⟩, ?_⟩
  · rw [hsent.settled.room_of_pending hempty, hlimit']
  · rw [hsent.globals]
    exact hg
  · rw [hsent.reqParser]
    exact adminReqParserInit_at p
  · apply AdminWorld.turned_of_log
    rw [hsent.log, htook.log, List.append_assoc]
    rfl

/-- The turn of a chunk with which a command is complete. -/
theorem AdminWorld.Serving.turn_complete {q : Command} (hw : w.Serving)
    (hne : t.chunk ≠ []) (hfits : t.chunk.length ≤ w.admin.readBuffer.room)
    (hpos : (Position.start.scan
      (w.admin.readBuffer.pending ++ t.chunk)).1 = .complete q) :
    ∃ w', turn t w = .ok (.request, w') ∧ w'.Serving ∧
      w.Turned t.chunk (some (q.outcome w.globals)) w' := by
  obtain ⟨ret, w₁, hread⟩ := hw.exists_read hne hfits (by rw [hpos]; simp)
  obtain ⟨rfl, htook⟩ := hw.read hne hfits hread
  have hat := htook.parser
  rw [hpos] at hat
  have hstate : w₁.admin.reqParser.state ≠ .invalidCmd := by
    rw [hat.1]
    decide
  have hlen := q.length_response_le hw.awaits.valid
  have hroom : ((q.outcome w₁.globals).answer w₁.globals).length <
      w₁.admin.writeBuffer.room := by
    rw [Command.response, List.length_append, List.length_singleton] at hlen
    rw [htook.globals, htook.writeBuffer, hw.awaits.room]
    unfold maxBuffSize
    omega
  have hvalid : w₁.globals.Valid := by
    rw [htook.globals]
    exact hw.awaits.valid
  obtain ⟨wb, g, hfill, hput, hg, -⟩ :=
    hat.2.exists_fill hstate hvalid t.writing.available hroom
  rw [htook.globals] at hfill hput
  have hle : (q.response w.globals).length ≤ maxBuffSize := by
    unfold maxBuffSize
    omega
  rw [← htook.globals] at hfill
  obtain ⟨w', hwrite, hw', hturned⟩ := hw.answer htook hfill hput (by simp) hle hg
  rw [htook.globals] at hturned
  refine ⟨w', ?_, hw', hturned⟩
  rw [turn, hread, ok_bind]
  exact hwrite

/-- The turn of a chunk that is rejected. -/
theorem AdminWorld.Serving.turn_rejected (hw : w.Serving)
    (hne : t.chunk ≠ []) (hfits : t.chunk.length ≤ w.admin.readBuffer.room)
    (hpos : (Position.start.scan
      (w.admin.readBuffer.pending ++ t.chunk)).1 = .rejected) :
    ∃ w', turn t w = .ok (.request, w') ∧ w'.Serving ∧
      w.Turned t.chunk none w' := by
  obtain ⟨ret, w₁, hread⟩ := hw.exists_read hne hfits (by rw [hpos]; simp)
  obtain ⟨rfl, htook⟩ := hw.read hne hfits hread
  have hat := htook.parser
  rw [hpos] at hat
  have hlen : invalidText.length < w₁.admin.writeBuffer.room := by
    rw [htook.writeBuffer, hw.awaits.room]
    decide
  have hvalid : w₁.globals.Valid := by
    rw [htook.globals]
    exact hw.awaits.valid
  obtain ⟨wb, hfill, hput⟩ := exists_fill_of_invalid hat t.writing.available hlen
  obtain ⟨w', hwrite, hw', hturned⟩ :=
    hw.answer htook hfill hput (by simp) (by decide) hvalid
  refine ⟨w', ?_, hw', hturned⟩
  rw [turn, hread, ok_bind]
  exact hwrite

/-- The turn of a chunk that leaves a line unfinished: if the server survives
it, a command has been performed. -/
theorem AdminWorld.Serving.turn_unfinished (hw : w.Serving)
    (hne : t.chunk ≠ []) (hfits : t.chunk.length ≤ w.admin.readBuffer.room)
    (hpos : (Position.start.scan
      (w.admin.readBuffer.pending ++ t.chunk)).1.isUnfinished = true)
    (h : turn t w = .ok (ret, w')) :
    ∃ command, w.Turned t.chunk (some command) w' := by
  obtain ⟨⟨ret₁, w₁⟩, hread, h⟩ := bind_eq_ok.mp h
  obtain ⟨rfl, htook⟩ := hw.read hne hfits hread
  dsimp only at h
  rw [if_pos rfl] at h
  obtain ⟨wb, parser, g, performed, hfill, hend⟩ :=
    adminRequestWrite_cases htook.registered h
  have hat := htook.parser
  have hroom : 0 < w₁.admin.writeBuffer.room := by
    rw [htook.writeBuffer, hw.awaits.room]
    decide
  have hselected : w₁.admin.reqParser.state ≠ .invalidCmd ∧
      (w₁.admin.reqParser.cmdSelected = 49 ∨
        w₁.admin.reqParser.cmdSelected = 50 ∨
        w₁.admin.reqParser.cmdSelected = 51 ∨
        w₁.admin.reqParser.cmdSelected = 52) :=
    hat.selected hpos
  obtain ⟨-, hsome⟩ := performed_ne_none hroom hselected.1 hselected.2 hfill
  obtain ⟨command, rfl⟩ := Option.ne_none_iff_exists'.mp hsome
  refine ⟨command, ?_⟩
  have hfilled := w₁.filled_log wb parser g (some command)
  rcases hend with ⟨-, -, rfl⟩ | ⟨bs, wb', -, -, s, -, rfl⟩
  · refine AdminWorld.turned_of_log (?_ : _ = w.log ++ (.recv .request t.chunk ::
      ([.perform command] ++ [.send .request []])))
    change (w₁.filled wb parser g (some command)).log ++ _ = _
    rw [hfilled, htook.log, List.append_assoc, List.append_assoc]
    rfl
  · refine AdminWorld.turned_of_log (?_ : _ = w.log ++ (.recv .request t.chunk ::
      ([.perform command] ++ [.send .request bs])))
    change (w₁.filled wb parser g (some command)).log ++ _ = _
    rw [hfilled, htook.log, List.append_assoc, List.append_assoc]
    rfl

/-- An argument gets too long: the server does not survive the turn. -/
theorem AdminWorld.Serving.turn_overflowed (hw : w.Serving)
    (hne : t.chunk ≠ []) (hfits : t.chunk.length ≤ w.admin.readBuffer.room)
    (hpos : (Position.start.scan
      (w.admin.readBuffer.pending ++ t.chunk)).1 = .overflowed) :
    turn t w ≠ .ok (ret, w') := by
  intro h
  obtain ⟨⟨ret₁, w₁⟩, hread, -⟩ := bind_eq_ok.mp h
  have htook := (hw.read hne hfits hread).2.parser
  rw [hpos] at htook
  exact htook

/-- An unfinished line ends no line of the stream. -/
theorem AdminWorld.commandsIn_of_unfinished (w : AdminWorld)
    (hpos : (Position.start.scan
      (w.admin.readBuffer.pending ++ t.chunk)).1.isUnfinished = true)
    (received : List UInt8) :
    commandsIn (received ++ t.chunk) = commandsIn received := by
  have hstart : Position.start.Spells [] := rfl
  obtain ⟨used, hused, hspells, hrest⟩ :=
    hstart.scan rfl (w.admin.readBuffer.pending ++ t.chunk)
  have hnot := hspells.not_mem hpos
  have hgoes : (Position.start.scan
      (w.admin.readBuffer.pending ++ t.chunk)).1.isComplete = false := by
    rcases hp : (Position.start.scan
      (w.admin.readBuffer.pending ++ t.chunk)).1 <;> rw [hp] at hpos <;>
      first | rfl | cases hpos
  rw [hrest hgoes, List.append_nil] at hused
  rw [List.nil_append, ← hused, List.mem_append, not_or] at hnot
  exact commandsFrom_append_of_not_mem _ hnot.2 _

theorem Position.scan_ne_start {xs : List UInt8} (h : xs ≠ []) :
    (Position.start.scan xs).1 ≠ .start := by
  intro hpos
  have hstart : Position.start.Spells [] := rfl
  obtain ⟨used, hused, hspells, hrest⟩ := hstart.scan rfl xs
  rw [hpos] at hspells hrest
  have hnil : [] ++ used = [] := hspells
  rw [hrest rfl, List.append_nil] at hused
  rw [List.nil_append, ← hused] at hnil
  exact h hnil

/-- After a turn that starts with all lines performed, all lines are performed
exactly when the chunk has gone along with them. -/
theorem AdminWorld.Serving.turn_iff (hw : w.Serving)
    (hlines : LinesPerformed (.ok (.request, w))) (hne : t.chunk ≠ [])
    (hfits : t.chunk.length ≤ w.admin.readBuffer.room) :
    LinesPerformed (turn t w) ↔ TakesLine (.ok (.request, w)) t := by
  obtain ⟨w₀, heq, hperformed⟩ := hlines
  cases heq
  have htakes : TakesLine (.ok (.request, w)) t ↔
      match (Position.start.scan (w.admin.readBuffer.pending ++ t.chunk)).1 with
      | .complete q =>
          commandsIn (adminReceived .request w.log ++ t.chunk) =
            commandsIn (adminReceived .request w.log) ++ [q.asStrings]
      | .rejected => commandsIn (adminReceived .request w.log ++ t.chunk) =
          commandsIn (adminReceived .request w.log)
      | _ => False := by
    constructor
    · rintro ⟨w₁, heq, h⟩
      cases heq
      exact h
    · intro h
      exact ⟨w, rfl, h⟩
  have hturned : ∀ {performed : Option Performed} {w' : AdminWorld},
      w.Turned t.chunk performed w' →
        ((commandsPerformed w'.log).map Performed.command =
            commandsIn (adminReceived .request w'.log) ↔
          commandsIn (adminReceived .request w.log ++ t.chunk) =
            commandsIn (adminReceived .request w.log) ++
              (performed.map Performed.command).toList) := by
    intro performed w' h
    rw [h.1, h.2, List.map_append, hperformed, eq_comm]
    cases performed <;> rfl
  have hunfinished : (Position.start.scan
      (w.admin.readBuffer.pending ++ t.chunk)).1.isUnfinished = true →
        ¬ LinesPerformed (turn t w) := by
    rintro hpos ⟨w', hturn, hgood⟩
    obtain ⟨command, h⟩ := hw.turn_unfinished hne hfits hpos hturn
    rw [hturned h, w.commandsIn_of_unfinished hpos] at hgood
    exact absurd (List.self_eq_append_right.mp hgood) (by simp)
  rw [htakes]
  rcases hpos : (Position.start.scan
    (w.admin.readBuffer.pending ++ t.chunk)).1 with
    _ | _ | _ | _ | _ | _ | _ | _ | q | _ | _
  case complete =>
    obtain ⟨w', hturn, -, h⟩ := hw.turn_complete hne hfits hpos
    have hiff := hturned h
    rw [Option.map_some, Option.toList_some, Command.outcome_command] at hiff
    constructor
    · rintro ⟨w₁, heq, hgood⟩
      rw [hturn] at heq
      cases heq
      exact hiff.mp hgood
    · intro hline
      exact ⟨w', hturn, hiff.mpr hline⟩
  case rejected =>
    obtain ⟨w', hturn, -, h⟩ := hw.turn_rejected hne hfits hpos
    have hiff := hturned h
    rw [Option.map_none, Option.toList_none, List.append_nil] at hiff
    constructor
    · rintro ⟨w₁, heq, hgood⟩
      rw [hturn] at heq
      cases heq
      exact hiff.mp hgood
    · intro hline
      exact ⟨w', hturn, hiff.mpr hline⟩
  case start =>
    refine absurd hpos (Position.scan_ne_start ?_)
    simp [hne]
  case overflowed =>
    constructor
    · rintro ⟨w', hturn, -⟩
      exact hw.turn_overflowed hne hfits hpos hturn
    · exact False.elim
  all_goals
    constructor
    · intro hgood
      exact hunfinished (by rw [hpos]; rfl) hgood
    · exact False.elim

/-- A chunk that goes along with the lines leaves the connection between two
turns. -/
theorem AdminWorld.Serving.turn_serving (hw : w.Serving) (hne : t.chunk ≠ [])
    (hfits : t.chunk.length ≤ w.admin.readBuffer.room)
    (h : TakesLine (.ok (.request, w)) t) :
    ∃ w', turn t w = .ok (.request, w') ∧ w'.Serving := by
  obtain ⟨w₀, heq, hline⟩ := h
  cases heq
  dsimp only at hline
  split at hline
  case h_1 q hpos =>
    obtain ⟨w', hturn, hw', -⟩ := hw.turn_complete hne hfits hpos
    exact ⟨w', hturn, hw'⟩
  case h_2 hpos =>
    obtain ⟨w', hturn, hw', -⟩ := hw.turn_rejected hne hfits hpos
    exact ⟨w', hturn, hw'⟩
  case h_3 => exact hline.elim

/-! ## Runs of turns -/

/-- A connection that is about to arrive at `ADMIN_REQUEST`. -/
structure AdminWorld.Enters (w : AdminWorld) : Prop where
  registered : w.selector.Registered w.fd
  limit : w.admin.writeBuffer.limit = maxBuffSize
  valid : w.globals.Valid
  unserved : Unserved w.log

theorem AdminWorld.Enters.serving (h : w.Enters) :
    (adminRequestInit w).Serving := by
  refine ⟨⟨h.registered, rfl, ?_, h.valid⟩, h.limit, adminReqParserInit_at _⟩
  change w.admin.writeBuffer.reset.room = maxBuffSize
  rw [Buffer.room_reset, h.limit]

theorem Unserved.lines {log : List AdminCall} (h : Unserved log) :
    commandsPerformed log = [] ∧ adminReceived .request log = [] := by
  constructor
  · rw [commandsPerformed, List.filterMap_eq_nil_iff]
    intro call hcall
    have hserves := h call hcall
    cases call with
    | perform command => cases hserves
    | recv | send | authenticate => rfl
  · rw [adminReceived, List.flatMap_eq_nil_iff]
    intro call hcall
    have hserves := h call hcall
    cases call with
    | recv s bs =>
        have hs : s ≠ .request := of_decide_eq_false hserves
        exact if_neg hs
    | send | authenticate | perform => rfl

/-- The commands that are performed are those of the lines, all along a run,
exactly when every chunk goes along with the lines. -/
theorem lines_performed_iff {tr : List (Except Fault (AdminState × AdminWorld) ×
      AdminTurn)} {s : Except Fault (AdminState × AdminWorld)} (h : w.Enters)
    (hrun : Run AdminTurnStep (.ok (.request, adminRequestInit w)) tr s) :
    ((∀ x ∈ tr, LinesPerformed x.1) ∧ LinesPerformed s) ↔
      ∀ x ∈ tr, TakesLine x.1 x.2 := by
  refine hrun.forall_iff_of
    (I := fun s => ∃ w, s = .ok (.request, w) ∧ w.Serving) ?_ ?_ ?_ ?_
  · exact ⟨_, rfl, h.serving⟩
  · obtain ⟨hperformed, hreceived⟩ := h.unserved.lines
    refine ⟨_, rfl, ?_⟩
    change (commandsPerformed w.log).map Performed.command =
      commandsIn (adminReceived .request w.log)
    rw [hperformed, hreceived]
    rfl
  · rintro s₁ t s₂ ⟨w₁, rfl, hw₁⟩ - htakes hstep
    cases hstep with
    | turn hne hfits => exact hw₁.turn_serving hne hfits htakes
  · rintro s₁ t s₂ ⟨w₁, rfl, hw₁⟩ hlines hstep
    cases hstep with
    | turn hne hfits => exact hw₁.turn_iff hlines hne hfits

/-- The administrator of `loneAdminConnection`, who is let in. -/
def loneAdministrator : AdminWorld := loneAdminConnection.world

theorem loneAdministrator_enters : loneAdministrator.Enters where
  registered := by decide
  limit := rfl
  valid := ⟨by decide, by decide, by decide, by decide, fun u hu => by cases hu⟩
  unserved := fun call hcall => by cases hcall

/-- What a chunk leads to. -/
def afterChunk (chunk : List UInt8) :
    Except Fault (AdminState × AdminWorld) :=
  turn { chunk := chunk } (adminRequestInit loneAdministrator)

theorem afterChunk_run {chunk : List UInt8} (hne : chunk ≠ [])
    (hfits : chunk.length ≤ maxBuffSize) :
    Run AdminTurnStep (.ok (.request, adminRequestInit loneAdministrator))
      [(.ok (.request, adminRequestInit loneAdministrator), { chunk := chunk })]
      (afterChunk chunk) :=
  .single (.turn hne hfits)

/-- A byte that ends no line is answered by what its command would show, and of
two lines that arrive together one is performed. -/
theorem lines_not_performed :
    loneAdministrator.Enters ∧
      Run AdminTurnStep (.ok (.request, adminRequestInit loneAdministrator))
        [(.ok (.request, adminRequestInit loneAdministrator),
          { chunk := ascii "1" })] (afterChunk (ascii "1")) ∧
      ¬ LinesPerformed (afterChunk (ascii "1")) ∧
      Run AdminTurnStep (.ok (.request, adminRequestInit loneAdministrator))
        [(.ok (.request, adminRequestInit loneAdministrator),
          { chunk := ascii "1\n3\n" })] (afterChunk (ascii "1\n3\n")) ∧
      ¬ LinesPerformed (afterChunk (ascii "1\n3\n")) := by
  have hserving := loneAdministrator_enters.serving
  have hlines : LinesPerformed
      (.ok (.request, adminRequestInit loneAdministrator)) := ⟨_, rfl, rfl⟩
  have hnot : ∀ chunk : List UInt8, chunk ≠ [] → chunk.length ≤ maxBuffSize →
      ¬ TakesLine (.ok (.request, adminRequestInit loneAdministrator))
        { chunk := chunk } → ¬ LinesPerformed (afterChunk chunk) := by
    intro chunk hne hfits htakes
    exact (hserving.turn_iff hlines hne hfits).not.mpr htakes
  refine ⟨loneAdministrator_enters, afterChunk_run (by decide) (by decide), ?_,
    afterChunk_run (by decide) (by decide), ?_⟩
  · apply hnot _ (by decide) (by decide)
    rintro ⟨w, heq, htakes⟩
    cases heq
    exact htakes
  · apply hnot _ (by decide) (by decide)
    rintro ⟨w, heq, htakes⟩
    cases heq
    have hone : commandsIn (ascii "1\n3\n") = [.metrics] := htakes
    exact absurd hone (by decide)

/-- A line that arrives on its own. -/
theorem line_performed : LinesPerformed (afterChunk (ascii "1\n")) := by
  have hrun : Run AdminTurnStep _ _ (afterChunk (ascii "1\n")) :=
    afterChunk_run (by decide) (by decide)
  refine ((lines_performed_iff loneAdministrator_enters hrun).mpr ?_).2
  intro x hx
  rw [List.mem_singleton] at hx
  rw [hx]
  have hone : commandsIn (ascii "1\n") = [.metrics] := by decide
  exact ⟨_, rfl, hone⟩

end Socksv5
