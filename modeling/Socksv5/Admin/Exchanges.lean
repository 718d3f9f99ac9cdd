import Socksv5.Admin.Accounts
import Socksv5.Admin.Grammar
import Socksv5.Admin.Lines

/-!
# Exchanges

An administrator gives a line and gets a text for it.  In the abstract, the line
is a command that is performed on the accounts, and the text is its reply, or it
is no command; in between, others leave other users, another buffer size or other
counters.  A connection that is between two commands does this with a line that it
receives as a whole, if it may send the answer as a whole.
-/

namespace Socksv5

open Support

/-! ## The abstract exchanges -/

/-- The line of a listing for a name and a password. -/
def credentialsLine (u : List UInt8 × List UInt8) : List UInt8 :=
  ascii "username: " ++ u.1 ++ ascii " - password: " ++ u.2 ++ ascii "\n"

/-- What an administrator is told of: the accounts and the counters, as they
stand. -/
structure Standing where
  accounts : Accounts
  metrics : Metrics

/-- They are those of the global variables. -/
structure Standing.Of (st : Standing) (g : Globals) : Prop where
  accounts : st.accounts.Of g
  metrics : st.metrics = g.metrics

/-- The text is the reply to a command with the result that it has. -/
inductive Standing.Replies (st : Standing) : Performed → List UInt8 → Prop
  | metrics : st.Replies .metrics (metricsText st.metrics)
  | addUser (name pass : List UInt8) (ret : ℤ) :
      st.Replies (.addUser name pass ret) (createUserText ret)
  | listUsers : st.Replies .listUsers (st.accounts.users.flatMap credentialsLine)
  | changeBufferSize (digits : List UInt8) (ret : ℤ) :
      st.Replies (.changeBufferSize digits ret) (changeBufferSizeText ret)

/-- What happens while an administrator is served: a line is answered with a text,
or others leave these users, this buffer size and these counters. -/
inductive Exchange
  | answer (line text : List UInt8)
  | others (users : List (List UInt8 × List UInt8)) (bufferSize : ℕ) (metrics : Metrics)

/-- The line and the text of an answer. -/
def Exchange.answered : Exchange → Option (List UInt8 × List UInt8)
  | .answer line text => some (line, text)
  | .others _ _ _ => none

/-- `st.Exchanges x st'`: a line that is a command is performed, and answered with
its reply; any other line is answered as an invalid command and changes nothing.
Nobody changes the administrators. -/
inductive Standing.Exchanges (st : Standing) : Exchange → Standing → Prop
  | performs {acc : Accounts} {line text : List UInt8} {q : Command}
      {command : Performed} : commandOf line = some q →
      command.command = q.asStrings → st.accounts.Performs command acc →
      st.Replies command text →
      st.Exchanges (.answer line text) { st with accounts := acc }
  | rejects {line : List UInt8} : commandOf line = none →
      st.Exchanges (.answer line invalidText) st
  | others (users : List (List UInt8 × List UInt8)) (bufferSize : ℕ)
      (metrics : Metrics) : st.Exchanges (.others users bufferSize metrics)
        ⟨{ st.accounts with users := users, bufferSize := bufferSize }, metrics⟩

/-! ## Whole lines -/

/-- A whole line is read up to its end, as a command or as none. -/
theorem Position.scan_line {line : List UInt8} (hline : 10 ∉ line)
    (hfits : ArgumentsFit (line ++ [10])) :
    Position.start.scan (line ++ [10]) =
      (((commandOf line).map Position.complete).getD .rejected, []) := by
  have hstart : Position.start.Spells [] := rfl
  obtain ⟨used, hused, hspells, hrest⟩ := hstart.scan rfl (line ++ [10])
  have hover : (Position.start.scan (line ++ [10])).1 ≠ .overflowed := by
    rw [Position.scan_fst, Ne, Position.run_start_overflowed_iff, not_not]
    exact hfits
  have hrun := Position.scan_fst .start (line ++ [10])
  rw [List.nil_append] at hspells
  generalize Position.start.scan (line ++ [10]) = scanned at hused hspells hrest hover hrun ⊢
  obtain ⟨pos, rest⟩ := scanned
  dsimp only at hused hspells hrest hover hrun
  have hwhole : pos.isComplete = false → pos.Spells (line ++ [10]) := by
    intro hgoes
    rw [hused, hrest hgoes, List.append_nil]
    exact hspells
  have hend : 10 ∈ line ++ [10] := by simp
  by_cases hunfinished : pos.isUnfinished = true
  · have hgoes : pos.isComplete = false := by
      cases pos <;> first | rfl | cases hunfinished
    exact absurd hend ((hwhole hgoes).not_mem hunfinished)
  · cases pos with
    | complete q =>
        obtain ⟨rfl, hq⟩ := hspells
        have hlast : (10 : UInt8) ∈ q.line := by
          cases q <;> simp [Command.line]
        have hnil : rest = [] := by
          rcases List.eq_nil_or_concat rest with hnil | ⟨rest, c, rfl⟩
          · exact hnil
          · rw [List.concat_eq_append, ← List.append_assoc] at hused
            obtain ⟨rfl, -⟩ := List.append_inj' hused rfl
            exact absurd (List.mem_append_left _ hlast) hline
        rw [hnil, List.append_nil] at hused
        rw [commandOf_line hq hused.symm, hnil]
        rfl
    | rejected =>
        rw [hrest rfl]
        cases hcommand : commandOf line with
        | none => rfl
        | some q =>
            obtain ⟨hq, hqline⟩ := Command.line_of_commandOf hcommand
            have hcomplete := Position.run_line hq [] (by
              rw [List.append_nil, hqline, ← hrun]
              exact hover)
            rw [List.append_nil, hqline, ← hrun] at hcomplete
            cases hcomplete
    | start =>
        have hnil : line ++ [10] = [] := hwhole rfl
        simp at hnil
    | overflowed => exact absurd rfl hover
    | metrics | addUser | user | pass | listUsers | changeBufferSize | digits =>
        exact absurd rfl hunfinished

/-! ## A connection between two commands -/

/-- The connection waits for the event of `i`: either for a line, with nothing
left of the last one, or to answer the line that it has received. -/
structure AdminConfig.Between (c : AdminConfig) (i : FdInterest) (pos : Position) :
    Prop where
  current : c.stm.current = some AdminState.request.id
  live : c.world.destroyed = false
  interest : c.world.selector.interest? c.world.fd = some i
  awaits : c.world.Awaits
  writeLimit : c.world.admin.writeBuffer.limit = maxBuffSize
  parser : c.world.admin.reqParser.At pos
  empty : c.world.admin.readBuffer.pending = []
  room : c.world.admin.readBuffer.room = maxBuffSize
  readLimit : c.world.admin.readBuffer.limit = maxBuffSize

variable {c : AdminConfig} {r : Ready} {sys : AdminSys} {w' : AdminWorld}

/-- A callback of `ADMIN_REQUEST` that stays there. -/
theorem adminDispatch_stays {f : AdminCallback}
    (hc : c.stm.current = some AdminState.request.id)
    (hf : adminOnReady sys .request r = some f)
    (h : f c.world = .ok (.request, w')) :
    adminDispatch r sys c = .ok ⟨c.stm, w'⟩ := by
  unfold adminDispatch stmHandler handleFirst
  simp only [hc, ok_bind, adminTable_states, ne_eq, not_true_eq_false, if_false, hf,
    Option.map_some, AdminCallback.numbered, h, jump_adminTable w' hc, if_true]
  rw [if_neg (by decide)]

/-- A line that is received as a whole is parsed as a whole. -/
theorem AdminConfig.Between.exists_read {line : List UInt8}
    (h : c.Between .read .start) (hline : 10 ∉ line)
    (hlen : line.length < maxBuffSize) (hfits : ArgumentsFit (line ++ [10]))
    (parsing : List (ℕ → UInt8)) :
    ∃ w', adminDispatch .read
        { recv := .received (line ++ [10]), mallocs := parsing.map some } c =
          .ok ⟨c.stm, w'⟩ ∧
      AdminConfig.Between ⟨c.stm, w'⟩ .write
        (((commandOf line).map Position.complete).getD .rejected) ∧
      w'.log = c.world.log ++ [.recv .request (line ++ [10])] ∧
      w'.globals = c.world.globals := by
  let t : AdminTurn := { chunk := line ++ [10], parsing := parsing }
  have hserving : c.world.Serving := ⟨h.awaits, h.writeLimit, h.parser⟩
  have hne : t.chunk ≠ [] := by simp [t]
  have hroom : t.chunk.length ≤ c.world.admin.readBuffer.room := by
    rw [h.room, List.length_append, List.length_singleton]
    exact hlen
  have hscan := Position.scan_line hline hfits
  have hstream : c.world.admin.readBuffer.pending ++ t.chunk = line ++ [10] := by
    rw [h.empty]
    rfl
  have hover : (Position.start.scan (c.world.admin.readBuffer.pending ++ t.chunk)).1 ≠
      .overflowed := by
    rw [hstream, hscan]
    cases commandOf line <;> simp
  obtain ⟨ret, w', hread⟩ := hserving.exists_read hne hroom hover
  obtain ⟨rfl, htook⟩ := hserving.read hne hroom hread
  have hparser := htook.parser
  have hpending := htook.pending
  rw [hstream, hscan] at hparser hpending
  rcases adminRequestRead_cases h.awaits.registered hread with
    ⟨hret, -⟩ | ⟨bs, b, rb, parser, m, s, -, hreceives, hconsume, hs, rfl⟩
  · cases hret
  cases hreceives with
  | @data b' _ _ _ _ _ hlimit hsettled =>
      have hleft := (consume_spec hsettled hconsume).2
      have hlimit' : rb.limit = maxBuffSize := by
        rw [hleft.limit, hlimit, h.readLimit]
      refine ⟨_, adminDispatch_stays h.current rfl hread,
        ⟨h.current, h.live, hs, ⟨htook.registered, h.awaits.empty, h.awaits.room,
          h.awaits.valid⟩, h.writeLimit, hparser, hpending, ?_, hlimit'⟩,
        htook.log, rfl⟩
      exact (hleft.settled.room_of_pending hpending).trans hlimit'

/-- An answer that is sent as a whole leaves the connection waiting for the next
line. -/
theorem AdminConfig.Between.exists_send {pos : Position} {k : ℕ}
    {answering : List (ℕ → UInt8)} {wb : Buffer} {p : ReqParser} {g : Globals}
    {performed : Option Performed} {bs : List UInt8} (h : c.Between .write pos)
    (hfill : adminReqFillMsg c.world.admin.writeBuffer c.world.admin.reqParser
      c.world.globals (answering.map some) = .ok (wb, adminReqParserInit p, g, performed))
    (hput : c.world.admin.writeBuffer.put bs = .ok wb) (hne : bs ≠ [])
    (hk : bs.length ≤ k + 1) (hg : g.Valid) :
    ∃ w', adminDispatch .write
        { send := .accepted k, mallocs := answering.map some } c = .ok ⟨c.stm, w'⟩ ∧
      AdminConfig.Between ⟨c.stm, w'⟩ .read .start ∧
      w'.log = c.world.log ++ (performed.toList.map AdminCall.perform ++
        [.send .request bs]) ∧
      w'.globals = g := by
  obtain ⟨hpending, -, hlimit, -⟩ := Buffer.put_spec hput
  rw [h.awaits.empty, List.nil_append] at hpending
  rw [h.writeLimit] at hlimit
  have hne' : wb.pending ≠ [] := by
    rw [hpending]
    exact hne
  have hwrites : ∃ w', adminRequestWrite
        { send := .accepted k, mallocs := answering.map some } c.world =
          .ok (.request, w') ∧
      c.world.Sent wb (adminReqParserInit p) g performed k w' :=
    exists_adminRequestWrite h.awaits.registered hfill rfl hne'
  obtain ⟨w', hwrite, hsent⟩ := hwrites
  have hempty : w'.admin.writeBuffer.pending = [] := by
    rw [hsent.pending, hpending, List.drop_eq_nil_iff]
    exact hk
  have hlimit' : w'.admin.writeBuffer.limit = maxBuffSize := by
    rw [hsent.limit, hlimit]
  have hafter : w'.destroyed = false ∧
      w'.selector.interest? w'.fd = some .read := by
    obtain ⟨wb₁, p₁, g₁, performed₁, -, hend⟩ :=
      adminRequestWrite_cases h.awaits.registered hwrite
    rcases hend with ⟨hret, -⟩ | ⟨bs₁, wb', -, -, s, hs, rfl⟩
    · cases hret
    · have hread : ¬ wb'.canRead = true := by
        rw [Buffer.canRead_iff, not_not]
        exact hempty
      rw [if_neg hread] at hs
      cases performed₁ with
      | none => exact ⟨h.live, hs⟩
      | some command => exact ⟨h.live, hs⟩
  have htake : wb.pending.take (k + 1) = bs := by
    rw [hpending]
    exact List.take_of_length_le hk
  refine ⟨w', adminDispatch_stays h.current rfl hwrite, ⟨h.current, hafter.1, hafter.2,
    ⟨hsent.registered, hempty, ?_, ?_⟩, hlimit', ?_, ?_, ?_, ?_⟩, ?_, hsent.globals⟩
  · rw [hsent.settled.room_of_pending hempty, hlimit']
  · rw [hsent.globals]
    exact hg
  · rw [hsent.reqParser]
    exact adminReqParserInit_at p
  · rw [hsent.readBuffer, h.empty]
  · rw [hsent.readBuffer, h.room]
  · rw [hsent.readBuffer, h.readLimit]
  · rw [hsent.log, htake]

/-- The text of an answer is a reply. -/
theorem Standing.Of.replies {st : Standing} {g : Globals} (hst : st.Of g)
    (command : Performed) : st.Replies command (command.answer g) := by
  cases command with
  | metrics =>
      rw [Performed.answer, ← hst.metrics]
      exact .metrics
  | addUser name pass ret => exact .addUser name pass ret
  | listUsers =>
      have hlist : st.accounts.users.flatMap credentialsLine =
          g.parameters.users.flatMap userLine := by
        rw [hst.accounts.users, credentialsOf, List.flatMap_map]
        rfl
      rw [Performed.answer, ← hlist]
      exact .listUsers
  | changeBufferSize digits ret => exact .changeBufferSize digits ret

/-- The users are listed only for the character that selects it. -/
theorem selected_listUsers {p : ReqParser} {q : Command} {g : Globals}
    (hp : p.Carries q) (hq : q.outcome g = .listUsers) : p.cmdSelected = 51 := by
  cases q with
  | listUsers => exact hp
  | metrics | addUser | changeBufferSize => cases hq

/-- The list of the users is shorter than `n` bytes. -/
def Globals.ListsWithin (g : Globals) (n : ℕ) : Prop :=
  (g.parameters.users.flatMap userLine).length < n

theorem Globals.Valid.length_answer_lt {g : Globals} (h : g.Valid) {n : ℕ}
    {command : Performed} (hlist : command = .listUsers → g.ListsWithin n)
    (hn : answerLen ≤ n) : (command.answer g).length < n := by
  cases command with
  | metrics => exact h.length_metricsText.trans_le hn
  | addUser name pass ret => exact (createUserText_spec ret).2.trans_le hn
  | listUsers => exact hlist rfl
  | changeBufferSize digits ret => exact (changeBufferSizeText_spec ret).2.trans_le hn

/-- The line that has been received is answered as the accounts have it. -/
theorem AdminConfig.Between.exists_answer {line : List UInt8} {k n : ℕ}
    (h : c.Between .write (((commandOf line).map Position.complete).getD .rejected))
    (hk : maxBuffSize ≤ k)
    (hlist : c.world.admin.reqParser.cmdSelected = 51 → c.world.globals.ListsWithin n)
    (hn : answerLen ≤ n) (answering : List (ℕ → UInt8)) :
    ∃ (w' : AdminWorld) (performed : Option Performed) (text : List UInt8),
      adminDispatch .write
        { send := .accepted k, mallocs := answering.map some } c = .ok ⟨c.stm, w'⟩ ∧
      AdminConfig.Between ⟨c.stm, w'⟩ .read .start ∧
      w'.log = c.world.log ++ (performed.toList.map AdminCall.perform ++
        [.send .request (text ++ [0])]) ∧
      0 ∉ text ∧ text.length < n ∧
      ∀ st : Standing, st.Of c.world.globals →
        ∃ st', st.Exchanges (.answer line text) st' ∧ st'.Of w'.globals := by
  have havailable : Available (answering.map some) := by
    intro hmem
    obtain ⟨contents, -, hnone⟩ := List.mem_map.mp hmem
    cases hnone
  have hat := h.parser
  cases hcommand : commandOf line with
  | some q =>
      rw [hcommand] at hat
      have hstate : c.world.admin.reqParser.state ≠ .invalidCmd := by
        rw [hat.1]
        decide
      have hlen := q.length_response_le h.awaits.valid
      have hroom : ((q.outcome c.world.globals).answer c.world.globals).length <
          c.world.admin.writeBuffer.room := by
        rw [Command.response, List.length_append, List.length_singleton] at hlen
        rw [h.awaits.room]
        unfold maxBuffSize
        omega
      obtain ⟨wb, g, hfill, hput, hg, hmetrics⟩ :=
        hat.2.exists_fill hstate h.awaits.valid havailable hroom
      have hlong : (q.response c.world.globals).length ≤ k + 1 := by
        unfold maxBuffSize at hk
        omega
      obtain ⟨w', hwrite, hbetween, hlog, hglobals⟩ :=
        h.exists_send hfill hput (by simp) hlong hg
      refine ⟨w', some (q.outcome c.world.globals), _, hwrite, hbetween, hlog,
        Globals.Valid.zero_not_mem_answer _,
        h.awaits.valid.length_answer_lt
          (fun hq => hlist (selected_listUsers hat.2 hq)) hn, ?_⟩
      intro st hst
      rw [hglobals]
      cases adminReqFillMsg_fills hst.accounts hfill with
      | performs hperforms hacc =>
          exact ⟨_, .performs hcommand (q.outcome_command _) hperforms
            (hst.replies _), hacc, hst.metrics.trans hmetrics.symm⟩
  | none =>
      rw [hcommand] at hat
      have hroom : invalidText.length < c.world.admin.writeBuffer.room := by
        rw [h.awaits.room]
        decide
      obtain ⟨wb, hfill, hput⟩ := exists_fill_of_invalid hat havailable hroom
      have hlong : (invalidText ++ [0]).length ≤ k + 1 := by
        have hlen : (invalidText ++ [0]).length ≤ maxBuffSize := by decide
        omega
      obtain ⟨w', hwrite, hbetween, hlog, hglobals⟩ :=
        h.exists_send hfill hput (by simp) hlong h.awaits.valid
      refine ⟨w', none, invalidText, hwrite, hbetween, hlog, invalidText_spec.1,
        invalidText_spec.2.trans_le hn, ?_⟩
      intro st hst
      rw [hglobals]
      exact ⟨st, .rejects hcommand, hst⟩

end Socksv5
