import Socksv5.Admin.Answers
import Socksv5.Admin.Gate

/-!
# Answers that are sent in parts

`admin_request_write` is called once for each part of an answer that `send`
accepts, and each call begins with `admin_req_fill_msg`, which performs the
command that the parser has selected and resets the parser, all but the
selection.
-/

namespace Socksv5

open Support

/-- A write event of an administrator: how much more than one byte `send`
accepts at most, and what the memory that is allocated holds. -/
structure WriteEvent where
  accepts : ℕ
  contents : List (ℕ → UInt8) := []

/-- What the calls of a write event return. -/
def WriteEvent.sys (e : WriteEvent) : AdminSys where
  send := .accepted e.accepts
  mallocs := e.contents.map some

/-- The calls of `admin_request_write`, until there is nothing left to be
sent. -/
def successiveWrites : List WriteEvent → AdminWorld → Except Fault AdminWorld
  | [], w => .ok w
  | e :: es, w => do
      let (ret, w) ← adminRequestWrite e.sys w
      if ret = .request ∧ w.admin.writeBuffer.canRead then successiveWrites es w
      else .ok w

/-- What has been performed. -/
def commandsPerformed (log : List AdminCall) : List Performed :=
  log.filterMap fun call =>
    match call with
    | .perform command => some command
    | _ => none

/-- The command has been parsed completely, and nothing of its answer has been
stored. -/
structure AdminWorld.Awaits (w : AdminWorld) : Prop where
  registered : w.selector.Registered w.fd
  empty : w.admin.writeBuffer.pending = []
  room : w.admin.writeBuffer.room = maxBuffSize
  valid : w.globals.Valid

/-- The text and the terminator that answer a command. -/
def Command.response (q : Command) (g : Globals) : List UInt8 :=
  (q.outcome g).answer g ++ [0]

/-- The calls of `admin_request_write` come to an end; together they perform
the command once, and send one answer. -/
def AnsweredOnce (q : Command) (events : ℕ → WriteEvent) (w : AdminWorld) :
    Prop :=
  ∃ n w', successiveWrites ((List.range n).map events) w = .ok w' ∧
    w'.admin.writeBuffer.pending = [] ∧
    ∃ calls, w'.log = w.log ++ calls ∧
      (commandsPerformed calls).map Performed.command = [q.asStrings] ∧
      adminSent .request calls = q.response w.globals

theorem WriteEvent.available (e : WriteEvent) : Available e.sys.mallocs := by
  intro hmem
  obtain ⟨contents, -, hnone⟩ := List.mem_map.mp hmem
  cases hnone

theorem commandsPerformed_append (log calls : List AdminCall) :
    commandsPerformed (log ++ calls) =
      commandsPerformed log ++ commandsPerformed calls :=
  List.filterMap_append

theorem Command.length_response_le (q : Command) {g : Globals} (h : g.Valid) :
    (q.response g).length ≤ 1241 := by
  have hlen := h.length_answer (q.outcome g)
  rw [Command.response, List.length_append, List.length_singleton]
  omega

variable {w w' : AdminWorld} {sys : AdminSys}

/-- What a call of `admin_request_write` leaves when `send` accepts a part of
what is to be sent. -/
structure AdminWorld.Sent (w : AdminWorld) (wb : Buffer) (parser : ReqParser)
    (g : Globals) (performed : Option Performed) (k : ℕ) (w' : AdminWorld) :
    Prop where
  fd : w'.fd = w.fd
  log : w'.log = w.log ++ (performed.toList.map AdminCall.perform ++
    [.send .request (wb.pending.take (k + 1))])
  pending : w'.admin.writeBuffer.pending = wb.pending.drop (k + 1)
  limit : w'.admin.writeBuffer.limit = wb.limit
  settled : w'.admin.writeBuffer.Settled
  room : w'.admin.writeBuffer.pending ≠ [] →
    w'.admin.writeBuffer.room = wb.room
  readBuffer : w'.admin.readBuffer = w.admin.readBuffer
  reqParser : w'.admin.reqParser = parser
  globals : w'.globals = g
  registered : w'.selector.Registered w'.fd

theorem AdminWorld.filled_log (w : AdminWorld) (wb : Buffer)
    (parser : ReqParser) (g : Globals) (performed : Option Performed) :
    (w.filled wb parser g performed).log =
      w.log ++ performed.toList.map AdminCall.perform := by
  cases performed with
  | none => exact (List.append_nil _).symm
  | some command => rfl

/-- What is to be sent can be sent. -/
theorem exists_adminRequestWrite_ok {wb : Buffer} {parser : ReqParser}
    {g : Globals} {performed : Option Performed} {k : ℕ}
    (hreg : w.selector.Registered w.fd)
    (hfill : adminReqFillMsg w.admin.writeBuffer w.admin.reqParser w.globals
      sys.mallocs = .ok (wb, parser, g, performed))
    (hsend : sys.send = .accepted k) (hne : wb.pending ≠ []) :
    ∃ ret w', adminRequestWrite sys w = .ok (ret, w') := by
  obtain ⟨c, cs, hpending⟩ := List.exists_cons_of_ne_nil hne
  have hcount : ((c :: cs).take (k + 1)).length ≤ wb.count := by
    rw [← Buffer.length_pending, hpending]
    exact List.length_take_le' _ _
  obtain ⟨b, hadv⟩ := Buffer.exists_readAdv hcount
  unfold adminRequestWrite
  rw [hfill, ok_bind]
  dsimp only
  unfold AdminWorld.sendFrom
  rw [hsend, hpending]
  dsimp only
  rw [hadv, ok_bind, ok_bind]
  dsimp only
  split
  · exact ⟨_, _, rfl⟩
  · have hreg' : (((w.filled wb parser g performed).record (.send .request
        ((c :: cs).take (k + 1)))).setWriteBuffer b).selector.Registered
          (((w.filled wb parser g performed).record (.send .request
            ((c :: cs).take (k + 1)))).setWriteBuffer b).fd := by
      cases performed <;> exact hreg
    obtain ⟨s, hs, -⟩ := AdminWorld.exists_setInterestKey hreg' .read
    unfold AdminWorld.filled at hs
    rw [hs, ok_bind]
    dsimp only
    rw [if_neg (by simp)]
    exact ⟨_, _, rfl⟩

/-- What is to be sent is sent as far as `send` accepts it. -/
theorem exists_adminRequestWrite {wb : Buffer} {parser : ReqParser}
    {g : Globals} {performed : Option Performed} {k : ℕ}
    (hreg : w.selector.Registered w.fd)
    (hfill : adminReqFillMsg w.admin.writeBuffer w.admin.reqParser w.globals
      sys.mallocs = .ok (wb, parser, g, performed))
    (hsend : sys.send = .accepted k) (hne : wb.pending ≠ []) :
    ∃ w', adminRequestWrite sys w = .ok (.request, w') ∧
      w.Sent wb parser g performed k w' := by
  obtain ⟨ret, w', hwrite⟩ := exists_adminRequestWrite_ok hreg hfill hsend hne
  obtain ⟨wb₁, parser₁, g₁, performed₁, hfill₁, hend⟩ :=
    adminRequestWrite_cases hreg hwrite
  rw [hfill] at hfill₁
  cases hfill₁
  have hfilled : (w.filled wb parser g performed).selector = w.selector ∧
      (w.filled wb parser g performed).fd = w.fd ∧
      (w.filled wb parser g performed).globals = g ∧
      (w.filled wb parser g performed).admin =
        { w.admin with writeBuffer := wb, reqParser := parser } := by
    cases performed <;> exact ⟨rfl, rfl, rfl, rfl⟩
  obtain ⟨hselector, hfd, hglobals, hadmin⟩ := hfilled
  rcases hend with ⟨-, hnone, -⟩ | ⟨bs, wb', rfl, hsends, s, hs, rfl⟩
  · cases hnone with
    | nothing hwhy =>
        rcases hwhy with hfailed | hnil
        · rw [hsend] at hfailed
          cases hfailed
        · exact absurd hnil hne
  · refine ⟨_, hwrite, ?_⟩
    cases hsends with
    | @sent _ _ k' hk hbs hbs₀ hrest hlimit hsettled hroom =>
        rw [hsend] at hk
        cases hk
        subst hbs
        refine ⟨hfd, ?_, ?_, hlimit, hsettled, hroom, ?_, ?_, hglobals, ?_⟩
        · change (w.filled wb parser g performed).log ++ _ = _
          rw [AdminWorld.filled_log, List.append_assoc]
        · have hsplit := List.take_append_drop (k + 1) wb.pending
          exact (List.append_cancel_left (hsplit.trans hrest)).symm
        · change (w.filled wb parser g performed).admin.readBuffer = _
          rw [hadmin]
        · change (w.filled wb parser g performed).admin.reqParser = _
          rw [hadmin]
        · change s.Registered (w.filled wb parser g performed).fd
          rw [hfd]
          split at hs
          · rw [hs]
            exact hreg
          · rw [FdSelector.Registered, hs]
            exact Option.some_ne_none _

/-- The selection of a command that is carried. -/
theorem ReqParser.Carries.cmdSelected {q : Command} {p : ReqParser}
    (hp : p.Carries q) :
    p.cmdSelected = 49 ∨ p.cmdSelected = 50 ∨ p.cmdSelected = 51 ∨
      p.cmdSelected = 52 := by
  cases q with
  | metrics => exact .inl hp
  | addUser name pass => exact .inr (.inl hp.1)
  | listUsers => exact .inr (.inr (.inl hp))
  | changeBufferSize digits => exact .inr (.inr (.inr hp.1))

/-- The log only grows. -/
theorem successiveWrites_log {es : List WriteEvent}
    (hreg : w.selector.Registered w.fd)
    (h : successiveWrites es w = .ok w') :
    ∃ calls, w'.log = w.log ++ calls := by
  induction es generalizing w with
  | nil =>
      cases h
      exact ⟨[], (List.append_nil _).symm⟩
  | cons e es ih =>
      obtain ⟨⟨ret, w₁⟩, hwrite, h⟩ := bind_eq_ok.mp h
      have hf : adminOnReady e.sys .request .write =
          some (adminRequestWrite e.sys) := rfl
      obtain ⟨hret, -, calls, hcalls, -⟩ := adminRequest_serves hreg hf hwrite
      dsimp only at h
      split at h
      case isTrue hgoes =>
        rcases hret with hret | ⟨-, hreg'⟩
        · rw [hret] at hgoes
          cases hgoes.1
        · obtain ⟨calls', hcalls'⟩ := ih hreg' h
          exact ⟨calls ++ calls', by rw [hcalls', hcalls, List.append_assoc]⟩
      case isFalse =>
        cases h
        exact ⟨calls, hcalls⟩

theorem successiveWrites_range (events : ℕ → WriteEvent) (n : ℕ) :
    (List.range (n + 1)).map events =
      events 0 :: (List.range n).map fun i => events (i + 1) := by
  rw [List.range_succ_eq_map, List.map_cons, List.map_map]
  rfl

/-- A command that is performed again, before its answer has been sent, is
performed more than once. -/
theorem performed_twice {q : Command} {calls₁ calls : List AdminCall}
    {performed₁ performed₂ : Performed}
    (h₁ : commandsPerformed calls₁ = [performed₁, performed₂]) :
    (commandsPerformed (calls₁ ++ calls)).map Performed.command ≠
      [q.asStrings] := by
  intro h
  have hlen := congrArg List.length h
  rw [commandsPerformed_append, h₁] at hlen
  simp at hlen

/-- The first call performs the command and stores the answer; what `send`
accepts of it is sent. -/
theorem AdminWorld.Awaits.exists_first {q : Command} (hw : w.Awaits)
    (hp : w.admin.reqParser.Carries q)
    (hdone : w.admin.reqParser.state = .done) (e : WriteEvent) :
    ∃ w₁ wb g', adminRequestWrite e.sys w = .ok (.request, w₁) ∧
      wb.pending = q.response w.globals ∧
      wb.room + (q.response w.globals).length = maxBuffSize ∧
      w.Sent wb (adminReqParserInit w.admin.reqParser) g'
        (some (q.outcome w.globals)) e.accepts w₁ := by
  have hlen := q.length_response_le hw.valid
  have hroom : ((q.outcome w.globals).answer w.globals).length <
      w.admin.writeBuffer.room := by
    rw [Command.response, List.length_append, List.length_singleton] at hlen
    rw [hw.room]
    unfold maxBuffSize
    omega
  have hstate : w.admin.reqParser.state ≠ .invalidCmd := by
    rw [hdone]
    decide
  obtain ⟨wb, g', hfill, hput, -⟩ :=
    hp.exists_fill hstate hw.valid e.available hroom
  obtain ⟨hpending, hput_room, -, -⟩ := Buffer.put_spec hput
  rw [hw.empty, List.nil_append] at hpending
  rw [hw.room] at hput_room
  have hne : wb.pending ≠ [] := by
    rw [hpending]
    simp
  obtain ⟨w₁, hwrite, hsent⟩ :=
    exists_adminRequestWrite hw.registered hfill rfl hne
  exact ⟨w₁, wb, g', hwrite, hpending, hput_room, hsent⟩

/-- A call of `admin_request_write` after the answer has been sent in part
performs the command once more. -/
theorem AdminWorld.Sent.performs_again {q : Command} {p : ReqParser}
    {wb : Buffer} {g' : Globals} {performed : Option Performed} {k : ℕ}
    {w₁ w₂ : AdminWorld} {ret : AdminState}
    (hsent : w.Sent wb (adminReqParserInit p) g' performed k w₁)
    (hp : p.Carries q) (hroom : 0 < wb.room)
    (hpart : w₁.admin.writeBuffer.pending ≠ [])
    (h : adminRequestWrite sys w₁ = .ok (ret, w₂)) :
    ∃ performed₂ bs, w₂.log =
      w₁.log ++ [.perform performed₂, .send .request bs] := by
  obtain ⟨wb₂, parser₂, g₂, performed₂, hfill, hend⟩ :=
    adminRequestWrite_cases hsent.registered h
  rw [hsent.reqParser] at hfill
  rw [← hsent.room hpart] at hroom
  have hstate : (adminReqParserInit p).state ≠ .invalidCmd := by
    intro hinvalid
    cases hinvalid
  -- The reset leaves the selection as it is.
  have hne := (performed_ne_none hroom hstate hp.cmdSelected hfill).2
  obtain ⟨command, rfl⟩ := Option.ne_none_iff_exists'.mp hne
  have hfilled := w₁.filled_log wb₂ parser₂ g₂ (some command)
  rcases hend with ⟨-, -, rfl⟩ | ⟨bs, wb', -, -, s, -, rfl⟩
  · refine ⟨command, [], ?_⟩
    change (w₁.filled wb₂ parser₂ g₂ (some command)).log ++ _ = _
    rw [hfilled, List.append_assoc]
    rfl
  · refine ⟨command, bs, ?_⟩
    change (w₁.filled wb₂ parser₂ g₂ (some command)).log ++ _ = _
    rw [hfilled, List.append_assoc]
    rfl

/-- The calls perform the command that the parser carries once, and send one
answer, exactly when the first `send` accepts the whole answer. -/
theorem AdminWorld.Awaits.answeredOnce_iff {q : Command} (hw : w.Awaits)
    (hp : w.admin.reqParser.Carries q) (hdone : w.admin.reqParser.state = .done)
    (events : ℕ → WriteEvent) :
    AnsweredOnce q events w ↔
      (q.response w.globals).length ≤ (events 0).accepts + 1 := by
  obtain ⟨w₁, wb, g', hwrite, hpending, hroom, hsent⟩ :=
    hw.exists_first hp hdone (events 0)
  have hlog := hsent.log
  have hleft := hsent.pending
  rw [hpending] at hlog hleft
  constructor
  · rintro ⟨n, w', hrun, hempty, calls, hcalls, honce, -⟩
    by_contra hpart
    have hne : w₁.admin.writeBuffer.pending ≠ [] := by
      rw [hleft, ne_eq, List.drop_eq_nil_iff]
      exact hpart
    cases n with
    | zero =>
        cases hrun
        have hnil : calls = [] := List.self_eq_append_right.mp hcalls
        rw [hnil] at honce
        cases honce
    | succ n =>
        rw [successiveWrites_range, successiveWrites, hwrite, ok_bind] at hrun
        dsimp only at hrun
        rw [if_pos ⟨rfl, (Buffer.canRead_iff _).mpr hne⟩] at hrun
        cases n with
        | zero =>
            cases hrun
            exact hne hempty
        | succ n =>
            rw [successiveWrites_range (fun i => events (i + 1))] at hrun
            obtain ⟨⟨ret, w₂⟩, hsecond, hrest⟩ := bind_eq_ok.mp hrun
            have hpos : 0 < wb.room := by
              have hlen := q.length_response_le hw.valid
              unfold maxBuffSize at hroom
              omega
            obtain ⟨performed₂, bs, hlog₂⟩ :=
              hsent.performs_again hp hpos hne hsecond
            have hmore : ∃ more, w'.log = w₂.log ++ more := by
              dsimp only at hrest
              split at hrest
              case isTrue hgoes =>
                have hf : adminOnReady (events 1).sys .request .write =
                    some (adminRequestWrite (events 1).sys) := rfl
                obtain ⟨hret, -⟩ := adminRequest_serves hsent.registered hf hsecond
                rcases hret with hret | ⟨-, hreg⟩
                · rw [hret] at hgoes
                  cases hgoes.1
                · exact successiveWrites_log hreg hrest
              case isFalse =>
                cases hrest
                exact ⟨[], (List.append_nil _).symm⟩
            obtain ⟨more, hmore⟩ := hmore
            rw [hmore, hlog₂, hlog, List.append_assoc, List.append_assoc,
              ← List.append_assoc _ _ more] at hcalls
            rw [← List.append_cancel_left hcalls] at honce
            exact performed_twice rfl honce
  · intro hwhole
    have hnil : w₁.admin.writeBuffer.pending = [] := by
      rw [hleft, List.drop_eq_nil_iff]
      exact hwhole
    refine ⟨1, w₁, ?_, hnil, _, hlog, ?_, ?_⟩
    · rw [successiveWrites_range, successiveWrites, hwrite, ok_bind]
      dsimp only
      rw [if_neg (by
        rintro ⟨-, hcan⟩
        exact (Buffer.canRead_iff _).mp hcan hnil)]
    · change [(q.outcome w.globals).command] = _
      rw [Command.outcome_command]
    · change (q.response w.globals).take _ ++ [] = _
      rw [List.append_nil, List.take_of_length_le hwhole]

/-- The calls for a command that has been parsed completely perform it once and
send one answer exactly when the first `send` accepts the whole answer. -/
theorem command_answered_once_iff {p₀ : ReqParser} {m₀ m : Mallocs}
    {line : List UInt8}
    (hread : Reads adminReqParserFeed reqDone (adminReqParserInit p₀, m₀) line
      (w.admin.reqParser, m)) (hdone : w.admin.reqParser.state = .done)
    (hw : w.Awaits) (events : ℕ → WriteEvent) :
    ∃ q : Command, q.WellFormed ∧ q.line = line ∧
      (AnsweredOnce q events w ↔
        (q.response w.globals).length ≤ (events 0).accepts + 1) := by
  obtain ⟨q, hq, hline, hp⟩ := adminReq_reads_carries hread hdone
  exact ⟨q, hq, hline, hw.answeredOnce_iff hp hdone events⟩

/-- An argument of one character. -/
def oneCharacter (c : UInt8) : Option Block := some (c :: List.replicate 254 0)

/-- A connection whose administrator has sent the line of `add user`, for the
user `a` with the password `b`. -/
def addingUser : AdminWorld where
  fd := 5
  selector := loneAdminConnection.world.selector
  admin := { reqParser := {
    state := .done, cmdSelected := 50, user := oneCharacter 97,
    password := oneCharacter 98 } }

set_option maxRecDepth 4000 in
theorem addingUser_reads : Reads adminReqParserFeed reqDone
    (adminReqParserInit {}, []) (Command.addUser [97] [98]).line
    (addingUser.admin.reqParser, []) := by
  have hdecode : decode adminReqParserFeed reqDone
      (Command.addUser [97] [98]).line (adminReqParserInit {}, []) =
        .ok ((addingUser.admin.reqParser, []), []) :=
    rfl
  obtain ⟨used, hused, hreads, -⟩ := decode_reads (by rfl) hdecode
  rw [List.append_nil] at hused
  rw [hused]
  exact hreads

theorem addingUser_awaits : addingUser.Awaits where
  registered := by decide
  empty := rfl
  room := rfl
  valid := ⟨by decide, by decide, by decide, by decide, fun u hu => by cases hu⟩

set_option maxRecDepth 4000 in
/-- When one byte of the answer is accepted, the next call uses the arguments
that the first one has reset. -/
theorem addingUser_not_answered_once :
    addingUser.admin.reqParser.state = .done ∧ addingUser.Awaits ∧
      Reads adminReqParserFeed reqDone (adminReqParserInit {}, [])
        (Command.addUser [97] [98]).line (addingUser.admin.reqParser, []) ∧
      ¬ AnsweredOnce (.addUser [97] [98]) (fun _ => { accepts := 0 })
        addingUser ∧
      successiveWrites [{ accepts := 0 }, { accepts := 0 }] addingUser =
        .error .nullDereference := by
  have hheld : ∀ c, ArgHeld 255 (oneCharacter c) [c, 0] := by
    intro c
    exact ⟨_, rfl, by rw [List.length_cons, List.length_replicate],
      List.replicate 253 0, by rfl⟩
  have hcarries : addingUser.admin.reqParser.Carries (.addUser [97] [98]) :=
    ⟨rfl, hheld 97, hheld 98⟩
  refine ⟨rfl, addingUser_awaits, addingUser_reads, ?_, by rfl⟩
  rw [addingUser_awaits.answeredOnce_iff hcarries rfl]
  decide

/-- The same command is answered once when the whole answer is accepted at once. -/
theorem addingUser_answered_once : ∃ q : Command, q.WellFormed ∧
    q.line = (Command.addUser [97] [98]).line ∧
      AnsweredOnce q (fun _ => { accepts := 26 }) addingUser := by
  obtain ⟨q, hq, hline, hiff⟩ := command_answered_once_iff addingUser_reads rfl
    addingUser_awaits fun _ => { accepts := 26 }
  have hcommand : commandOf [50, 32, 97, 32, 98] = some q := commandOf_line hq hline
  have hsame : commandOf [50, 32, 97, 32, 98] = some (.addUser [97] [98]) := by decide
  obtain rfl := Option.some.inj (hsame.symm.trans hcommand)
  exact ⟨_, hq, hline, hiff.mpr (by decide)⟩

end Socksv5
