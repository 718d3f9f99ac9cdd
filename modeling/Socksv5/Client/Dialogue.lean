import Socksv5.Admin.Exchanges
import Socksv5.Client.Requests

/-!
# The dialogue of the client and the server

After the login, the client and a connection of the server run against each
other, with the bytes that are in flight between them.  The client asks for one
thing at a time: it writes a request, waits, and prints what it receives.  Of an
answer it receives no more than `response` holds.  So the two of them keep in
step as long as requests and answers arrive as they have been sent; then what is
printed for each line that is typed is the answer to that line, and the accounts
are what the lines have made of them.
-/

namespace Socksv5

open Support

/-- The client, what is still to be typed, the server, and the bytes in flight
in both directions.  `shown` is what has been printed; it is not data of the
program. -/
structure Dialogue where
  typed : List UInt8
  client : Client
  server : AdminConfig
  requests : List UInt8 := []
  answers : List UInt8 := []
  shown : List (List UInt8) := []

/-- What can happen: the client reads a request and writes it, the server
receives, the server sends, the client receives and prints, or the rest of the
server runs.  A transfer is of `k + 1` bytes at most. -/
inductive DialogueEvent
  | asks
  | serverReads (k : ℕ) (parsing : List (ℕ → UInt8))
  | serverAnswers (k : ℕ) (answering : List (ℕ → UInt8))
  | displays (k : ℕ)
  | others (s : FdSelector) (g : Globals)

namespace Dialogue

/-- The part of the client's loop up to `write`.  When the client ends, the server
goes on. -/
def asks (d : Dialogue) : Except Fault Dialogue :=
  match readRequest d.typed d.client.req with
  | .ok (some request, req, typed) => .ok { d with
      typed := typed
      client := { d.client with state := .waits, req := req }
      requests := d.requests ++ request }
  | .ok (none, req, typed) => .ok { d with
      typed := typed
      client := { d.client with state := .over, req := req } }
  | .error .exit => .ok { d with client := { d.client with state := .over } }
  | .error fault => .error fault

/-- `admin_read` -/
def serverReads (k : ℕ) (parsing : List (ℕ → UInt8)) (d : Dialogue) :
    Except Fault Dialogue := do
  let c ← adminDispatch .read
    { recv := .received (d.requests.take (k + 1)), mallocs := parsing.map some } d.server
  let received := (adminReceived .request c.world.log).drop
    (adminReceived .request d.server.world.log).length
  .ok { d with server := c, requests := d.requests.drop received.length }

/-- `admin_write` -/
def serverAnswers (k : ℕ) (answering : List (ℕ → UInt8)) (d : Dialogue) :
    Except Fault Dialogue := do
  let c ← adminDispatch .write
    { send := .accepted k, mallocs := answering.map some } d.server
  let sent := (adminSent .request c.world.log).drop
    (adminSent .request d.server.world.log).length
  .ok { d with server := c, answers := d.answers ++ sent }

/-- The part of the client's loop from `recv` on. -/
def displays (k : ℕ) (d : Dialogue) : Except Fault Dialogue := do
  let received := d.answers.take (min (k + 1) responseLen)
  let (text, client) ← d.client.shows received
  .ok { d with
    client := client
    answers := d.answers.drop received.length
    shown := d.shown ++ [text] }

/-- The rest of the server runs. -/
def changed (d : Dialogue) (s : FdSelector) (g : Globals) : Dialogue :=
  { d with server :=
      ⟨d.server.stm, { d.server.world with selector := s, globals := g }⟩ }

end Dialogue

/-- A step.  `recv` waits until there is something in flight, and the server does
what the selector hands it. -/
inductive DialogueStep :
    Except Fault Dialogue → DialogueEvent → Except Fault Dialogue → Prop
  | asks {d : Dialogue} : d.client.state = .reads →
      DialogueStep (.ok d) .asks d.asks
  | serverReads {d : Dialogue} {k : ℕ} {parsing : List (ℕ → UInt8)} :
      d.server.world.destroyed = false → d.server.world.Hands .read →
      d.requests ≠ [] →
      DialogueStep (.ok d) (.serverReads k parsing) (d.serverReads k parsing)
  | serverAnswers {d : Dialogue} {k : ℕ} {answering : List (ℕ → UInt8)} :
      d.server.world.destroyed = false → d.server.world.Hands .write →
      DialogueStep (.ok d) (.serverAnswers k answering) (d.serverAnswers k answering)
  | displays {d : Dialogue} {k : ℕ} : d.client.state = .waits → d.answers ≠ [] →
      DialogueStep (.ok d) (.displays k) (d.displays k)
  | others {d : Dialogue} {s : FdSelector} {g : Globals} :
      s.interest? d.server.world.fd =
        d.server.world.selector.interest? d.server.world.fd →
      g.parameters.admin = d.server.world.globals.parameters.admin → g.Valid →
      DialogueStep (.ok d) (.others s g) (.ok (d.changed s g))

/-- The condition on a step: a transfer takes all that there is, a request has no
argument that is too long for the server, and when the users are listed, their
list fits in `response`. -/
def TransfersWhole (s : Except Fault Dialogue) : DialogueEvent → Prop
  | .serverReads k _ =>
      ∀ d, s = .ok d → d.requests.length ≤ k + 1 ∧ ArgumentsFit d.requests
  | .serverAnswers k _ => maxBuffSize ≤ k ∧
      ∀ d, s = .ok d → d.server.world.admin.reqParser.cmdSelected = 51 →
        d.server.world.globals.ListsWithin responseLen
  | .displays k => ∀ d, s = .ok d → d.answers.length ≤ k + 1
  | _ => True

/-- A dialogue that begins: the administrator has just been let in, nothing is in
flight and nothing has been printed. -/
structure Dialogue.Starts (d : Dialogue) : Prop where
  client : ∃ block, block.length = requestLen + 2 ∧ d.client = { req := some block }
  entered : d.server.stm.current = some AdminState.request.id ∧
    ∃ w : AdminWorld, w.Enters ∧ w.destroyed = false ∧
      w.selector.interest? w.fd = some .read ∧
      w.admin.readBuffer.limit = maxBuffSize ∧
      d.server.world = adminRequestInit w
  requests : d.requests = []
  answers : d.answers = []
  shown : d.shown = []

/-! ## What the exchanges are of -/

/-- Something that is done at the server: bytes are sent, or others leave these
users, this buffer size and these counters. -/
inductive Doing
  | sends (bytes : List UInt8)
  | leaves (users : List (List UInt8 × List UInt8)) (bufferSize : ℕ) (metrics : Metrics)

/-- What is done at the server in an exchange.  The terminator is sent with the
text. -/
def Exchange.doing : Exchange → Doing
  | .answer _ text => .sends (text ++ [0])
  | .others users bufferSize metrics => .leaves users bufferSize metrics

/-- What is done at the server at an event. -/
def DialogueEvent.doing (s : Except Fault Dialogue) : DialogueEvent → Option Doing
  | .serverAnswers k answering => s.toOption.bind fun d =>
      (d.serverAnswers k answering).toOption.map fun d' =>
        .sends (d'.answers.drop d.answers.length)
  | .others _ g =>
      some (.leaves (credentialsOf g.parameters.users) g.bufferSize g.metrics)
  | .asks | .serverReads _ _ | .displays _ => none

/-- What has been done at the server in a run, oldest first. -/
def doings (tr : List (Except Fault Dialogue × DialogueEvent)) : List Doing :=
  tr.filterMap fun x => x.2.doing x.1

theorem doings_concat (tr : List (Except Fault Dialogue × DialogueEvent))
    (s : Except Fault Dialogue) (e : DialogueEvent) :
    doings (tr ++ [(s, e)]) = doings tr ++ (e.doing s).toList := by
  rw [doings, List.filterMap_append, ← doings]
  cases hdoing : e.doing s with
  | none => simp [hdoing]
  | some x => simp [hdoing]

/-- What has been printed follows what has been typed since the beginning of the run
`tr`: the lines and the texts are exchanges that lead from `st` to how things stand
at the server, in this order; these exchanges are, one for one, the answers that the
server has sent and the changes that others have made; and only the last line may
still be without its answer. -/
def Dialogue.Follows (typed : List UInt8) (st : Standing)
    (tr : List (Except Fault Dialogue × DialogueEvent)) (d : Dialogue) : Prop :=
  ∃ (lines : List (List UInt8)) (exchanges : List Exchange) (st' : Standing),
    typed = lines.flatMap (· ++ [10]) ++ d.typed ∧ (∀ line ∈ lines, 10 ∉ line) ∧
    LeadsTo Standing.Exchanges st exchanges st' ∧
    st'.Of d.server.world.globals ∧
    exchanges.map Exchange.doing = doings tr ∧
    (exchanges.filterMap Exchange.answered).map Prod.fst <+: lines.filterMap requestOf ∧
    d.shown <+: (exchanges.filterMap Exchange.answered).map Prod.snd ∧
    (lines.filterMap requestOf).length =
      d.shown.length + if d.client.state = .waits then 1 else 0

/-! ## Where a request is -/

/-- Where the last of the requests `asked` is, when `answered` are the requests
that have been answered and their answers. -/
inductive Dialogue.Phase (d : Dialogue) (asked : List (List UInt8))
    (answered : List (List UInt8 × List UInt8)) : Prop
  | between : d.client.state ≠ .waits → d.requests = [] → d.answers = [] →
      d.server.Between .read .start → asked = answered.map Prod.fst →
      d.shown = answered.map Prod.snd → d.Phase asked answered
  | written (line : List UInt8) : d.client.state = .waits →
      d.requests = line ++ [10] → 10 ∉ line → line.length ≤ requestLen →
      d.answers = [] → d.server.Between .read .start →
      asked = answered.map Prod.fst ++ [line] → d.shown = answered.map Prod.snd →
      d.Phase asked answered
  | received (line : List UInt8) : d.client.state = .waits → d.requests = [] →
      d.answers = [] → d.server.Between .write
        (((commandOf line).map Position.complete).getD .rejected) →
      asked = answered.map Prod.fst ++ [line] → d.shown = answered.map Prod.snd →
      d.Phase asked answered
  | sent (pre : List (List UInt8 × List UInt8)) (line text : List UInt8) :
      d.client.state = .waits → d.requests = [] → d.answers = text ++ [0] →
      0 ∉ text → text.length < responseLen → d.server.Between .read .start →
      answered = pre ++ [(line, text)] → asked = answered.map Prod.fst →
      d.shown = pre.map Prod.snd → d.Phase asked answered

/-- What is kept: the last request is somewhere, and things stand at the server as
the exchanges have left them. -/
structure Dialogue.InStep (typed : List UInt8) (st : Standing)
    (lines : List (List UInt8)) (exchanges : List Exchange) (d : Dialogue) : Prop where
  consumed : typed = lines.flatMap (· ++ [10]) ++ d.typed
  ended : ∀ line ∈ lines, 10 ∉ line
  req : ∃ block, block.length = requestLen + 2 ∧ d.client.req = some block
  standing : ∃ st', LeadsTo Standing.Exchanges st exchanges st' ∧
    st'.Of d.server.world.globals
  phase : d.Phase (lines.filterMap requestOf) (exchanges.filterMap Exchange.answered)

variable {typed : List UInt8} {st : Standing} {lines : List (List UInt8)}
  {exchanges : List Exchange} {d : Dialogue}

theorem Dialogue.InStep.follows {tr : List (Except Fault Dialogue × DialogueEvent)}
    (h : d.InStep typed st lines exchanges)
    (htr : exchanges.map Exchange.doing = doings tr) : d.Follows typed st tr := by
  obtain ⟨st', hleads, hst'⟩ := h.standing
  refine ⟨lines, exchanges, st', h.consumed, h.ended, hleads, hst', htr, ?_⟩
  cases h.phase with
  | between hstate _ _ _ hasked hshown =>
      rw [hasked, hshown, if_neg hstate]
      simp
  | written line hstate _ _ _ _ _ hasked hshown =>
      rw [hasked, hshown, if_pos hstate]
      simp
  | received line hstate _ _ _ hasked hshown =>
      rw [hasked, hshown, if_pos hstate]
      simp
  | sent pre line text hstate _ _ _ _ _ hanswered hasked hshown =>
      rw [hasked, hshown, hanswered, if_pos hstate]
      simp

/-- A dialogue that begins is in step. -/
theorem Dialogue.Starts.inStep (h : d.Starts) (hst : st.Of d.server.world.globals) :
    d.InStep d.typed st [] [] := by
  obtain ⟨block, hblock, hclient⟩ := h.client
  obtain ⟨hcurrent, w, hw, hlive, hinterest, hlimit, hworld⟩ := h.entered
  have hserving := hw.serving
  have hempty : (adminRequestInit w).admin.readBuffer.pending = [] :=
    Buffer.pending_reset _
  have hbetween : d.server.Between .read .start := by
    refine ⟨hcurrent, ?_, ?_, ?_, ?_, ?_, ?_, ?_, ?_⟩ <;> rw [hworld]
    · exact hlive
    · exact hinterest
    · exact hserving.awaits
    · exact hserving.limit
    · exact hserving.parser
    · exact hempty
    · exact (Buffer.room_reset _).trans hlimit
    · exact hlimit
  refine ⟨rfl, List.forall_mem_nil _, ⟨block, hblock, ?_⟩, ⟨st, .nil st, hst⟩, ?_⟩
  · rw [hclient]
  · apply Phase.between
    · rw [hclient]
      simp
    · exact h.requests
    · exact h.answers
    · exact hbetween
    · rfl
    · exact h.shown

/-! ## What the steps do -/

/-- The lines that have been typed, with another one. -/
theorem Dialogue.InStep.consumed_line {line rest : List UInt8}
    (h : d.InStep typed st lines exchanges) (htyped : d.typed = line ++ 10 :: rest)
    (hline : 10 ∉ line) : typed = (lines ++ [line]).flatMap (· ++ [10]) ++ rest ∧
      ∀ l ∈ lines ++ [line], 10 ∉ l := by
  constructor
  · rw [h.consumed, htyped]
    simp
  · intro l hl
    rcases List.mem_append.mp hl with hl | hl
    · exact h.ended l hl
    · rw [List.mem_singleton.mp hl]
      exact hline

/-- The client reads a line: it asks, or it ends. -/
theorem Dialogue.InStep.asks (h : d.InStep typed st lines exchanges)
    (hstate : d.client.state = .reads) :
    ∃ d' lines', d.asks = .ok d' ∧ d'.InStep typed st lines' exchanges := by
  obtain ⟨block, hblock, hreq⟩ := h.req
  have hnot : d.client.state ≠ .waits := by
    rw [hstate]
    decide
  cases h.phase with
  | written line hwaits | received line hwaits | sent pre line text hwaits =>
      exact absurd hwaits hnot
  | between _ hrequests hanswers hbetween hasked hshown =>
      have hends : readRequest d.typed d.client.req = .error .exit →
          ∃ d' lines', d.asks = .ok d' ∧ d'.InStep typed st lines' exchanges := by
        intro hexit
        refine ⟨{ d with client := { d.client with state := .over } }, lines, ?_,
          h.consumed, h.ended, h.req, h.standing,
          .between ?_ hrequests hanswers hbetween hasked hshown⟩
        · rw [Dialogue.asks, hexit]
        · simp
      by_cases hmem : 10 ∈ d.typed
      · obtain ⟨line, rest, htyped, hline⟩ := List.eq_append_cons_of_mem hmem
        obtain ⟨hconsumed, hended⟩ := h.consumed_line htyped hline
        cases hrequest : requestOf line with
        | none =>
            have hread := readRequest_getOut d.client.req rest hrequest
            rw [← htyped] at hread
            refine ⟨{ d with
              typed := rest
              client := { d.client with state := .over } }, lines ++ [line], ?_,
              hconsumed, hended, h.req, h.standing,
              .between ?_ hrequests hanswers hbetween ?_ hshown⟩
            · rw [Dialogue.asks, hread]
            · simp
            · simp [hrequest, hasked]
        | some request =>
            by_cases hlen : request.length ≤ requestLen
            · obtain ⟨block', hblock', hread⟩ :=
                readRequest_request rest hline hrequest hlen hblock
              rw [← htyped, ← hreq] at hread
              refine ⟨{ d with
                typed := rest
                client := { d.client with state := .waits, req := some block' }
                requests := d.requests ++ (request ++ [10]) }, lines ++ [line], ?_,
                hconsumed, hended, ⟨block', hblock', rfl⟩, h.standing,
                .written request rfl ?_ (not_mem_of_requestOf hline hrequest) hlen
                  hanswers hbetween ?_ hshown⟩
              · rw [Dialogue.asks, hread]
              · rw [hrequests, List.nil_append]
              · simp [hrequest, hasked]
            · apply hends
              rw [htyped, hreq]
              exact readRequest_long rest hline hrequest (by omega) hblock
      · apply hends
        rw [hreq]
        exact readRequest_end hmem hblock

/-- The server receives a request that is in flight. -/
theorem Dialogue.InStep.serverReads {k : ℕ} (h : d.InStep typed st lines exchanges)
    (hne : d.requests ≠ []) (hk : d.requests.length ≤ k + 1)
    (hfits : ArgumentsFit d.requests) (parsing : List (ℕ → UInt8)) :
    ∃ d', d.serverReads k parsing = .ok d' ∧ d'.InStep typed st lines exchanges := by
  obtain ⟨st', hleads, hst'⟩ := h.standing
  cases h.phase with
  | between _ hrequests => exact absurd hrequests hne
  | received line _ hrequests => exact absurd hrequests hne
  | sent pre line text _ hrequests => exact absurd hrequests hne
  | written line hwaits hrequests hline hlen hanswers hbetween hasked hshown =>
      have hshort : line.length < maxBuffSize := by
        unfold requestLen at hlen
        unfold maxBuffSize
        omega
      have htake : d.requests.take (k + 1) = line ++ [10] := by
        rw [List.take_of_length_le hk, hrequests]
      rw [hrequests] at hfits
      obtain ⟨w', hread, hbetween', hlog, hglobals⟩ :=
        hbetween.exists_read hline hshort hfits parsing
      have hreceived : (adminReceived .request w'.log).drop
          (adminReceived .request d.server.world.log).length = line ++ [10] := by
        rw [hlog, adminReceived_append, List.drop_left]
        exact List.append_nil _
      refine ⟨{ d with server := ⟨d.server.stm, w'⟩, requests := [] }, ?_, h.consumed,
        h.ended, h.req, ⟨st', hleads, ?_⟩,
        .received line hwaits rfl hanswers hbetween' hasked hshown⟩
      · rw [Dialogue.serverReads, htake, hread, ok_bind]
        dsimp only
        rw [hreceived, hrequests, List.drop_length]
      · change st'.Of w'.globals
        rw [hglobals]
        exact hst'

/-- The server answers the request that it has received. -/
theorem Dialogue.InStep.serverAnswers {k : ℕ} (h : d.InStep typed st lines exchanges)
    (hhands : d.server.world.Hands .write) (hk : maxBuffSize ≤ k)
    (hlist : d.server.world.admin.reqParser.cmdSelected = 51 →
      d.server.world.globals.ListsWithin responseLen)
    (answering : List (ℕ → UInt8)) :
    ∃ d' line text, d.serverAnswers k answering = .ok d' ∧
      d'.answers = d.answers ++ (text ++ [0]) ∧
      d'.InStep typed st lines (exchanges ++ [.answer line text]) := by
  obtain ⟨st', hleads, hst'⟩ := h.standing
  have hreads : d.server.world.selector.interest? d.server.world.fd ≠ some .read := by
    intro hread
    cases hhands.eq_read hread
  cases h.phase with
  | between _ _ _ hbetween => exact absurd hbetween.interest hreads
  | written line _ _ _ _ _ hbetween => exact absurd hbetween.interest hreads
  | sent pre line text _ _ _ _ _ hbetween => exact absurd hbetween.interest hreads
  | received line hwaits hrequests hanswers hbetween hasked hshown =>
      obtain ⟨w', performed, text, hwrite, hbetween', hlog, hzero, hlen, hexchange⟩ :=
        hbetween.exists_answer hk hlist (by decide) answering
      obtain ⟨st'', hexchanges, hst''⟩ := hexchange st' hst'
      have hsent : (adminSent .request w'.log).drop
          (adminSent .request d.server.world.log).length = text ++ [0] := by
        rw [hlog, adminSent_append, List.drop_left]
        cases performed with
        | none => exact List.append_nil _
        | some command => exact List.append_nil _
      refine ⟨{ d with
        server := ⟨d.server.stm, w'⟩
        answers := d.answers ++ (text ++ [0]) }, line, text, ?_, rfl,
        h.consumed, h.ended, h.req,
        ⟨st'', hleads.append (.single hexchanges), hst''⟩,
        .sent (exchanges.filterMap Exchange.answered) line text hwaits hrequests ?_
          hzero hlen hbetween' ?_ ?_ hshown⟩
      · rw [Dialogue.serverAnswers, hwrite, ok_bind]
        dsimp only
        rw [hsent]
      · rw [hanswers, List.nil_append]
      · rw [List.filterMap_append]
        rfl
      · rw [hasked, List.filterMap_append, List.map_append]
        rfl

/-- What is received up to a terminator is printed. -/
theorem Client.shows_text {text : List UInt8} (c : Client) (hzero : 0 ∉ text) :
    ∃ response, c.shows (text ++ [0]) =
      .ok (text, { c with state := .reads, response := response }) := by
  have hprefix : text ++ [0] <+: text ++ [0] ++ c.response.drop (text ++ [0]).length :=
    List.prefix_append _ _
  refine ⟨text ++ [0] ++ c.response.drop (text ++ [0]).length, ?_⟩
  rw [Client.shows, if_pos (by simp), cString_of_terminated hprefix, cString_eq_self hzero]

/-- The client prints the answer that is in flight. -/
theorem Dialogue.InStep.displays {k : ℕ} (h : d.InStep typed st lines exchanges)
    (hne : d.answers ≠ []) (hk : d.answers.length ≤ k + 1) :
    ∃ d', d.displays k = .ok d' ∧ d'.InStep typed st lines exchanges := by
  cases h.phase with
  | between _ _ hanswers => exact absurd hanswers hne
  | written line _ _ _ _ hanswers => exact absurd hanswers hne
  | received line _ _ hanswers => exact absurd hanswers hne
  | sent pre line text hwaits hrequests hanswers hzero hlen hbetween hanswered hasked
      hshown =>
      have htake : d.answers.take (min (k + 1) responseLen) = text ++ [0] := by
        have hshort : d.answers.length ≤ min (k + 1) responseLen := by
          rw [Nat.le_min]
          refine ⟨hk, ?_⟩
          rw [hanswers, List.length_append, List.length_singleton]
          exact hlen
        rw [List.take_of_length_le hshort, hanswers]
      obtain ⟨response, hshows⟩ := d.client.shows_text hzero
      refine ⟨{ d with
        client := { d.client with state := .reads, response := response }
        answers := []
        shown := d.shown ++ [text] }, ?_, h.consumed, h.ended, h.req, h.standing,
        .between (by simp) hrequests rfl hbetween hasked ?_⟩
      · rw [Dialogue.displays, htake, hshows, ok_bind]
        dsimp only
        rw [hanswers, List.drop_length]
      · rw [hanswered, hshown, List.map_append]
        rfl

theorem AdminConfig.Between.changed {c : AdminConfig} {i : FdInterest} {pos : Position}
    {s : FdSelector} {g : Globals} (h : c.Between i pos)
    (hs : s.interest? c.world.fd = c.world.selector.interest? c.world.fd)
    (hg : g.Valid) : AdminConfig.Between
      ⟨c.stm, { c.world with selector := s, globals := g }⟩ i pos := by
  have hinterest : s.interest? c.world.fd = some i := hs.trans h.interest
  refine ⟨h.current, h.live, hinterest, ⟨?_, h.awaits.empty, h.awaits.room, hg⟩,
    h.writeLimit, h.parser, h.empty, h.room, h.readLimit⟩
  exact AdminWorld.registered_of_interest hinterest

/-- The rest of the server leaves the request where it is. -/
theorem Dialogue.InStep.others {s : FdSelector} {g : Globals}
    (h : d.InStep typed st lines exchanges)
    (hs : s.interest? d.server.world.fd =
      d.server.world.selector.interest? d.server.world.fd)
    (hadmin : g.parameters.admin = d.server.world.globals.parameters.admin)
    (hg : g.Valid) :
    (d.changed s g).InStep typed st lines (exchanges ++
      [.others (credentialsOf g.parameters.users) g.bufferSize g.metrics]) := by
  obtain ⟨st', hleads, hst'⟩ := h.standing
  have hadmins : st'.accounts.admins = credentialsOf g.parameters.admin := by
    rw [hadmin, hst'.accounts.admins]
  have hothers : st'.Exchanges
      (.others (credentialsOf g.parameters.users) g.bufferSize g.metrics) _ :=
    .others _ _ _
  refine ⟨h.consumed, h.ended, h.req,
    ⟨_, hleads.append (.single hothers), ⟨rfl, hadmins, rfl⟩, rfl⟩, ?_⟩
  have hanswered (x : Exchange) (hx : x.answered = none) :
      (exchanges ++ [x]).filterMap Exchange.answered =
        exchanges.filterMap Exchange.answered := by
    rw [List.filterMap_append, List.filterMap_cons_none hx, List.filterMap_nil,
      List.append_nil]
  rw [hanswered _ rfl]
  cases h.phase with
  | between hstate hrequests hanswers hbetween hasked hshown =>
      exact .between hstate hrequests hanswers (hbetween.changed hs hg) hasked hshown
  | written line hwaits hrequests hline hlen hanswers hbetween hasked hshown =>
      exact .written line hwaits hrequests hline hlen hanswers (hbetween.changed hs hg)
        hasked hshown
  | received line hwaits hrequests hanswers hbetween hasked hshown =>
      exact .received line hwaits hrequests hanswers (hbetween.changed hs hg) hasked
        hshown
  | sent pre line text hwaits hrequests hanswers hzero hlen hbetween hlast hasked
      hshown =>
      exact .sent pre line text hwaits hrequests hanswers hzero hlen
        (hbetween.changed hs hg) hlast hasked hshown

/-- A step whose transfers are whole leaves the two in step, and makes the exchanges
that are done at it. -/
theorem DialogueStep.inStep {s : Except Fault Dialogue} {e : DialogueEvent}
    (hstep : DialogueStep (.ok d) e s) (hwhole : TransfersWhole (.ok d) e)
    (h : d.InStep typed st lines exchanges) :
    ∃ d' lines' new, s = .ok d' ∧ d'.InStep typed st lines' (exchanges ++ new) ∧
      new.map Exchange.doing = (e.doing (.ok d)).toList := by
  cases hstep with
  | asks hstate =>
      obtain ⟨d', lines', hd', h'⟩ := h.asks hstate
      refine ⟨d', lines', [], hd', ?_, rfl⟩
      rwa [List.append_nil]
  | serverReads _ _ hne =>
      obtain ⟨hk, hfits⟩ := hwhole d rfl
      obtain ⟨d', hd', h'⟩ := h.serverReads hne hk hfits _
      refine ⟨d', lines, [], hd', ?_, rfl⟩
      rwa [List.append_nil]
  | @serverAnswers _ k answering _ hhands =>
      obtain ⟨d', line, text, hd', hsent, h'⟩ :=
        h.serverAnswers hhands hwhole.1 (hwhole.2 d rfl) answering
      refine ⟨d', lines, [.answer line text], hd', h', ?_⟩
      have hdoing : DialogueEvent.doing (.ok d) (.serverAnswers k answering) =
          some (.sends (d'.answers.drop d.answers.length)) := by
        rw [DialogueEvent.doing, Except.toOption, Option.bind_some, hd']
        rfl
      rw [hdoing, hsent, List.drop_left]
      rfl
  | displays _ hne =>
      obtain ⟨d', hd', h'⟩ := h.displays hne (hwhole d rfl)
      refine ⟨d', lines, [], hd', ?_, rfl⟩
      rwa [List.append_nil]
  | others hs hadmin hg => exact ⟨_, lines, [_], rfl, h.others hs hadmin hg, rfl⟩

/-- In every run in which the transfers are whole, neither of the two fails, and
what has been printed follows what has been typed. -/
theorem printed_follows_typed {d₀ : Dialogue} {st : Standing}
    {tr : List (Except Fault Dialogue × DialogueEvent)} {s : Except Fault Dialogue}
    (h₀ : d₀.Starts) (hst : st.Of d₀.server.world.globals)
    (hrun : Run DialogueStep (.ok d₀) tr s) (hwhole : ∀ x ∈ tr, TransfersWhole x.1 x.2) :
    ∃ d, s = .ok d ∧ d.Follows d₀.typed st tr := by
  have hinStep : ∃ d lines exchanges, s = .ok d ∧
      d.InStep d₀.typed st lines exchanges ∧
      exchanges.map Exchange.doing = doings tr := by
    induction hrun with
    | nil => exact ⟨d₀, [], [], rfl, h₀.inStep hst, rfl⟩
    | @snoc tr s₁ s₂ e _ hstep ih =>
        rw [List.forall_mem_append] at hwhole
        obtain ⟨d, lines, exchanges, rfl, h, hdoings⟩ := ih hwhole.1
        obtain ⟨d', lines', new, rfl, h', hnew⟩ :=
          hstep.inStep (hwhole.2 _ (List.mem_singleton_self _)) h
        refine ⟨d', lines', exchanges ++ new, rfl, h', ?_⟩
        rw [List.map_append, doings_concat, hdoings, hnew]
  obtain ⟨d, lines, exchanges, rfl, h, hdoings⟩ := hinStep
  exact ⟨d, rfl, h.follows hdoings⟩

/-! ## Runs by execution -/

/-- Where a step leads to, if it can be taken and its transfer is whole. -/
def Dialogue.perform (d : Dialogue) : DialogueEvent → Option (Except Fault Dialogue)
  | .asks => if d.client.state = .reads then some d.asks else none
  | .serverReads k parsing =>
      if d.server.world.destroyed = false ∧ d.server.world.hands .read = true ∧
          d.requests ≠ [] ∧ d.requests.length ≤ k + 1 ∧ ArgumentsFit d.requests then
        some (d.serverReads k parsing)
      else none
  | .serverAnswers k answering =>
      if d.server.world.destroyed = false ∧ d.server.world.hands .write = true ∧
          maxBuffSize ≤ k ∧ (d.server.world.globals.parameters.users.flatMap
            userLine).length < responseLen then
        some (d.serverAnswers k answering)
      else none
  | .displays k =>
      if d.client.state = .waits ∧ d.answers ≠ [] ∧ d.answers.length ≤ k + 1 then
        some (d.displays k)
      else none
  | .others _ _ => none

theorem Dialogue.perform_step {d : Dialogue} {e : DialogueEvent}
    {s : Except Fault Dialogue} (h : d.perform e = some s) :
    DialogueStep (.ok d) e s ∧ TransfersWhole (.ok d) e := by
  cases e with
  | asks =>
      obtain ⟨hok, ⟨⟩⟩ := Option.ite_none_right_eq_some.mp h
      exact ⟨.asks hok, trivial⟩
  | serverReads k parsing =>
      obtain ⟨⟨hlive, hhands, hne, hk, hfits⟩, ⟨⟩⟩ := Option.ite_none_right_eq_some.mp h
      refine ⟨.serverReads hlive (AdminWorld.hands_spec hhands) hne, ?_⟩
      rintro d' ⟨⟩
      exact ⟨hk, hfits⟩
  | serverAnswers k answering =>
      obtain ⟨⟨hlive, hhands, hk, hlist⟩, ⟨⟩⟩ := Option.ite_none_right_eq_some.mp h
      refine ⟨.serverAnswers hlive (AdminWorld.hands_spec hhands), hk, ?_⟩
      rintro d' ⟨⟩ -
      exact hlist
  | displays k =>
      obtain ⟨⟨hwaits, hne, hk⟩, ⟨⟩⟩ := Option.ite_none_right_eq_some.mp h
      refine ⟨.displays hwaits hne, ?_⟩
      rintro d' ⟨⟩
      exact hk
  | others => cases h

/-- The step, with its event. -/
def DialogueEvent.take (s : Except Fault Dialogue) (e : DialogueEvent) :
    Option (DialogueEvent × Except Fault Dialogue) :=
  s.toOption.bind fun d => (d.perform e).map fun s' => (e, s')

theorem DialogueEvent.take_step (s : Except Fault Dialogue) (m e : DialogueEvent)
    (s' : Except Fault Dialogue) (h : m.take s = some (e, s')) :
    DialogueStep s e s' ∧ TransfersWhole s e := by
  obtain ⟨d, hd, h⟩ := Option.bind_eq_some_iff.mp h
  obtain ⟨s₁, hperform, heq⟩ := Option.map_eq_some_iff.mp h
  cases heq
  rw [toOption_eq_some.mp hd]
  exact Dialogue.perform_step hperform

/-- The administrator of `loneAdminConnection` is about to add a user and to ask for
the users. -/
def loneDialogue : Dialogue where
  typed := ascii "2 c d\n3\n"
  client := { req := some (List.replicate (requestLen + 2) 0) }
  server := ⟨{ current := some AdminState.request.id }, adminRequestInit loneAdministrator⟩

theorem loneDialogue_starts : loneDialogue.Starts where
  client := ⟨_, List.length_replicate, rfl⟩
  entered := ⟨rfl, loneAdministrator, loneAdministrator_enters, rfl, by decide, rfl, rfl⟩
  requests := rfl
  answers := rfl
  shown := rfl

/-- One request and its answer. -/
def oneRequest : List DialogueEvent :=
  [.asks, .serverReads 9 [], .serverAnswers maxBuffSize [], .displays responseLen]

/-- The user is added, and then listed. -/
theorem listing_follows_typed : ∃ tr d, Run DialogueStep (.ok loneDialogue) tr (.ok d) ∧
    d.shown = [createUserText 0, credentialsLine ([99], [100])] ∧
    d.Follows (ascii "2 c d\n3\n") ⟨⟨[], [([97], [98])], 4096, ∅⟩, {}⟩ tr := by
  have hplay : ((moves DialogueEvent.take (.ok loneDialogue)
      (oneRequest ++ oneRequest)).bind Except.toOption).any (fun d =>
        decide (d.shown = [createUserText 0, credentialsLine ([99], [100])])) = true := by
    decide +kernel
  obtain ⟨d, hd, hshown⟩ := (Option.any_eq_true _ _).mp hplay
  obtain ⟨s, hs, hd⟩ := Option.bind_eq_some_iff.mp hd
  obtain rfl := toOption_eq_some.mp hd
  obtain ⟨tr, hrun, hwhole⟩ := Run.of_moves_of DialogueEvent.take_step hs
  have hstanding : Standing.Of ⟨⟨[], [([97], [98])], 4096, ∅⟩, {}⟩
      loneDialogue.server.world.globals := ⟨⟨rfl, rfl, rfl⟩, rfl⟩
  obtain ⟨d', heq, hfollows⟩ :=
    printed_follows_typed loneDialogue_starts hstanding hrun hwhole
  obtain rfl := Except.ok.inj heq
  exact ⟨tr, d, hrun, of_decide_eq_true hshown, hfollows⟩

end Socksv5
