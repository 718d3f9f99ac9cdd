import Socksv5.Admin.Connection
import Socksv5.Support.Run

/-!
# Runs of the connections of administrators

What the engine does with the table of a connection, what each callback does to
the connection, and the runs in which the selector hands it the events it asked
for while the rest of the server changes the rest of the world.
-/

namespace Socksv5

open Support

/-! ## What a dispatch does -/

theorem AdminState.ofId_id (s : AdminState) : ofId s.id = some s := by
  cases s <;> rfl

theorem AdminState.id_injective : Function.Injective AdminState.id := by
  intro s s' h
  apply Option.some.inj
  rw [← ofId_id, h, ofId_id]

theorem AdminState.id_le (s : AdminState) : s.id ≤ AdminState.error.id := by
  cases s <;> decide

theorem AdminState.id_eq_end_iff {s : AdminState} :
    (s.id = AdminState.error.id ∨ s.id = AdminState.done.id) ↔
      s = .done ∨ s = .error := by
  cases s <;> decide

theorem adminTable_states (sys : AdminSys) (s : AdminState) :
    (adminTable sys).states s.id =
      { state := s.id
        onArrival := (adminOnArrival s).map fun f _ w => .ok (s.id, f w)
        onReady := fun r =>
          (adminOnReady sys s r).map AdminCallback.numbered } := by
  simp only [adminTable, adminStatesDefinition, AdminState.ofId_id]

/-- The world after the arrival at a state. -/
def adminArrived (s : AdminState) (w : AdminWorld) : AdminWorld :=
  match adminOnArrival s with
  | some f => f w
  | none => w

theorem arrive_adminTable (sys : AdminSys) (s : AdminState) (w : AdminWorld) :
    arrive (adminTable sys) s.id w = .ok (s.id, adminArrived s w) := by
  rw [arrive, adminTable_states]
  cases s <;> rfl

/-- A jump stays, or arrives at another state. -/
theorem jump_adminTable {sys : AdminSys} {s ret : AdminState} {m : Machine}
    (w : AdminWorld) (hm : m.current = some s.id) :
    jump (adminTable sys) 1 ret.id m w =
      if ret = s then .ok (m, w)
      else .ok (m.enter ret.id, adminArrived ret w) := by
  have hle : ¬ (adminTable sys).maxState < ret.id := Nat.not_lt.mpr ret.id_le
  rw [jump, if_neg hle]
  by_cases hret : ret = s
  · rw [if_pos hret, hret, if_pos hm]
  · have hcur : m.current ≠ some ret.id := by
      rw [hm]
      intro heq
      exact hret (AdminState.id_injective (Option.some.inj heq)).symm
    have hdepart : departCurrent (adminTable sys) m w = .ok w := by
      rw [departCurrent, hm]
      simp only [depart, adminTable_states]
    rw [if_neg hret, if_neg hcur, hdepart, ok_bind, arrive_adminTable, ok_bind]
    simp only [adminTable_states, ne_eq, not_true_eq_false, if_false]

/-- The state that the machine of the connection is in, or is about to start
in. -/
def AdminConfig.state (c : AdminConfig) : AdminState :=
  match c.stm.current with
  | none => .auth
  | some i => (AdminState.ofId i).getD .error

/-- The world that a callback finds: the first event starts the machine. -/
def AdminConfig.found (c : AdminConfig) : AdminWorld :=
  match c.stm.current with
  | none => adminAuthInit c.world
  | some _ => c.world

/-- `AdminOutcome s ret w w'`: a callback of state `s` has returned `ret` and
left the world `w`; the dispatch ends in the world `w'`. -/
inductive AdminOutcome (s : AdminState) :
    AdminState → AdminWorld → AdminWorld → Prop
  | stays {w : AdminWorld} : AdminOutcome s s w w
  | arrives {ret : AdminState} {w : AdminWorld} : ret ≠ s → ret ≠ .done →
      ret ≠ .error → AdminOutcome s ret w (adminArrived ret w)
  | ends {ret : AdminState} {w w' : AdminWorld} : ret = .done ∨ ret = .error →
      endAdmin w = .ok w' → AdminOutcome s ret w w'

/-- The part of a handler after `handle_first`. -/
theorem adminReady_cases {r : Ready} {sys : AdminSys} {s : AdminState}
    {m m' : Machine} {w w' : AdminWorld} {i : ℕ} (hm : m.current = some s.id)
    (h : stmHandler (adminTable sys) r 1 m w = .ok (i, m', w')) :
    ∃ f ret w₁, adminOnReady sys s r = some f ∧ f w = .ok (ret, w₁) ∧
      i = ret.id ∧ ((ret = s ∧ m' = m ∧ w' = w₁) ∨
        (ret ≠ s ∧ m' = m.enter ret.id ∧ w' = adminArrived ret w₁)) := by
  unfold stmHandler handleFirst at h
  simp only [hm] at h
  obtain ⟨⟨first, m₀, w₀⟩, heq, h⟩ := bind_eq_ok.mp h
  cases heq
  simp only [hm, adminTable_states, ne_eq, not_true_eq_false, if_false] at h
  cases hf : adminOnReady sys s r with
  | none => simp [hf] at h
  | some f =>
      simp only [hf, Option.map_some] at h
      obtain ⟨⟨j, w₁⟩, hcall, h⟩ := bind_eq_ok.mp h
      obtain ⟨⟨ret, w₂⟩, hready, heq⟩ := bind_eq_ok.mp hcall
      cases heq
      rw [jump_adminTable _ hm] at h
      by_cases hret : ret = s
      · rw [if_pos hret] at h
        cases h
        exact ⟨f, ret, _, rfl, hready, rfl, .inl ⟨hret, rfl, rfl⟩⟩
      · rw [if_neg hret] at h
        cases h
        exact ⟨f, ret, w₁, rfl, hready, rfl, .inr ⟨hret, rfl, rfl⟩⟩

/-- A machine that is started by the event. -/
theorem adminHandler_start {r : Ready} {sys : AdminSys} {m : Machine}
    (w : AdminWorld) (hm : m.current = none) :
    stmHandler (adminTable sys) r 1 m w =
      stmHandler (adminTable sys) r 1 (m.enter AdminState.auth.id)
        (adminAuthInit w) := by
  have harr := arrive_adminTable sys .auth w
  unfold stmHandler handleFirst
  simp only [hm, Machine.enter]
  rw [show (adminTable sys).initial = AdminState.auth.id from rfl, harr,
    adminTable_states]
  rfl

/-- What a dispatch does: the callback of the state, and what follows from the
state it returned. -/
theorem adminDispatch_cases {r : Ready} {sys : AdminSys} {c c' : AdminConfig}
    (h : adminDispatch r sys c = .ok c') :
    ∃ f ret w, adminOnReady sys c.state r = some f ∧
      f c.found = .ok (ret, w) ∧ AdminOutcome c.state ret w c'.world ∧
      c'.state = ret ∧ c'.stm.current = some ret.id := by
  obtain ⟨⟨i, m, w'⟩, hstm, h⟩ := bind_eq_ok.mp h
  have hready : ∃ m₀, m₀.current = some c.state.id ∧
      stmHandler (adminTable sys) r 1 m₀ c.found = .ok (i, m, w') := by
    cases hc : c.stm.current with
    | none =>
        rw [adminHandler_start c.world hc] at hstm
        refine ⟨c.stm.enter AdminState.auth.id, ?_, ?_⟩
        · rw [AdminConfig.state, hc]
          rfl
        · rw [AdminConfig.found, hc]
          exact hstm
    | some j =>
        have hfound : c.found = c.world := by rw [AdminConfig.found, hc]
        have hvalid : ∃ s, AdminState.ofId j = some s := by
          cases hj : AdminState.ofId j with
          | some s => exact ⟨s, rfl⟩
          | none =>
              unfold stmHandler handleFirst at hstm
              simp [hc, adminTable, adminStatesDefinition, hj] at hstm
        obtain ⟨s, hs⟩ := hvalid
        have hj : j = s.id := by
          match j with
          | 0 | 1 | 2 | 3 =>
              cases hs
              rfl
          | _ + 4 => cases hs
        refine ⟨c.stm, ?_, ?_⟩
        · rw [AdminConfig.state, hc]
          simp only [hs, Option.getD_some]
          rw [hj]
        · rw [hfound]
          exact hstm
  obtain ⟨m₀, hm₀, hready⟩ := hready
  obtain ⟨f, ret, w₁, hf, hcall, rfl, hland⟩ := adminReady_cases hm₀ hready
  refine ⟨f, ret, w₁, hf, hcall, ?_⟩
  have hcurrent : m.current = some ret.id := by
    rcases hland with ⟨rfl, rfl, -⟩ | ⟨-, rfl, -⟩
    · exact hm₀
    · rfl
  have hstate : ∀ w, AdminConfig.state ⟨m, w⟩ = ret := by
    intro w
    rw [AdminConfig.state, hcurrent]
    simp [AdminState.ofId_id]
  dsimp only at h
  by_cases hend : ret = .done ∨ ret = .error
  · rw [if_pos (AdminState.id_eq_end_iff.mpr hend)] at h
    obtain ⟨w₂, hdone, heq⟩ := bind_eq_ok.mp h
    cases heq
    have hw' : w' = w₁ := by
      rcases hland with ⟨-, -, rfl⟩ | ⟨-, -, rfl⟩
      · rfl
      · rcases hend with rfl | rfl <;> rfl
    rw [hw'] at hdone
    exact ⟨.ends hend hdone, hstate _, hcurrent⟩
  · rw [if_neg (AdminState.id_eq_end_iff.not.mpr hend)] at h
    cases h
    rw [not_or] at hend
    refine ⟨?_, hstate _, hcurrent⟩
    rcases hland with ⟨rfl, -, rfl⟩ | ⟨hne, -, rfl⟩
    · exact .stays
    · exact .arrives hne hend.1 hend.2

/-- A callback that returns is followed by a dispatch that returns, when the
connection is registered. -/
theorem exists_adminDispatch {r : Ready} {sys : AdminSys} {c : AdminConfig}
    {f : AdminCallback} {ret : AdminState} {w : AdminWorld}
    (hc : c.stm.current = none ∨ c.stm.current = some c.state.id)
    (hf : adminOnReady sys c.state r = some f)
    (h : f c.found = .ok (ret, w)) (hreg : w.selector.Registered w.fd) :
    ∃ c', adminDispatch r sys c = .ok c' := by
  have hready : ∀ m : Machine, m.current = some c.state.id →
      ∃ m' w', stmHandler (adminTable sys) r 1 m c.found =
        .ok (ret.id, m', w') ∧ w'.selector = w.selector ∧ w'.fd = w.fd := by
    intro m hm
    have hjump : jump (adminTable sys) 1 ret.id m w = _ :=
      jump_adminTable w hm
    unfold stmHandler handleFirst
    simp only [hm, ok_bind, adminTable_states, ne_eq, not_true_eq_false,
      if_false, hf, Option.map_some, AdminCallback.numbered, h, hjump]
    by_cases hret : ret = c.state
    · rw [if_pos hret]
      exact ⟨m, w, rfl, rfl, rfl⟩
    · rw [if_neg hret]
      refine ⟨_, _, rfl, ?_⟩
      cases ret <;> exact ⟨rfl, rfl⟩
  have hhandler : ∃ m' w', stmHandler (adminTable sys) r 1 c.stm c.world =
      .ok (ret.id, m', w') ∧ w'.selector = w.selector ∧ w'.fd = w.fd := by
    cases hcur : c.stm.current with
    | none =>
        rw [adminHandler_start c.world hcur]
        have hstart : (c.stm.enter AdminState.auth.id).current =
            some c.state.id := by
          rw [AdminConfig.state, hcur]
          rfl
        have hfound : c.found = adminAuthInit c.world := by
          rw [AdminConfig.found, hcur]
        rw [← hfound]
        exact hready _ hstart
    | some i =>
        have hfound : c.found = c.world := by rw [AdminConfig.found, hcur]
        have hcurrent : c.stm.current = some c.state.id := by
          rcases hc with hc | hc
          · rw [hcur] at hc
            cases hc
          · exact hc
        rw [← hfound]
        exact hready _ hcurrent
  obtain ⟨m', w', hstm, hselector, hfd⟩ := hhandler
  unfold adminDispatch
  rw [hstm, ok_bind]
  dsimp only
  split
  · have hreg' : w'.selector.Registered w'.fd := by
      rw [hselector, hfd]
      exact hreg
    obtain ⟨sel, hsel, -⟩ := selectorUnregisterFd_of_registered hreg'
    refine ⟨⟨m', { w' with selector := sel, destroyed := true }⟩, ?_⟩
    unfold endAdmin
    rw [hsel]
    rfl
  · exact ⟨_, rfl⟩

/-! ## What the calls do -/

/-- `AdminReceives sys b r bs`: a `recv` into the buffer `b` transfers `bs` and
gives `r`. -/
inductive AdminReceives (sys : AdminSys) (b : Buffer) :
    Option Buffer → List UInt8 → Prop
  | data {b' : Buffer} {bs : List UInt8} :
      sys.recv.upTo b.room = .received bs → bs ≠ [] →
      b'.pending = b.pending ++ bs → b'.room + bs.length = b.room →
      b'.limit = b.limit → b'.Settled → AdminReceives sys b (some b') bs
  | nothing : AdminReceives sys b none []

theorem AdminWorld.recvInto_spec {w w' : AdminWorld} {state : AdminState}
    {sys : AdminSys} {b : Buffer} {r : Option Buffer}
    (h : w.recvInto state sys b = .ok (r, w')) :
    ∃ bs, AdminReceives sys b r bs ∧ w' = w.record (.recv state bs) := by
  unfold recvInto at h
  split at h
  case h_1 c cs hresult =>
    obtain ⟨b', hput, h⟩ := bind_eq_ok.mp h
    cases h
    obtain ⟨hpending, hroom, hlimit, hsettled⟩ := Buffer.put_spec hput
    exact ⟨c :: cs, .data hresult (by simp) hpending hroom hlimit
      (hsettled (by simp)), rfl⟩
  case h_2 =>
    cases h
    exact ⟨[], .nothing, rfl⟩

/-- `AdminSends sys b r bs`: a `send` from the buffer `b` transfers `bs` and
gives `r`. -/
inductive AdminSends (sys : AdminSys) (b : Buffer) :
    Option Buffer → List UInt8 → Prop
  | sent {b' : Buffer} {bs : List UInt8} {k : ℕ} : sys.send = .accepted k →
      bs = b.pending.take (k + 1) → bs ≠ [] → b.pending = bs ++ b'.pending →
      b'.limit = b.limit → b'.Settled → (b'.pending ≠ [] → b'.room = b.room) →
      AdminSends sys b (some b') bs
  | nothing : sys.send = .failed ∨ b.pending = [] → AdminSends sys b none []

theorem AdminWorld.sendFrom_spec {w w' : AdminWorld} {state : AdminState}
    {sys : AdminSys} {b : Buffer} {r : Option Buffer}
    (h : w.sendFrom state sys b = .ok (r, w')) :
    ∃ bs, AdminSends sys b r bs ∧ w' = w.record (.send state bs) := by
  unfold sendFrom at h
  split at h
  case h_1 k c cs hsend hpending =>
    obtain ⟨b', hadv, h⟩ := bind_eq_ok.mp h
    cases h
    obtain ⟨-, hdrop, hlimit, hsettled, hroom⟩ := Buffer.readAdv_spec hadv
    have htake : (c :: cs).drop ((c :: cs).take (k + 1)).length =
        (c :: cs).drop (k + 1) := by
      rw [List.length_take]
      rcases Nat.le_total (k + 1) (c :: cs).length with hle | hle
      · rw [Nat.min_eq_left hle]
      · rw [Nat.min_eq_right hle, List.drop_length, List.drop_of_length_le hle]
    refine ⟨(c :: cs).take (k + 1), .sent hsend (by rw [hpending]) (by simp) ?_
      hlimit hsettled hroom, rfl⟩
    rw [hdrop, hpending, htake, List.take_append_drop]
  case h_2 hother =>
    cases h
    refine ⟨[], .nothing ?_, rfl⟩
    cases hsend : sys.send with
    | failed => exact .inl rfl
    | accepted k =>
        cases hpending : b.pending with
        | nil => exact .inr rfl
        | cons c cs => exact absurd hpending (hother k c cs hsend)

/-- The interest of a connection that is registered is changed. -/
theorem AdminWorld.setInterestKey_spec {w w' : AdminWorld} {i : FdInterest}
    {ret : SelectorStatus} (h : w.setInterestKey i = .ok (ret, w'))
    (hreg : w.selector.Registered w.fd) :
    ret = .success ∧ ∃ s, s.interest? w.fd = some i ∧
      w' = { w with selector := s } := by
  obtain ⟨⟨ret, s⟩, hs, h⟩ := bind_eq_ok.mp h
  cases h
  rw [selectorSetInterestKey_eq] at hs
  have hchange := updateInterest_spec hs
  cases hchange with
  | refused _ hnot => exact absurd hreg hnot
  | changed j hj hs' _ _ =>
      refine ⟨rfl, s, ?_, rfl⟩
      rw [hs', Function.update_self]
      rfl

/-! ## What the callbacks do -/

/-- The world after a `recv` whose bytes have been parsed by the parser of the
credentials. -/
def AdminWorld.authParsed (w : AdminWorld) (bs : List UInt8) (rb : Buffer)
    (parser : AdminAuthParser) : AdminWorld :=
  { w.record (.recv .auth bs) with admin := { w.admin with
      readBuffer := rb, authParser := parser } }

/-- `admin_auth_read`, before there is a verdict. -/
theorem adminAuthRead_cases {sys : AdminSys} {w w' : AdminWorld}
    {ret : AdminState} (hreg : w.selector.Registered w.fd)
    (hlive : w.admin.authParser.state.final = false)
    (h : adminAuthRead sys w = .ok (ret, w')) :
    (ret = .error ∧ w' = w.record (.recv .auth [])) ∨
      ∃ bs used rb parser a, ret = .auth ∧ rb.Settled ∧
        w.admin.readBuffer.pending ++ bs = used ++ rb.pending ∧
        Reads adminAuthParserFeed adminAuthFinal
          (w.admin.authParser, sys.allocs) used (parser, a) ∧
        ((parser.state.final = false ∧ rb.pending = [] ∧
            w' = w.authParsed bs rb parser) ∨
          (parser.state.final = true ∧ ∃ w₁ s,
            judge (w.authParsed bs rb parser) = .ok w₁ ∧
            s.interest? w.fd = some .write ∧
            w' = { w₁ with selector := s })) := by
  unfold adminAuthRead at h
  obtain ⟨⟨r, w₁⟩, hrecv, h⟩ := bind_eq_ok.mp h
  obtain ⟨bs, hreceives, rfl⟩ := AdminWorld.recvInto_spec hrecv
  cases hreceives with
  | nothing =>
      cases h
      exact .inl ⟨rfl, rfl⟩
  | @data b₁ _ hbs hne hpending hroom hlimit hsettled =>
      right
      obtain ⟨⟨rb, parser, a⟩, hconsume, h⟩ := bind_eq_ok.mp h
      obtain ⟨hdecode, hleft⟩ := consume_spec hsettled hconsume
      have hgoes : adminAuthFinal (w.admin.authParser, sys.allocs) = false := hlive
      obtain ⟨used, hused, hreads, hend⟩ := decode_reads hgoes hdecode
      rw [hpending] at hused
      dsimp only at h
      by_cases hfinal : parser.state.final = true
      · rw [if_pos hfinal] at h
        obtain ⟨w₂, hjudge, h⟩ := bind_eq_ok.mp h
        obtain ⟨⟨status, w₃⟩, hset, h⟩ := bind_eq_ok.mp h
        have hsame : w₂.selector = w.selector ∧ w₂.fd = w.fd := by
          unfold judge at hjudge
          dsimp only at hjudge
          split at hjudge
          · split at hjudge
            · cases hjudge
              exact ⟨rfl, rfl⟩
            · cases hjudge
          · cases hjudge
            exact ⟨rfl, rfl⟩
        have hreg₂ : w₂.selector.Registered w₂.fd := by
          rw [hsame.1, hsame.2]
          exact hreg
        obtain ⟨rfl, s, hs, rfl⟩ := AdminWorld.setInterestKey_spec hset hreg₂
        cases h
        rw [hsame.2] at hs
        exact ⟨bs, used, rb, parser, a, rfl, hleft.settled, hused, hreads,
          .inr ⟨hfinal, w₂, s, hjudge, hs, rfl⟩⟩
      · rw [if_neg hfinal] at h
        cases h
        rw [Bool.not_eq_true] at hfinal
        exact ⟨bs, used, rb, parser, a, rfl, hleft.settled, hused, hreads,
          .inl ⟨hfinal, decode_rest_eq_nil hdecode hfinal, rfl⟩⟩

/-- What `ret` is set to. -/
theorem judge_cases {w w' : AdminWorld} (h : judge w = .ok w') :
    (w.admin.authParser.state = .done ∧
      ∃ user password, w.admin.authParser.user = some user ∧
        w.admin.authParser.password = some password ∧
        ∃ ok, ok = authenticateAdmin w.globals.parameters user password ∧
          w' = (w.record (.authenticate user password ok)).setRet
            (if ok then adminAuthSuccess else adminAuthBadCredentials)) ∨
      (w.admin.authParser.state ≠ .done ∧ w' = w.setRet adminAuthBadSyntax) := by
  unfold judge at h
  dsimp only at h
  by_cases hdone : w.admin.authParser.state = .done
  · rw [if_pos hdone] at h
    left
    refine ⟨hdone, ?_⟩
    cases huser : w.admin.authParser.user with
    | none => simp [huser] at h
    | some user =>
        cases hpassword : w.admin.authParser.password with
        | none => simp [huser, hpassword] at h
        | some password =>
            simp only [huser, hpassword] at h
            cases h
            exact ⟨user, password, rfl, rfl, _, rfl, rfl⟩
  · rw [if_neg hdone] at h
    cases h
    exact .inr ⟨hdone, rfl⟩

/-- `admin_auth_write`, with nothing left from before in the buffer: the code is
one byte, which is sent or not. -/
theorem adminAuthWrite_cases {sys : AdminSys} {w w' : AdminWorld}
    {ret : AdminState} (hreg : w.selector.Registered w.fd)
    (hempty : w.admin.writeBuffer.pending = [])
    (hroom : 0 < w.admin.writeBuffer.room)
    (h : adminAuthWrite sys w = .ok (ret, w')) :
    (ret = .error ∧ sys.send = .failed ∧ w' = w.record (.send .auth [])) ∨
      (ret = (if w.admin.authParser.ret = adminAuthSuccess then .request
          else .done) ∧
        ∃ wb s, s.interest? w.fd = some .read ∧
          w' = { (w.record (.send .auth
              [UInt8.ofInt w.admin.authParser.ret])).setWriteBuffer wb with
            selector := s }) := by
  unfold adminAuthWrite at h
  obtain ⟨filled, hfill, h⟩ := bind_eq_ok.mp h
  unfold adminAuthFillMsg at hfill
  rw [if_neg (by omega)] at hfill
  obtain ⟨b, hput, heq⟩ := bind_eq_ok.mp hfill
  cases heq
  obtain ⟨hpending, -, -, -⟩ := Buffer.put_spec hput
  rw [hempty, List.nil_append] at hpending
  obtain ⟨⟨r, w₁⟩, hsend, h⟩ := bind_eq_ok.mp h
  obtain ⟨bs, hsends, rfl⟩ := AdminWorld.sendFrom_spec hsend
  cases hsends with
  | nothing hwhy =>
      cases h
      rw [Option.getD_some, hpending] at hwhy
      exact .inl ⟨rfl, hwhy.resolve_right (by simp), rfl⟩
  | @sent b' _ k _ htake _ hrest _ _ _ =>
      right
      rw [Option.getD_some, hpending] at htake hrest
      have hbs : bs = [UInt8.ofInt w.admin.authParser.ret] := by
        rw [htake]
        exact List.take_of_length_le (by simp)
      subst hbs
      have hnil : b'.pending = [] := by simpa using hrest
      have hread : ¬ b'.canRead = true := by
        rw [Buffer.canRead_iff]
        exact fun hne => hne hnil
      dsimp only at h
      rw [if_neg hread] at h
      obtain ⟨⟨status, w₂⟩, hset, h⟩ := bind_eq_ok.mp h
      obtain ⟨rfl, s, hs, rfl⟩ := AdminWorld.setInterestKey_spec hset hreg
      dsimp only at h
      rw [if_neg (by simp)] at h
      split at h
      case isTrue hok =>
        cases h
        exact ⟨(if_pos hok).symm, b', s, hs, rfl⟩
      case isFalse hok =>
        cases h
        exact ⟨(if_neg hok).symm, b', s, hs, rfl⟩

theorem AdminWorld.exists_setInterestKey {w : AdminWorld}
    (hreg : w.selector.Registered w.fd) (i : FdInterest) :
    ∃ s, w.setInterestKey i = .ok (.success, { w with selector := s }) ∧
      s.Registered w.fd := by
  obtain ⟨s, hs⟩ := exists_updateInterest (fun _ => some i) hreg
  refine ⟨s, ?_, ((updateInterest_spec hs).registered_iff w.fd).mpr hreg⟩
  unfold setInterestKey
  rw [selectorSetInterestKey_eq, selectorSetInterest, hs]
  rfl

/-- The verdict can be sent: `admin_auth_write` returns, whatever `send`
does. -/
theorem exists_adminAuthWrite (sys : AdminSys) {w : AdminWorld}
    (hreg : w.selector.Registered w.fd)
    (hempty : w.admin.writeBuffer.pending = [])
    (hroom : 0 < w.admin.writeBuffer.room) :
    ∃ ret w', adminAuthWrite sys w = .ok (ret, w') ∧
      w'.selector.Registered w'.fd := by
  have hfits : [UInt8.ofInt w.admin.authParser.ret].length ≤
      w.admin.writeBuffer.room := hroom
  obtain ⟨b, hput⟩ := Buffer.exists_put hfits
  have hfill : adminAuthFillMsg w.admin.writeBuffer w.admin.authParser.ret =
      .ok (some b) := by
    rw [adminAuthFillMsg, if_neg (by omega), hput]
    rfl
  have hpending : b.pending = [UInt8.ofInt w.admin.authParser.ret] := by
    rw [(Buffer.put_spec hput).1, hempty]
    rfl
  unfold adminAuthWrite
  rw [hfill, ok_bind, Option.getD_some]
  unfold AdminWorld.sendFrom
  rw [hpending]
  cases hsend : sys.send with
  | failed => exact ⟨.error, _, rfl, hreg⟩
  | accepted k =>
      have hcount : ([UInt8.ofInt w.admin.authParser.ret].take (k + 1)).length ≤
          b.count := by
        rw [← Buffer.length_pending, hpending]
        exact List.length_take_le' _ _
      obtain ⟨b', hadv⟩ := Buffer.exists_readAdv hcount
      dsimp only
      rw [hadv, ok_bind, ok_bind]
      dsimp only
      split
      · exact ⟨.auth, _, rfl, hreg⟩
      · obtain ⟨s, hs, hreg'⟩ := AdminWorld.exists_setInterestKey
          (w := (w.record (.send .auth
            ([UInt8.ofInt w.admin.authParser.ret].take (k + 1)))).setWriteBuffer
              b') hreg .read
        rw [hs, ok_bind]
        dsimp only
        rw [if_neg (by simp)]
        split
        · exact ⟨.request, _, rfl, hreg'⟩
        · exact ⟨.done, _, rfl, hreg'⟩

/-- `admin_request_read` -/
theorem adminRequestRead_cases {sys : AdminSys} {w w' : AdminWorld}
    {ret : AdminState} (hreg : w.selector.Registered w.fd)
    (h : adminRequestRead sys w = .ok (ret, w')) :
    (ret = .error ∧ w' = w.record (.recv .request [])) ∨
      ∃ bs b rb parser m s, ret = .request ∧
        AdminReceives sys w.admin.readBuffer (some b) bs ∧
        adminConsumeReqBuffer b w.admin.reqParser sys.mallocs =
          .ok (rb, parser, m) ∧
        s.interest? w.fd = some .write ∧
        w' = { w.record (.recv .request bs) with
          admin := { w.admin with readBuffer := rb, reqParser := parser }
          selector := s } := by
  unfold adminRequestRead at h
  obtain ⟨⟨r, w₁⟩, hrecv, h⟩ := bind_eq_ok.mp h
  obtain ⟨bs, hreceives, rfl⟩ := AdminWorld.recvInto_spec hrecv
  cases r with
  | none =>
      cases hreceives
      cases h
      exact .inl ⟨rfl, rfl⟩
  | some b =>
      right
      obtain ⟨⟨rb, parser, m⟩, hconsume, h⟩ := bind_eq_ok.mp h
      obtain ⟨⟨status, w₂⟩, hset, h⟩ := bind_eq_ok.mp h
      obtain ⟨rfl, s, hs, rfl⟩ := AdminWorld.setInterestKey_spec hset hreg
      cases h
      exact ⟨bs, b, rb, parser, m, s, rfl, hreceives, hconsume, hs, rfl⟩

/-- The world after `admin_req_fill_msg`. -/
def AdminWorld.filled (w : AdminWorld) (wb : Buffer) (parser : ReqParser)
    (g : Globals) (performed : Option Performed) : AdminWorld :=
  { w with
    admin := { w.admin with writeBuffer := wb, reqParser := parser }
    globals := g }.performed performed

/-- `admin_request_write` -/
theorem adminRequestWrite_cases {sys : AdminSys} {w w' : AdminWorld}
    {ret : AdminState} (hreg : w.selector.Registered w.fd)
    (h : adminRequestWrite sys w = .ok (ret, w')) :
    ∃ wb parser g performed, adminReqFillMsg w.admin.writeBuffer
        w.admin.reqParser w.globals sys.mallocs =
          .ok (wb, parser, g, performed) ∧
      ((ret = .error ∧ AdminSends sys wb none [] ∧
          w' = (w.filled wb parser g performed).record (.send .request [])) ∨
        ∃ bs wb', ret = .request ∧ AdminSends sys wb (some wb') bs ∧
          ∃ s, (if wb'.canRead then s = w.selector
            else s.interest? w.fd = some .read) ∧
            w' = { ((w.filled wb parser g performed).record
              (.send .request bs)).setWriteBuffer wb' with selector := s }) := by
  unfold adminRequestWrite at h
  obtain ⟨⟨wb, parser, g, performed⟩, hfill, h⟩ := bind_eq_ok.mp h
  refine ⟨wb, parser, g, performed, hfill, ?_⟩
  obtain ⟨⟨r, w₁⟩, hsend, h⟩ := bind_eq_ok.mp h
  obtain ⟨bs, hsends, rfl⟩ := AdminWorld.sendFrom_spec hsend
  have hsame : (w.filled wb parser g performed).selector = w.selector ∧
      (w.filled wb parser g performed).fd = w.fd := by
    cases performed <;> exact ⟨rfl, rfl⟩
  cases r with
  | none =>
      cases h
      cases hsends with
      | nothing hwhy => exact .inl ⟨rfl, .nothing hwhy, rfl⟩
  | some wb' =>
      right
      refine ⟨bs, wb', ?_⟩
      dsimp only at h
      by_cases hread : wb'.canRead = true
      · rw [if_pos hread] at h
        cases h
        refine ⟨rfl, hsends, w.selector, if_pos hread ▸ rfl, ?_⟩
        cases performed <;> rfl
      · rw [if_neg hread] at h
        obtain ⟨⟨status, w₂⟩, hset, h⟩ := bind_eq_ok.mp h
        have hreg₁ : (w.filled wb parser g performed).selector.Registered
            (w.filled wb parser g performed).fd := by
          rw [hsame.1, hsame.2]
          exact hreg
        obtain ⟨rfl, s, hs, rfl⟩ := AdminWorld.setInterestKey_spec hset hreg₁
        cases h
        refine ⟨rfl, hsends, s, ?_, rfl⟩
        rw [if_neg hread, ← hsame.2]
        exact hs

/-! ## Runs -/

/-- What can happen to a connection. -/
inductive AdminConnectionEvent
  | dispatch (r : Ready) (sys : AdminSys)
  | others (s : FdSelector) (g : Globals)

/-- The selector may hand the event to the connection. -/
def AdminWorld.Hands (w : AdminWorld) (r : Ready) : Prop :=
  ∃ i, w.selector.interest? w.fd = some i ∧ i.includes r = true

/-- `AdminConnectionStep c e c'`: the event `e` takes the connection from `c`
to `c'`.  The rest of the server leaves the interest in the connection and the
administrators as they are. -/
inductive AdminConnectionStep :
    AdminConfig → AdminConnectionEvent → AdminConfig → Prop
  | dispatch {c c' : AdminConfig} {r : Ready} {sys : AdminSys} :
      c.world.destroyed = false → c.world.Hands r →
      adminDispatch r sys c = .ok c' →
      AdminConnectionStep c (.dispatch r sys) c'
  | others {c : AdminConfig} {s : FdSelector} {g : Globals} :
      s.interest? c.world.fd = c.world.selector.interest? c.world.fd →
      g.parameters.admin = c.world.globals.parameters.admin →
      AdminConnectionStep c (.others s g)
        ⟨c.stm, { c.world with selector := s, globals := g }⟩

/-- A connection that `admin_passive_accept` has just registered. -/
def newAdminConnection (fd : ℤ) (s : FdSelector) (g : Globals) : AdminConfig where
  world := { fd := fd, selector := s, globals := g }

/-- The configurations that connections start in. -/
def AdminInitial (c : AdminConfig) : Prop :=
  ∃ fd s g, c = newAdminConnection fd s g ∧ s.interest? fd = some .read

/-! ## Runs by execution -/

/-- The selector may hand the event to the connection. -/
def AdminWorld.hands (w : AdminWorld) (r : Ready) : Bool :=
  (w.selector.interest? w.fd).any fun i => i.includes r

theorem AdminWorld.hands_spec {w : AdminWorld} {r : Ready}
    (h : w.hands r = true) : w.Hands r := by
  obtain ⟨hsome, hi⟩ := (Option.any_eq_true_iff_get _ _).mp h
  exact ⟨_, (Option.some_get hsome).symm, hi⟩

/-- The configuration that a dispatch leads to, if it can happen. -/
def AdminConfig.perform (c : AdminConfig) (r : Ready) (sys : AdminSys) :
    Option AdminConfig :=
  if c.world.destroyed = false ∧ c.world.hands r = true then
    (adminDispatch r sys c).toOption
  else none

theorem AdminConfig.perform_step {c c' : AdminConfig} {r : Ready}
    {sys : AdminSys} (h : c.perform r sys = some c') :
    AdminConnectionStep c (.dispatch r sys) c' := by
  unfold perform at h
  split at h
  · rename_i hok
    exact .dispatch hok.1 (AdminWorld.hands_spec hok.2) (toOption_eq_some.mp h)
  · cases h

/-- The configuration that dispatches lead to, if they can all happen. -/
def adminPlay : AdminConfig → List (Ready × AdminSys) → Option AdminConfig
  | c, [] => some c
  | c, e :: es => (c.perform e.1 e.2).bind fun c' => adminPlay c' es

/-- Dispatches that can all happen are a run. -/
theorem adminPlay_run {c c' : AdminConfig} {es : List (Ready × AdminSys)}
    (h : adminPlay c es = some c') :
    ∃ tr, Run AdminConnectionStep c tr c' := by
  induction es generalizing c with
  | nil =>
      cases h
      exact ⟨[], .nil⟩
  | cons e es ih =>
      obtain ⟨c₁, hperform, hrest⟩ := Option.bind_eq_some_iff.mp h
      obtain ⟨tr, hrun⟩ := ih hrest
      exact ⟨_, (Run.single (AdminConfig.perform_step hperform)).append hrun⟩

/-- A connection of the administrator `a:b`, who is the only one. -/
def loneAdminConnection : AdminConfig :=
  let s := selectorNew 1024
  let s := match selectorRegister s 5 (some .adminActive) .read (some 1) true with
    | .ok (_, s) => s
    | .error _ => s
  newAdminConnection 5 s
    { parameters := { admin := [⟨[97, 0], [98, 0]⟩] } }

/-- The administrator authenticates: one message, one code. -/
def authentication : List (Ready × AdminSys) :=
  [(.read, { recv := .received [1, 97, 1, 98] }),
    (.write, { send := .accepted 0 })]

end Socksv5
