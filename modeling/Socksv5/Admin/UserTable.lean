import Socksv5.Admin.Answers
import Socksv5.Admin.Gate

/-!
# The table of users

The arguments of the program and the administrators register users, by `user`
and by `add_user`.  Both keep to the size of the table and to the longest
credentials; that a name and a password are not empty is checked by `user`
only.  The connections of all administrators share the table.
-/

namespace Socksv5

open Support

/-- The server, as far as its administrators are concerned. -/
structure AdminServer where
  selector : FdSelector
  globals : Globals
  connections : ℤ → Option AdminConfig := fun _ => none

namespace AdminServer

/-- The users. -/
def users (srv : AdminServer) : List User := srv.globals.parameters.users

/-- A connection, in the world that it shares with the others. -/
def share (srv : AdminServer) (c : AdminConfig) : AdminConfig :=
  { c with world := { c.world with
      selector := srv.selector, globals := srv.globals } }

end AdminServer

/-- What can happen. -/
inductive AdminServerEvent
  | accept (fd : ℤ) (s : FdSelector)
  | dispatch (fd : ℤ) (r : Ready) (sys : AdminSys)
  | others (s : FdSelector) (m : Metrics)

/-- A step: an administrator is accepted, or handed an event, or the sessions of
the clients change the rest of the server. -/
inductive AdminServerStep :
    AdminServer → AdminServerEvent → AdminServer → Prop
  | accept {srv : AdminServer} {fd : ℤ} {s : FdSelector} :
      srv.connections fd = none → s.interest? fd = some .read →
      AdminServerStep srv (.accept fd s) { srv with
        selector := s
        connections := Function.update srv.connections fd
          (some (newAdminConnection fd s srv.globals)) }
  | dispatch {srv : AdminServer} {fd : ℤ} {r : Ready} {sys : AdminSys}
      {c c' : AdminConfig} : srv.connections fd = some c →
      (srv.share c).world.Hands r →
      adminDispatch r sys (srv.share c) = .ok c' →
      AdminServerStep srv (.dispatch fd r sys) {
        selector := c'.world.selector
        globals := c'.world.globals
        connections := Function.update srv.connections fd
          (if c'.world.destroyed then none else some c') }
  | others {srv : AdminServer} {s : FdSelector} {m : Metrics} :
      AdminServerStep srv (.others s m) { srv with
        selector := s, globals := { srv.globals with metrics := m } }

/-- The server has started with the parameters. -/
def AdminServer.Starts (parameters : Parameters) (srv : AdminServer) : Prop :=
  srv.globals = { parameters := parameters } ∧
    srv.connections = fun _ => none

/-- A string of one to `MAX_CREDENTIALS_LEN` characters. -/
def IsFullCredential (block : Block) : Prop :=
  IsCredential block ∧ cString block ≠ []

/-- The table is as it should be. -/
structure TableValid (users : List User) : Prop where
  length_le : users.length ≤ maxUsers
  full : ∀ u ∈ users, IsFullCredential u.name ∧ IsFullCredential u.pass

/-- `admin_req_fill_msg` calls `add_user` for the two strings. -/
def ReqParser.Offers (p : ReqParser) (name pass : Block) : Prop :=
  p.state ≠ .invalidCmd ∧ p.cmdSelected = 50 ∧ p.user = some name ∧
    p.password = some pass

/-- There is room in the table, and neither string is too long for it. -/
def Accepts (users : List User) (name pass : Block) : Prop :=
  users.length < maxUsers ∧ (cString name).length ≤ maxCredentialsLen ∧
    (cString pass).length ≤ maxCredentialsLen

/-- The condition on a step: where `add_user` is called for two strings that the
table has room for, neither of them is empty. -/
def RegistersFull (srv : AdminServer) : AdminServerEvent → Prop
  | .dispatch fd .write _ => ∀ c name pass, srv.connections fd = some c →
      c.state = .request → 0 < c.world.admin.writeBuffer.room →
      c.world.admin.reqParser.Offers name pass → Accepts srv.users name pass →
      cString name ≠ [] ∧ cString pass ≠ []
  | _ => True

/-! ## The arguments -/

theorem strlen_eq_ok {block : Option Block} {n : ℕ}
    (h : strlen block = .ok n) :
    ∃ b, block = some b ∧ 0 ∈ b ∧ n = (cString b).length := by
  cases block with
  | none => cases h
  | some b =>
      by_cases hb : 0 ∈ b
      · rw [strlen_of_mem hb] at h
        cases h
        exact ⟨b, rfl, hb, rfl⟩
      · rw [strlen, if_neg hb] at h
        cases h

/-- `user` accepts full credentials only. -/
theorem user_full {s : List UInt8} {a : Allocs} {u : User}
    (h : user s a = .ok u) :
    IsFullCredential u.name ∧ IsFullCredential u.pass := by
  unfold user at h
  obtain ⟨⟨flag, name, pass⟩, -, h⟩ := bind_eq_ok.mp h
  dsimp only at h
  obtain ⟨n, hn, h⟩ := bind_eq_ok.mp h
  obtain ⟨p, rfl, hp, rfl⟩ := strlen_eq_ok hn
  split at h
  case isTrue => cases h
  case isFalse hpass =>
    obtain ⟨k, hk, h⟩ := bind_eq_ok.mp h
    obtain ⟨b, rfl, hb, rfl⟩ := strlen_eq_ok hk
    split at h
    case isTrue => cases h
    case isFalse hname =>
      rw [strlen_of_mem hp, ok_bind] at h
      split at h
      case isTrue => cases h
      case isFalse hlongPass =>
        rw [strlen_of_mem hb, ok_bind] at h
        split at h
        case isTrue => cases h
        case isFalse hlongName =>
          cases h
          rw [List.length_eq_zero_iff] at hname hpass
          exact ⟨⟨⟨hb, Nat.le_of_not_lt hlongName⟩, hname⟩,
            ⟨⟨hp, Nat.le_of_not_lt hlongPass⟩, hpass⟩⟩

/-- The table that the program starts with is as it should be. -/
theorem parseArgs_valid {args : List (Argument × Allocs)} {p : Parameters}
    (h : parseArgs args = .ok p) : TableValid p.users := by
  refine foldlM_invariant (I := fun p => TableValid p.users) h
    ⟨Nat.zero_le _, fun u hu => by cases hu⟩ ?_
  rintro p ⟨arg, a⟩ p' hvalid hparse
  cases arg with
  | a optarg =>
      unfold parseArg at hparse
      dsimp only at hparse
      split at hparse
      case isTrue => cases hparse
      case isFalse =>
        obtain ⟨u, -, hparse⟩ := bind_eq_ok.mp hparse
        cases hparse
        exact hvalid
  | u optarg =>
      unfold parseArg at hparse
      dsimp only at hparse
      split at hparse
      case isTrue => cases hparse
      case isFalse hroom =>
        obtain ⟨u, hu, hparse⟩ := bind_eq_ok.mp hparse
        cases hparse
        refine ⟨?_, ?_⟩
        · rw [List.length_append, List.length_singleton]
          exact Nat.lt_of_not_le hroom
        · intro u' hu'
          rcases List.mem_append.mp hu' with hu' | hu'
          · exact hvalid.full u' hu'
          · rw [List.mem_singleton] at hu'
            rw [hu']
            exact user_full hu
  | N | other =>
      cases hparse
      exact hvalid

/-! ## The commands -/

/-- `add_user` appends an entry, or leaves the table as it is. -/
theorem addUser_cases {name pass : Option Block} {parameters p : Parameters}
    {ret : ℤ} (h : addUser name pass parameters = .ok (ret, p)) :
    (ret = 0 ∧ ∃ n w, name = some n ∧ pass = some w ∧ 0 ∈ n ∧ 0 ∈ w ∧
        Accepts parameters.users n w ∧
        p.users = parameters.users ++ [⟨n, w⟩]) ∨
      (ret ≠ 0 ∧ p = parameters ∧ ∀ n w, name = some n → pass = some w →
        ¬ Accepts parameters.users n w) := by
  unfold addUser at h
  obtain ⟨k, hk, h⟩ := bind_eq_ok.mp h
  obtain ⟨w, rfl, hw, rfl⟩ := strlen_eq_ok hk
  split at h
  case isTrue hlong =>
    cases h
    refine .inr ⟨by decide, rfl, ?_⟩
    rintro n w' - hw' ⟨-, -, hle⟩
    cases hw'
    omega
  case isFalse hpass =>
    obtain ⟨j, hj, h⟩ := bind_eq_ok.mp h
    obtain ⟨n, rfl, hn, rfl⟩ := strlen_eq_ok hj
    split at h
    case isTrue hlong =>
      cases h
      refine .inr ⟨by decide, rfl, ?_⟩
      rintro n' w' hn' - ⟨-, hle, -⟩
      cases hn'
      omega
    case isFalse hname =>
      split at h
      case isTrue hroom =>
        cases h
        exact .inl ⟨rfl, n, w, rfl, rfl, hn, hw,
          ⟨hroom, Nat.le_of_not_lt hname, Nat.le_of_not_lt hpass⟩, rfl⟩
      case isFalse hfull =>
        cases h
        refine .inr ⟨by decide, rfl, ?_⟩
        rintro n' w' - - ⟨hroom, -, -⟩
        exact hfull hroom

theorem AdminWorld.setInterestKey_globals {w w' : AdminWorld} {i : FdInterest}
    {status : SelectorStatus} (h : w.setInterestKey i = .ok (status, w')) :
    w'.globals = w.globals := by
  obtain ⟨⟨status', sel⟩, -, h⟩ := bind_eq_ok.mp h
  cases h
  rfl

/-- What has been offered is held by the table alone: the parser does not write
to it again. -/
theorem adminReqFillMsg_releases {b b' : Buffer} {p p' : ReqParser}
    {g g' : Globals} {m : Mallocs} {q : Option Performed} (hroom : 0 < b.room)
    (h : adminReqFillMsg b p g m = .ok (b', p', g', q)) :
    p'.user = none ∧ p'.password = none := by
  unfold adminReqFillMsg at h
  rw [if_neg (by omega)] at h
  obtain ⟨⟨b₁, aux, g₁, q₁⟩, -, h⟩ := bind_eq_ok.mp h
  obtain ⟨n, -, h⟩ := bind_eq_ok.mp h
  obtain ⟨b₂, -, h⟩ := bind_eq_ok.mp h
  cases h
  exact ⟨rfl, rfl⟩

/-- The callbacks of the authentication, and the one that reads a command, leave
the global variables as they are. -/
theorem adminCallback_globals {sys : AdminSys} {s ret : AdminState} {r : Ready}
    {f : AdminCallback} {w w' : AdminWorld}
    (hf : adminOnReady sys s r = some f) (h : f w = .ok (ret, w'))
    (hother : ¬ (r = .write ∧ s = .request)) : w'.globals = w.globals := by
  cases s with
  | auth =>
      cases r with
      | read =>
          cases hf
          obtain ⟨⟨received, w₁⟩, hrecv, h⟩ := bind_eq_ok.mp h
          obtain ⟨bs, -, rfl⟩ := AdminWorld.recvInto_spec hrecv
          cases received with
          | none =>
              cases h
              rfl
          | some rb =>
              obtain ⟨⟨rb', parser, a⟩, -, h⟩ := bind_eq_ok.mp h
              dsimp only at h
              split at h
              · obtain ⟨w₂, hjudge, h⟩ := bind_eq_ok.mp h
                obtain ⟨⟨status, w₃⟩, hinterest, h⟩ := bind_eq_ok.mp h
                have hsame : w₂.globals = w.globals := by
                  rcases judge_cases hjudge with ⟨-, u, p, -, -, ok, -, rfl⟩ |
                    ⟨-, rfl⟩ <;> rfl
                have hlast := (AdminWorld.setInterestKey_globals hinterest).trans hsame
                dsimp only at h
                split at h <;> cases h <;> exact hlast
              · cases h
                rfl
      | write =>
          cases hf
          obtain ⟨filled, -, h⟩ := bind_eq_ok.mp h
          obtain ⟨⟨sent, w₁⟩, hsend, h⟩ := bind_eq_ok.mp h
          obtain ⟨bs, -, rfl⟩ := AdminWorld.sendFrom_spec hsend
          cases sent with
          | none =>
              cases h
              rfl
          | some wb =>
              dsimp only at h
              split at h
              · cases h
                rfl
              · obtain ⟨⟨status, w₂⟩, hinterest, h⟩ := bind_eq_ok.mp h
                have hlast := AdminWorld.setInterestKey_globals hinterest
                dsimp only at h
                split at h
                · cases h
                  exact hlast
                · split at h <;> cases h <;> exact hlast
      | block => cases hf
  | request =>
      cases r with
      | read =>
          cases hf
          obtain ⟨⟨received, w₁⟩, hrecv, h⟩ := bind_eq_ok.mp h
          obtain ⟨bs, -, rfl⟩ := AdminWorld.recvInto_spec hrecv
          cases received with
          | none =>
              cases h
              rfl
          | some rb =>
              obtain ⟨⟨rb', parser, m⟩, -, h⟩ := bind_eq_ok.mp h
              obtain ⟨⟨status, w₂⟩, hinterest, h⟩ := bind_eq_ok.mp h
              have hlast := AdminWorld.setInterestKey_globals hinterest
              dsimp only at h
              split at h <;> cases h <;> exact hlast
      | write => exact absurd ⟨rfl, rfl⟩ hother
      | block => cases hf
  | done | error => cases r <;> cases hf

/-- `admin_request_write` leaves the global variables as `admin_req_fill_msg`
does. -/
theorem adminRequestWrite_globals {sys : AdminSys} {ret : AdminState}
    {w w' : AdminWorld} (h : adminRequestWrite sys w = .ok (ret, w')) :
    ∃ wb p q, adminReqFillMsg w.admin.writeBuffer w.admin.reqParser w.globals
      sys.mallocs = .ok (wb, p, w'.globals, q) := by
  obtain ⟨⟨wb, p, g, q⟩, hfill, h⟩ := bind_eq_ok.mp h
  refine ⟨wb, p, q, ?_⟩
  obtain ⟨⟨sent, w₁⟩, hsend, h⟩ := bind_eq_ok.mp h
  obtain ⟨bs, -, rfl⟩ := AdminWorld.sendFrom_spec hsend
  have hglobals : w'.globals = g := by
    cases sent with
    | none =>
        cases h
        cases q <;> rfl
    | some wb' =>
        dsimp only at h
        split at h
        · cases h
          cases q <;> rfl
        · obtain ⟨⟨status, w₂⟩, hinterest, h⟩ := bind_eq_ok.mp h
          have hlast := AdminWorld.setInterestKey_globals hinterest
          dsimp only at h
          split at h <;> cases h <;> rw [hlast] <;> cases q <;> rfl
  rw [hglobals]
  exact hfill

theorem AdminOutcome.globals_eq {s ret : AdminState} {w w' : AdminWorld}
    (h : AdminOutcome s ret w w') : w'.globals = w.globals := by
  cases h with
  | stays => rfl
  | arrives => cases ret <;> rfl
  | ends _ hend =>
      obtain ⟨sel, rfl⟩ := endAdmin_eq hend
      rfl

/-- A dispatch changes the global variables by `admin_req_fill_msg` only. -/
theorem adminDispatch_globals {r : Ready} {sys : AdminSys}
    {c c' : AdminConfig} (h : adminDispatch r sys c = .ok c') :
    ((r = .write ∧ c.state = .request) ∧ ∃ wb p q,
        adminReqFillMsg c.world.admin.writeBuffer c.world.admin.reqParser
          c.world.globals sys.mallocs = .ok (wb, p, c'.world.globals, q)) ∨
      (¬ (r = .write ∧ c.state = .request) ∧
        c'.world.globals = c.world.globals) := by
  obtain ⟨f, ret, w, hf, hcall, hout, -, -⟩ := adminDispatch_cases h
  rw [hout.globals_eq]
  by_cases hother : r = .write ∧ c.state = .request
  · refine .inl ⟨hother, ?_⟩
    obtain ⟨rfl, hstate⟩ := hother
    have hfound : c.found = c.world := by
      cases hcurrent : c.stm.current with
      | none =>
          rw [AdminConfig.state, hcurrent] at hstate
          cases hstate
      | some i => exact AdminConfig.found_of_current hcurrent
    rw [hstate] at hf
    cases hf
    rw [hfound] at hcall
    exact adminRequestWrite_globals hcall
  · refine .inr ⟨hother, ?_⟩
    rw [adminCallback_globals hf hcall hother]
    exact c.found_eq.2.2.1

/-- What a step does to the table: it is left as it is, or a user is
registered. -/
theorem AdminServerStep.users_cases {srv srv' : AdminServer}
    {e : AdminServerEvent} (h : AdminServerStep srv e srv') :
    (srv'.users = srv.users ∧ RegistersFull srv e) ∨
      ∃ name pass, 0 ∈ name ∧ 0 ∈ pass ∧ Accepts srv.users name pass ∧
        srv'.users = srv.users ++ [⟨name, pass⟩] ∧
        (RegistersFull srv e ↔ cString name ≠ [] ∧ cString pass ≠ []) := by
  cases h with
  | accept => exact .inl ⟨rfl, trivial⟩
  | others => exact .inl ⟨rfl, trivial⟩
  | @dispatch fd r sys c c' hc hands hdispatch =>
      rcases adminDispatch_globals hdispatch with
        ⟨⟨rfl, hstate⟩, wb, p, q, hfill⟩ | ⟨hother, hsame⟩
      · have hstep : ((∃ name pass, c.world.admin.reqParser.Offers name pass ∧
              0 < c.world.admin.writeBuffer.room ∧ 0 ∈ name ∧ 0 ∈ pass ∧
              Accepts srv.users name pass ∧
              c'.world.globals.parameters.users =
                srv.users ++ [⟨name, pass⟩]) ∨
            (c'.world.globals.parameters.users = srv.users ∧
              ∀ name pass, 0 < c.world.admin.writeBuffer.room →
                c.world.admin.reqParser.Offers name pass →
                  ¬ Accepts srv.users name pass)) := by
          rcases adminReqFillMsg_parameters hfill with
            ⟨⟨hroom, hvalid, hadd⟩, ret, hcreate⟩ | ⟨hnot, hsame⟩
          · rcases addUser_cases hcreate with
              ⟨-, n, w, hn, hw, hzero, hzero', haccepts, husers⟩ |
              ⟨-, hsame, hrefuses⟩
            · exact .inl ⟨n, w, ⟨hvalid, hadd, hn, hw⟩, hroom, hzero, hzero',
                haccepts, husers⟩
            · refine .inr ⟨congrArg Parameters.users hsame, ?_⟩
              rintro n w - ⟨-, -, hn, hw⟩
              exact hrefuses n w hn hw
          · refine .inr ⟨congrArg Parameters.users hsame, ?_⟩
            rintro n w hroom ⟨hvalid, hadd, -, -⟩
            exact absurd ⟨hroom, hvalid, hadd⟩ hnot
        rcases hstep with ⟨n, w, hoffers, hroom, hn, hw, haccepts, husers⟩ |
          ⟨hsame, hrefuses⟩
        · refine .inr ⟨n, w, hn, hw, haccepts, husers, ?_, ?_⟩
          · intro hfull
            exact hfull c n w hc hstate hroom hoffers haccepts
          · rintro hne c₁ n₁ w₁ hc₁ - - ⟨-, -, hn₁, hw₁⟩ -
            rw [hc] at hc₁
            cases hc₁
            rw [hoffers.2.2.1] at hn₁
            rw [hoffers.2.2.2] at hw₁
            cases hn₁
            cases hw₁
            exact hne
        · refine .inl ⟨hsame, ?_⟩
          intro c₁ n w hc₁ _ hroom hoffers haccepts
          rw [hc] at hc₁
          cases hc₁
          exact absurd haccepts (hrefuses n w hroom hoffers)
      · refine .inl ⟨congrArg (fun g => g.parameters.users) hsame, ?_⟩
        cases r with
        | read | block => trivial
        | write =>
            intro c₁ name pass hc₁ hrequest
            rw [hc] at hc₁
            cases hc₁
            exact absurd ⟨rfl, hrequest⟩ hother

/-! ## The invariant -/

/-- A registration keeps the table as it should be exactly when the credentials
are full. -/
theorem TableValid.append_iff {users : List User} {name pass : Block}
    (h : TableValid users) (hname : 0 ∈ name) (hpass : 0 ∈ pass)
    (haccepts : Accepts users name pass) :
    TableValid (users ++ [⟨name, pass⟩]) ↔
      cString name ≠ [] ∧ cString pass ≠ [] := by
  obtain ⟨hroom, hn, hp⟩ := haccepts
  constructor
  · intro hvalid
    have hlast := hvalid.full ⟨name, pass⟩
      (List.mem_append_right _ (List.mem_singleton_self _))
    exact ⟨hlast.1.2, hlast.2.2⟩
  · rintro ⟨hname', hpass'⟩
    constructor
    · rw [List.length_append, List.length_singleton]
      exact hroom
    · intro u hu
      rcases List.mem_append.mp hu with hu | hu
      · exact h.full u hu
      · rw [List.mem_singleton] at hu
        rw [hu]
        exact ⟨⟨⟨hname, hn⟩, hname'⟩, ⟨hpass, hp⟩, hpass'⟩

theorem AdminServerStep.valid_iff {srv srv' : AdminServer}
    {e : AdminServerEvent} (hvalid : TableValid srv.users)
    (h : AdminServerStep srv e srv') :
    TableValid srv'.users ↔ RegistersFull srv e := by
  rcases h.users_cases with ⟨hsame, hfull⟩ |
    ⟨name, pass, hname, hpass, haccepts, husers, hiff⟩
  · rw [hsame]
    exact iff_of_true hvalid hfull
  · rw [husers, hiff, hvalid.append_iff hname hpass haccepts]

/-- No entry is changed, moved or removed. -/
theorem AdminServerStep.users_grow {srv srv' : AdminServer}
    {e : AdminServerEvent} (h : AdminServerStep srv e srv') :
    srv.users <+: srv'.users := by
  rcases h.users_cases with ⟨hsame, -⟩ | ⟨name, pass, -, -, -, husers, -⟩
  · rw [hsame]
  · rw [husers]
    exact List.prefix_append _ _

/-! ## Runs by execution -/

/-- The server that a dispatch leads to, if it can happen. -/
def AdminServer.perform (srv : AdminServer) (fd : ℤ) (e : Ready × AdminSys) :
    Option AdminServer :=
  (srv.connections fd).bind fun c =>
    if (srv.share c).world.hands e.1 = true then
      (adminDispatch e.1 e.2 (srv.share c)).toOption.map fun c' => {
        selector := c'.world.selector
        globals := c'.world.globals
        connections := Function.update srv.connections fd
          (if c'.world.destroyed then none else some c') }
    else none

theorem AdminServer.perform_step {srv srv' : AdminServer} {fd : ℤ}
    {e : Ready × AdminSys} (h : srv.perform fd e = some srv') :
    AdminServerStep srv (.dispatch fd e.1 e.2) srv' := by
  obtain ⟨c, hc, h⟩ := Option.bind_eq_some_iff.mp h
  split at h
  · rename_i hands
    obtain ⟨c', hc', rfl⟩ := Option.map_eq_some_iff.mp h
    exact .dispatch hc (AdminWorld.hands_spec hands) (toOption_eq_some.mp hc')
  · cases h

/-- The server that dispatches of one connection lead to, if they can all
happen. -/
def AdminServer.play (fd : ℤ) :
    AdminServer → List (Ready × AdminSys) → Option AdminServer
  | srv, [] => some srv
  | srv, e :: es => (srv.perform fd e).bind fun srv' => play fd srv' es

theorem AdminServer.play_run {srv srv' : AdminServer} {fd : ℤ}
    {es : List (Ready × AdminSys)} (h : srv.play fd es = some srv') :
    ∃ tr, Run AdminServerStep srv tr srv' := by
  induction es generalizing srv with
  | nil =>
      cases h
      exact ⟨[], .nil⟩
  | cons e es ih =>
      obtain ⟨srv₁, hperform, hrest⟩ := Option.bind_eq_some_iff.mp h
      obtain ⟨tr, hrun⟩ := ih hrest
      exact ⟨_, (Run.single (perform_step hperform)).append hrun⟩

/-- The arguments `-a a:b`. -/
def loneAdminArguments : List (Argument × Allocs) := [(.a (ascii "a:b"), [])]

/-- The parameters that they set. -/
def loneAdminParameters : Parameters where
  disectorsEnabled := true
  admin := [⟨[97, 0, 0], [98, 0, 0]⟩]

theorem parseArgs_loneAdminArguments :
    parseArgs loneAdminArguments = .ok loneAdminParameters := by
  decide

/-- A server that has started with these arguments. -/
def startedServer : AdminServer where
  selector := loneAdminConnection.world.selector
  globals := { parameters := loneAdminParameters }

/-- The administrator has connected. -/
def connectedServer : AdminServer :=
  { startedServer with
    connections := Function.update startedServer.connections 5
      (some (newAdminConnection 5 startedServer.selector
        startedServer.globals)) }

theorem connectedServer_run : Run AdminServerStep startedServer
    [(startedServer, .accept 5 startedServer.selector)] connectedServer :=
  .single (.accept rfl (by decide))

/-- An `add_user` that fails leaves the parameters as they are, the table only
grows, and it is as it should be, all along a run, exactly when no
administrator registers an empty name or an empty password. -/
theorem user_table_iff {args : List (Argument × Allocs)}
    {parameters : Parameters} {srv₀ srv : AdminServer}
    {tr : List (AdminServer × AdminServerEvent)}
    (hargs : parseArgs args = .ok parameters) (h₀ : srv₀.Starts parameters)
    (hrun : Run AdminServerStep srv₀ tr srv) :
    (∀ name pass p ret p', addUser name pass p = .ok (ret, p') → ret ≠ 0 →
        p' = p) ∧
      (∀ x ∈ tr, x.1.users <+: srv.users) ∧
      (((∀ x ∈ tr, TableValid x.1.users) ∧ TableValid srv.users) ↔
        ∀ x ∈ tr, RegistersFull x.1 x.2) := by
  refine ⟨?_, ?_, ?_⟩
  · intro name pass p ret p' hadd hret
    rcases addUser_cases hadd with ⟨hzero, -⟩ | ⟨-, hsame, -⟩
    · exact absurd hzero hret
    · exact hsame
  · exact hrun.forall_rel (R := fun a b => a.users <+: b.users)
      (fun _ _ _ => List.IsPrefix.trans) fun _ _ _ => AdminServerStep.users_grow
  · have hstart : TableValid srv₀.users := by
      unfold AdminServer.users
      rw [h₀.1]
      exact parseArgs_valid hargs
    exact hrun.forall_iff (I := fun _ => True) (G := fun srv => TableValid srv.users)
      trivial hstart (fun _ _ _ _ _ => trivial)
      fun _ _ _ _ hvalid hstep => hstep.valid_iff hvalid

set_option maxRecDepth 4000 in
/-- An administrator registers a user whose name and password are empty. -/
theorem empty_user_registered : ∃ tr srv,
    parseArgs loneAdminArguments = .ok loneAdminParameters ∧
      startedServer.Starts loneAdminParameters ∧
      Run AdminServerStep startedServer tr srv ∧ ¬ TableValid srv.users := by
  have hplay : (connectedServer.play 5 (authentication ++
      [(.read, { recv := .received (ascii "2  \n") }),
        (.write, { send := .accepted 0 })])).map
          (fun srv => srv.users.map fun u => (cString u.name, cString u.pass)) =
      some [([], [])] := by
    decide
  obtain ⟨srv, hsrv, husers⟩ := Option.map_eq_some_iff.mp hplay
  obtain ⟨tr, hrun⟩ := AdminServer.play_run hsrv
  refine ⟨_, srv, parseArgs_loneAdminArguments, ⟨rfl, rfl⟩,
    connectedServer_run.append hrun, ?_⟩
  intro hvalid
  obtain ⟨u, hu⟩ : ∃ u, srv.users = [u] := by
    apply List.length_eq_one_iff.mp
    rw [← List.length_map (f := fun u => (cString u.name, cString u.pass)), husers]
    rfl
  rw [hu] at husers hvalid
  have hempty : cString u.name = [] :=
    (Prod.mk.inj (List.cons.inj husers).1).1
  exact (hvalid.full u (List.mem_singleton_self u)).1.2 hempty

/-- The strings that the parser has are not empty. -/
def ReqParser.full (p : ReqParser) : Bool :=
  p.user.all (fun name => decide (cString name ≠ [])) &&
    p.password.all fun pass => decide (cString pass ≠ [])

/-- The step, with its event, when the parser of the connection has no empty
string. -/
def AdminServer.takeFull (fd : ℤ) (srv : AdminServer) (e : Ready × AdminSys) :
    Option (AdminServerEvent × AdminServer) :=
  if (srv.connections fd).all (fun c => c.world.admin.reqParser.full) = true then
    (srv.perform fd e).map fun srv' => (.dispatch fd e.1 e.2, srv')
  else none

theorem AdminServer.takeFull_step {fd : ℤ} (srv : AdminServer) (m : Ready × AdminSys)
    (e : AdminServerEvent) (srv' : AdminServer)
    (h : srv.takeFull fd m = some (e, srv')) :
    AdminServerStep srv e srv' ∧ RegistersFull srv e := by
  obtain ⟨hfull, h⟩ := Option.ite_none_right_eq_some.mp h
  obtain ⟨srv₁, hperform, heq⟩ := Option.map_eq_some_iff.mp h
  cases heq
  refine ⟨perform_step hperform, ?_⟩
  obtain ⟨r, sys⟩ := m
  cases r with
  | read | block => trivial
  | write =>
      intro c name pass hc _ _ hoffers _
      rw [hc, Option.all_some, ReqParser.full, hoffers.2.2.1, hoffers.2.2.2,
        Option.all_some, Option.all_some, Bool.and_eq_true, decide_eq_true_iff,
        decide_eq_true_iff] at hfull
      exact hfull

/-- An administrator registers a user whose name and password are not empty. -/
theorem user_table_started : ∃ tr srv,
    Run AdminServerStep connectedServer tr srv ∧
      srv.users.map (fun u => (cString u.name, cString u.pass)) = [([99], [100])] ∧
      TableValid srv.users := by
  have hplay : (moves (AdminServer.takeFull 5) connectedServer (authentication ++
      [(.read, { recv := .received (ascii "2 c d\n") }),
        (.write, { send := .accepted 99 })])).any
          (fun srv => decide (srv.users.map (fun u => (cString u.name, cString u.pass)) =
            [([99], [100])])) = true := by
    decide +kernel
  obtain ⟨srv, hsrv, husers⟩ := (Option.any_eq_true _ _).mp hplay
  obtain ⟨tr, hrun, hfull⟩ := Run.of_moves_of AdminServer.takeFull_step hsrv
  have hiff := (user_table_iff parseArgs_loneAdminArguments ⟨rfl, rfl⟩
    (connectedServer_run.append hrun)).2.2
  refine ⟨tr, srv, hrun, of_decide_eq_true husers, (hiff.mpr ?_).2⟩
  rw [List.forall_mem_append]
  exact ⟨List.forall_mem_singleton.mpr trivial, hfull⟩

end Socksv5
