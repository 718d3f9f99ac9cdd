import Socksv5.Admin.Run

/-!
# The gate of the administration protocol

An administrator gets to `ADMIN_REQUEST` by being authenticated with the
credentials in the first message of the connection, and by nothing else.  The
field `ret` is zero before there is a verdict, which is the code of success;
the invariant says that the verdict is set before the connection asks for the
event that sends it.
-/

namespace Socksv5

open Support

/-! ## The log of a connection -/

namespace AdminCall

/-- What a `recv` of the state received. -/
def bytesIn (s : AdminState) : AdminCall → List UInt8
  | .recv s' bs => if s' = s then bs else []
  | _ => []

/-- What a `send` of the state sent. -/
def bytesOut (s : AdminState) : AdminCall → List UInt8
  | .send s' bs => if s' = s then bs else []
  | _ => []

/-- The call serves commands. -/
def serves : AdminCall → Bool
  | .recv s _ | .send s _ => decide (s = .request)
  | .authenticate _ _ _ => false
  | .perform _ => true

end AdminCall

/-- What has been received in a state. -/
def adminReceived (s : AdminState) (log : List AdminCall) : List UInt8 :=
  log.flatMap (AdminCall.bytesIn s)

/-- What has been sent in a state. -/
def adminSent (s : AdminState) (log : List AdminCall) : List UInt8 :=
  log.flatMap (AdminCall.bytesOut s)

/-- No command has been served. -/
def Unserved (log : List AdminCall) : Prop := ∀ call ∈ log, call.serves = false

/-- `authenticate_admin` has returned true for the credentials in the first
message. -/
def Authorised (log : List AdminCall) : Prop :=
  ∃ u w, firstLogin (adminReceived .auth log) = .credentials u w ∧
    .authenticate (u ++ [0]) (w ++ [0]) true ∈ log

/-- Commands are served only after the administrator has been authenticated. -/
def Guarded (log : List AdminCall) : Prop :=
  ∀ pre call post, log = pre ++ call :: post → call.serves = true →
    Authorised pre

/-- The first message is malformed, or its credentials are not those of an
administrator. -/
def Rejected (table : List User) (bs : List UInt8) : Prop :=
  firstLogin bs = .malformed ∨
    ∃ u w, firstLogin bs = .credentials u w ∧
      ¬ Listed table (cString u) (cString w)

theorem adminReceived_append (s : AdminState) (log calls : List AdminCall) :
    adminReceived s (log ++ calls) =
      adminReceived s log ++ adminReceived s calls :=
  List.flatMap_append

theorem adminSent_append (s : AdminState) (log calls : List AdminCall) :
    adminSent s (log ++ calls) = adminSent s log ++ adminSent s calls :=
  List.flatMap_append

theorem adminReceived_auth_of_serves {calls : List AdminCall}
    (h : ∀ call ∈ calls, call.serves = true) :
    adminReceived .auth calls = [] := by
  rw [adminReceived, List.flatMap_eq_nil_iff]
  intro call hcall
  have hserves := h call hcall
  cases call with
  | recv s bs =>
      have hs : s = .request := of_decide_eq_true hserves
      subst hs
      rfl
  | send | authenticate | perform => rfl

theorem adminSent_auth_of_serves {calls : List AdminCall}
    (h : ∀ call ∈ calls, call.serves = true) : adminSent .auth calls = [] := by
  rw [adminSent, List.flatMap_eq_nil_iff]
  intro call hcall
  have hserves := h call hcall
  cases call with
  | send s bs =>
      have hs : s = .request := of_decide_eq_true hserves
      subst hs
      rfl
  | recv | authenticate | perform => rfl

theorem Unserved.append {log calls : List AdminCall} (h : Unserved log)
    (h' : Unserved calls) : Unserved (log ++ calls) := by
  intro call hcall
  rcases List.mem_append.mp hcall with hcall | hcall
  · exact h call hcall
  · exact h' call hcall

theorem Unserved.guarded {log : List AdminCall} (h : Unserved log) :
    Guarded log := by
  intro pre call post heq hserves
  have hmem : call ∈ log := by simp [heq]
  rw [h call hmem] at hserves
  cases hserves

/-- Who has been authenticated stays so when no more of the first message is
received. -/
theorem Authorised.append {log calls : List AdminCall} (h : Authorised log)
    (hcalls : adminReceived .auth calls = []) : Authorised (log ++ calls) := by
  obtain ⟨u, w, hfirst, hmem⟩ := h
  refine ⟨u, w, ?_, List.mem_append_left _ hmem⟩
  rw [adminReceived_append, hcalls, List.append_nil, hfirst]

theorem Guarded.append {log calls : List AdminCall} (h : Guarded log)
    (hlog : Authorised log) (hcalls : ∀ call ∈ calls, call.serves = true) :
    Guarded (log ++ calls) := by
  intro pre call post heq hserves
  rcases List.append_eq_append_iff.mp heq with ⟨more, rfl, hmore⟩ | ⟨more, rfl, hmore⟩
  · apply hlog.append
    apply adminReceived_auth_of_serves
    intro call' hcall'
    apply hcalls
    rw [hmore]
    exact List.mem_append_left _ hcall'
  · cases more with
    | nil =>
        have hauth := hlog
        rwa [List.append_nil] at hauth
    | cons d more =>
        cases hmore
        exact h pre call more rfl hserves

/-! ## The invariant -/

/-- How far a connection has got, where `table` are the administrators. -/
inductive AdminGate (table : List User) : AdminState → AdminWorld → Prop
  /-- The first message has not ended. -/
  | waiting {w : AdminWorld} : w.selector.interest? w.fd = some .read →
      w.admin.authParser.state.final = false →
      w.admin.authParser.After (adminReceived .auth w.log) →
      w.admin.readBuffer.pending = [] → w.admin.writeBuffer.pending = [] →
      0 < w.admin.writeBuffer.room → adminSent .auth w.log = [] →
      Unserved w.log → AdminGate table .auth w
  /-- The verdict is to be sent. -/
  | judged {w : AdminWorld} : w.selector.interest? w.fd = some .write →
      (w.admin.authParser.ret = adminAuthSuccess → Authorised w.log) →
      (Rejected table (adminReceived .auth w.log) →
        w.admin.authParser.ret = adminAuthBadCredentials ∨
          w.admin.authParser.ret = adminAuthBadSyntax) →
      w.admin.writeBuffer.pending = [] → 0 < w.admin.writeBuffer.room →
      adminSent .auth w.log = [] → Unserved w.log → AdminGate table .auth w
  /-- The administrator has been authenticated. -/
  | opened {w : AdminWorld} : w.selector.Registered w.fd →
      Authorised w.log → Guarded w.log →
      ¬ Rejected table (adminReceived .auth w.log) → AdminGate table .request w
  /-- The connection has ended. -/
  | ended {s : AdminState} {w : AdminWorld} : s = .done ∨ s = .error →
      Guarded w.log →
      (Rejected table (adminReceived .auth w.log) → Unserved w.log ∧
        (s = .error ∧ adminSent .auth w.log = [] ∨
          s = .done ∧ ∃ b, b ≠ 0 ∧ adminSent .auth w.log = [b])) →
      AdminGate table s w

/-- The verdict over the credentials of the first message. -/
theorem AdminAuthParser.After.judged {table : List User} {w w' : AdminWorld}
    {used rest : List UInt8} (hafter : w.admin.authParser.After used)
    (hreceived : adminReceived .auth w.log = used ++ rest)
    (htable : w.globals.parameters.admin = table)
    (h : judge w = .ok w') :
    w'.fd = w.fd ∧ w'.selector = w.selector ∧ w'.globals = w.globals ∧
      w'.admin.writeBuffer = w.admin.writeBuffer ∧
      (∃ calls, w'.log = w.log ++ calls ∧ Unserved calls ∧
        adminReceived .auth calls = [] ∧ adminSent .auth calls = []) ∧
      (w'.admin.authParser.ret = adminAuthSuccess → Authorised w'.log) ∧
      (Rejected table (adminReceived .auth w'.log) →
        w'.admin.authParser.ret = adminAuthBadCredentials ∨
          w'.admin.authParser.ret = adminAuthBadSyntax) := by
  rcases judge_cases h with ⟨hdone, user, password, huser, hpassword, ok, hok, rfl⟩ |
    ⟨-, rfl⟩
  · refine ⟨rfl, rfl, rfl, rfl, ⟨[.authenticate user password ok], rfl, ?_, rfl,
      rfl⟩, ?_, ?_⟩
    · intro call hcall
      rw [List.mem_singleton] at hcall
      rw [hcall]
      rfl
    all_goals
      obtain ⟨u, p, rfl, hu, hp, hu', hp'⟩ := hafter.done hdone
      rw [huser] at hu'
      rw [hpassword] at hp'
      cases hu'
      cases hp'
      have hlog : adminReceived .auth
          (w.log ++ [.authenticate (u ++ [0]) (p ++ [0]) ok]) =
            adminCredentialsMessage u p ++ rest := by
        rw [adminReceived_append, hreceived]
        exact List.append_nil _
    · intro hret
      cases ok with
      | true =>
          refine ⟨u, p, ?_, ?_⟩
          · change firstLogin (adminReceived .auth
              (w.log ++ [.authenticate (u ++ [0]) (p ++ [0]) true])) = _
            rw [hlog, firstLogin_message hu hp]
          · exact List.mem_append_right _ (List.mem_singleton_self _)
      | false =>
          have hne : adminAuthBadCredentials = adminAuthSuccess := hret
          exact absurd hne (by decide)
    · intro hrejected
      change Rejected table (adminReceived .auth
        (w.log ++ [.authenticate (u ++ [0]) (p ++ [0]) ok])) at hrejected
      rw [hlog] at hrejected
      left
      have hbad : ok = false := by
        rcases hrejected with hbad | ⟨u', p', hcred, hnot⟩
        · rw [firstLogin_message hu hp] at hbad
          cases hbad
        · rw [firstLogin_message hu hp] at hcred
          cases hcred
          rw [← Bool.not_eq_true, hok, authenticateAdmin_iff, htable]
          exact hnot
      subst hbad
      rfl
  · refine ⟨rfl, rfl, rfl, rfl, ⟨[], (List.append_nil _).symm, ?_, rfl, rfl⟩,
      ?_, ?_⟩
    · intro call hcall
      cases hcall
    · intro hret
      have hne : adminAuthBadSyntax = adminAuthSuccess := hret
      exact absurd hne (by decide)
    · intro _
      exact .inr rfl

theorem endAdmin_eq {w w' : AdminWorld} (h : endAdmin w = .ok w') :
    ∃ s, w' = { w with selector := s, destroyed := true } := by
  obtain ⟨⟨ret, s⟩, -, h⟩ := bind_eq_ok.mp h
  dsimp only at h
  split at h
  · cases h
  · cases h
    exact ⟨s, rfl⟩

theorem AdminWorld.registered_of_interest {w : AdminWorld} {i : FdInterest}
    (h : w.selector.interest? w.fd = some i) :
    w.selector.Registered w.fd := by
  rw [FdSelector.Registered, h]
  exact Option.some_ne_none i

/-- An interest in one kind of event is an interest in no other. -/
theorem AdminWorld.Hands.eq_read {w : AdminWorld} {r : Ready}
    (h : w.Hands r) (hi : w.selector.interest? w.fd = some .read) :
    r = .read := by
  obtain ⟨i, hi', hr⟩ := h
  rw [hi] at hi'
  cases hi'
  cases r with
  | read => rfl
  | write | block => cases hr

theorem AdminWorld.Hands.eq_write {w : AdminWorld} {r : Ready}
    (h : w.Hands r) (hi : w.selector.interest? w.fd = some .write) :
    r = .write := by
  obtain ⟨i, hi', hr⟩ := h
  rw [hi] at hi'
  cases hi'
  cases r with
  | write => rfl
  | read | block => cases hr

/-- A callback that has failed ends the connection. -/
theorem AdminOutcome.failed {s : AdminState} {w w' : AdminWorld}
    (hs : s = .auth ∨ s = .request) (h : AdminOutcome s .error w w') :
    ∃ sel, w' = { w with selector := sel, destroyed := true } := by
  cases h with
  | stays => rcases hs with hs | hs <;> cases hs
  | arrives _ _ hne => exact absurd rfl hne
  | ends _ hend => exact endAdmin_eq hend

/-- A callback that stays in its state. -/
theorem AdminOutcome.eq_of_stays {s : AdminState} {w w' : AdminWorld}
    (hs : s = .auth ∨ s = .request) (h : AdminOutcome s s w w') : w' = w := by
  cases h with
  | stays => rfl
  | arrives hne => exact absurd rfl hne
  | ends hend _ => rcases hs with rfl | rfl <;> rcases hend with h | h <;> cases h

theorem Unserved.recv {log : List AdminCall} (h : Unserved log)
    (bs : List UInt8) : Unserved (log ++ [.recv .auth bs]) := by
  apply h.append
  intro call hcall
  rw [List.mem_singleton] at hcall
  rw [hcall]
  rfl

theorem Unserved.send {log : List AdminCall} (h : Unserved log)
    (bs : List UInt8) : Unserved (log ++ [.send .auth bs]) := by
  apply h.append
  intro call hcall
  rw [List.mem_singleton] at hcall
  rw [hcall]
  rfl

variable {table : List User} {sys : AdminSys} {s ret : AdminState}
  {w w' w'' : AdminWorld}

/-- A read before the first message has ended. -/
theorem AdminGate.readsMessage (hread : w.selector.interest? w.fd = some .read)
    (hlive : w.admin.authParser.state.final = false)
    (hafter : w.admin.authParser.After (adminReceived .auth w.log))
    (hrb : w.admin.readBuffer.pending = [])
    (hwb : w.admin.writeBuffer.pending = [])
    (hroom : 0 < w.admin.writeBuffer.room)
    (hsent : adminSent .auth w.log = []) (hlog : Unserved w.log)
    (htable : w.globals.parameters.admin = table)
    (h : adminAuthRead sys w = .ok (ret, w'))
    (hout : AdminOutcome .auth ret w' w'') : AdminGate table ret w'' := by
  have hreg := AdminWorld.registered_of_interest hread
  have hsent' : ∀ bs, adminSent .auth (w.log ++ [.recv .auth bs]) = [] := by
    intro bs
    rw [adminSent_append, hsent]
    rfl
  have hreceived : ∀ bs, adminReceived .auth (w.log ++ [.recv .auth bs]) =
      adminReceived .auth w.log ++ bs := by
    intro bs
    rw [adminReceived_append]
    exact congrArg _ (List.append_nil bs)
  rcases adminAuthRead_cases hreg hlive h with ⟨rfl, rfl⟩ |
    ⟨bs, used, rb, parser, a, rfl, -, hused, hreads, hend⟩
  · obtain ⟨sel, rfl⟩ := hout.failed (.inl rfl)
    exact .ended (.inr rfl) (hlog.recv []).guarded fun _ =>
      ⟨hlog.recv [], .inl ⟨rfl, hsent' []⟩⟩
  · rw [hrb, List.nil_append] at hused
    obtain rfl := hout.eq_of_stays (.inl rfl)
    have hafter' := adminAuth_reads_after hafter hreads
    rcases hend with ⟨hlive', hnil, rfl⟩ | ⟨hfinal, w₁, sel, hjudge, hsel, rfl⟩
    · rw [hnil, List.append_nil] at hused
      subst hused
      refine .waiting hread hlive' ?_ hnil hwb hroom (hsent' _) (hlog.recv _)
      change parser.After (adminReceived .auth (w.log ++ [.recv .auth bs]))
      rw [hreceived]
      exact hafter'
    · have hlog₁ : adminReceived .auth (w.authParsed bs rb parser).log =
          adminReceived .auth w.log ++ used ++ rb.pending := by
        rw [List.append_assoc, ← hused]
        exact hreceived bs
      obtain ⟨hfd, hselector, hglobals, hbuffer, ⟨calls, hcalls, hquiet, -, hout'⟩,
        hauth, hrejected⟩ := hafter'.judged hlog₁ htable hjudge
      refine .judged ?_ hauth hrejected ?_ ?_ ?_ ?_
      · change sel.interest? w₁.fd = _
        rw [hfd]
        exact hsel
      · rw [hbuffer]
        exact hwb
      · rw [hbuffer]
        exact hroom
      · change adminSent .auth w₁.log = []
        rw [hcalls, adminSent_append, hout', List.append_nil]
        exact hsent' bs
      · change Unserved w₁.log
        rw [hcalls]
        exact (hlog.recv bs).append hquiet

/-- The write that sends the verdict. -/
theorem AdminGate.sendsVerdict
    (hwrite : w.selector.interest? w.fd = some .write)
    (hauth : w.admin.authParser.ret = adminAuthSuccess → Authorised w.log)
    (hrejected : Rejected table (adminReceived .auth w.log) →
      w.admin.authParser.ret = adminAuthBadCredentials ∨
        w.admin.authParser.ret = adminAuthBadSyntax)
    (hwb : w.admin.writeBuffer.pending = [])
    (hroom : 0 < w.admin.writeBuffer.room)
    (hsent : adminSent .auth w.log = []) (hlog : Unserved w.log)
    (h : adminAuthWrite sys w = .ok (ret, w'))
    (hout : AdminOutcome .auth ret w' w'') : AdminGate table ret w'' := by
  have hreg := AdminWorld.registered_of_interest hwrite
  have hreceived : ∀ bs, adminReceived .auth (w.log ++ [.send .auth bs]) =
      adminReceived .auth w.log := by
    intro bs
    rw [adminReceived_append]
    exact List.append_nil _
  have hsent' : ∀ bs, adminSent .auth (w.log ++ [.send .auth bs]) = bs := by
    intro bs
    rw [adminSent_append, hsent]
    exact List.append_nil bs
  rcases adminAuthWrite_cases hreg hwb hroom h with ⟨rfl, -, rfl⟩ |
    ⟨hret, wb, sel, hsel, rfl⟩
  · obtain ⟨sel, rfl⟩ := hout.failed (.inl rfl)
    exact .ended (.inr rfl) (hlog.send []).guarded fun _ =>
      ⟨hlog.send [], .inl ⟨rfl, hsent' []⟩⟩
  · by_cases hok : w.admin.authParser.ret = adminAuthSuccess
    · rw [if_pos hok] at hret
      subst hret
      cases hout with
      | ends hend _ => rcases hend with hend | hend <;> cases hend
      | arrives _ _ _ =>
          refine .opened ?_ ((hauth hok).append rfl) (hlog.send _).guarded ?_
          · exact AdminWorld.registered_of_interest hsel
          · intro hrej
            have hrej' : Rejected table (adminReceived .auth w.log) := by
              rw [← hreceived]
              exact hrej
            rcases hrejected hrej' with hbad | hbad
            · rw [hbad] at hok
              exact absurd hok (by decide)
            · rw [hbad] at hok
              exact absurd hok (by decide)
    · rw [if_neg hok] at hret
      subst hret
      cases hout with
      | arrives _ hne _ => exact absurd rfl hne
      | ends _ hend =>
          obtain ⟨sel', rfl⟩ := endAdmin_eq hend
          refine .ended (.inl rfl) (hlog.send _).guarded fun hrej =>
            ⟨hlog.send _, .inr ⟨rfl, UInt8.ofInt w.admin.authParser.ret, ?_,
              hsent' _⟩⟩
          have hrej' : Rejected table (adminReceived .auth w.log) := by
            rw [← hreceived]
            exact hrej
          rcases hrejected hrej' with hbad | hbad
          · rw [hbad]
            decide
          · rw [hbad]
            decide

/-- A callback of `ADMIN_REQUEST` serves commands only, and stays registered
unless it fails. -/
theorem adminRequest_serves {r : Ready} {f : AdminCallback}
    (hreg : w.selector.Registered w.fd)
    (hf : adminOnReady sys .request r = some f) (h : f w = .ok (ret, w')) :
    (ret = .error ∨ ret = .request ∧ w'.selector.Registered w'.fd) ∧
      w'.globals.parameters.admin = w.globals.parameters.admin ∧
      ∃ calls, w'.log = w.log ++ calls ∧ ∀ call ∈ calls, call.serves = true := by
  cases r with
  | read =>
      cases hf
      rcases adminRequestRead_cases hreg h with ⟨rfl, rfl⟩ |
        ⟨bs, b, rb, parser, m, sel, rfl, -, -, hsel, rfl⟩
      · exact ⟨.inl rfl, rfl, [.recv .request []], rfl, by simp [AdminCall.serves]⟩
      · exact ⟨.inr ⟨rfl, AdminWorld.registered_of_interest hsel⟩, rfl,
          [.recv .request bs], rfl, by simp [AdminCall.serves]⟩
  | write =>
      cases hf
      obtain ⟨wb, parser, g, performed, hfill, hend⟩ :=
        adminRequestWrite_cases hreg h
      have hadmin := adminReqFillMsg_admin hfill
      have hfilled : ∀ bs, ∃ calls,
          ((w.filled wb parser g performed).record (.send .request bs)).log =
            w.log ++ calls ∧ ∀ call ∈ calls, call.serves = true := by
        intro bs
        cases performed with
        | none => exact ⟨[.send .request bs], rfl, by simp [AdminCall.serves]⟩
        | some command =>
            refine ⟨[.perform command, .send .request bs], ?_,
              by simp [AdminCall.serves]⟩
            exact List.append_assoc w.log [.perform command]
              [.send .request bs]
      have hglobals : (w.filled wb parser g performed).globals = g := by
        cases performed <;> rfl
      have hfd : (w.filled wb parser g performed).fd = w.fd := by
        cases performed <;> rfl
      rcases hend with ⟨rfl, -, rfl⟩ | ⟨bs, wb', rfl, -, sel, hsel, rfl⟩
      · refine ⟨.inl rfl, ?_, hfilled []⟩
        change (w.filled wb parser g performed).globals.parameters.admin = _
        rw [hglobals]
        exact hadmin
      · refine ⟨.inr ⟨rfl, ?_⟩, ?_, hfilled bs⟩
        · change sel.Registered (w.filled wb parser g performed).fd
          rw [hfd]
          split at hsel
          · rw [hsel]
            exact hreg
          · rw [FdSelector.Registered, hsel]
            exact Option.some_ne_none _
        · change (w.filled wb parser g performed).globals.parameters.admin = _
          rw [hglobals]
          exact hadmin
  | block => cases hf

/-- A callback of an administrator who has been authenticated. -/
theorem AdminGate.servesCommands {r : Ready} {f : AdminCallback}
    (hreg : w.selector.Registered w.fd) (hauth : Authorised w.log)
    (hlog : Guarded w.log) (hrej : ¬ Rejected table (adminReceived .auth w.log))
    (hf : adminOnReady sys .request r = some f) (h : f w = .ok (ret, w'))
    (hout : AdminOutcome .request ret w' w'') : AdminGate table ret w'' := by
  obtain ⟨hret, -, calls, hcalls, hserves⟩ := adminRequest_serves hreg hf h
  have hnone := adminReceived_auth_of_serves hserves
  have hguarded : Guarded w'.log := by
    rw [hcalls]
    exact hlog.append hauth hserves
  have hrej' : ¬ Rejected table (adminReceived .auth w'.log) := by
    rw [hcalls, adminReceived_append, hnone, List.append_nil]
    exact hrej
  rcases hret with rfl | ⟨rfl, hreg'⟩
  · obtain ⟨sel, rfl⟩ := hout.failed (.inr rfl)
    exact .ended (.inr rfl) hguarded fun hbad => absurd hbad hrej'
  · obtain rfl := hout.eq_of_stays (.inr rfl)
    refine .opened hreg' ?_ hguarded hrej'
    rw [hcalls]
    exact hauth.append hnone

/-- What the callbacks of the authentication leave as it is. -/
theorem adminAuth_table {r : Ready} {f : AdminCallback}
    (hgate : AdminGate table .auth w) (hands : w.Hands r)
    (htable : w.globals.parameters.admin = table)
    (hf : adminOnReady sys .auth r = some f) (h : f w = .ok (ret, w')) :
    w'.globals.parameters.admin = table := by
  cases hgate with
  | waiting hread hlive hafter hrb hwb hroom hsent hlog =>
      obtain rfl := hands.eq_read hread
      cases hf
      have hreg := AdminWorld.registered_of_interest hread
      rcases adminAuthRead_cases hreg hlive h with ⟨-, rfl⟩ |
        ⟨bs, used, rb, parser, a, -, -, -, -, ⟨-, -, rfl⟩ | ⟨-, w₁, sel, hjudge, -, rfl⟩⟩
      · exact htable
      · exact htable
      · rcases judge_cases hjudge with ⟨-, _, _, -, -, _, -, rfl⟩ | ⟨-, rfl⟩ <;>
          exact htable
  | judged hwrite hauth hrejected hwb hroom hsent hlog =>
      obtain rfl := hands.eq_write hwrite
      cases hf
      have hreg := AdminWorld.registered_of_interest hwrite
      rcases adminAuthWrite_cases hreg hwb hroom h with ⟨-, -, rfl⟩ |
        ⟨-, wb, sel, -, rfl⟩ <;> exact htable
  | ended hend _ _ => rcases hend with hend | hend <;> cases hend

theorem AdminOutcome.keepsTable (h : AdminOutcome s ret w w')
    (htable : w.globals.parameters.admin = table) :
    w'.globals.parameters.admin = table := by
  cases h with
  | stays => exact htable
  | arrives => cases ret <;> exact htable
  | ends _ hend =>
      obtain ⟨sel, rfl⟩ := endAdmin_eq hend
      exact htable

theorem AdminOutcome.log_eq (h : AdminOutcome s ret w w') :
    w'.log = w.log := by
  cases h with
  | stays => rfl
  | arrives => cases ret <;> rfl
  | ends _ hend =>
      obtain ⟨sel, rfl⟩ := endAdmin_eq hend
      rfl

theorem AdminGate.guarded (h : AdminGate table s w) : Guarded w.log := by
  cases h with
  | waiting _ _ _ _ _ _ _ hquiet => exact hquiet.guarded
  | judged _ _ _ _ _ _ hquiet => exact hquiet.guarded
  | opened _ _ hguarded _ => exact hguarded
  | ended _ hguarded _ => exact hguarded

/-- The invariant of a connection. -/
structure AdminConfig.Gated (table : List User) (c : AdminConfig) : Prop where
  table_eq : c.world.globals.parameters.admin = table
  current : c.stm.current = none ∨ c.stm.current = some c.state.id
  gate : AdminGate table c.state c.found

theorem AdminConfig.found_of_current {c : AdminConfig} {i : ℕ}
    (h : c.stm.current = some i) : c.found = c.world := by
  rw [AdminConfig.found, h]

/-- Starting the machine changes the parser of the credentials only. -/
theorem AdminConfig.found_eq (c : AdminConfig) :
    c.found.fd = c.world.fd ∧ c.found.selector = c.world.selector ∧
      c.found.globals = c.world.globals ∧ c.found.log = c.world.log := by
  unfold AdminConfig.found
  split <;> exact ⟨rfl, rfl, rfl, rfl⟩

theorem AdminConfig.found_hands {c : AdminConfig} {r : Ready} :
    c.found.Hands r ↔ c.world.Hands r := by
  obtain ⟨hfd, hselector, -, -⟩ := c.found_eq
  unfold AdminWorld.Hands
  rw [hfd, hselector]

theorem AdminConfig.Gated.dispatched {r : Ready} {c c' : AdminConfig}
    (hc : c.Gated table) (hands : c.world.Hands r)
    (h : adminDispatch r sys c = .ok c') : c'.Gated table := by
  obtain ⟨f, ret, w, hf, hcall, hout, hstate, hcurrent⟩ := adminDispatch_cases h
  have hands' := AdminConfig.found_hands.mpr hands
  have htable : c.found.globals.parameters.admin = table := by
    rw [c.found_eq.2.2.1]
    exact hc.table_eq
  have hgate := hc.gate
  have hboth : w.globals.parameters.admin = table ∧
      AdminGate table ret c'.world := by
    rcases hs : c.state with _ | _ | _ | _
    · rw [hs] at hgate hf hout
      refine ⟨adminAuth_table hgate hands' htable hf hcall, ?_⟩
      cases hgate with
      | waiting hread hlive hafter hrb hwb hroom hsent hlog =>
          obtain rfl := hands'.eq_read hread
          cases hf
          exact .readsMessage hread hlive hafter hrb hwb hroom hsent hlog htable
            hcall hout
      | judged hwrite hauth hrejected hwb hroom hsent hlog =>
          obtain rfl := hands'.eq_write hwrite
          cases hf
          exact .sendsVerdict hwrite hauth hrejected hwb hroom hsent hlog hcall
            hout
      | ended hend _ _ => rcases hend with hend | hend <;> cases hend
    · rw [hs] at hgate hf hout
      cases hgate with
      | opened hreg hauth hlog hrej =>
          have hserves := (adminRequest_serves hreg hf hcall).2.1
          exact ⟨hserves.trans htable,
            .servesCommands hreg hauth hlog hrej hf hcall hout⟩
      | ended hend _ _ => rcases hend with hend | hend <;> cases hend
    all_goals
      rw [hs] at hf
      cases r <;> cases hf
  refine ⟨hout.keepsTable hboth.1, .inr ?_, ?_⟩
  · rw [hcurrent, hstate]
  · rw [AdminConfig.found_of_current hcurrent, hstate]
    exact hboth.2

/-- What happens elsewhere in the server. -/
theorem AdminGate.others {sel : FdSelector} {g : Globals}
    (h : AdminGate table s w)
    (hsel : sel.interest? w.fd = w.selector.interest? w.fd) :
    AdminGate table s { w with selector := sel, globals := g } := by
  cases h with
  | waiting hread hlive hafter hrb hwb hroom hsent hlog =>
      exact .waiting (hsel.trans hread) hlive hafter hrb hwb hroom hsent hlog
  | judged hwrite hauth hrejected hwb hroom hsent hlog =>
      exact .judged (hsel.trans hwrite) hauth hrejected hwb hroom hsent hlog
  | opened hreg hauth hlog hrej =>
      refine .opened ?_ hauth hlog hrej
      change sel.interest? w.fd ≠ none
      rw [hsel]
      exact hreg
  | ended hend hlog hrej => exact .ended hend hlog hrej

theorem AdminConfig.Gated.step {c c' : AdminConfig}
    {e : AdminConnectionEvent} (hc : c.Gated table)
    (h : AdminConnectionStep c e c') : c'.Gated table := by
  cases h with
  | dispatch _ hands hdispatch => exact hc.dispatched hands hdispatch
  | @others sel g hsel hg =>
      refine ⟨hg.trans hc.table_eq, hc.current, ?_⟩
      have hsel' : sel.interest? c.found.fd =
          c.found.selector.interest? c.found.fd := by
        rw [c.found_eq.1, c.found_eq.2.1]
        exact hsel
      have hothers := hc.gate.others (g := g) hsel'
      have hfound : AdminConfig.found
          ⟨c.stm, { c.world with selector := sel, globals := g }⟩ =
            { c.found with selector := sel, globals := g } := by
        unfold AdminConfig.found
        cases c.stm.current <;> rfl
      rw [hfound]
      exact hothers

theorem AdminInitial.gated {c : AdminConfig} (h : AdminInitial c) :
    c.Gated c.world.globals.parameters.admin := by
  obtain ⟨fd, sel, g, rfl, hsel⟩ := h
  refine ⟨rfl, .inl rfl, ?_⟩
  refine .waiting hsel rfl (adminAuthParserInit_after _) rfl rfl ?_ rfl ?_
  · change 0 < maxBuffSize
    decide
  · intro call hcall
    cases hcall

theorem AdminInitial.run_gated {c₀ c : AdminConfig}
    {tr : List (AdminConfig × AdminConnectionEvent)} (h : AdminInitial c₀)
    (hrun : Run AdminConnectionStep c₀ tr c) :
    c.Gated c₀.world.globals.parameters.admin :=
  hrun.invariant h.gated fun _ _ _ hc hstep => hc.step hstep

/-! ## The gate -/

/-- The connection has been refused: one code other than that of success was
sent, or none could be, and no command has been served. -/
def AdminConfig.Refused (c : AdminConfig) : Prop :=
  Unserved c.world.log ∧
    (c.state = .error ∧ adminSent .auth c.world.log = [] ∨
      c.state = .done ∧ ∃ b, b ≠ 0 ∧ adminSent .auth c.world.log = [b])

/-- The connection is about to be refused: it only waits to write, and when it
is told that it can, the code is sent unless `send` fails. -/
def AdminConfig.Refuses (c : AdminConfig) : Prop :=
  c.world.selector.interest? c.world.fd = some .write ∧
    Unserved c.world.log ∧ adminSent .auth c.world.log = [] ∧
    ∀ sys, ∃ c', adminDispatch .write sys c = .ok c' ∧ c'.Refused ∧
      (c'.state = .error → sys.send = .failed)

/-- A verdict against the administrator is sent with the next event. -/
theorem AdminConfig.Gated.refuses {c : AdminConfig} (hc : c.Gated table)
    (hrej : Rejected table (adminReceived .auth c.world.log)) :
    c.Refuses ∨ c.Refused := by
  have hgate := hc.gate
  obtain ⟨hfd, hselector, -, hlog⟩ := c.found_eq
  rw [← hlog] at hrej
  rcases hs : c.state with _ | _ | _ | _
  · left
    rw [hs] at hgate
    cases hgate with
    | waiting hread hlive hafter hrb hwb hroom hsent hquiet =>
        have hincomplete := hafter.incomplete hlive
        rcases hrej with hbad | ⟨u, p, hcred, -⟩
        · rw [hincomplete] at hbad
          cases hbad
        · rw [hincomplete] at hcred
          cases hcred
    | judged hwrite hauth hrejected hwb hroom hsent hquiet =>
        refine ⟨by rw [← hfd, ← hselector]; exact hwrite,
          by rw [← hlog]; exact hquiet, by rw [← hlog]; exact hsent, ?_⟩
        intro sys
        have hreg := AdminWorld.registered_of_interest hwrite
        obtain ⟨ret, w, hcall, hreg'⟩ := exists_adminAuthWrite sys hreg hwb hroom
        have hf : adminOnReady sys c.state .write = some (adminAuthWrite sys) := by
          rw [hs]
          rfl
        obtain ⟨c', hc'⟩ := exists_adminDispatch hc.current hf hcall hreg'
        refine ⟨c', hc', ?_⟩
        obtain ⟨f, ret', w', hf', hcall', hout, hstate, -⟩ :=
          adminDispatch_cases hc'
        rw [hf] at hf'
        cases hf'
        rw [hs] at hout
        have hgate' := AdminGate.sendsVerdict hwrite hauth hrejected hwb hroom
          hsent hquiet hcall' hout
        have hsame : adminReceived .auth c'.world.log =
            adminReceived .auth c.found.log := by
          have hlog' : ∃ bs, c'.world.log = c.found.log ++ [.send .auth bs] := by
            rw [hout.log_eq]
            rcases adminAuthWrite_cases hreg hwb hroom hcall' with
              ⟨-, -, rfl⟩ | ⟨-, wb, sel, -, rfl⟩
            · exact ⟨[], rfl⟩
            · exact ⟨_, rfl⟩
          obtain ⟨bs, hlog'⟩ := hlog'
          rw [hlog', adminReceived_append]
          exact List.append_nil _
        rw [← hsame] at hrej
        rcases adminAuthWrite_cases hreg hwb hroom hcall' with
          ⟨rfl, hfailed, -⟩ | ⟨hret, -⟩
        · refine ⟨?_, fun _ => hfailed⟩
          cases hgate' with
          | ended _ _ hrefused =>
              unfold AdminConfig.Refused
              rw [hstate]
              exact hrefused hrej
        · have hbad : c.found.admin.authParser.ret ≠ adminAuthSuccess := by
            have hrej₀ : Rejected table (adminReceived .auth c.found.log) := by
              rw [← hsame]
              exact hrej
            rcases hrejected hrej₀ with hret | hret <;> rw [hret] <;> decide
          rw [if_neg hbad] at hret
          subst hret
          refine ⟨?_, fun herror => ?_⟩
          · cases hgate' with
            | ended _ _ hrefused =>
                unfold AdminConfig.Refused
                rw [hstate]
                exact hrefused hrej
          · rw [hstate] at herror
            cases herror
    | ended hend _ _ => rcases hend with hend | hend <;> cases hend
  · rw [hs] at hgate
    cases hgate with
    | opened _ _ _ hnot => exact absurd hrej hnot
    | ended hend _ _ => rcases hend with hend | hend <;> cases hend
  all_goals
    right
    rw [hs] at hgate
    cases hgate with
    | ended _ _ hrefused =>
        unfold AdminConfig.Refused
        rw [hs, ← hlog]
        exact hrefused hrej

/-- Commands are served only after the administrator has been authenticated
with the first message, and a first message that is rejected is answered by a
code of failure and the end of the connection. -/
theorem admin_gate {c₀ c : AdminConfig}
    {tr : List (AdminConfig × AdminConnectionEvent)} (h₀ : AdminInitial c₀)
    (hrun : Run AdminConnectionStep c₀ tr c) :
    Guarded c.world.log ∧
      (c.state = .request → Authorised c.world.log) ∧
      (Rejected c₀.world.globals.parameters.admin
        (adminReceived .auth c.world.log) → c.Refuses ∨ c.Refused) := by
  have hc := h₀.run_gated hrun
  obtain ⟨-, -, -, hlog⟩ := c.found_eq
  have hgate := hc.gate
  rw [← hlog]
  refine ⟨hgate.guarded, ?_, ?_⟩
  · intro hs
    rw [hs] at hgate
    cases hgate with
    | opened _ hauth _ _ => exact hauth
    | ended hend _ _ => rcases hend with hend | hend <;> cases hend
  · rw [hlog]
    exact hc.refuses

/-- An administrator who has been let in. -/
theorem admin_gate_opened : ∃ c, adminPlay loneAdminConnection authentication =
    some c ∧ c.state = .request ∧ Guarded c.world.log ∧
      Authorised c.world.log := by
  have hinit : AdminInitial loneAdminConnection := ⟨5, _, _, rfl, by decide⟩
  have hplay : (adminPlay loneAdminConnection authentication).map
      AdminConfig.state = some .request := by
    decide
  obtain ⟨c, hc, hstate⟩ := Option.map_eq_some_iff.mp hplay
  obtain ⟨tr, hrun⟩ := adminPlay_run hc
  obtain ⟨hguarded, hauth, -⟩ := admin_gate hinit hrun
  exact ⟨c, hc, hstate, hguarded, hauth hstate⟩

end Socksv5
