import Socksv5.Admin.Gate
import Socksv5.Client.Credentials

/-!
# The login of an administrator

The client and a connection of the server, with the bytes in flight between
them.  The client writes its credentials, waits for the code, and writes
commands only then; the newline that it has written after the password is no
part of the message that the server expects.  It is dropped with the buffer if
it has arrived with the end of the password, and otherwise it is the first byte
that the server takes for a command.
-/

namespace Socksv5

open Support

/-- What has been received, in order. -/
def adminInput (log : List AdminCall) : List UInt8 :=
  log.flatMap fun call =>
    match call with
    | .recv _ bs => bs
    | _ => []

/-- A connection of the client, with what the client has written for its
commands and what the server's parser of commands has read. -/
structure LoginSystem where
  server : AdminConfig
  inFlight : List UInt8
  commands : List UInt8 := []
  parsed : List UInt8 := []

/-- What the parser of commands reads at an event in which `bs` is received:
what `admin_consume_req_buffer` takes out of the read buffer. -/
def commandBytes (c c' : AdminConfig) (bs : List UInt8) : List UInt8 :=
  if c.state = .request then
    let unread := c.world.admin.readBuffer.pending ++ bs
    unread.take (unread.length - c'.world.admin.readBuffer.pending.length)
  else []

/-- The system after an event of the server that has taken `bs` from what was in
flight. -/
def LoginSystem.took (s : LoginSystem) (c : AdminConfig) (bs rest : List UInt8) :
    LoginSystem where
  server := c
  inFlight := rest
  commands := s.commands
  parsed := s.parsed ++ commandBytes s.server c bs

/-- What can happen: an event of the server, with what it receives, or the
client writes. -/
inductive LoginEvent
  | server (e : AdminConnectionEvent) (bs : List UInt8)
  | client (bs : List UInt8)

/-- A step.  What the server receives is taken from what is in flight; the
client writes commands after it has received the code of success. -/
inductive LoginStep : LoginSystem → LoginEvent → LoginSystem → Prop
  | server {s : LoginSystem} {e : AdminConnectionEvent} {c : AdminConfig}
      {bs rest : List UInt8} : AdminConnectionStep s.server e c →
      adminInput c.world.log = adminInput s.server.world.log ++ bs →
      s.inFlight = bs ++ rest →
      LoginStep s (.server e bs) (s.took c bs rest)
  | client {s : LoginSystem} {bs : List UInt8} :
      adminSent .auth s.server.world.log = [UInt8.ofInt adminAuthSuccess] →
      LoginStep s (.client bs) { s with
        inFlight := s.inFlight ++ bs, commands := s.commands ++ bs }

/-- The client has written `message` to a connection that has just been
accepted. -/
def LoginInitial (message : List UInt8) (s : LoginSystem) : Prop :=
  AdminInitial s.server ∧ s.inFlight = message ∧ s.commands = [] ∧ s.parsed = []

/-- The message of the administrator has ended. -/
def AdminConfig.HasVerdict (c : AdminConfig) : Prop :=
  c.state = .request ∨ c.state = .done ∨
    c.state = .auth ∧ c.world.selector.interest? c.world.fd = some .write

/-- The client and the server agree on what the message is: the server decodes
the name and the password; what it receives after them are the commands; and
its parser of commands reads these, from their first byte on, and nothing
else. -/
structure LoginAgrees (name pass message : List UInt8) (s : LoginSystem) :
    Prop where
  decoded : ∀ u p ok, .authenticate u p ok ∈ s.server.world.log →
    u = name ++ [0] ∧ p = pass ++ [0]
  judged : s.server.HasVerdict →
    ∃ ok, .authenticate (name ++ [0]) (pass ++ [0]) ok ∈ s.server.world.log
  commands : adminReceived .request s.server.world.log ≠ [] →
    adminReceived .auth s.server.world.log = message ∧
      adminReceived .request s.server.world.log <+: s.commands
  parsed : s.parsed <+: s.commands
  unread : s.server.state = .request →
    s.parsed ++ s.server.world.admin.readBuffer.pending =
      adminReceived .request s.server.world.log

/-- How many of the bytes of the message from `k` on, for `n` bytes, are
lengths. -/
def lengthBytes (name : List UInt8) (k n : ℕ) : ℕ :=
  (if k = 0 ∧ 0 < n then 1 else 0) +
    if k ≤ name.length + 1 ∧ name.length + 1 < k + n then 1 else 0

/-- The condition on a step: there is memory for the fields whose lengths are
received, and the whole message is received before anything is received in
`ADMIN_REQUEST`. -/
def KeepsLoginApart (name message : List UInt8) (s : LoginSystem) :
    LoginEvent → Prop
  | .server (.dispatch _ sys) bs =>
      match s.server.state with
      | .auth => false ∉ sys.allocs.take (lengthBytes name
          (adminReceived .auth s.server.world.log).length bs.length)
      | .request => bs = [] ∨ adminReceived .auth s.server.world.log = message
      | _ => True
  | _ => True

/-! ## What the parser has read -/

theorem lengthBytes_zero (name : List UInt8) (k : ℕ) :
    lengthBytes name k 0 = 0 := by
  rw [lengthBytes, if_neg (by omega), if_neg (by omega)]

theorem lengthBytes_succ (name : List UInt8) (k n : ℕ) :
    lengthBytes name k (n + 1) = lengthBytes name k n +
      if k + n = 0 ∨ k + n = name.length + 1 then 1 else 0 := by
  unfold lengthBytes
  split <;> split <;> split <;> split <;> split <;> omega

theorem lengthBytes_mono (name : List UInt8) (k : ℕ) {m n : ℕ} (h : m ≤ n) :
    lengthBytes name k m ≤ lengthBytes name k n := by
  unfold lengthBytes
  split <;> split <;> split <;> split <;> omega

theorem lengthBytes_eq {name : List UInt8} {k m n : ℕ}
    (hpast : name.length + 1 < k + m) (h : m ≤ n) :
    lengthBytes name k m = lengthBytes name k n := by
  unfold lengthBytes
  split <;> split <;> split <;> split <;> omega

/-- The parser is at the length of a field. -/
def AdminAuthState.atLength : AdminAuthState → Bool
  | .readingUserLen | .readingPassLen => true
  | _ => false

/-- With the allocations that it makes, the parser does what it does with all
the memory there can be, or it stops. -/
theorem adminAuthParserFeed_allocs {c : UInt8} {p p' : AdminAuthParser}
    {a a' : Allocs} {k : ℕ} (hk : k = if p.state.atLength then 1 else 0)
    (hc : p.state.atLength = true → c ≠ 0)
    (h : adminAuthParserFeed c (p, a) = .ok (p', a')) :
    (false ∉ a.take k ∧ a' = a.drop k ∧
        adminAuthParserFeed c (p, []) = .ok (p', [])) ∨
      (false ∈ a.take k ∧ p'.state = .badSyntax) := by
  have hempty : calloc (c.toNat + 1) [] =
      (some (List.replicate (c.toNat + 1) 0), []) := rfl
  cases hstate : p.state with
  | readingUserLen | readingPassLen =>
      rw [hstate] at hk hc
      have hk' : k = 1 := hk
      subst hk'
      simp only [adminAuthParserFeed, hstate] at h ⊢
      rw [if_neg (hc rfl)] at h ⊢
      rcases a with - | ⟨_ | _, a⟩
      · left
        cases h
        exact ⟨by simp, rfl, rfl⟩
      · right
        cases h
        exact ⟨by simp, rfl⟩
      · left
        cases h
        exact ⟨by simp, rfl, rfl⟩
  | readingUser | readingPass =>
      left
      rw [hstate] at hk
      have hk' : k = 0 := hk
      subst hk'
      simp only [adminAuthParserFeed, hstate] at h ⊢
      obtain ⟨block, hput, h⟩ := bind_eq_ok.mp h
      rw [hput, ok_bind]
      split at h
      case isTrue hend =>
        obtain ⟨block', hput', h⟩ := bind_eq_ok.mp h
        cases h
        rw [if_pos hend, hput', ok_bind]
        exact ⟨by simp, rfl, rfl⟩
      case isFalse hend =>
        cases h
        rw [if_neg hend]
        exact ⟨by simp, rfl, rfl⟩
  | done | badSyntax =>
      left
      rw [hstate] at hk
      have hk' : k = 0 := hk
      subst hk'
      simp only [adminAuthParserFeed, hstate] at h ⊢
      cases h
      exact ⟨by simp, rfl, rfl⟩

/-- Where the lengths are. -/
theorem AdminAuthParser.After.atLength_iff {p : AdminAuthParser}
    {name xs tail : List UInt8} (h : p.After xs)
    (hlive : p.state.final = false) (hname : FieldLength name)
    (hxs : xs <+: lengthByte name :: tail) :
    p.state.atLength = true ↔
      xs.length = 0 ∨ xs.length = name.length + 1 := by
  obtain ⟨q, hversion, hafter, hpq⟩ := h
  have hstate : p.state = q.state.toAdmin := congrArg AdminAuthParser.state hpq
  have hlen := length_eq_lengthByte hname
  rw [hstate] at hlive ⊢
  rw [AuthState.final_toAdmin] at hlive
  unfold AuthParser.After at hafter
  cases hs : q.state with
  | readingVersion => exact absurd hs hversion
  | readingUserLen =>
      simp only [hs] at hafter
      obtain ⟨hnil, -⟩ := hafter
      cases hnil
      exact ⟨fun _ => .inl rfl, fun _ => rfl⟩
  | readingUser =>
      simp only [hs] at hafter
      obtain ⟨u, hu, k, hn, -, -⟩ := hafter
      cases hu
      rw [(List.cons_prefix_cons.mp hxs).1] at hn
      refine iff_of_false Bool.false_ne_true ?_
      rw [List.length_cons]
      omega
  | readingPassLen =>
      simp only [hs] at hafter
      obtain ⟨u, hu, hfield, -⟩ := hafter
      cases hu
      have hlen' := length_eq_lengthByte hfield
      rw [(List.cons_prefix_cons.mp hxs).1] at hlen'
      refine iff_of_true rfl ?_
      rw [List.length_cons]
      omega
  | readingPass =>
      simp only [hs] at hafter
      obtain ⟨u, w, hu, hfield, -, -⟩ := hafter
      cases hu
      have hlen' := length_eq_lengthByte hfield
      rw [(List.cons_prefix_cons.mp hxs).1] at hlen'
      refine iff_of_false Bool.false_ne_true ?_
      rw [List.append_eq, List.length_append, List.length_cons, List.length_cons]
      omega
  | badLength | done | unsupportedVersion | badSyntax =>
      simp [hs, AuthState.final] at hlive

/-- A length is that of a field. -/
theorem length_ne_zero_in_message {name pass xs tail : List UInt8} {c : UInt8}
    (hname : FieldLength name) (hpass : FieldLength pass)
    (hxs : xs ++ [c] <+: adminCredentialsMessage name pass ++ tail)
    (hlen : xs.length = 0 ∨ xs.length = name.length + 1) : c ≠ 0 := by
  obtain ⟨ys, hys⟩ := hxs
  have hc : (adminCredentialsMessage name pass ++ tail)[xs.length]? = some c := by
    rw [← hys]
    simp
  have hmessage : adminCredentialsMessage name pass ++ tail =
      (lengthByte name :: name) ++ lengthByte pass :: (pass ++ tail) := by
    simp [adminCredentialsMessage]
  rw [hmessage] at hc
  rcases hlen with hlen | hlen
  · rw [hlen] at hc
    cases hc
    exact lengthByte_ne_zero hname
  · rw [hlen, List.getElem?_append_right (by simp)] at hc
    simp only [List.length_cons, Nat.sub_self, List.getElem?_cons_zero] at hc
    cases hc
    exact lengthByte_ne_zero hpass

/-- What is read of the message: with memory for the fields, what would be read
with all the memory there can be. -/
theorem adminAuth_reads_allocs {name pass tail r xs : List UInt8}
    {p p' : AdminAuthParser} {a a' : Allocs} (hname : FieldLength name)
    (hpass : FieldLength pass) (hp : p.After r)
    (hmessage : r ++ xs <+: adminCredentialsMessage name pass ++ tail)
    (h : Reads adminAuthParserFeed adminAuthFinal (p, a) xs (p', a')) :
    (false ∉ a.take (lengthBytes name r.length xs.length) ∧
        Reads adminAuthParserFeed adminAuthFinal (p, []) xs (p', [])) ∨
      (false ∈ a.take (lengthBytes name r.length xs.length) ∧
        p'.state = .badSyntax) := by
  have hinv : r ++ xs <+: adminCredentialsMessage name pass ++ tail →
      p'.After (r ++ xs) ∧
        ((false ∉ a.take (lengthBytes name r.length xs.length) ∧
            a' = a.drop (lengthBytes name r.length xs.length) ∧
            Reads adminAuthParserFeed adminAuthFinal (p, []) xs (p', [])) ∨
          (false ∈ a.take (lengthBytes name r.length xs.length) ∧
            p'.state = .badSyntax)) := by
    refine h.invariant (I := fun xs s =>
      r ++ xs <+: adminCredentialsMessage name pass ++ tail →
      s.1.After (r ++ xs) ∧
        ((false ∉ a.take (lengthBytes name r.length xs.length) ∧
            s.2 = a.drop (lengthBytes name r.length xs.length) ∧
            Reads adminAuthParserFeed adminAuthFinal (p, []) xs (s.1, [])) ∨
          (false ∈ a.take (lengthBytes name r.length xs.length) ∧
            s.1.state = .badSyntax))) ?_ ?_
    · intro _
      rw [List.length_nil, lengthBytes_zero, List.append_nil]
      exact ⟨hp, .inl ⟨by simp, rfl, .nil⟩⟩
    · rintro xs c ⟨p₁, a₁⟩ ⟨p₂, a₂⟩ ih hlive hfeed hpre
      rw [← List.append_assoc] at hpre ⊢
      have hpre₁ : r ++ xs <+: adminCredentialsMessage name pass ++ tail :=
        (List.prefix_append _ _).trans hpre
      obtain ⟨hafter, hread⟩ := ih hpre₁
      refine ⟨adminAuthParserFeed_after hafter hlive hfeed, ?_⟩
      have hat := hafter.atLength_iff hlive hname hpre₁
      rw [List.length_append] at hat
      rcases hread with ⟨hmem, rfl, hreads⟩ | ⟨-, hbad⟩
      · rw [List.length_append, List.length_singleton, lengthBytes_succ,
          List.take_add, ← List.drop_drop, List.mem_append]
        have hfed := adminAuthParserFeed_allocs (k := if r.length + xs.length = 0 ∨
            r.length + xs.length = name.length + 1 then 1 else 0)
          (by simp only [hat]) (fun hlength => length_ne_zero_in_message hname hpass hpre
            (by rw [List.length_append]; exact hat.mp hlength)) hfeed
        rcases hfed with ⟨hmem', rfl, hfeed'⟩ | ⟨hmem', hbad⟩
        · exact .inl ⟨fun hor => hor.elim hmem hmem', rfl,
            .snoc hreads hlive hfeed'⟩
        · exact .inr ⟨.inr hmem', hbad⟩
      · have hfinal : p₁.state.final = false := hlive
        rw [show p₁.state = .badSyntax from hbad] at hfinal
        cases hfinal
  rcases (hinv hmessage).2 with ⟨hmem, -, hreads⟩ | hbad
  · exact .inl ⟨hmem, hreads⟩
  · exact .inr hbad

/-- The parser of a connection before anything has been received. -/
def freshAuthParser : AdminAuthParser := adminAuthParserInit {}

/-- Where the parser stops, the credentials have been read. -/
theorem adminAuth_reads_message {name pass tail r : List UInt8}
    {p : AdminAuthParser} (hname : FieldLength name) (hpass : FieldLength pass)
    (hmessage : r <+: adminCredentialsMessage name pass ++ tail)
    (h : Reads adminAuthParserFeed adminAuthFinal (freshAuthParser, []) r
      (p, [])) :
    (p.state.final = true ∧ r = adminCredentialsMessage name pass ∧
        p.state = .done ∧ p.user = some (name ++ [0]) ∧
        p.password = some (pass ++ [0])) ∨
      (p.state.final = false ∧
        r.length < (adminCredentialsMessage name pass).length) := by
  obtain ⟨ys, hys⟩ := hmessage
  obtain ⟨⟨q, a⟩, rest, hdecode, hend⟩ :=
    decode_adminCredentials {} hname hpass tail []
  rcases hend with ⟨hmem, -⟩ | ⟨-, hdone, huser, hpassword, rfl⟩
  · exact absurd hmem (by decide)
  · have happend := h.decode_append rfl ys
    rw [hys] at happend
    have heq := happend.symm.trans hdecode
    by_cases hfinal : p.state.final = true
    · left
      rw [if_pos hfinal] at heq
      cases heq
      exact ⟨hfinal, List.append_cancel_right hys, hdone, huser, hpassword⟩
    · right
      rw [if_neg hfinal] at heq
      rw [Bool.not_eq_true] at hfinal
      have hlive : adminAuthFinal (p, []) = false := hfinal
      obtain ⟨used, rfl, hreads, -⟩ := decode_reads hlive heq
      refine ⟨hfinal, ?_⟩
      rw [← List.append_assoc] at hys
      rw [← List.append_cancel_right hys, List.length_append]
      have hne : used ≠ [] := by
        rintro rfl
        cases hreads.eq_of_nil
        rw [show p.state = .done from hdone] at hfinal
        cases hfinal
      have hpos := List.length_pos_iff.mpr hne
      omega

/-! ## The run -/

theorem adminInput_append (log calls : List AdminCall) :
    adminInput (log ++ calls) = adminInput log ++ adminInput calls :=
  List.flatMap_append

theorem adminInput_of_serves {calls : List AdminCall}
    (h : ∀ call ∈ calls, call.serves = true) :
    adminInput calls = adminReceived .request calls := by
  apply List.flatMap_congr
  intro call hcall
  have hserves := h call hcall
  cases call with
  | recv s bs =>
      have hs : s = .request := of_decide_eq_true hserves
      subst hs
      rfl
  | send | authenticate | perform => rfl

/-- The credentials, and nothing else, have been decoded; the newline may have
been received with them. -/
structure LoginDecoded (name pass : List UInt8) (log : List AdminCall) :
    Prop where
  authenticated : ∃ ok, .authenticate (name ++ [0]) (pass ++ [0]) ok ∈ log
  only : ∀ u p ok, .authenticate u p ok ∈ log →
    u = name ++ [0] ∧ p = pass ++ [0]
  message : adminReceived .auth log = adminCredentialsMessage name pass ∨
    adminReceived .auth log = adminCredentialsMessage name pass ++ [10]

/-- No credentials have been judged. -/
def Undecided (log : List AdminCall) : Prop :=
  ∀ u p ok, .authenticate u p ok ∉ log

/-- How far the login has got. -/
inductive LoginPhase (name pass : List UInt8) : AdminState → AdminWorld → Prop
  /-- The message has not ended. -/
  | waiting {w : AdminWorld} : w.selector.interest? w.fd = some .read →
      w.admin.authParser.state.final = false →
      Reads adminAuthParserFeed adminAuthFinal (freshAuthParser, [])
        (adminReceived .auth w.log) (w.admin.authParser, []) →
      w.admin.readBuffer.pending = [] → w.admin.writeBuffer.pending = [] →
      0 < w.admin.writeBuffer.room → adminSent .auth w.log = [] →
      Undecided w.log → adminReceived .request w.log = [] →
      LoginPhase name pass .auth w
  /-- The code is to be sent. -/
  | judged {w : AdminWorld} : w.selector.interest? w.fd = some .write →
      w.admin.writeBuffer.pending = [] → 0 < w.admin.writeBuffer.room →
      adminSent .auth w.log = [] → LoginDecoded name pass w.log →
      adminReceived .request w.log = [] → LoginPhase name pass .auth w
  /-- The administrator has been let in. -/
  | opened {w : AdminWorld} : w.selector.Registered w.fd →
      LoginDecoded name pass w.log →
      (adminReceived .request w.log ≠ [] → adminReceived .auth w.log =
        adminCredentialsMessage name pass ++ [10]) →
      LoginPhase name pass .request w
  /-- The connection has ended. -/
  | ended {s : AdminState} {w : AdminWorld} :
      s = .error ∧ Undecided w.log ∨
        (s = .done ∨ s = .error) ∧ LoginDecoded name pass w.log →
      (adminReceived .request w.log ≠ [] → adminReceived .auth w.log =
        adminCredentialsMessage name pass ++ [10]) →
      LoginPhase name pass s w

variable {name pass : List UInt8} {sys : AdminSys} {ret : AdminState}
  {w w' w'' : AdminWorld} {bs : List UInt8}

/-- What a read of the message leads to: the message is read, or there is no
memory for one of the fields. -/
theorem LoginPhase.readsMessage (hname : FieldLength name)
    (hpass : FieldLength pass)
    (hread : w.selector.interest? w.fd = some .read)
    (hlive : w.admin.authParser.state.final = false)
    (hreads : Reads adminAuthParserFeed adminAuthFinal (freshAuthParser, [])
      (adminReceived .auth w.log) (w.admin.authParser, []))
    (hrb : w.admin.readBuffer.pending = [])
    (hwb : w.admin.writeBuffer.pending = [])
    (hroom : 0 < w.admin.writeBuffer.room)
    (hsent : adminSent .auth w.log = []) (hlog : Undecided w.log)
    (hnone : adminReceived .request w.log = [])
    (hinput : adminInput w''.log = adminInput w.log ++ bs)
    (hmessage : adminReceived .auth w.log ++ bs <+:
      adminCredentialsMessage name pass ++ [10])
    (h : adminAuthRead sys w = .ok (ret, w'))
    (hout : AdminOutcome .auth ret w' w'') :
    (false ∉ sys.allocs.take (lengthBytes name
        (adminReceived .auth w.log).length bs.length) ∧
      LoginPhase name pass ret w'' ∧
      adminReceived .auth w''.log = adminReceived .auth w.log ++ bs ∧
      adminReceived .request w''.log = [] ∧ adminSent .auth w''.log = []) ∨
    (false ∈ sys.allocs.take (lengthBytes name
        (adminReceived .auth w.log).length bs.length) ∧
      ret = .auth ∧ w''.selector.interest? w''.fd = some .write ∧
      Undecided w''.log) := by
  have hreg := AdminWorld.registered_of_interest hread
  have hreceived : ∀ xs, adminReceived .auth (w.log ++ [.recv .auth xs]) =
      adminReceived .auth w.log ++ xs := by
    intro xs
    rw [adminReceived_append]
    exact congrArg _ (List.append_nil xs)
  have hnone' : ∀ xs, adminReceived .request (w.log ++ [.recv .auth xs]) = [] := by
    intro xs
    rw [adminReceived_append, hnone]
    rfl
  have hsent' : ∀ xs, adminSent .auth (w.log ++ [.recv .auth xs]) = [] := by
    intro xs
    rw [adminSent_append, hsent]
    rfl
  have hlog' : ∀ xs, Undecided (w.log ++ [.recv .auth xs]) := by
    intro xs u p ok hmem
    rcases List.mem_append.mp hmem with hmem | hmem
    · exact hlog u p ok hmem
    · cases List.mem_singleton.mp hmem
  have hsame : ∀ {xs : List UInt8} {log : List AdminCall},
      log = w.log ++ [.recv .auth xs] → adminInput log = adminInput w.log ++ bs →
      xs = bs := by
    rintro xs log rfl hboth
    rw [adminInput_append] at hboth
    have hxs := List.append_cancel_left hboth
    rw [← hxs]
    exact (List.append_nil xs).symm
  rcases adminAuthRead_cases hreg hlive h with ⟨rfl, rfl⟩ |
    ⟨xs, used, rb, parser, a, rfl, -, hused, hparse, hend⟩
  · left
    obtain ⟨sel, rfl⟩ := hout.failed (.inl rfl)
    obtain rfl := hsame rfl hinput
    rw [List.length_nil, lengthBytes_zero]
    refine ⟨by simp, .ended (.inl ⟨rfl, hlog' []⟩) ?_, hreceived [], hnone' [],
      hsent' []⟩
    intro hne
    exact absurd (hnone' []) hne
  · rw [hrb, List.nil_append] at hused
    obtain rfl := hout.eq_of_stays (.inl rfl)
    have hcalls : ∃ calls, w''.log = w.log ++ [.recv .auth xs] ++ calls ∧
        adminInput calls = [] := by
      rcases hend with ⟨-, -, rfl⟩ | ⟨-, w₁, sel, hjudge, -, rfl⟩
      · exact ⟨[], (List.append_nil _).symm, rfl⟩
      · rcases judge_cases hjudge with ⟨-, u, p, -, -, ok, -, rfl⟩ | ⟨-, rfl⟩
        · exact ⟨[.authenticate u p ok], rfl, rfl⟩
        · exact ⟨[], (List.append_nil _).symm, rfl⟩
    obtain rfl : xs = bs := by
      obtain ⟨calls, hcalls, hquiet⟩ := hcalls
      rw [hcalls, adminInput_append, hquiet, List.append_nil] at hinput
      exact hsame rfl hinput
    have hle : used.length ≤ xs.length := by
      rw [hused, List.length_append]
      omega
    have hmessage' : adminReceived .auth w.log ++ used <+:
        adminCredentialsMessage name pass ++ [10] := by
      refine List.IsPrefix.trans ?_ hmessage
      rw [hused, ← List.append_assoc]
      exact List.prefix_append _ _
    have hafter : w.admin.authParser.After (adminReceived .auth w.log) :=
      adminAuth_reads_after (adminAuthParserInit_after {}) hreads
    rcases adminAuth_reads_allocs hname hpass hafter hmessage' hparse with
      ⟨hmem, hplain⟩ | ⟨hmem, hbad⟩
    · left
      rcases adminAuth_reads_message hname hpass hmessage' (hreads.trans hplain)
        with ⟨hfinal, hall, hdone, huser, hpassword⟩ | ⟨hlive', hshort⟩
      · rcases hend with ⟨hlive', -, -⟩ | ⟨-, w₁, sel, hjudge, hsel, rfl⟩
        · rw [hfinal] at hlive'
          cases hlive'
        have hpast : name.length + 1 <
            (adminReceived .auth w.log).length + used.length := by
          rw [← List.length_append, hall]
          simp only [adminCredentialsMessage, List.cons_append, List.length_cons,
            List.length_append]
          omega
        rw [← lengthBytes_eq hpast hle]
        refine ⟨hmem, ?_⟩
        rcases judge_cases hjudge with ⟨-, u, p, hu, hp, ok, -, rfl⟩ | ⟨hnot, -⟩
        · rw [show parser.user = some u from hu, Option.some.injEq] at huser
          rw [show parser.password = some p from hp, Option.some.injEq]
            at hpassword
          subst huser hpassword
          have hall' : adminReceived .auth (w.log ++ [.recv .auth xs] ++
              [.authenticate (name ++ [0]) (pass ++ [0]) ok]) =
                adminReceived .auth w.log ++ xs := by
            rw [adminReceived_append, hreceived]
            exact List.append_nil _
          have hnone'' : adminReceived .request (w.log ++ [.recv .auth xs] ++
              [.authenticate (name ++ [0]) (pass ++ [0]) ok]) = [] := by
            rw [adminReceived_append, hnone']
            rfl
          have hsent'' : adminSent .auth (w.log ++ [.recv .auth xs] ++
              [.authenticate (name ++ [0]) (pass ++ [0]) ok]) = [] := by
            rw [adminSent_append, hsent']
            rfl
          refine ⟨.judged hsel hwb hroom hsent'' ⟨?_, ?_, ?_⟩ hnone'', hall',
            hnone'', hsent''⟩
          · exact ⟨ok, List.mem_append_right _ (List.mem_singleton_self _)⟩
          · intro u p ok' hmem'
            rcases List.mem_append.mp hmem' with hmem' | hmem'
            · exact absurd hmem' (hlog' xs u p ok')
            · cases List.mem_singleton.mp hmem'
              exact ⟨rfl, rfl⟩
          · refine Or.imp hall'.trans hall'.trans ?_
            rcases List.prefix_concat_iff.mp hmessage with heq | hpre
            · exact .inr heq
            · left
              refine hpre.eq_of_length_le ?_
              rw [← hall, List.length_append, List.length_append]
              omega
        · exact absurd hdone hnot
      · rcases hend with ⟨-, hnil, rfl⟩ | ⟨hfinal, -⟩
        · rw [hnil, List.append_nil] at hused
          subst hused
          refine ⟨hmem, .waiting hread hlive' ?_ hnil hwb hroom (hsent' _)
            (hlog' _) (hnone' _), hreceived _, hnone' _, hsent' _⟩
          change Reads _ _ _ (adminReceived .auth (w.log ++ [.recv .auth xs])) _
          rw [hreceived]
          exact hreads.trans hplain
        · rw [hlive'] at hfinal
          cases hfinal
    · right
      rcases hend with ⟨hlive', -, -⟩ | ⟨-, w₁, sel, hjudge, hsel, rfl⟩
      · rw [hbad] at hlive'
        cases hlive'
      · refine ⟨(List.take_prefix_take_left (lengthBytes_mono name _ hle)).subset
          hmem, rfl, ?_⟩
        rcases judge_cases hjudge with ⟨hdone, -⟩ | ⟨-, rfl⟩
        · rw [show parser.state = .done from hdone] at hbad
          cases hbad
        · exact ⟨hsel, hlog' xs⟩

/-- The write that sends the code. -/
theorem LoginPhase.sendsCode (hwrite : w.selector.interest? w.fd = some .write)
    (hwb : w.admin.writeBuffer.pending = [])
    (hroom : 0 < w.admin.writeBuffer.room)
    (hlog : LoginDecoded name pass w.log)
    (hnone : adminReceived .request w.log = [])
    (h : adminAuthWrite sys w = .ok (ret, w'))
    (hout : AdminOutcome .auth ret w' w'') :
    LoginPhase name pass ret w'' ∧
      (∃ xs, w''.log = w.log ++ [.send .auth xs]) ∧
      (ret = .request → w''.admin.readBuffer.pending = []) := by
  have hreg := AdminWorld.registered_of_interest hwrite
  have hdecoded : ∀ xs, LoginDecoded name pass (w.log ++ [.send .auth xs]) := by
    intro xs
    obtain ⟨ok, hok⟩ := hlog.authenticated
    refine ⟨⟨ok, List.mem_append_left _ hok⟩, ?_, ?_⟩
    · intro u p ok' hmem
      rcases List.mem_append.mp hmem with hmem | hmem
      · exact hlog.only u p ok' hmem
      · cases List.mem_singleton.mp hmem
    · have hsame : adminReceived .auth (w.log ++ [.send .auth xs]) =
          adminReceived .auth w.log := by
        rw [adminReceived_append]
        exact List.append_nil _
      rw [hsame]
      exact hlog.message
  have hnone' : ∀ xs, adminReceived .request (w.log ++ [.send .auth xs]) = [] := by
    intro xs
    rw [adminReceived_append, hnone]
    rfl
  rcases adminAuthWrite_cases hreg hwb hroom h with ⟨rfl, -, rfl⟩ |
    ⟨hret, wb, sel, hsel, rfl⟩
  · obtain ⟨sel, rfl⟩ := hout.failed (.inl rfl)
    refine ⟨.ended (.inr ⟨.inr rfl, hdecoded []⟩) ?_, ⟨[], rfl⟩, ?_⟩
    · exact fun hne => absurd (hnone' []) hne
    · intro hstate
      cases hstate
  · by_cases hok : w.admin.authParser.ret = adminAuthSuccess
    · rw [if_pos hok] at hret
      subst hret
      cases hout with
      | ends hend _ => rcases hend with hend | hend <;> cases hend
      | arrives _ _ _ =>
          refine ⟨.opened ?_ (hdecoded _) ?_, ⟨_, rfl⟩, fun _ => ?_⟩
          · exact AdminWorld.registered_of_interest hsel
          · exact fun hne => absurd (hnone' _) hne
          · exact Buffer.pending_reset _
    · rw [if_neg hok] at hret
      subst hret
      cases hout with
      | arrives _ hne _ => exact absurd rfl hne
      | ends _ hend =>
          obtain ⟨sel', rfl⟩ := endAdmin_eq hend
          refine ⟨.ended (.inr ⟨.inl rfl, hdecoded _⟩) ?_, ⟨_, rfl⟩, ?_⟩
          · exact fun hne => absurd (hnone' _) hne
          · intro hstate
            cases hstate

/-- What serves commands authenticates nobody. -/
theorem LoginDecoded.append {log calls : List AdminCall}
    (h : LoginDecoded name pass log)
    (hcalls : ∀ call ∈ calls, call.serves = true) :
    LoginDecoded name pass (log ++ calls) := by
  obtain ⟨ok, hok⟩ := h.authenticated
  refine ⟨⟨ok, List.mem_append_left _ hok⟩, ?_, ?_⟩
  · intro u p ok' hmem
    rcases List.mem_append.mp hmem with hmem | hmem
    · exact h.only u p ok' hmem
    · cases hcalls _ hmem
  · rw [adminReceived_append, adminReceived_auth_of_serves hcalls,
      List.append_nil]
    exact h.message

/-- What `admin_request_read` takes out of the buffer is what it feeds to the
parser. -/
theorem adminRequestRead_feeds (hreg : w.selector.Registered w.fd)
    (h : adminRequestRead sys w = .ok (ret, w')) :
    ∃ bs used m, w'.log = w.log ++ [.recv .request bs] ∧
      w.admin.readBuffer.pending ++ bs = used ++ w'.admin.readBuffer.pending ∧
      decode adminReqParserFeed reqDone used (w.admin.reqParser, sys.mallocs) =
        .ok ((w'.admin.reqParser, m), []) := by
  rcases adminRequestRead_cases hreg h with ⟨-, rfl⟩ |
    ⟨bs, b, rb, parser, m, sel, -, hrecv, hconsume, -, rfl⟩
  · exact ⟨[], [], sys.mallocs, rfl, List.append_nil _, rfl⟩
  · cases hrecv with
    | data _ _ hpending _ _ hsettled =>
        obtain ⟨hdecode, -⟩ := consume_spec hsettled hconsume
        obtain ⟨used, hused, hfed⟩ := decode_used hdecode
        rw [hpending] at hused
        exact ⟨bs, used, m, rfl, hused, hfed⟩

/-- A callback of `ADMIN_REQUEST` takes bytes out of the buffer in the order in
which they were received. -/
theorem adminRequest_takes {r : Ready} {f : AdminCallback}
    (hreg : w.selector.Registered w.fd)
    (hf : adminOnReady sys .request r = some f) (h : f w = .ok (ret, w')) :
    ∃ calls, w'.log = w.log ++ calls ∧ w'.admin.readBuffer.pending <:+
      w.admin.readBuffer.pending ++ adminReceived .request calls := by
  cases r with
  | read =>
      cases hf
      obtain ⟨bs, used, m, hlog, hused, -⟩ := adminRequestRead_feeds hreg h
      refine ⟨[.recv .request bs], hlog, used, ?_⟩
      have hbs : adminReceived .request [.recv .request bs] = bs :=
        List.append_nil bs
      rw [hbs, hused]
  | write =>
      cases hf
      obtain ⟨wb, parser, g, performed, -, hend⟩ :=
        adminRequestWrite_cases hreg h
      have hfilled : ∀ bs, ∃ calls,
          ((w.filled wb parser g performed).record (.send .request bs)).log =
            w.log ++ calls ∧ adminReceived .request calls = [] := by
        intro bs
        cases performed with
        | none => exact ⟨[.send .request bs], rfl, rfl⟩
        | some command =>
            refine ⟨[.perform command, .send .request bs], ?_, rfl⟩
            exact List.append_assoc w.log [.perform command]
              [.send .request bs]
      have hkept : (w.filled wb parser g performed).admin.readBuffer =
          w.admin.readBuffer := by
        cases performed <;> rfl
      rcases hend with ⟨-, -, rfl⟩ | ⟨bs, wb', -, -, sel, -, rfl⟩
      · obtain ⟨calls, hcalls, hnone⟩ := hfilled []
        refine ⟨calls, hcalls, ?_⟩
        rw [hnone, List.append_nil]
        exact ⟨[], congrArg Buffer.pending hkept⟩
      · obtain ⟨calls, hcalls, hnone⟩ := hfilled bs
        refine ⟨calls, hcalls, ?_⟩
        rw [hnone, List.append_nil]
        exact ⟨[], congrArg Buffer.pending hkept⟩
  | block => cases hf

/-- A callback of `ADMIN_REQUEST`. -/
theorem LoginPhase.servesCommands {r : Ready} {f : AdminCallback}
    (hreg : w.selector.Registered w.fd) (hlog : LoginDecoded name pass w.log)
    (hf : adminOnReady sys .request r = some f) (h : f w = .ok (ret, w'))
    (hout : AdminOutcome .request ret w' w'') :
    (ret = .error ∨ ret = .request) ∧
      LoginDecoded name pass w''.log ∧
      ((adminReceived .request w''.log ≠ [] → adminReceived .auth w''.log =
        adminCredentialsMessage name pass ++ [10]) →
          LoginPhase name pass ret w'') ∧
      ∃ calls, w''.log = w.log ++ calls ∧ (∀ call ∈ calls, call.serves = true) ∧
        w''.admin.readBuffer.pending <:+
          w.admin.readBuffer.pending ++ adminReceived .request calls := by
  obtain ⟨hret, -, calls, hcalls, hserves⟩ := adminRequest_serves hreg hf h
  obtain ⟨calls', hcalls', htakes⟩ := adminRequest_takes hreg hf h
  obtain rfl : calls' = calls :=
    List.append_cancel_left (hcalls'.symm.trans hcalls)
  have hdecoded : LoginDecoded name pass w'.log := by
    rw [hcalls]
    exact hlog.append hserves
  rcases hret with rfl | ⟨rfl, hreg'⟩
  · obtain ⟨sel, rfl⟩ := hout.failed (.inr rfl)
    exact ⟨.inl rfl, hdecoded, fun hmessage => .ended (.inr ⟨.inr rfl, hdecoded⟩)
      hmessage, calls', hcalls, hserves, htakes⟩
  · obtain rfl := hout.eq_of_stays (.inr rfl)
    exact ⟨.inr rfl, hdecoded, fun hmessage => .opened hreg' hdecoded hmessage,
      calls', hcalls, hserves, htakes⟩

/-- The invariant of the system: what the server has received and what is in
flight are the message, its newline and the commands; what has been received in
`ADMIN_REQUEST` has been read by the parser or is in the buffer. -/
structure LoginSystem.Phased (name pass : List UInt8) (s : LoginSystem) :
    Prop where
  current : s.server.stm.current = none ∨
    s.server.stm.current = some s.server.state.id
  phase : LoginPhase name pass s.server.state s.server.found
  stream : adminInput s.server.world.log ++ s.inFlight =
    adminCredentialsMessage name pass ++ [10] ++ s.commands
  input : adminInput s.server.world.log =
    adminReceived .auth s.server.world.log ++
      adminReceived .request s.server.world.log
  silent : adminSent .auth s.server.world.log = [] → s.commands = []
  parsed : s.parsed <+: adminReceived .request s.server.world.log
  unread : s.server.state = .request →
    s.parsed ++ s.server.world.admin.readBuffer.pending =
      adminReceived .request s.server.world.log

theorem LoginSystem.Phased.agrees {s : LoginSystem} (h : s.Phased name pass) :
    LoginAgrees name pass (adminCredentialsMessage name pass ++ [10]) s := by
  obtain ⟨hfd, hselector, -, hlog⟩ := s.server.found_eq
  have hphase := h.phase
  have hstream := h.stream
  rw [h.input] at hstream
  rw [← hlog] at hstream
  have hcommands : adminReceived .auth s.server.found.log =
      adminCredentialsMessage name pass ++ [10] →
        adminReceived .request s.server.found.log <+: s.commands := by
    intro hall
    rw [hall, List.append_assoc _ _ s.inFlight] at hstream
    exact ⟨s.inFlight, List.append_cancel_left hstream⟩
  have hboth : (∀ u p ok, .authenticate u p ok ∈ s.server.found.log →
        u = name ++ [0] ∧ p = pass ++ [0]) ∧
      (s.server.HasVerdict →
        ∃ ok, .authenticate (name ++ [0]) (pass ++ [0]) ok ∈
          s.server.found.log) ∧
      (adminReceived .request s.server.found.log ≠ [] →
        adminReceived .auth s.server.found.log =
          adminCredentialsMessage name pass ++ [10]) := by
    unfold AdminConfig.HasVerdict
    rw [← hselector, ← hfd]
    generalize s.server.state = state at hphase
    cases hphase with
    | waiting hread _ _ _ _ _ _ hundecided hnone =>
        refine ⟨fun u p ok hmem => absurd hmem (hundecided u p ok), ?_,
          fun hne => absurd hnone hne⟩
        rintro (hstate | hstate | ⟨-, hwrite⟩)
        · cases hstate
        · cases hstate
        · rw [hread] at hwrite
          cases hwrite
    | judged _ _ _ _ hdecoded hnone =>
        exact ⟨hdecoded.only, fun _ => hdecoded.authenticated,
          fun hne => absurd hnone hne⟩
    | opened _ hdecoded hmessage =>
        exact ⟨hdecoded.only, fun _ => hdecoded.authenticated, hmessage⟩
    | ended hend hmessage =>
        rcases hend with ⟨rfl, hundecided⟩ | ⟨-, hdecoded⟩
        · refine ⟨fun u p ok hmem => absurd hmem (hundecided u p ok), ?_, hmessage⟩
          rintro (hstate | hstate | ⟨hstate, -⟩) <;> cases hstate
        · exact ⟨hdecoded.only, fun _ => hdecoded.authenticated, hmessage⟩
  rw [hlog] at hboth hcommands
  obtain ⟨hdecoded, hjudged, hmessage⟩ := hboth
  refine ⟨hdecoded, hjudged,
    fun hne => ⟨hmessage hne, hcommands (hmessage hne)⟩, ?_, h.unread⟩
  by_cases hnone : adminReceived .request s.server.world.log = []
  · have hparsed := h.parsed
    rw [hnone, List.prefix_nil] at hparsed
    rw [hparsed]
    exact List.nil_prefix
  · exact h.parsed.trans (hcommands (hmessage hnone))

/-- What the parser reads and what it leaves in the buffer are what was in the
buffer and what has been received. -/
theorem commandBytes_append {c c' : AdminConfig} (hstate : c.state = .request)
    (h : c'.world.admin.readBuffer.pending <:+
      c.world.admin.readBuffer.pending ++ bs) :
    commandBytes c c' bs ++ c'.world.admin.readBuffer.pending =
      c.world.admin.readBuffer.pending ++ bs := by
  obtain ⟨used, hused⟩ := h
  rw [commandBytes, if_pos hstate]
  dsimp only
  rw [← hused, List.length_append, Nat.add_sub_cancel, List.take_left]

theorem commandBytes_of_auth {c c' : AdminConfig} (hstate : c.state = .auth) :
    commandBytes c c' bs = [] := by
  rw [commandBytes, hstate]
  exact if_neg (by decide)

/-- A dispatch that meets the condition keeps the invariant, and one that does
not breaks the agreement. -/
theorem LoginSystem.Phased.dispatched {r : Ready} {s : LoginSystem}
    {c : AdminConfig} {rest : List UInt8} (hname : FieldLength name)
    (hpass : FieldLength pass) (hs : s.Phased name pass)
    (hands : s.server.world.Hands r)
    (h : adminDispatch r sys s.server = .ok c)
    (hinput : adminInput c.world.log = adminInput s.server.world.log ++ bs)
    (hflight : s.inFlight = bs ++ rest) :
    (KeepsLoginApart name (adminCredentialsMessage name pass ++ [10]) s
        (.server (.dispatch r sys) bs) ∧
      (s.took c bs rest).Phased name pass) ∨
    (¬ KeepsLoginApart name (adminCredentialsMessage name pass ++ [10]) s
        (.server (.dispatch r sys) bs) ∧
      ¬ LoginAgrees name pass (adminCredentialsMessage name pass ++ [10])
        (s.took c bs rest)) := by
  obtain ⟨f, ret, w, hf, hcall, hout, hstate, hcurrent⟩ := adminDispatch_cases h
  have hands' := AdminConfig.found_hands.mpr hands
  have hlog := s.server.found_eq.2.2.2
  have hphase := hs.phase
  have hphased : LoginPhase name pass ret c.world →
      (adminSent .auth c.world.log = [] →
        adminSent .auth s.server.found.log = []) →
      adminInput c.world.log = adminReceived .auth c.world.log ++
        adminReceived .request c.world.log →
      s.parsed ++ commandBytes s.server c bs <+:
        adminReceived .request c.world.log →
      (ret = .request → s.parsed ++ commandBytes s.server c bs ++
        c.world.admin.readBuffer.pending = adminReceived .request c.world.log) →
      (s.took c bs rest).Phased name pass := by
    intro hnext hquiet hinput' hparsed hunread
    refine ⟨.inr ?_, ?_, ?_, hinput', ?_, hparsed,
      fun hrequest => hunread (hstate.symm.trans hrequest)⟩
    · change c.stm.current = some c.state.id
      rw [hcurrent, hstate]
    · change LoginPhase name pass c.state c.found
      rw [AdminConfig.found_of_current hcurrent, hstate]
      exact hnext
    · change adminInput c.world.log ++ rest = _
      rw [hinput, List.append_assoc, ← hflight]
      exact hs.stream
    · intro hsent
      have hsent₀ := hquiet hsent
      rw [hlog] at hsent₀
      exact hs.silent hsent₀
  unfold KeepsLoginApart
  rw [← hlog] at hinput ⊢
  cases hcase : s.server.state with
  | auth =>
      rw [hcase] at hphase hf hout
      have hnothing : adminReceived .request s.server.found.log = [] →
          s.parsed ++ commandBytes s.server c bs = [] := by
        intro hnone
        have hparsed := hs.parsed
        rw [← hlog, hnone, List.prefix_nil] at hparsed
        rw [hparsed, commandBytes_of_auth hcase]
        rfl
      cases hphase with
      | waiting hread hlive hreads hrb hwb hroom hsent hundecided hnone =>
          obtain rfl := hands'.eq_read hread
          cases hf
          have hempty : s.commands = [] := by
            rw [hlog] at hsent
            exact hs.silent hsent
          have hmessage : adminReceived .auth s.server.found.log ++ bs <+:
              adminCredentialsMessage name pass ++ [10] := by
            have hstream := hs.stream
            rw [hs.input, ← hlog, hnone, List.append_nil, hempty, List.append_nil,
              hflight, ← List.append_assoc] at hstream
            exact ⟨rest, hstream⟩
          have hinput₀ : adminInput s.server.found.log =
              adminReceived .auth s.server.found.log := by
            rw [hlog, hs.input, ← hlog, hnone, List.append_nil]
          rcases LoginPhase.readsMessage hname hpass hread hlive hreads hrb hwb
            hroom hsent hundecided hnone hinput hmessage hcall hout with
            ⟨hmem, hnext, hauth, hnone', -⟩ | ⟨hmem, rfl, hwrite, hundecided'⟩
          · refine .inl ⟨hmem, hphased hnext (fun _ => hsent) ?_ ?_ ?_⟩
            · rw [hauth, hnone', List.append_nil, hinput, hinput₀]
            · rw [hnothing hnone, hnone']
            · rintro rfl
              rcases adminAuthRead_cases (AdminWorld.registered_of_interest hread)
                hlive hcall with ⟨hret, -⟩ | ⟨_, _, _, _, _, hret, -⟩ <;> cases hret
          · refine .inr ⟨fun hnot => hnot hmem, fun hagrees => ?_⟩
            have hverdict : c.HasVerdict := .inr (.inr ⟨hstate, hwrite⟩)
            obtain ⟨ok, hok⟩ := hagrees.judged hverdict
            exact hundecided' _ _ ok hok
      | judged hwrite hwb hroom hsent hdecoded hnone =>
          obtain rfl := hands'.eq_write hwrite
          cases hf
          left
          obtain ⟨hnext, ⟨xs, hcalls⟩, hempty⟩ :=
            LoginPhase.sendsCode hwrite hwb hroom hdecoded hnone hcall hout
          have hsame : adminInput c.world.log =
                adminInput s.server.found.log ∧
              adminReceived .auth c.world.log =
                adminReceived .auth s.server.found.log ∧
              adminReceived .request c.world.log =
                adminReceived .request s.server.found.log := by
            rw [hcalls, adminInput_append, adminReceived_append,
              adminReceived_append]
            exact ⟨List.append_nil _, List.append_nil _, List.append_nil _⟩
          obtain rfl : bs = [] := by
            rw [hsame.1] at hinput
            exact List.self_eq_append_right.mp hinput
          have hmem : false ∉ sys.allocs.take (lengthBytes name
              (adminReceived .auth s.server.found.log).length 0) := by
            rw [lengthBytes_zero]
            exact List.not_mem_nil
          refine ⟨hmem, hphased hnext (fun _ => hsent) ?_ ?_ ?_⟩
          · rw [hsame.1, hsame.2.1, hsame.2.2, hlog]
            exact hs.input
          · rw [hnothing hnone, hsame.2.2, hnone]
          · intro hrequest
            rw [hnothing hnone, hsame.2.2, hnone, hempty hrequest]
            rfl
      | ended hend _ =>
          rcases hend with ⟨hend, -⟩ | ⟨hend | hend, -⟩ <;> cases hend
  | request =>
      rw [hcase] at hphase hf hout
      cases hphase with
      | opened hreg hdecoded hmessage =>
          obtain ⟨-, -, hnext, calls, hcalls, hserves, htakes⟩ :=
            LoginPhase.servesCommands hreg hdecoded hf hcall hout
          have hauth : adminReceived .auth c.world.log =
              adminReceived .auth s.server.found.log := by
            rw [hcalls, adminReceived_append, adminReceived_auth_of_serves hserves,
              List.append_nil]
          have hbs : adminReceived .request calls = bs := by
            rw [hcalls, adminInput_append, adminInput_of_serves hserves] at hinput
            exact List.append_cancel_left hinput
          have hrequest : adminReceived .request c.world.log =
              adminReceived .request s.server.found.log ++ bs := by
            rw [hcalls, adminReceived_append, hbs]
          have hunread : s.parsed ++ commandBytes s.server c bs ++
              c.world.admin.readBuffer.pending =
                adminReceived .request c.world.log := by
            have hfound : s.server.found = s.server.world := by
              rcases hs.current with hcur | hcur
              · rw [AdminConfig.state, hcur] at hcase
                cases hcase
              · exact AdminConfig.found_of_current hcur
            rw [hbs, hfound] at htakes
            rw [List.append_assoc, commandBytes_append hcase htakes,
              ← List.append_assoc, hs.unread hcase, hrequest, hlog]
          have hquiet : adminSent .auth c.world.log = [] →
              adminSent .auth s.server.found.log = [] := by
            rw [hcalls, adminSent_append, adminSent_auth_of_serves hserves,
              List.append_nil]
            exact id
          have hinput' : adminInput c.world.log =
              adminReceived .auth c.world.log ++
                adminReceived .request c.world.log := by
            rw [hinput, hauth, hrequest, ← List.append_assoc, hlog, hs.input]
          by_cases hkeeps : bs = [] ∨ adminReceived .auth s.server.found.log =
              adminCredentialsMessage name pass ++ [10]
          · have hparsed : s.parsed ++ commandBytes s.server c bs <+:
                adminReceived .request c.world.log := ⟨_, hunread⟩
            refine .inl ⟨hkeeps, hphased (hnext ?_) hquiet hinput' hparsed
              fun _ => hunread⟩
            intro hne
            rw [hauth]
            rcases hkeeps with rfl | hall
            · rw [hrequest, List.append_nil] at hne
              exact hmessage hne
            · exact hall
          · refine .inr ⟨hkeeps, fun hagrees => hkeeps (.inr ?_)⟩
            rw [not_or] at hkeeps
            have hne : adminReceived .request c.world.log ≠ [] := by
              rw [hrequest]
              exact List.append_ne_nil_of_right_ne_nil _ hkeeps.1
            rw [← hauth]
            exact (hagrees.commands hne).1
      | ended hend _ =>
          rcases hend with ⟨hend, -⟩ | ⟨hend | hend, -⟩ <;> cases hend
  | done | error =>
      rw [hcase] at hf
      cases r <;> cases hf

/-- What happens elsewhere in the server. -/
theorem LoginPhase.others {state : AdminState} {sel : FdSelector} {g : Globals}
    (h : LoginPhase name pass state w)
    (hsel : sel.interest? w.fd = w.selector.interest? w.fd) :
    LoginPhase name pass state { w with selector := sel, globals := g } := by
  cases h with
  | waiting hread hlive hreads hrb hwb hroom hsent hundecided hnone =>
      exact .waiting (hsel.trans hread) hlive hreads hrb hwb hroom hsent
        hundecided hnone
  | judged hwrite hwb hroom hsent hdecoded hnone =>
      exact .judged (hsel.trans hwrite) hwb hroom hsent hdecoded hnone
  | opened hreg hdecoded hmessage =>
      refine .opened ?_ hdecoded hmessage
      change sel.interest? w.fd ≠ none
      rw [hsel]
      exact hreg
  | ended hend hmessage => exact .ended hend hmessage

/-- A step keeps the agreement exactly when it meets the condition, and then it
keeps the invariant. -/
theorem LoginSystem.Phased.step {s s' : LoginSystem} {e : LoginEvent}
    (hname : FieldLength name) (hpass : FieldLength pass)
    (hs : s.Phased name pass) (h : LoginStep s e s') :
    (KeepsLoginApart name (adminCredentialsMessage name pass ++ [10]) s e ∧
      s'.Phased name pass) ∨
    (¬ KeepsLoginApart name (adminCredentialsMessage name pass ++ [10]) s e ∧
      ¬ LoginAgrees name pass (adminCredentialsMessage name pass ++ [10])
        s') := by
  cases h with
  | @server _ c bs rest hstep hinput hflight =>
      cases hstep with
      | dispatch _ hands hdispatch =>
          exact hs.dispatched hname hpass hands hdispatch hinput hflight
      | @others sel g hsel hg =>
          have hnil : bs = [] := List.self_eq_append_right.mp hinput
          have hparsed : s.parsed ++ commandBytes s.server
              ⟨s.server.stm, { s.server.world with selector := sel, globals := g }⟩
                bs = s.parsed := by
            rw [hnil, commandBytes]
            dsimp only
            rw [List.append_nil, Nat.sub_self, List.take_zero, ite_self,
              List.append_nil]
          refine .inl ⟨trivial, hs.current, ?_, ?_, hs.input, hs.silent, ?_, ?_⟩
          · have hsel' : sel.interest? s.server.found.fd =
                s.server.found.selector.interest? s.server.found.fd := by
              rw [s.server.found_eq.1, s.server.found_eq.2.1]
              exact hsel
            have hfound : AdminConfig.found ⟨s.server.stm,
                { s.server.world with selector := sel, globals := g }⟩ =
                  { s.server.found with selector := sel, globals := g } := by
              unfold AdminConfig.found
              cases s.server.stm.current <;> rfl
            change LoginPhase name pass s.server.state (AdminConfig.found
              ⟨s.server.stm, { s.server.world with selector := sel, globals := g }⟩)
            rw [hfound]
            exact hs.phase.others hsel'
          · have hstream := hs.stream
            rw [hflight, hnil, List.nil_append] at hstream
            exact hstream
          · change s.parsed ++ commandBytes _ _ _ <+: _
            rw [hparsed]
            exact hs.parsed
          · intro hstate
            change s.parsed ++ commandBytes _ _ _ ++ _ = _
            rw [hparsed]
            exact hs.unread hstate
  | @client bs hsent =>
      refine .inl ⟨trivial, hs.current, hs.phase, ?_, hs.input, ?_, hs.parsed,
        hs.unread⟩
      · change adminInput s.server.world.log ++ (s.inFlight ++ bs) =
          _ ++ (s.commands ++ bs)
        rw [← List.append_assoc, hs.stream, List.append_assoc _ s.commands]
      · intro hquiet
        rw [show adminSent .auth s.server.world.log = [] from hquiet] at hsent
        cases hsent

theorem LoginInitial.phased {s : LoginSystem}
    (h : LoginInitial (adminCredentialsMessage name pass ++ [10]) s) :
    s.Phased name pass := by
  obtain ⟨server, inFlight, commands, parsed⟩ := s
  obtain ⟨⟨fd, sel, g, rfl, hsel⟩, rfl, rfl, rfl⟩ := h
  refine ⟨.inl rfl, ?_, (List.append_nil _).symm, rfl, fun _ => rfl,
    List.nil_prefix, ?_⟩
  · refine .waiting hsel rfl .nil rfl rfl ?_ rfl ?_ rfl
    · change 0 < maxBuffSize
      decide
    · intro u p ok hmem
      cases hmem
  · intro hstate
    cases hstate

theorem TypedCredentials.fieldLength (h : TypedCredentials name pass) :
    FieldLength name ∧ FieldLength pass := by
  have hlen := h.length_le
  have hname := List.length_pos_iff.mpr h.name_ne
  have hpass := List.length_pos_iff.mpr h.pass_ne
  constructor <;> constructor <;> omega

/-! ## Logins by execution -/

/-- The state that a dispatch leads to, if it can happen. -/
def LoginSystem.perform (s : LoginSystem) (e : Ready × AdminSys) :
    Option LoginSystem :=
  (s.server.perform e.1 e.2).bind fun c =>
    let bs := (adminInput c.world.log).drop
      (adminInput s.server.world.log).length
    let rest := s.inFlight.drop bs.length
    if adminInput c.world.log = adminInput s.server.world.log ++ bs ∧
        s.inFlight = bs ++ rest then
      some (s.took c bs rest)
    else none

theorem LoginSystem.perform_step {s s' : LoginSystem} {e : Ready × AdminSys}
    (h : s.perform e = some s') :
    ∃ bs, LoginStep s (.server (.dispatch e.1 e.2) bs) s' := by
  obtain ⟨c, hc, h⟩ := Option.bind_eq_some_iff.mp h
  dsimp only at h
  split at h
  · rename_i hok
    cases h
    exact ⟨_, .server (AdminConfig.perform_step hc) hok.1 hok.2⟩
  · cases h

/-- The state that dispatches lead to, if they can all happen. -/
def loginPlay : LoginSystem → List (Ready × AdminSys) → Option LoginSystem
  | s, [] => some s
  | s, e :: es => (s.perform e).bind fun s' => loginPlay s' es

theorem loginPlay_run {s s' : LoginSystem} {es : List (Ready × AdminSys)}
    (h : loginPlay s es = some s') : ∃ tr, Run LoginStep s tr s' := by
  induction es generalizing s with
  | nil =>
      cases h
      exact ⟨[], .nil⟩
  | cons e es ih =>
      obtain ⟨s₁, hperform, hrest⟩ := Option.bind_eq_some_iff.mp h
      obtain ⟨bs, hstep⟩ := LoginSystem.perform_step hperform
      obtain ⟨tr, hrun⟩ := ih hrest
      exact ⟨_, (Run.single hstep).append hrun⟩

/-- The administrator of `loneAdminConnection` has typed `a:b`. -/
def loneLogin : LoginSystem where
  server := loneAdminConnection
  inFlight := [1, 97, 1, 98, 10]

theorem loneLogin_initial : LoginInitial [1, 97, 1, 98, 10] loneLogin :=
  ⟨⟨5, _, _, rfl, by decide⟩, rfl, rfl, rfl⟩

theorem loneLogin_typed : TypedCredentials [97] [98] where
  name_ne := by decide
  pass_ne := by decide
  no_colon := by decide
  name_no_newline := by decide
  pass_no_newline := by decide
  name_no_nul := by decide
  pass_no_nul := by decide
  length_le := by decide

/-! ## The agreement -/

/-- The client and the server agree on the message, all along a run, exactly
when there is memory for its fields and nothing is received in `ADMIN_REQUEST`
before the newline has been received with the end of the password. -/
theorem login_agrees_iff {message : List UInt8} {fresh : ℕ → UInt8}
    {s₀ s : LoginSystem} {tr : List (LoginSystem × LoginEvent)}
    (htyped : TypedCredentials name pass)
    (hclient : clientCredentials (name ++ 58 :: pass) fresh = .ok message)
    (h₀ : LoginInitial message s₀) (hrun : Run LoginStep s₀ tr s) :
    ((∀ x ∈ tr, LoginAgrees name pass message x.1) ∧
        LoginAgrees name pass message s) ↔
      ∀ x ∈ tr, KeepsLoginApart name message x.1 x.2 := by
  obtain ⟨hname, hpass⟩ := htyped.fieldLength
  rw [clientCredentials_spec htyped] at hclient
  cases hclient
  refine hrun.forall_iff_of (I := LoginSystem.Phased name pass) h₀.phased
    h₀.phased.agrees ?_ ?_
  · intro s₁ e s₂ hI _ hC hstep
    rcases hI.step hname hpass hstep with ⟨-, hnext⟩ | ⟨hnot, -⟩
    · exact hnext
    · exact absurd hC hnot
  · intro s₁ e s₂ hI _ hstep
    rcases hI.step hname hpass hstep with ⟨hC, hnext⟩ | ⟨hnot, hbroken⟩
    · exact iff_of_true hnext.agrees hC
    · exact iff_of_false hbroken hnot

/-- The newline arrives on its own, after the code has been sent, and is taken
for a command. -/
theorem login_not_agreed : ∃ tr s,
    clientCredentials ([97] ++ 58 :: [98]) (fun _ => 0) =
        .ok [1, 97, 1, 98, 10] ∧
      LoginInitial [1, 97, 1, 98, 10] loneLogin ∧ Run LoginStep loneLogin tr s ∧
      adminReceived .request s.server.world.log = [10] ∧
      ¬ LoginAgrees [97] [98] [1, 97, 1, 98, 10] s := by
  have hplay : (loginPlay loneLogin
      [(.read, { recv := .received [1, 97, 1, 98] }),
        (.write, { send := .accepted 0 }),
        (.read, { recv := .received [10] })]).map
          (fun s => (adminReceived .auth s.server.world.log,
            adminReceived .request s.server.world.log)) =
      some ([1, 97, 1, 98], [10]) := by
    decide
  obtain ⟨s, hs, hlog⟩ := Option.map_eq_some_iff.mp hplay
  obtain ⟨tr, hrun⟩ := loginPlay_run hs
  rw [Prod.mk.injEq] at hlog
  refine ⟨tr, s, clientCredentials_spec loneLogin_typed _, loneLogin_initial,
    hrun, hlog.2, ?_⟩
  intro hagrees
  have hne : adminReceived .request s.server.world.log ≠ [] := by
    rw [hlog.2]
    exact List.cons_ne_nil 10 []
  have hall := (hagrees.commands hne).1
  rw [hlog.1] at hall
  exact absurd hall (by decide)

/-- The message arrives in one piece. -/
theorem login_agreed : ∃ s,
    loneLogin.perform (.read, { recv := .received [1, 97, 1, 98, 10] }) =
        some s ∧
      LoginAgrees [97] [98] [1, 97, 1, 98, 10] s := by
  have hplay : (loneLogin.perform
      (.read, { recv := .received [1, 97, 1, 98, 10] })).isSome = true := by
    decide
  obtain ⟨s, hs⟩ := Option.isSome_iff_exists.mp hplay
  obtain ⟨bs, hstep⟩ := LoginSystem.perform_step hs
  refine ⟨s, hs, ((login_agrees_iff loneLogin_typed
    (clientCredentials_spec loneLogin_typed fun _ => 0) loneLogin_initial
    (.single hstep)).mpr ?_).2⟩
  intro x hx
  rw [List.mem_singleton] at hx
  subst hx
  have hmem : false ∉ ([] : Allocs).take (lengthBytes [97]
      (adminReceived .auth loneLogin.server.world.log).length bs.length) := by
    rw [List.take_nil]
    exact List.not_mem_nil
  exact hmem

end Socksv5
