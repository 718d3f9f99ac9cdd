import Socksv5.Session.Script
import Socksv5.Session.Seated

/-!
# Who is admitted

`Understood` says, state by state, how the bytes received from the client
divide into messages: the greeting, the credentials, the request, and what is
left in `read_buffer`.  It holds in every run, and so nobody gets to
`REQUEST_READ` who has not been admitted.
-/

namespace Socksv5

open Support

/-! ## The method chosen -/

/-- `Selects ms m`: of the methods `ms`, `m` is chosen. -/
def Selects (methods : List UInt8) (m : UInt8) : Prop :=
  m = if usernamePasswordAuth ∈ methods then usernamePasswordAuth
    else if noAuthenticationRequired ∈ methods then noAuthenticationRequired
    else noAcceptableMethods

theorem selectMethodLoop_spec {methods : Block} {n i : ℕ} {ret m : UInt8}
    (hlen : i + n = methods.length) (hseen : Selects (methods.take i) ret)
    (hauth : usernamePasswordAuth ∉ methods.take i)
    (h : selectMethodLoop methods n i ret = .ok m) : Selects methods m := by
  induction n generalizing i ret with
  | zero =>
      cases h
      rwa [List.take_of_length_le (by omega)] at hseen
  | succ n ih =>
      have hi : i < methods.length := by omega
      rw [selectMethodLoop, List.getElem?_eq_getElem hi] at h
      dsimp only at h
      by_cases hc : methods[i] = usernamePasswordAuth
      · rw [if_pos hc] at h
        cases h
        rw [Selects, if_pos (hc ▸ List.getElem_mem hi)]
        exact hc
      · rw [if_neg hc] at h
        have htake : methods.take (i + 1) = methods.take i ++ [methods[i]] :=
          List.take_succ_eq_append_getElem hi
        have hauth' : usernamePasswordAuth ∉ methods.take (i + 1) := by
          rw [htake, List.mem_append, List.mem_singleton, not_or]
          exact ⟨hauth, Ne.symm hc⟩
        refine ih (by omega) ?_ hauth' h
        have hmem : noAuthenticationRequired ∈ methods.take (i + 1) ↔
            noAuthenticationRequired ∈ methods.take i ∨
              noAuthenticationRequired = methods[i] := by
          rw [htake, List.mem_append, List.mem_singleton]
        rw [Selects, if_neg hauth] at hseen
        rw [Selects, if_neg hauth', hseen]
        by_cases hnone : methods[i] = noAuthenticationRequired
        · rw [if_pos hnone, if_pos (hmem.mpr (Or.inr hnone.symm)), hnone]
        · have hiff := hmem.trans (or_iff_left (Ne.symm hnone))
          simp only [hnone, hiff, if_false]

/-- `select_method` prefers authentication to none. -/
theorem selectMethod_spec {methods : Block} {n m : UInt8}
    (hn : n.toNat = methods.length)
    (h : selectMethod (some methods) n = .ok m) : Selects methods m :=
  selectMethodLoop_spec (by rw [hn, Nat.zero_add]) (by simp [Selects])
    (by simp) h

/-! ## What has been understood -/

/-- `Admission log xs`: a client that has sent `xs` is admitted. -/
inductive Admission (log : List Call) : List UInt8 → Prop
  | unauthenticated {ms : List UInt8} : FieldLength ms →
      noAuthenticationRequired ∈ ms → usernamePasswordAuth ∉ ms →
      Admission log (greetingMessage ms)
  | authenticated {ms user password : List UInt8} : FieldLength ms →
      usernamePasswordAuth ∈ ms → FieldLength user → FieldLength password →
      .authenticate (user ++ [0]) (password ++ [0]) true ∈ log →
      Admission log (greetingMessage ms ++ credentialsMessage user password)

theorem Admission.mono {log log' : List Call} {xs : List UInt8}
    (h : Admission log xs) (hlog : log <+: log') : Admission log' xs := by
  cases h with
  | unauthenticated hms hnone hauth => exact .unauthenticated hms hnone hauth
  | authenticated hms hauth hu hp hcall =>
      exact .authenticated hms hauth hu hp (hlog.subset hcall)

/-- `Greets xs m`: the greeting `xs` makes the server choose `m`, if `m` is a
method. -/
structure Greets (xs : List UInt8) (m : ℤ) : Prop where
  unauthenticated : m = 0 → ∃ ms, xs = greetingMessage ms ∧ FieldLength ms ∧
    noAuthenticationRequired ∈ ms ∧ usernamePasswordAuth ∉ ms
  authenticated : m = 2 → ∃ ms, xs = greetingMessage ms ∧ FieldLength ms ∧
    usernamePasswordAuth ∈ ms

/-- What the bytes received from the client mean in each state. -/
def Understood (w : World) : GlobalState → Prop
  | .greetingRead =>
      w.session.originFd = -1 ∧ w.session.greeting.parser.state.final = false ∧
        ∃ ys, w.session.greeting.parser.After ys ∧
          w.input = ys ++ w.session.readBuffer.pending
  | .greetingWrite =>
      w.session.originFd = -1 ∧
        ∃ xs, Greets xs w.session.greeting.methodSelected ∧
          w.input = xs ++ w.session.readBuffer.pending
  | .authRead =>
      w.session.originFd = -1 ∧ w.session.auth.parser.state.final = false ∧
        w.session.auth.reply = authFail ∧
        ∃ ms ys, FieldLength ms ∧ usernamePasswordAuth ∈ ms ∧
          w.session.auth.parser.After ys ∧
          w.input = greetingMessage ms ++ ys ++ w.session.readBuffer.pending
  | .authWrite =>
      w.session.originFd = -1 ∧ (w.session.auth.reply = authSuccess →
        ∃ xs, Admission w.log xs ∧
          w.input = xs ++ w.session.readBuffer.pending)
  | .requestRead =>
      w.session.originFd = -1 ∧ w.session.request.parser.state.final = false ∧
        ∃ xs ys, Admission w.log xs ∧ w.session.request.parser.After ys ∧
          w.input = xs ++ ys ++ w.session.readBuffer.pending
  | .originConnect =>
      ∃ xs d hi lo, Admission w.log xs ∧ Destination.WellFormed d ∧
        w.input = xs ++ requestMessage d hi lo ++ w.session.readBuffer.pending
  | .requestWrite => w.session.request.parser.reply = .succeded →
      ∃ xs d hi lo, Admission w.log xs ∧ Destination.WellFormed d ∧
        w.input = xs ++ requestMessage d hi lo ++ w.session.readBuffer.pending
  | .copy =>
      ∃ xs d hi lo, Admission w.log xs ∧ Destination.WellFormed d ∧
        xs ++ requestMessage d hi lo <+: w.input
  | .done | .error => True

/-- Reading from a buffer that more has been received into. -/
theorem consume_reads {P : Type} {feed : UInt8 → P → Except Fault P}
    {stop : P → Bool} {sys : Sys} {b b₁ b' : Buffer} {bs : List UInt8}
    {p p' : P} (hrecv : Receives sys b (.data bs b₁))
    (h : consume feed stop b₁ p = .ok (b', p')) (hstop : stop p = false) :
    ∃ used, b.pending ++ bs = used ++ b'.pending ∧
      Reads feed stop p used p' := by
  cases hrecv with
  | data _ _ hpending _ _ hsettled =>
      obtain ⟨hdecode, -⟩ := consume_spec hsettled h
      obtain ⟨used, hused, hreads, -⟩ := decode_reads hstop hdecode
      exact ⟨used, by rw [← hpending, hused], hreads⟩

/-- How the bytes received divide after a `recv` and the reading of some. -/
theorem received_divides {fd : ℤ} {log : List Call} {state : GlobalState}
    {n : ℕ} {bs pre pending used pending' : List UInt8}
    (h : received fd log = pre ++ pending)
    (hused : pending ++ bs = used ++ pending') :
    received fd (log ++ [.recv state fd n (.received bs)]) =
      pre ++ used ++ pending' := by
  rw [received_append, received_recv, h, List.append_assoc, hused,
    ← List.append_assoc]

theorem received_append_eq_left {fd : ℤ} {calls : List Call} (log : List Call)
    (h : received fd calls = []) :
    received fd (log ++ calls) = received fd log := by
  rw [received_append, h, List.append_nil]

theorem Selects.greets {ms : List UInt8} {m : UInt8} (h : Selects ms m)
    (hms : FieldLength ms) : Greets (greetingMessage ms) m.toNat := by
  unfold Selects at h
  by_cases hauth : usernamePasswordAuth ∈ ms
  · rw [if_pos hauth] at h
    subst h
    exact ⟨fun h => absurd h (by decide), fun _ => ⟨ms, rfl, hms, hauth⟩⟩
  · rw [if_neg hauth] at h
    by_cases hnone : noAuthenticationRequired ∈ ms
    · rw [if_pos hnone] at h
      subst h
      exact ⟨fun _ => ⟨ms, rfl, hms, hnone, hauth⟩,
        fun h => absurd h (by decide)⟩
    · rw [if_neg hnone] at h
      subst h
      exact ⟨fun h => absurd h (by decide), fun h => absurd h (by decide)⟩

/-- Only a complete greeting makes the server choose a method. -/
theorem GreetingParser.After.greets {xs : List UInt8} {p : GreetingParser}
    {m : UInt8} (h : p.After xs) (hfinal : p.state.final = true)
    (hm : selectMethod p.methods p.methodsRemaining = .ok m) :
    Greets xs m.toNat := by
  have hnone (hmethods : p.methods = none) : Greets xs m.toNat := by
    rw [hmethods] at hm
    cases hm
    exact ⟨fun h => absurd h (by decide), fun h => absurd h (by decide)⟩
  unfold GreetingParser.After at h
  cases hs : p.state with
  | readingVersion | readingNmethods | readingMethods =>
      simp [hs, GreetingState.final] at hfinal
  | unsupportedVersion | badSyntax =>
      simp only [hs] at h
      exact hnone h.1
  | done =>
      simp only [hs] at h
      obtain ⟨ms, rfl, hms, hmethods, hremaining⟩ := h
      rw [hmethods, hremaining] at hm
      refine (selectMethod_spec ?_ hm).greets hms
      have hle := hms.2
      rw [lengthByte, UInt8.toNat_ofNat']
      omega

theorem GreetingReads.understood {sys : Sys} {w w' : World}
    {ret : GlobalState} (hw : Understood w .greetingRead)
    (h : GreetingReads sys w.session.clientFd w ret w') : Understood w' ret := by
  obtain ⟨horigin, hfinal, ys, hafter, hinput⟩ := hw
  cases h with
  | failed => trivial
  | waits hrecv hconsume hstop =>
      obtain ⟨used, hused, hreads⟩ := consume_reads hrecv hconsume hfinal
      exact ⟨horigin, hstop, ys ++ used, greeting_reads_after hafter hreads,
        received_divides hinput hused⟩
  | answers hrecv hconsume hstop hselect =>
      obtain ⟨used, hused, hreads⟩ := consume_reads hrecv hconsume hfinal
      refine ⟨horigin, ys ++ used,
        (greeting_reads_after hafter hreads).greets hstop hselect, ?_⟩
      exact (received_append_eq_left _ rfl).trans (received_divides hinput hused)

theorem GreetingWrites.understood {sys : Sys} {fd : ℤ} {w w' : World}
    {ret : GlobalState} (hw : Understood w .greetingWrite)
    (h : GreetingWrites sys fd w ret w') : Understood (arrived ret w') ret := by
  obtain ⟨horigin, xs, hgreets, hinput⟩ := hw
  cases h with
  | failed => trivial
  | partly =>
      exact ⟨horigin, xs, hgreets,
        (received_append_eq_left _ rfl).trans hinput⟩
  | @wholly bs wb s _ _ _ _ hret =>
      have hinput' : received w.session.clientFd
          (w.log ++ [.send .greetingWrite fd bs] ++ [.setInterest fd .read]) =
            xs ++ w.session.readBuffer.pending :=
        (received_append_eq_left _ rfl).trans
          ((received_append_eq_left _ rfl).trans hinput)
      rcases hret with ⟨rfl, hm⟩ | ⟨rfl, hm⟩
      · obtain ⟨ms, rfl, hms, hnone, hauth⟩ := hgreets.unauthenticated hm
        refine ⟨horigin, rfl, _, [], .unauthenticated hms hnone hauth,
          requestParserInit_after _, ?_⟩
        rw [List.append_nil]
        exact hinput'
      · obtain ⟨ms, rfl, hms, hauth⟩ := hgreets.authenticated hm
        refine ⟨horigin, rfl, rfl, ms, [], hms, hauth, authParserInit_after, ?_⟩
        rw [List.append_nil]
        exact hinput'

/-- Only complete credentials that the server accepts get a good reply. -/
theorem Authenticates.admission {sys : Sys} {p : AuthParser} {reply : UInt8}
    {calls log : List Call} {ms ys : List UInt8} (hms : FieldLength ms)
    (hauth : usernamePasswordAuth ∈ ms) (hafter : p.After ys)
    (h : Authenticates sys ⟨p, authFail⟩ reply calls)
    (hreply : reply = authSuccess) (hcalls : ∀ c ∈ calls, c ∈ log) :
    Admission log (greetingMessage ms ++ ys) := by
  subst hreply
  cases h with
  | @accepted user password hdone huser hpassword hok =>
      unfold AuthParser.After at hafter
      simp only at hdone huser hpassword
      simp only [hdone] at hafter
      obtain ⟨u, p', rfl, hu, hp', huser', hpassword'⟩ := hafter
      obtain rfl := Option.some.inj (huser.symm.trans huser')
      obtain rfl := Option.some.inj (hpassword.symm.trans hpassword')
      exact .authenticated hms hauth hu hp' (hcalls _ (by simp))

theorem Authenticates.received_eq {sys : Sys} {auth : AuthStm} {reply : UInt8}
    {calls : List Call} (h : Authenticates sys auth reply calls) (fd : ℤ) :
    received fd calls = [] := by
  cases h <;> rfl

theorem AuthReads.understood {sys : Sys} {w w' : World} {ret : GlobalState}
    (hw : Understood w .authRead)
    (h : AuthReads sys w.session.clientFd w ret w') : Understood w' ret := by
  obtain ⟨horigin, hfinal, hfail, ms, ys, hms, hauth, hafter, hinput⟩ := hw
  cases h with
  | failed => trivial
  | waits hrecv hconsume hstop =>
      obtain ⟨used, hused, hreads⟩ := consume_reads hrecv hconsume hfinal
      refine ⟨horigin, hstop, hfail, ms, ys ++ used, hms, hauth,
        auth_reads_after hafter hreads, ?_⟩
      rw [← List.append_assoc]
      exact received_divides hinput hused
  | @answers _ _ _ _ _ _ _ _ _ calls hrecv hconsume hstop hauths =>
      obtain ⟨used, hused, hreads⟩ := consume_reads hrecv hconsume hfinal
      refine ⟨horigin, fun hreply => ⟨greetingMessage ms ++ (ys ++ used), ?_, ?_⟩⟩
      · rw [hfail] at hauths
        exact hauths.admission hms hauth (auth_reads_after hafter hreads) hreply
          (by simp +contextual)
      · rw [← List.append_assoc]
        exact (received_append_eq_left _ rfl).trans
          ((received_append_eq_left _ (hauths.received_eq _)).trans
            (received_divides hinput hused))

theorem AuthWrites.understood {sys : Sys} {fd : ℤ} {w w' : World}
    {ret : GlobalState} (hw : Understood w .authWrite)
    (h : AuthWrites sys fd w ret w') : Understood (arrived ret w') ret := by
  obtain ⟨horigin, hadmitted⟩ := hw
  cases h with
  | failed => trivial
  | partly =>
      refine ⟨horigin, fun hreply => ?_⟩
      obtain ⟨xs, hadm, hinput⟩ := hadmitted hreply
      exact ⟨xs, hadm.mono (List.prefix_append _ _),
        (received_append_eq_left _ rfl).trans hinput⟩
  | wholly _ _ _ hret =>
      rcases hret with ⟨rfl, hreply⟩ | rfl
      · obtain ⟨xs, hadm, hinput⟩ := hadmitted hreply
        refine ⟨horigin, rfl, xs, [], hadm.mono ?_, requestParserInit_after _,
          ?_⟩
        · rw [List.append_assoc]
          exact List.prefix_append _ _
        · rw [List.append_nil]
          exact (received_append_eq_left _ rfl).trans
            ((received_append_eq_left _ rfl).trans hinput)
      · trivial

theorem RequestReads.understood {sys : Sys} {w w' : World}
    {ret : GlobalState} (hw : Understood w .requestRead)
    (h : RequestReads sys w.session.clientFd w ret w') : Understood w' ret := by
  obtain ⟨horigin, hfinal, xs, ys, hadm, hafter, hinput⟩ := hw
  have hlive : w.session.request.parser.state = .done →
      w.session.request.parser.reply = .succeded := by
    intro hdone
    rw [hdone] at hfinal
    cases hfinal
  cases h with
  | failed => trivial
  | waits hrecv hconsume hstop =>
      obtain ⟨used, hused, hreads⟩ := consume_reads hrecv hconsume hfinal
      refine ⟨horigin, hstop, xs, ys ++ used,
        hadm.mono (List.prefix_append _ _),
        (request_reads_after ⟨hafter, hlive⟩ hreads).1, ?_⟩
      rw [← List.append_assoc]
      exact received_divides hinput hused
  | decides hrecv hconsume hret =>
      obtain ⟨used, hused, hreads⟩ := consume_reads hrecv hconsume hfinal
      have hafter' := (request_reads_after ⟨hafter, hlive⟩ hreads).1
      unfold RequestParser.After at hafter'
      rcases hret with ⟨hdone, rfl, rfl⟩ | ⟨herror, rfl, rfl⟩
      · simp only [hdone] at hafter'
        obtain ⟨d, hi, lo, hd, -, hmessage⟩ := hafter'
        refine ⟨xs, d, hi, lo, hadm.mono ?_, hd.1, ?_⟩
        · rw [List.append_assoc]
          exact List.prefix_append _ _
        · rw [← hmessage, ← List.append_assoc]
          exact (received_append_eq_left _ rfl).trans
            (received_divides hinput hused)
      · simp only [herror] at hafter'
        exact fun hreply => absurd hreply hafter'

/-- A request that is not complete is never answered with `SUCCEDED`. -/
theorem RequestReads.reply_ne {sys : Sys} {w w' : World}
    (hw : Understood w .requestRead)
    (h : RequestReads sys w.session.clientFd w .requestWrite w') :
    w'.session.request.parser.reply ≠ .succeded := by
  obtain ⟨-, hfinal, xs, ys, -, hafter, -⟩ := hw
  cases h with
  | decides hrecv hconsume hret =>
      obtain ⟨used, -, hreads⟩ := consume_reads hrecv hconsume hfinal
      have hlive : w.session.request.parser.state = .done →
          w.session.request.parser.reply = .succeded := by
        intro hdone
        rw [hdone] at hfinal
        cases hfinal
      have hafter' := (request_reads_after ⟨hafter, hlive⟩ hreads).1
      rcases hret with ⟨-, hne, -⟩ | ⟨herror, -, -⟩
      · cases hne
      · unfold RequestParser.After at hafter'
        simpa only [herror] using hafter'

theorem RequestWrites.understood {sys : Sys} {fd : ℤ} {w w' : World}
    {ret : GlobalState} (hw : Understood w .requestWrite)
    (h : RequestWrites sys fd w ret w') : Understood (arrived ret w') ret := by
  cases h with
  | failed => trivial
  | refuses => trivial
  | partly =>
      intro hreply
      obtain ⟨xs, d, hi, lo, hadm, hd, hinput⟩ := hw hreply
      exact ⟨xs, d, hi, lo, hadm.mono (List.prefix_append _ _), hd,
        (received_append_eq_left _ rfl).trans hinput⟩
  | @grants bs wb wb' s s' _ _ _ hreply =>
      obtain ⟨xs, d, hi, lo, hadm, hd, hinput⟩ := hw hreply
      have hlog : w.log <+: w.log ++ [.send .requestWrite fd bs] ++
          [.setInterest fd .read] ++
          [.setInterest w.session.originFd .read] := by
        simp only [List.append_assoc]
        exact List.prefix_append _ _
      refine ⟨xs, d, hi, lo, hadm.mono hlog, hd, ?_⟩
      have hprefix : xs ++ requestMessage d hi lo <+: w.input := by
        rw [hinput]
        exact List.prefix_append _ _
      exact hprefix.trans (received_mono hlog)

theorem Understood.of_silent {w w' : World}
    (hw : Understood w .originConnect) (h : Silent w w') :
    Understood w' .originConnect := by
  obtain ⟨xs, d, hi, lo, hadm, hd, hinput⟩ := hw
  refine ⟨xs, d, hi, lo, hadm.mono h.log_prefix, hd, ?_⟩
  rw [h.input_eq, hinput, h.readBuffer]

/-- Once connected or not, the request has still been understood. -/
theorem Understood.requestWrite {w : World} (hw : Understood w .originConnect) :
    Understood w .requestWrite := fun _ => hw

theorem Verifies.understood {sys : Sys} {fd : ℤ} {w w' : World}
    {ret : GlobalState} (hw : Understood w .originConnect)
    (h : Verifies sys fd w ret w') : Understood w' ret := by
  cases h with
  | failed => trivial
  | answers =>
      refine Understood.requestWrite (hw.of_silent ⟨rfl, rfl, rfl, _,
        by simp only [List.append_assoc]; rfl, ?_⟩)
      simp [Call.transfers]

theorem Resolves.understood {sys : Sys} {fd : ℤ} {k : ℕ}
    {addrs : List SockAddr} {w w' : World} {ret : GlobalState}
    (hw : Understood w .originConnect)
    (h : Resolves sys fd k addrs w ret w') : Understood w' ret := by
  have hw' := hw.of_silent h.silent
  rcases h.state with rfl | rfl | rfl
  · exact hw'
  · exact hw'.requestWrite
  · trivial

theorem Understood.copy_mono {w w' : World} (hw : Understood w .copy)
    (hclient : w'.session.clientFd = w.session.clientFd)
    (hlog : w.log <+: w'.log) : Understood w' .copy := by
  obtain ⟨xs, d, hi, lo, hadm, hd, hinput⟩ := hw
  refine ⟨xs, d, hi, lo, hadm.mono hlog, hd, hinput.trans ?_⟩
  rw [World.input, World.input, hclient]
  exact received_mono hlog

theorem Understood.after_copy {w w' : World} {ret : GlobalState}
    (hw : Understood w .copy) (h : Quiet w w')
    (hret : ret = .copy ∨ Follows .copy ret) : Understood w' ret := by
  rcases hret with rfl | hret
  · exact hw.copy_mono h.clientFd h.log_prefix
  · cases ret <;> trivial

/-- Arriving from a state that reads or connects changes nothing. -/
theorem arrived_eq {s ret : GlobalState} (hs : s = .greetingRead ∨
    s = .authRead ∨ s = .requestRead ∨ s = .originConnect ∨ s = .copy)
    (h : Follows s ret) (w : World) : arrived ret w = w := by
  rcases hs with rfl | rfl | rfl | rfl | rfl <;> cases ret <;>
    first | rfl | exact absurd h (by decide)

theorem Session.Owns.eq_clientFd {s : Session} {fd : ℤ} (h : s.Owns fd)
    (horigin : s.originFd = -1) : fd = s.clientFd := by
  obtain ⟨hpos, rfl | rfl⟩ := h
  · rfl
  · omega

theorem onReady_understood {sys : Sys} {fd : ℤ} {s ret : GlobalState}
    {r : Ready} {f : Callback} {w w' : World} (hw : Understood w s)
    (howns : w.session.Owns fd) (hreg : w.selector.Registered fd)
    (hf : onReady sys fd s r = some f) (h : f w = .ok (ret, w')) :
    (ret = s → Understood w' s) ∧
      (ret ≠ s → Understood (arrived ret w') ret) := by
  have hfollows := onReady_follows hf hreg h
  have of_eq (hs : s = .greetingRead ∨ s = .authRead ∨ s = .requestRead ∨
      s = .originConnect ∨ s = .copy) (key : Understood w' ret) :
      (ret = s → Understood w' s) ∧
        (ret ≠ s → Understood (arrived ret w') ret) := by
    refine ⟨fun heq => heq ▸ key, fun hne => ?_⟩
    rwa [arrived_eq hs (hfollows.resolve_left hne)]
  cases s <;> cases r <;> cases hf
  case greetingRead.read =>
      obtain rfl := howns.eq_clientFd hw.1
      exact of_eq (by simp) ((greetingRead_spec h).understood hw)
  case authRead.read =>
      obtain rfl := howns.eq_clientFd hw.1
      exact of_eq (by simp) ((authRead_spec h).understood hw)
  case requestRead.read =>
      obtain rfl := howns.eq_clientFd hw.1
      exact of_eq (by simp) ((requestRead_spec h).understood hw)
  case originConnect.write =>
      exact of_eq (by simp) ((verifyConnection_spec h).understood hw)
  case originConnect.block =>
      exact of_eq (by simp) ((connectOriginBlock_spec h).understood hw)
  case greetingWrite.write =>
      have key := (greetingWrite_spec h).understood hw
      exact ⟨fun heq => by subst heq; exact key, fun _ => key⟩
  case authWrite.write =>
      have key := (authWrite_spec h).understood hw
      exact ⟨fun heq => by subst heq; exact key, fun _ => key⟩
  case requestWrite.write =>
      have key := (requestWrite_spec h).understood hw
      exact ⟨fun heq => by subst heq; exact key, fun _ => key⟩
  case copy.read =>
      exact of_eq (by simp) (hw.after_copy (copyRead_quiet h) hfollows)
  case copy.write =>
      exact of_eq (by simp) (hw.after_copy (copyWrite_quiet h) hfollows)

/-- What has been understood before a dispatch, more is after it. -/
theorem Understood.dispatched {sys : Sys} {fd : ℤ} {s ret : GlobalState}
    {r : Ready} {f : Callback} {via : List GlobalState} {w w₁ w₂ : World}
    {company : Company} (hw : Understood w s) (hhands : w.Hands company r fd)
    (hf : onReady sys fd s r = some f)
    (h : f (w.delivered r fd) = .ok (ret, w₁))
    (hout : Outcome sys fd s ret w₁ via w₂) :
    Understood w₂ (via.getLastD s) := by
  have hw' : Understood (w.delivered r fd) s := by
    cases r <;> exact hw
  have howns : (w.delivered r fd).session.Owns fd := by
    cases r <;> exact hhands.1
  have hreg : (w.delivered r fd).selector.Registered fd := by
    cases r <;> exact hhands.2.1
  obtain ⟨hstays, hgoes⟩ := onReady_understood hw' howns hreg hf h
  cases hout with
  | stays => exact hstays rfl
  | enters hne => exact hgoes hne
  | connects hne hinit =>
      exact (hgoes (Ne.symm hne)).of_silent (connectOriginInit_spec hinit).silent
  | redirected hne hinit hto =>
      have key := (hgoes (Ne.symm hne)).of_silent
        (connectOriginInit_spec hinit).silent
      rcases hto with rfl | rfl
      · exact key.requestWrite
      · trivial
  | ends hend => rcases hend with rfl | rfl <;> trivial

/-! ## The gate -/

/-- The client of the session has been admitted. -/
def Admitted (w : World) : Prop :=
  ∃ xs, Admission w.log xs ∧ xs <+: w.input

theorem Admitted.mono {w w' : World} (h : Admitted w)
    (hclient : w'.session.clientFd = w.session.clientFd)
    (hlog : w.log <+: w'.log) : Admitted w' := by
  obtain ⟨xs, hadm, hxs⟩ := h
  refine ⟨xs, hadm.mono hlog, hxs.trans ?_⟩
  rw [World.input, World.input, hclient]
  exact received_mono hlog

theorem Understood.admitted {w : World} (h : Understood w .requestRead) :
    Admitted w := by
  obtain ⟨-, -, xs, ys, hadm, -, hinput⟩ := h
  refine ⟨xs, hadm, ?_⟩
  rw [hinput, List.append_assoc]
  exact List.prefix_append _ _

/-- What holds in every run of a session. -/
structure Gate (vs : List GlobalState) (s : GlobalState) (w : World) :
    Prop where
  inOrder : InOrder vs
  unstarted : vs = [] → w.log = []
  understood : Understood w s
  admitted : .requestRead ∈ vs → Admitted w
  connects : ∀ c ∈ w.log, c.connects = true → .requestRead ∈ vs

theorem closeDescriptor_calls {w w' : World} {fd : ℤ}
    (h : closeDescriptor w fd = .ok w') :
    ∀ c ∈ w'.log, c.connects = true → c ∈ w.log := by
  unfold closeDescriptor at h
  split at h
  · obtain ⟨⟨status, s⟩, -, h⟩ := bind_eq_ok.mp h
    dsimp only at h
    split at h
    · cases h
    · cases h
      intro c hc hconnects
      rcases List.mem_append.mp hc with hc | hc
      · exact hc
      · rw [List.mem_singleton] at hc
        subst hc
        cases hconnects
  · cases h
    exact fun c hc _ => hc

/-- A dispatch connects in `ORIGIN_CONNECT` only. -/
theorem dispatch_connects {sys : Sys} {fd : ℤ} {s ret : GlobalState}
    {r : Ready} {f : Callback} {via : List GlobalState} {w w₁ w₂ : World}
    (hf : onReady sys fd s r = some f) (h : f w = .ok (ret, w₁))
    (hout : Outcome sys fd s ret w₁ via w₂) :
    s = .originConnect ∨ .originConnect ∈ via ∨
      ∀ c ∈ w₂.log, c.connects = true → c ∈ w.log := by
  by_cases hr : r = .block
  · subst hr
    cases s <;> cases hf
    exact Or.inl rfl
  · have hquiet := onReady_quiet hf hr h
    have of_quiet {w₁' : World} (hq : Quiet w w₁') :
        ∀ c ∈ w₁'.log, c.connects = true → c ∈ w.log := by
      intro c hc hconnects
      obtain ⟨calls, hlog, hcalls⟩ := hq.log
      rw [hlog] at hc
      rcases List.mem_append.mp hc with hc | hc
      · exact hc
      · rw [hcalls c hc] at hconnects
        cases hconnects
    cases hout with
    | stays => exact Or.inr (Or.inr (of_quiet hquiet))
    | enters =>
        exact Or.inr (Or.inr (of_quiet (hquiet.trans (arrived_quiet _ _))))
    | connects => exact Or.inr (Or.inl (by simp))
    | redirected => exact Or.inr (Or.inl (by simp))
    | ends _ hdone =>
        refine Or.inr (Or.inr fun c hc hconnects => ?_)
        obtain ⟨w₃, hclient, hdone⟩ := bind_eq_ok.mp hdone
        obtain ⟨w₄, horigin, heq⟩ := bind_eq_ok.mp hdone
        cases heq
        exact of_quiet hquiet c (closeDescriptor_calls hclient c
          (closeDescriptor_calls horigin c hc hconnects) hconnects) hconnects

theorem Gate.dispatched {company : Company} {sys : Sys} {fd : ℤ}
    {s ret : GlobalState} {r : Ready} {f : Callback}
    {vs via : List GlobalState} {w w₁ w₂ : World} (hw : Gate vs s w)
    (hs : vs.getLast? = some s) (hhands : w.Hands company r fd)
    (hf : onReady sys fd s r = some f)
    (h : f (w.delivered r fd) = .ok (ret, w₁))
    (hout : Outcome sys fd s ret w₁ via w₂) :
    Gate (vs ++ via) (via.getLastD s) w₂ := by
  have hreg : (w.delivered r fd).selector.Registered fd := by
    cases r <;> exact hhands.2.1
  have hdelivered := delivered_silent w r fd
  have hgrows := onReady_grows hf h
  have hsilent := hout.silent
  have hclient : w₂.session.clientFd = w.session.clientFd :=
    hsilent.clientFd.trans (hgrows.1.trans hdelivered.clientFd)
  have hlog : w.log <+: w₂.log :=
    hdelivered.log_prefix.trans (hgrows.2.trans hsilent.log_prefix)
  have hinOrder : InOrder (vs ++ via) := hw.inOrder.dispatched hs
    (onReady_live hf) (onReady_follows hf hreg h) hout
  have hunderstood := hw.understood.dispatched hhands hf h hout
  refine ⟨hinOrder, ?_, hunderstood, ?_, ?_⟩
  · intro hnil
    rw [List.append_eq_nil_iff.mp hnil |>.1] at hs
    cases hs
  · intro hmem
    rcases List.mem_append.mp hmem with hmem | hmem
    · exact (hw.admitted hmem).mono hclient hlog
    · cases hout with
      | stays => cases hmem
      | enters hne =>
          rw [List.mem_singleton] at hmem
          subst hmem
          exact hunderstood.admitted
      | connects => simp at hmem
      | redirected _ _ hto => rcases hto with rfl | rfl <;> simp at hmem
      | ends hend => rcases hend with rfl | rfl <;> simp at hmem
  · intro c hc hconnects
    rcases dispatch_connects hf h hout with rfl | hmem | hcalls
    · exact hinOrder.requestRead_mem
        (List.mem_append_left _ (List.mem_of_getLast? hs))
    · exact hinOrder.requestRead_mem (List.mem_append_right _ hmem)
    · refine List.mem_append_left _ (hw.connects c ?_ hconnects)
      have := hcalls c hc hconnects
      cases r <;> exact this

theorem Gate.unchanged {vs : List GlobalState} {s : GlobalState} {w w' : World}
    (hw : Gate vs s w) (hunderstood : Understood w' s)
    (hclient : w'.session.clientFd = w.session.clientFd)
    (hlog : w'.log = w.log) : Gate vs s w' where
  inOrder := hw.inOrder
  unstarted := fun hnil => hlog.trans (hw.unstarted hnil)
  understood := hunderstood
  admitted := fun hmem =>
    (hw.admitted hmem).mono hclient (hlog ▸ List.prefix_refl _)
  connects := fun c hc => hw.connects c (hlog ▸ hc)

theorem gate_inductive (company : Company) :
    Inductive company Anything AnyEvent Gate where
  started := by
    intro w _ hw
    obtain ⟨horigin, -, ys, -, hinput⟩ := hw.understood
    have hempty : [] = ys ++ w.session.readBuffer.pending := by
      rw [← hinput, World.input, hw.unstarted rfl, received_nil]
    have hpending := (List.append_eq_nil_iff.mp hempty.symm).2
    refine ⟨⟨by simp, by simp, by simp⟩, by simp, ⟨horigin, rfl, [],
      greetingParserInit_after, ?_⟩, by simp, ?_⟩
    · change w.input = [] ++ w.session.readBuffer.pending
      rw [hpending, World.input, hw.unstarted rfl, received_nil]
      rfl
    · intro c hc
      change c ∈ w.log at hc
      rw [hw.unstarted rfl] at hc
      cases hc
  startedCondition := fun _ _ _ => trivial
  dispatched := fun _ hw hs _ _ hhands _ hf h hout =>
    hw.dispatched hs hhands hf h hout
  connectionEnds := by
    intro vs s w ok _ hw _ _
    refine hw.unchanged ?_ rfl rfl
    have hunderstood := hw.understood
    cases s <;> exact hunderstood
  resolved := by
    intro vs s w fd addrs alloc _ hw _ _
    refine hw.unchanged ?_ rfl rfl
    have hunderstood := hw.understood
    cases s <;> exact hunderstood
  others := by
    intro vs s w sel m _ hw _ _
    refine hw.unchanged ?_ rfl rfl
    have hunderstood := hw.understood
    cases s <;> exact hunderstood

theorem Initial.gate {c : Config} (h : Initial c) :
    Gate [] .greetingRead c.world := by
  obtain ⟨address, clientFd, s, m, rfl, -, -⟩ := h
  exact ⟨⟨by simp, by simp, by simp⟩, fun _ => rfl, ⟨rfl, rfl, [],
    ⟨rfl, rfl, rfl⟩, rfl⟩, by simp, by simp [newSession]⟩

/-- What holds in every run: the gate, and the client's descriptor. -/
def Basics : Assertion := fun vs s w =>
  Gate vs s w ∧ (w.destroyed = false → Seated w)

theorem basics_inductive (company : Company) :
    Inductive company Anything AnyEvent Basics :=
  (gate_inductive company).and (seated_inductive company).given

theorem Initial.stm_eq {c : Config} (h : Initial c) : c.stm = {} := by
  obtain ⟨address, clientFd, s, m, rfl, -⟩ := h
  rfl

theorem Initial.basics {c : Config} (h : Initial c) :
    Basics [] .greetingRead c.world := by
  refine ⟨h.gate, fun _ => ?_⟩
  obtain ⟨address, clientFd, s, m, rfl, hs, -⟩ := h
  have hreg : s.Registered clientFd := by
    rw [FdSelector.Registered, hs]
    simp
  have := hreg.nonneg
  exact ⟨hreg, by simp only [newSession, newSocksv5]; omega⟩

/-- In every run of a session the states are visited in protocol order and none
twice; `REQUEST_READ` is only reached by a client that has been admitted, and
no connection is begun before it. -/
theorem reachable_gate {company : Company} {c : Config}
    (h : Reachable company c) :
    ∃ vs, c.Visited vs ∧ InOrder vs ∧
      (.requestRead ∈ vs → Admitted c.world) ∧
      ∀ call ∈ c.world.log, call.connects = true → .requestRead ∈ vs := by
  obtain ⟨c₀, tr, hinit, hrun⟩ := h
  obtain ⟨vs, hvs, hgate⟩ := (gate_inductive company).run hrun
    (fun _ _ => trivial) hinit.stm_eq hinit.gate
  exact ⟨vs, hvs, hgate.inOrder, hgate.admitted, hgate.connects⟩

theorem Reachable.exists_visited {company : Company} {c : Config}
    (h : Reachable company c) : ∃ vs, c.Visited vs := by
  obtain ⟨c₀, tr, hinit, hrun⟩ := h
  obtain ⟨vs, hvs, -⟩ := (gate_inductive company).run hrun
    (fun _ _ => trivial) hinit.stm_eq hinit.gate
  exact ⟨vs, hvs⟩

/-- A client that offers no authentication, and is sent the answer in two
parts. -/
def unauthenticatedClient : List Act :=
  [.dispatch .read 5 { recv := .received [5, 1] } [],
    .dispatch .read 5 { recv := .received [0] } [],
    .dispatch .write 5 { send := .accepted 0 } [],
    .dispatch .write 5 { send := .accepted 7 } []]

theorem unauthenticatedClient_gate :
    ∃ c vs, play .crowded (accepted 5) unauthenticatedClient = some c ∧
      c.Visited vs ∧ InOrder vs ∧ .requestRead ∈ vs ∧ Admitted c.world := by
  have hplay : (play .crowded (accepted 5) unauthenticatedClient).any
      (fun c => decide (GlobalState.requestRead.id ∈ c.stm.trail)) = true := by
    decide
  obtain ⟨c, hc, htrail⟩ := (Option.any_eq_true _ _).mp hplay
  obtain ⟨vs, hvs, hinOrder, hadmitted, -⟩ := reachable_gate
    (reachable_of_play (accepted_initial (by decide) (by decide)) hc)
  have hmem := hvs.mem_iff.mpr (of_decide_eq_true htrail)
  exact ⟨c, vs, hc, hvs, hinOrder, hmem, hadmitted hmem⟩

end Socksv5
