import Socksv5.Session.Answering
import Socksv5.Session.Fates
import Socksv5.Session.Script

/-!
# The addresses of a name

A session that has been told of the addresses of a name answers its client
rightly however the attempts to connect to them come to an end, provided that
all of them fail at once, that the first is successful, or that there is no
other.
-/

namespace Socksv5

open Support

/-- The event goes as fated: the attempts, which began after `made₀` others,
begin and end so; the origin can be written to once its connection has ended;
and `SO_ERROR` says whether it has failed. -/
def Fated (fs : List Fate) (made₀ : ℕ) (w : World) : Event → Prop
  | .dispatch .block fd sys => fd = w.session.clientFd ∧
      ∀ (i : ℕ) (hi : i < fs.length),
        (sys.attempts i).Begins w.selector sys.realloc (fs.get ⟨i, hi⟩)
  | .dispatch .write fd sys =>
      (fd = w.session.originFd → w.conn ≠ .connecting) ∧
        ∃ e, sys.soError = some e ∧ (e = 0 ↔ w.conn ≠ .failed)
  | .connectionEnds ok =>
      fs[w.made - made₀ - 1]? = some (if ok then .accepts else .failsLater)
  | _ => True

/-- The session is about to be told of the addresses of the name that its
client asked for. -/
structure Notified (c : Config) (addrs : List SockAddr) : Prop where
  state : c.state = .originConnect
  live : c.world.destroyed = false
  job : c.world.session.clientFd ∈ c.world.selector.resolutionJobs
  resolution : c.world.session.originResolution = addrs

/-- A run in `ORIGIN_CONNECT` of events that go as fated. -/
structure Trying (fs : List Fate) (made₀ : ℕ) (c : Config)
    (tr : List (Config × Event)) (c' : Config) : Prop where
  run : Run (Step .alone) c tr c'
  trying : ∀ x ∈ tr, x.1.state = .originConnect
  fated : ∀ x ∈ tr, Fated fs made₀ x.1.world x.2

/-- The answer is the right one: `SUCCEDED` for a connection to the first
address that accepts, where there is one, and otherwise not before every
address has been attempted. -/
def Answered (addrs : List SockAddr) (fs : List Fate) (made₀ : ℕ)
    (w : World) : Prop :=
  if .accepts ∈ fs then
    w.session.request.parser.reply = .succeded ∧ w.conn = .connected ∧
      ∃ addr, addrs[fs.idxOf .accepts]? = some addr ∧
        w.lastConnection = some (w.session.originFd, addr)
  else w.session.request.parser.reply ≠ .succeded ∧
    w.made = made₀ + fs.length

/-- A descriptor that `socket` may return and the selector can register. -/
structure World.Free (w : World) (n : ℕ) : Prop where
  valid : invalidFd n = false
  lt : n < w.selector.fdSize
  fresh : ¬ w.selector.Registered n ∧ (n : ℤ) ≠ w.session.clientFd

/-- However the events come, the session answers, and its answer is the right
one. -/
def FallsBack (c : Config) (addrs : List SockAddr) (fs : List Fate) : Prop :=
  ∀ tr c', Trying fs c.world.made c tr c' →
    (c'.state ≠ .originConnect → c'.state = .requestWrite ∧
      Answered addrs fs c.world.made c'.world) ∧
    (c'.state = .originConnect → (∃ n, c'.world.Free n) →
      ∃ tr' c'', Trying fs c.world.made c' tr' c'' ∧
        c''.state ≠ .originConnect)

/-- Every attempt fails at once, or the first is successful, or there is no
other. -/
def FirstDecides (fs : List Fate) : Prop :=
  (∀ f ∈ fs, f = .failsAtOnce) ∨ fs.head? = some .accepts ∨ fs = [.failsLater]

instance (fs : List Fate) : Decidable (FirstDecides fs) :=
  inferInstanceAs (Decidable (_ ∨ _))

/-! ## Looking at the connection -/

/-- What `verify_connection` leaves when `SO_ERROR` is `error`. -/
structure Looked (w w' : World) (error : ℕ) : Prop where
  conn : w'.conn = w.conn
  made : w'.made = w.made
  connection : w'.lastConnection = w.lastConnection
  originFd : w'.session.originFd = w.session.originFd
  reply : w'.session.request.parser.reply = .succeded ↔ error = 0

theorem Verifies.looked {sys : Sys} {fd : ℤ} {w w' : World} {error : ℕ}
    (h : Verifies sys fd w .requestWrite w') (herror : sys.soError = some error) :
    Looked w w' error := by
  cases h with
  | answers herror' hreply =>
      rw [herror] at herror'
      cases herror'
      refine ⟨rfl, ?_, ?_, rfl, ?_⟩
      · simp [World.made, Call.isSocket]
      · simp [World.lastConnection, Call.connection, List.findSome?]
      · rcases hreply with ⟨rfl, rfl⟩ | ⟨hne, rfl⟩
        · exact iff_of_true rfl rfl
        · exact iff_of_false (replyOfError_ne _) hne

/-! ## How far a session has got -/

/-- The session is about to be told of the addresses. -/
structure Waiting (addrs : List SockAddr) (made₀ : ℕ) (w : World) : Prop where
  live : w.destroyed = false
  job : w.session.clientFd ∈ w.selector.resolutionJobs
  resolution : w.session.originResolution = addrs
  made : w.made = made₀
  resolving : Resolving w
  client : w.selector.Registered w.session.clientFd

/-- After the attempts `pre` that failed at once there is one, fated `f`, for
the address `addr` in progress, or it has ended. -/
structure Pending (made₀ : ℕ) (pre : List Fate) (f : Fate) (addr : SockAddr)
    (w : World) : Prop where
  live : w.destroyed = false
  threads : w.threads = []
  jobs : w.session.clientFd ∉ w.selector.resolutionJobs
  conn : w.conn = .connecting ∨ ∃ ok : Bool,
    w.conn = (if ok then .connected else .failed) ∧
      f = (if ok then .accepts else .failsLater)
  made : w.made = made₀ + pre.length + 1
  connection : w.lastConnection = some (w.session.originFd, addr)
  origin : w.selector.interest? w.session.originFd = some .write
  distinct : w.session.originFd ≠ w.session.clientFd
  client : w.selector.Registered w.session.clientFd
  unwritten : pre = [] → w.selector.Unwritten w.session.clientFd
  written : pre ≠ [] →
    w.selector.interest? w.session.clientFd = some .write

/-- The first attempt that does not fail at once is fated `f`, after the
attempts `pre`, for the address `addr`. -/
structure Splits (addrs : List SockAddr) (fs pre : List Fate) (f : Fate)
    (addr : SockAddr) : Prop where
  eq : ∃ post, fs = pre ++ f :: post
  fail : ∀ g ∈ pre, g = .failsAtOnce
  lasts : f ≠ .failsAtOnce
  addr : addrs[pre.length]? = some addr

/-- `Blocked addrs fs made₀ ret w`: the block callback returns `ret` and leaves
`w`. -/
inductive Blocked (addrs : List SockAddr) (fs : List Fate) (made₀ : ℕ) :
    GlobalState → World → Prop
  | answers {w : World} : (∀ f ∈ fs, f = .failsAtOnce) →
      w.session.request.parser.reply = .hostUnreachable →
      w.made = made₀ + fs.length → Blocked addrs fs made₀ .requestWrite w
  | pends {pre : List Fate} {f : Fate} {addr : SockAddr} {w : World} :
      Splits addrs fs pre f addr → w.conn = .connecting →
      Pending made₀ pre f addr w → Blocked addrs fs made₀ .originConnect w

theorem Waiting.blocked {addrs : List SockAddr} {fs : List Fate} {made₀ : ℕ}
    {sys : Sys} {w w' : World} {ret : GlobalState}
    (hw : Waiting addrs made₀ w) (hlen : fs.length = addrs.length)
    (hhands : w.Hands .alone .block w.session.clientFd) (hkernel : w.Kernel sys)
    (hbegins : ∀ (i : ℕ) (hi : i < fs.length),
      (sys.attempts i).Begins w.selector sys.realloc (fs.get ⟨i, hi⟩))
    (h : connectOriginBlock sys w.session.clientFd
      (w.delivered .block w.session.clientFd) = .ok (ret, w')) :
    Blocked addrs fs made₀ ret w' := by
  obtain ⟨hthreads, hjobs⟩ := hw.resolving.delivered hhands
  obtain ⟨-, -, hunwritten⟩ := hw.resolving.idle (Or.inr hw.job)
  have hspec := connectOriginBlock_spec h
  obtain ⟨hthreads', hjobs', hclient, hdestroyed⟩ := hspec.sameRest
  have hbegins' (i : ℕ) (hi : i < fs.length) :
      (sys.attempts (0 + i)).Begins
        (w.delivered .block w.session.clientFd).selector sys.realloc
        (fs.get ⟨i, hi⟩) := by
    rw [Nat.zero_add]
    exact (hbegins i hi).of_fdSize rfl
  have hlen' : fs.length =
      (w.delivered .block w.session.clientFd).session.originResolution.length :=
    hlen.trans (congrArg List.length hw.resolution.symm)
  rcases hspec.fated rfl hlen' hbegins' hw.client hkernel.fresh with
    ⟨hall, rfl, hgiven⟩ | ⟨pre, f, post, addr, rfl, hpre, hf, rfl, haddr, hunder⟩
  · refine .answers hall hgiven.reply ?_
    rw [hgiven.made, ← hw.made]
    rfl
  · have hinterest : w'.selector.interest? w'.session.clientFd =
        if pre.length = 0 then w.selector.interest? w.session.clientFd
        else some .write := by
      rw [hclient]
      exact hunder.client
    refine .pends ⟨⟨post, rfl⟩, hpre, hf, hw.resolution ▸ haddr⟩ hunder.conn
      ⟨hdestroyed.trans hw.live, hthreads'.trans hthreads, ?_, Or.inl hunder.conn,
        ?_, hunder.connection, hunder.origin, ?_, ?_, fun hnil => ?_,
        fun hne => ?_⟩
    · rw [hjobs', hclient]
      exact hjobs
    · rw [hunder.made, ← hw.made]
      rfl
    · rw [hclient]
      exact hunder.distinct
    · rw [FdSelector.Registered, hinterest]
      split
      · exact hw.client
      · simp
    · intro i hi
      rw [hinterest, if_pos (by rw [hnil]; rfl)] at hi
      exact hunwritten i hi
    · rw [hinterest, if_neg (by simpa using hne)]

/-! ## What an event does -/

/-- The machine of a session is in the state that the session is in, once it
has been started. -/
theorem Config.current_eq {c : Config} {s : GlobalState} (h : c.state = s)
    (hs : s ≠ .greetingRead ∧ s ≠ .error) : c.stm.current = some s.id := by
  unfold Config.state at h
  cases hcur : c.stm.current with
  | none =>
      rw [hcur] at h
      exact absurd h.symm hs.1
  | some i =>
      simp only [hcur] at h
      cases hid : GlobalState.ofId i with
      | none =>
          rw [hid] at h
          exact absurd h.symm hs.2
      | some t =>
          rw [hid] at h
          obtain rfl : t = s := h
          rw [GlobalState.eq_id_of_ofId hid]

/-- A dispatch to a session in `ORIGIN_CONNECT` leads to the state and the
world that the callback returns. -/
theorem exists_dispatch {c : Config} {r : Ready} {fd : ℤ} {sys : Sys}
    {f : Callback} {ret : GlobalState} {w : World}
    (hstate : c.state = .originConnect)
    (hf : onReady sys fd .originConnect r = some f)
    (h : f (c.world.delivered r fd) = .ok (ret, w))
    (hret : ret = .originConnect ∨ ret = .requestWrite) :
    ∃ c', dispatch r fd sys ⟨c.stm, c.world.delivered r fd⟩ = .ok c' ∧
      c'.state = ret ∧ c'.world = w := by
  have hcur := Config.current_eq hstate (by decide)
  rcases hret with rfl | rfl
  · exact ⟨_, dispatch_stays (c := ⟨c.stm, c.world.delivered r fd⟩) hcur hf h,
      hstate, rfl⟩
  · exact ⟨_, dispatch_enters (c := ⟨c.stm, c.world.delivered r fd⟩) hcur hf h
      (by decide) (by decide) (by decide), Config.state_of_current rfl, rfl⟩

/-- How far a session has got. -/
inductive Phase (addrs : List SockAddr) (fs : List Fate) (made₀ : ℕ)
    (c : Config) : Prop
  | waiting : c.state = .originConnect → Waiting addrs made₀ c.world →
      Phase addrs fs made₀ c
  | pending {pre : List Fate} {f : Fate} {addr : SockAddr} :
      c.state = .originConnect → Splits addrs fs pre f addr →
      Pending made₀ pre f addr c.world → Phase addrs fs made₀ c
  | answered : c.state = .requestWrite →
      (FirstDecides fs → Answered addrs fs made₀ c.world) →
      Phase addrs fs made₀ c

section Steps

variable {addrs : List SockAddr} {fs pre : List Fate} {made₀ : ℕ} {f : Fate}
  {addr : SockAddr} {c c' : Config} {e : Event}

theorem Splits.get (h : Splits addrs fs pre f addr) :
    fs[pre.length]? = some f := by
  obtain ⟨post, rfl⟩ := h.eq
  simp

/-- What the block callback leads to. -/
theorem Blocked.phase {ret : GlobalState} {w : World}
    (h : Blocked addrs fs made₀ ret w) (hstate : c.state = ret)
    (hworld : c.world = w) : Phase addrs fs made₀ c := by
  subst hworld
  cases h with
  | answers hall hreply hmade =>
      refine .answered hstate fun _ => ?_
      have hnot : Fate.accepts ∉ fs := fun hmem => nomatch hall _ hmem
      rw [Answered, if_neg hnot, hreply]
      exact ⟨by decide, hmade⟩
  | pends hsplits _ hpending => exact .pending hstate hsplits hpending

/-- The first attempt decides what the answer is. -/
theorem Pending.answered {w w' : World} {error : ℕ}
    (hw : Pending made₀ pre f addr w) (hsplits : Splits addrs fs pre f addr)
    (hlooked : Looked w w' error) (herror : error = 0 ↔ w.conn ≠ .failed)
    (hconn : pre = [] → w.conn ≠ .connecting) (hfs : FirstDecides fs) :
    Answered addrs fs made₀ w' := by
  obtain ⟨post, rfl⟩ := hsplits.eq
  have hended (hnil : pre = []) : ∃ ok : Bool,
      w.conn = (if ok then .connected else .failed) ∧
        f = (if ok then .accepts else .failsLater) :=
    hw.conn.resolve_left (hconn hnil)
  rcases hfs with hall | hhead | heq
  · exact absurd (hall f (by simp)) hsplits.lasts
  · have hnil : pre = [] := by
      rcases pre with - | ⟨g, pre⟩
      · rfl
      · obtain rfl := hsplits.fail g (by simp)
        simp at hhead
    subst hnil
    obtain rfl : f = .accepts := by simpa using hhead
    obtain ⟨ok, hc, hok⟩ := hended rfl
    obtain rfl : ok = true := by
      by_contra hnot
      simp [hnot] at hok
    simp only [if_true] at hc
    rw [Answered, if_pos (by simp)]
    refine ⟨hlooked.reply.mpr (herror.mpr (by simp [hc])), hlooked.conn.trans hc,
      addr, ?_, ?_⟩
    · simpa using hsplits.addr
    · rw [hlooked.connection, hw.connection, hlooked.originFd]
  · obtain rfl : pre = [] := by
      rcases pre with - | ⟨g, pre⟩
      · rfl
      · simp at heq
    obtain ⟨rfl, rfl⟩ : f = .failsLater ∧ post = [] := by simpa using heq
    obtain ⟨ok, hc, hok⟩ := hended rfl
    obtain rfl : ok = false := by
      by_contra hnot
      simp [hnot] at hok
    simp only [Bool.false_eq_true, if_false] at hc
    rw [Answered, if_neg (by simp)]
    refine ⟨fun hreply => ?_, hlooked.made.trans hw.made⟩
    exact herror.mp (hlooked.reply.mp hreply) hc

/-- What the callback of the event has returned. -/
theorem exists_callback {r : Ready} {fd : ℤ} {sys : Sys}
    (hstate : c.state = .originConnect)
    (h : dispatch r fd sys ⟨c.stm, c.world.delivered r fd⟩ = .ok c') :
    ∃ f ret w, onReady sys fd .originConnect r = some f ∧
      f (c.world.delivered r fd) = .ok (ret, w) := by
  obtain ⟨f, ret, w, -, hf, hcall, -⟩ := dispatch_outcome
    (c := ⟨c.stm, c.world.delivered r fd⟩)
    (Config.current_eq hstate (by decide)) h
  exact ⟨f, ret, w, hf, hcall⟩

/-- The session waits until it is told of the addresses. -/
theorem Waiting.step (hw : Waiting addrs made₀ c.world)
    (hstate : c.state = .originConnect) (hlen : fs.length = addrs.length)
    (hstep : Step .alone c e c') (hfated : Fated fs made₀ c.world e) :
    Phase addrs fs made₀ c' := by
  obtain ⟨hconn, horigin, hunwritten⟩ := hw.resolving.idle (Or.inr hw.job)
  cases hstep with
  | @dispatch c' r fd sys hlive hhands hkernel hdispatch =>
      obtain ⟨f, ret, w, hf, hcall⟩ := exists_callback hstate hdispatch
      cases r with
      | read => cases hf
      | write =>
          have hfd := hhands.1.eq_clientFd horigin
          exact absurd (hfd ▸ hunwritten) hhands.not_unwritten
      | block =>
          cases hf
          obtain ⟨rfl, hbegins⟩ := hfated
          have hblocked := hw.blocked hlen hhands hkernel hbegins hcall
          have hret : ret = .originConnect ∨ ret = .requestWrite := by
            cases hblocked with
            | answers => exact Or.inr rfl
            | pends => exact Or.inl rfl
          obtain ⟨c₁, hc₁, hstate₁, hworld₁⟩ := exists_dispatch hstate rfl hcall hret
          rw [hdispatch] at hc₁
          cases hc₁
          exact hblocked.phase hstate₁ hworld₁
  | connectionEnds ok _ hconnecting =>
      rw [hconn] at hconnecting
      cases hconnecting
  | resolved addrs' _ _ hthread =>
      have hcount := List.count_pos_iff.mpr hw.job
      have hlength := List.length_pos_of_mem hthread
      have := hw.resolving.once
      omega
  | @others s m hsame =>
      obtain ⟨hreg, hsame⟩ := hsame _ ⟨hw.client.nonneg, Or.inl rfl⟩
      obtain ⟨hinterest, hcount⟩ := hsame rfl
      have hjob : c.world.session.clientFd ∈ s.resolutionJobs := by
        rw [← List.count_pos_iff, hcount]
        exact List.count_pos_iff.mpr hw.job
      refine .waiting hstate ⟨hw.live, hjob, hw.resolution, hw.made, ⟨?_, ?_⟩,
        hreg.mpr hw.client⟩
      · rw [hcount]
        exact hw.resolving.once
      · intro _
        refine ⟨hconn, horigin, fun i hi => hunwritten i ?_⟩
        rwa [← hinterest]

/-- The attempt in progress ends. -/
theorem Pending.ends {w : World} (hw : Pending made₀ pre f addr w) (ok : Bool)
    (hok : f = (if ok then .accepts else .failsLater)) :
    Pending made₀ pre f addr
      { w with conn := if ok then .connected else .failed } :=
  { hw with conn := Or.inr ⟨ok, rfl, hok⟩ }

theorem Pending.fated_ends_iff {w : World} (hw : Pending made₀ pre f addr w)
    (hsplits : Splits addrs fs pre f addr) (ok : Bool) :
    Fated fs made₀ w (.connectionEnds ok) ↔
      f = (if ok then .accepts else .failsLater) := by
  have hindex : w.made - made₀ - 1 = pre.length := by
    rw [hw.made]
    omega
  rw [Fated, hindex, hsplits.get, Option.some_inj]

/-- An attempt in progress ends, and then the session looks at it. -/
theorem Pending.step (hw : Pending made₀ pre f addr c.world)
    (hsplits : Splits addrs fs pre f addr) (hstate : c.state = .originConnect)
    (hstep : Step .alone c e c') (hfated : Fated fs made₀ c.world e) :
    Phase addrs fs made₀ c' := by
  have hnonneg : 0 ≤ c.world.session.originFd := by
    have hreg : c.world.selector.Registered c.world.session.originFd := by
      rw [FdSelector.Registered, hw.origin]
      simp
    exact hreg.nonneg
  cases hstep with
  | @dispatch c' r fd sys hlive hhands hkernel hdispatch =>
      obtain ⟨g, ret, w, hg, hcall⟩ := exists_callback hstate hdispatch
      cases r with
      | read => cases hg
      | write =>
          cases hg
          obtain ⟨hended, error, hso, herror⟩ := hfated
          obtain ⟨w', hverify⟩ := exists_verifyConnection hso hhands.2.1 hw.client
          have hlooked := (verifyConnection_spec hverify).looked hso
          obtain ⟨c₁, hc₁, hstate₁, rfl⟩ := exists_dispatch (r := .write) hstate rfl
            hverify (Or.inr rfl)
          rw [hdispatch] at hc₁
          cases hc₁
          refine .answered hstate₁ (hw.answered hsplits hlooked herror ?_)
          intro hnil
          rcases hhands.1.2 with rfl | horigin
          · exact absurd (hw.unwritten hnil) hhands.not_unwritten
          · exact hended horigin
      | block => exact absurd (hfated.1 ▸ hhands.2.2) hw.jobs
  | connectionEnds ok _ hconn =>
      exact .pending hstate hsplits
        (hw.ends ok ((hw.fated_ends_iff hsplits ok).mp hfated))
  | resolved addrs' _ _ hthread =>
      rw [hw.threads] at hthread
      cases hthread
  | @others s m hsame =>
      obtain ⟨hreg, hsame₁⟩ := hsame _ ⟨hw.client.nonneg, Or.inl rfl⟩
      obtain ⟨hinterest, hcount⟩ := hsame₁ rfl
      obtain ⟨-, hsame₂⟩ := hsame _ ⟨hnonneg, Or.inr rfl⟩
      refine .pending hstate hsplits { hw with
        jobs := ?_
        origin := (hsame₂ rfl).1.trans hw.origin
        client := hreg.mpr hw.client
        unwritten := fun hnil i hi => hw.unwritten hnil i (hinterest ▸ hi)
        written := fun hne => hinterest.trans (hw.written hne) }
      change _ ∉ s.resolutionJobs
      rw [← List.count_eq_zero, hcount]
      exact List.count_eq_zero.mpr hw.jobs

/-! ## Runs of a session that has been told of the addresses -/

theorem Trying.phase {tr : List (Config × Event)} (h : Trying fs made₀ c tr c')
    (hlen : fs.length = addrs.length) (hc : Phase addrs fs made₀ c) :
    Phase addrs fs made₀ c' := by
  refine h.run.invariant_of
    (C := fun c e => c.state = .originConnect ∧ Fated fs made₀ c.world e)
    (fun x hx => ⟨h.trying x hx, h.fated x hx⟩) hc ?_
  intro c₁ e c₂ hphase hC hstep
  cases hphase with
  | waiting hstate hw => exact hw.step hstate hlen hstep hC.2
  | pending hstate hsplits hw => exact hw.step hsplits hstate hstep hC.2
  | answered hstate =>
      rw [hstate] at hC
      exact absurd hC.1 (by decide)

theorem Trying.nil : Trying fs made₀ c [] c :=
  ⟨.nil, by simp, by simp⟩

theorem Trying.cons {c₁ : Config} {tr : List (Config × Event)}
    (hstate : c.state = .originConnect) (hstep : Step .alone c e c₁)
    (hfated : Fated fs made₀ c.world e) (h : Trying fs made₀ c₁ tr c') :
    Trying fs made₀ c ((c, e) :: tr) c' where
  run := (Run.single hstep).append h.run
  trying := by
    rintro x (- | ⟨-, hx⟩)
    · exact hstate
    · exact h.trying x ‹_›
  fated := by
    rintro x (- | ⟨-, hx⟩)
    · exact hfated
    · exact h.fated x ‹_›

/-- Results for which the attempts begin as fated. -/
def Fate.attempt (n : ℕ) : Fate → Attempt
  | .failsAtOnce => {}
  | .failsLater | .accepts => { socket := some n, connect := .inProgress }

theorem Fate.attempt_begins {n : ℕ} {w : World} (hn : w.Free n) (f : Fate) :
    (f.attempt n).Begins w.selector true f := by
  cases f with
  | failsAtOnce => rfl
  | failsLater | accepts =>
      exact ⟨rfl, rfl, n, rfl, hn.valid, Or.inr rfl⟩

theorem Fate.of_attempt {n m : ℕ} {f : Fate}
    (h : (f.attempt n).socket = some m) : m = n := by
  cases f with
  | failsAtOnce => cases h
  | failsLater | accepts => exact (Option.some.inj h).symm

variable (fs) in
/-- The session can be told of the addresses. -/
theorem Waiting.exists_block (hw : Waiting addrs made₀ c.world)
    (hstate : c.state = .originConnect) (hlen : fs.length = addrs.length)
    (hfree : ∃ n, c.world.Free n) :
    ∃ e c', Step .alone c e c' ∧ Fated fs made₀ c.world e ∧
      Blocked addrs fs made₀ c'.state c'.world := by
  obtain ⟨n, hn⟩ := hfree
  let sys : Sys :=
    { attempts := fun i => (fs.getD i .failsAtOnce).attempt n }
  have hsocket (i m : ℕ) (h : (sys.attempts i).socket = some m) : m = n :=
    Fate.of_attempt h
  have hbegins (i : ℕ) (hi : i < fs.length) :
      (sys.attempts i).Begins c.world.selector sys.realloc (fs.get ⟨i, hi⟩) := by
    have hget : fs.getD i .failsAtOnce = fs.get ⟨i, hi⟩ :=
      List.getD_eq_getElem _ _ hi
    change ((fs.getD i .failsAtOnce).attempt n).Begins _ _ _
    rw [hget]
    exact Fate.attempt_begins hn _
  have hhands : c.world.Hands .alone .block c.world.session.clientFd :=
    ⟨⟨hw.client.nonneg, Or.inl rfl⟩, hw.client, hw.job⟩
  have hkernel : c.world.Kernel sys := by
    refine ⟨fun i m hm => ?_, fun hfailed => ?_⟩
    · rw [hsocket i m hm]
      exact hn.fresh
    · rw [(hw.resolving.idle (Or.inr hw.job)).1] at hfailed
      cases hfailed
  obtain ⟨ret, w', hcall⟩ := exists_connectOriginBlock sys
    (w := c.world.delivered .block c.world.session.clientFd) rfl hw.client
    (fun i m hm => by rw [hsocket i m hm]; exact hn.lt)
  have hblocked := hw.blocked hlen hhands hkernel hbegins hcall
  have hret : ret = .originConnect ∨ ret = .requestWrite := by
    cases hblocked with
    | answers => exact Or.inr rfl
    | pends => exact Or.inl rfl
  obtain ⟨c', hc', hstate', rfl⟩ := exists_dispatch hstate rfl hcall hret
  refine ⟨_, c', .dispatch hw.live hhands hkernel hc', ⟨rfl, hbegins⟩, ?_⟩
  rw [hstate']
  exact hblocked

variable (fs) in
/-- The session can look at the connection, too early if an attempt has failed
before. -/
theorem Pending.exists_write {fd : ℤ} (hw : Pending made₀ pre f addr c.world)
    (hstate : c.state = .originConnect)
    (hfd : fd = c.world.session.clientFd ∧ pre ≠ [] ∨
      fd = c.world.session.originFd ∧ c.world.conn ≠ .connecting) :
    ∃ e c' error, Step .alone c e c' ∧ Fated fs made₀ c.world e ∧
      c'.state = .requestWrite ∧ Looked c.world c'.world error ∧
      (error = 0 ↔ c.world.conn ≠ .failed) := by
  let error := if c.world.conn = .failed then 1 else 0
  let sys : Sys := { soError := some error }
  have hso : sys.soError = some error := rfl
  have herror : error = 0 ↔ c.world.conn ≠ .failed := by
    by_cases hfailed : c.world.conn = .failed <;> simp [error, hfailed]
  have hinterest : c.world.selector.interest? fd = some .write := by
    rcases hfd with ⟨rfl, hne⟩ | ⟨rfl, -⟩
    · exact hw.written hne
    · exact hw.origin
  have hreg : c.world.selector.Registered fd := by
    rw [FdSelector.Registered, hinterest]
    simp
  have hhands : c.world.Hands .alone .write fd :=
    ⟨⟨hreg.nonneg, hfd.imp And.left And.left⟩, hreg, .write, hinterest, rfl⟩
  have hkernel : c.world.Kernel sys := by
    refine ⟨fun _ _ h => absurd h (by simp [sys]), fun hfailed hzero => ?_⟩
    exact herror.mp (Option.some.inj hzero) hfailed
  obtain ⟨w', hverify⟩ := exists_verifyConnection hso hreg hw.client
  have hlooked := (verifyConnection_spec hverify).looked hso
  obtain ⟨c', hc', hstate', rfl⟩ := exists_dispatch (r := .write) hstate rfl
    hverify (Or.inr rfl)
  refine ⟨_, c', error, .dispatch hw.live hhands hkernel hc', ⟨?_, error, rfl,
    herror⟩, hstate', hlooked, herror⟩
  rintro rfl
  rcases hfd with ⟨heq, -⟩ | ⟨-, hended⟩
  · exact absurd heq hw.distinct
  · exact hended

/-- An attempt in progress can come to its end, and the session can answer. -/
theorem Pending.exists_answer (hw : Pending made₀ pre f addr c.world)
    (hsplits : Splits addrs fs pre f addr)
    (hstate : c.state = .originConnect) :
    ∃ tr c', Trying fs made₀ c tr c' ∧ c'.state ≠ .originConnect := by
  by_cases hconn : c.world.conn = .connecting
  · obtain ⟨ok, hok⟩ : ∃ ok : Bool, f = (if ok then .accepts else .failsLater) := by
      have hlasts := hsplits.lasts
      cases f with
      | failsAtOnce => exact absurd rfl hlasts
      | failsLater => exact ⟨false, rfl⟩
      | accepts => exact ⟨true, rfl⟩
    obtain ⟨e, c', error, hstep, hfated, hstate', -⟩ := Pending.exists_write
      (c := ⟨c.stm, _⟩) fs (hw.ends ok hok) hstate
      (Or.inr ⟨rfl, by cases ok <;> simp⟩)
    refine ⟨_, c', .cons hstate (.connectionEnds ok hw.live hconn)
      ((hw.fated_ends_iff hsplits ok).mpr hok)
      (.cons hstate hstep hfated .nil), ?_⟩
    rw [hstate']
    decide
  · obtain ⟨e, c', error, hstep, hfated, hstate', -⟩ :=
      hw.exists_write fs hstate (Or.inr ⟨rfl, hconn⟩)
    refine ⟨_, c', .cons hstate hstep hfated .nil, ?_⟩
    rw [hstate']
    decide

/-- The session can answer. -/
theorem Phase.exists_answer (h : Phase addrs fs made₀ c)
    (hstate : c.state = .originConnect) (hlen : fs.length = addrs.length)
    (hfree : ∃ n, c.world.Free n) :
    ∃ tr c', Trying fs made₀ c tr c' ∧ c'.state ≠ .originConnect := by
  cases h with
  | waiting _ hw =>
      obtain ⟨e, c₁, hstep, hfated, hblocked⟩ :=
        hw.exists_block fs hstate hlen hfree
      by_cases hstate₁ : c₁.state = .originConnect
      · rw [hstate₁] at hblocked
        cases hblocked with
        | pends hsplits _ hpending =>
            obtain ⟨tr, c', htrying, hanswer⟩ :=
              hpending.exists_answer hsplits hstate₁
            exact ⟨_, c', .cons hstate hstep hfated htrying, hanswer⟩
      · exact ⟨_, c₁, .cons hstate hstep hfated .nil, hstate₁⟩
  | pending _ hsplits hw => exact hw.exists_answer hsplits hstate
  | answered hother =>
      rw [hstate] at hother
      exact absurd hother (by decide)

/-- After an attempt that fails later there is none. -/
theorem Pending.exists_failure {post : List Fate}
    (hw : Pending made₀ [] .failsLater addr c.world)
    (hsplits : Splits addrs (.failsLater :: post) [] .failsLater addr)
    (hstate : c.state = .originConnect) (hconn : c.world.conn = .connecting)
    (hpost : post ≠ []) :
    ∃ tr c', Trying (.failsLater :: post) made₀ c tr c' ∧
      c'.state = .requestWrite ∧
      ¬ Answered addrs (.failsLater :: post) made₀ c'.world := by
  obtain ⟨e, c', error, hstep, hfated, hstate', hlooked, herror⟩ :=
    Pending.exists_write (c := ⟨c.stm, _⟩) _ (hw.ends false rfl) hstate
      (Or.inr ⟨rfl, by simp⟩)
  refine ⟨_, c', .cons hstate (.connectionEnds false hw.live hconn)
    ((hw.fated_ends_iff hsplits false).mpr rfl)
    (.cons hstate hstep hfated .nil), hstate', ?_⟩
  have hreply : c'.world.session.request.parser.reply ≠ .succeded :=
    fun hreply => herror.mp (hlooked.reply.mp hreply) (by simp)
  unfold Answered
  split
  · exact fun hanswered => hreply hanswered.1
  · rintro ⟨-, hmade⟩
    have hone : c'.world.made = made₀ + 1 := hlooked.made.trans hw.made
    rw [hone, List.length_cons] at hmade
    exact hpost (List.eq_nil_of_length_eq_zero (by omega))

/-- After an attempt that fails at once the connection is looked at too
early. -/
theorem Pending.exists_success (hw : Pending made₀ pre f addr c.world)
    (hstate : c.state = .originConnect) (hconn : c.world.conn = .connecting)
    (hpre : pre ≠ []) :
    ∃ tr c', Trying fs made₀ c tr c' ∧ c'.state = .requestWrite ∧
      ¬ Answered addrs fs made₀ c'.world := by
  obtain ⟨e, c', error, hstep, hfated, hstate', hlooked, herror⟩ :=
    hw.exists_write fs hstate (Or.inl ⟨rfl, hpre⟩)
  refine ⟨_, c', .cons hstate hstep hfated .nil, hstate', ?_⟩
  have hreply : c'.world.session.request.parser.reply = .succeded :=
    hlooked.reply.mpr (herror.mpr (by simp [hconn]))
  unfold Answered
  split
  · rintro ⟨-, hconnected, -⟩
    rw [hlooked.conn, hconn] at hconnected
    cases hconnected
  · exact fun hanswered => hanswered.1 hreply

/-- Unless the first attempt decides, an attempt can be left in progress. -/
theorem Blocked.exists_pending {ret : GlobalState} {w : World}
    (h : Blocked addrs fs made₀ ret w) (hfs : ¬ FirstDecides fs) :
    ret = .originConnect ∧ ∃ pre f addr, Splits addrs fs pre f addr ∧
      w.conn = .connecting ∧ Pending made₀ pre f addr w := by
  cases h with
  | answers hall => exact absurd (Or.inl hall) hfs
  | pends hsplits hconn hpending =>
      exact ⟨rfl, _, _, _, hsplits, hconn, hpending⟩

/-- Unless the first attempt decides, the session can answer wrongly. -/
theorem Waiting.exists_wrong (hw : Waiting addrs made₀ c.world)
    (hstate : c.state = .originConnect) (hlen : fs.length = addrs.length)
    (hfree : ∃ n, c.world.Free n) (hfs : ¬ FirstDecides fs) :
    ∃ tr c', Trying fs made₀ c tr c' ∧ c'.state = .requestWrite ∧
      ¬ Answered addrs fs made₀ c'.world := by
  obtain ⟨e, c₁, hstep, hfated, hblocked⟩ :=
    hw.exists_block fs hstate hlen hfree
  obtain ⟨hstate₁, pre, f, addr, hsplits, hconn, hpending⟩ :=
    hblocked.exists_pending hfs
  suffices h : ∃ tr c', Trying fs made₀ c₁ tr c' ∧ c'.state = .requestWrite ∧
      ¬ Answered addrs fs made₀ c'.world by
    obtain ⟨tr, c', htrying, hwrong⟩ := h
    exact ⟨_, c', .cons hstate hstep hfated htrying, hwrong⟩
  by_cases hnil : pre = []
  · subst hnil
    obtain ⟨post, rfl⟩ := hsplits.eq
    obtain rfl : f = .failsLater := by
      have hlasts := hsplits.lasts
      cases f with
      | failsAtOnce => exact absurd rfl hlasts
      | failsLater => rfl
      | accepts => exact absurd (Or.inr (Or.inl rfl)) hfs
    refine hpending.exists_failure hsplits hstate₁ hconn ?_
    rintro rfl
    exact hfs (Or.inr (Or.inr rfl))
  · exact hpending.exists_success hstate₁ hconn hnil

/-- A session that is about to be told of the addresses waits. -/
theorem Reachable.waiting (h : Reachable .alone c) (hc : Notified c addrs) :
    Waiting addrs c.world.made c.world := by
  obtain ⟨hresolving, hseated⟩ := h.resolving hc.state hc.live
  exact ⟨hc.live, hc.job, hc.resolution, rfl, hresolving, hseated.client⟩

theorem not_fallsBack (h : Reachable .alone c) (hc : Notified c addrs)
    (hlen : fs.length = addrs.length) (hfree : ∃ n, c.world.Free n)
    (hfs : ¬ FirstDecides fs) : ¬ FallsBack c addrs fs := by
  intro hfalls
  obtain ⟨tr, c', htrying, hstate, hwrong⟩ :=
    (h.waiting hc).exists_wrong hc.state hlen hfree hfs
  have hanswered := (hfalls tr c' htrying).1 (by rw [hstate]; decide)
  exact hwrong hanswered.2

end Steps

/-- A session that is about to be told of the addresses of a name answers
rightly exactly when the first attempt decides. -/
theorem fallsBack_iff {c : Config} {addrs : List SockAddr} {fs : List Fate}
    (h : Reachable .alone c) (hc : Notified c addrs)
    (hlen : fs.length = addrs.length) (hfree : ∃ n, c.world.Free n) :
    FallsBack c addrs fs ↔ FirstDecides fs := by
  constructor
  · intro hfalls
    by_contra hfs
    exact not_fallsBack h hc hlen hfree hfs hfalls
  · intro hfs tr c' htrying
    have hphase := htrying.phase hlen (.waiting hc.state (h.waiting hc))
    refine ⟨fun hne => ?_, fun hstate hfree' => ?_⟩
    · cases hphase with
      | waiting hstate => exact absurd hstate hne
      | pending hstate => exact absurd hstate hne
      | answered hstate hanswered => exact ⟨hstate, hanswered hfs⟩
    · exact hphase.exists_answer hstate hlen hfree'

/-- An address of each family. -/
def twoAddresses : List SockAddr :=
  [⟨.inet, 80, [10, 0, 0, 1]⟩,
    ⟨.inet6, 80, [253, 0, 0, 0, 0, 0, 0, 0, 0, 0, 0, 0, 0, 0, 0, 1]⟩]

/-- A client that asks for a name, for which the resolver finds an address of
each family. -/
def nameClient : List Act :=
  [.dispatch .read 5 { recv := .received [5, 1, 0] } [],
    .dispatch .write 5 { send := .accepted 1 } [],
    .dispatch .read 5 { recv := .received [5, 1, 0, 3, 1, 97, 0, 80] } [],
    .resolved 5 twoAddresses]

theorem exists_notified :
    ∃ c, Reachable .alone c ∧ Notified c twoAddresses ∧
      ∃ n, c.world.Free n := by
  have hplay : (play .alone (accepted 5) nameClient).any (fun c => decide
      ((c.state = .originConnect ∧ c.world.destroyed = false) ∧
        (c.world.session.clientFd ∈ c.world.selector.resolutionJobs ∧
          c.world.session.originResolution = twoAddresses) ∧
        invalidFd 6 = false ∧ 6 < c.world.selector.fdSize ∧
          ¬ c.world.selector.Registered 6 ∧
          6 ≠ c.world.session.clientFd)) = true := by decide
  obtain ⟨c, hc, hchecks⟩ := (Option.any_eq_true _ _).mp hplay
  obtain ⟨⟨hstate, hlive⟩, ⟨hjob, hresolution⟩, hvalid, hlt, hfresh⟩ :=
    of_decide_eq_true hchecks
  exact ⟨c, reachable_of_play (accepted_initial (by decide) (by decide)) hc,
    ⟨hstate, hlive, hjob, hresolution⟩, 6, hvalid, hlt, hfresh⟩

/-- The first of two addresses is one that accepts. -/
theorem fallsBack_of_first_accepts :
    ∃ c, Notified c twoAddresses ∧
      FallsBack c twoAddresses [.accepts, .failsLater] := by
  obtain ⟨c, h, hc, hfree⟩ := exists_notified
  exact ⟨c, hc, (fallsBack_iff h hc rfl hfree).mpr (by decide)⟩

/-- The second of two addresses accepts, and is never attempted. -/
theorem not_fallsBack_to_second :
    ∃ c, Reachable .alone c ∧ Notified c twoAddresses ∧
      ¬ FallsBack c twoAddresses [.failsLater, .accepts] := by
  obtain ⟨c, h, hc, hfree⟩ := exists_notified
  exact ⟨c, h, hc, not_fallsBack h hc rfl hfree (by decide)⟩

end Socksv5
