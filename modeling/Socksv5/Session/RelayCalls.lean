import Socksv5.Session.Relay
import Socksv5.Session.Run
import Socksv5.Session.Traffic
import Mathlib.Algebra.GroupWithZero.Nat

/-!
# The calls that relay

Only the callbacks of `COPY` make calls that relay, and each of them makes one:
the `recv` or the `send` that it begins with.
-/

namespace Socksv5

open Support

/-- The call transfers bytes for the relay. -/
def Call.relays : Call → Bool
  | .recv .copy _ _ _ | .send .copy _ _ => true
  | _ => false

/-- The bytes that the call adds to the metrics. -/
def Call.metered : Call → ℕ
  | .recv .copy _ _ (.received bs) => bs.length
  | _ => 0

/-- The call may be made in the state. -/
def Call.belongs (s : GlobalState) : Call → Bool
  | .recv s' _ _ _ | .send s' _ _ => s' = s
  | .authenticate _ _ _ => s = .authRead
  | _ => true

theorem relays_of_belongs {s : GlobalState} {c : Call}
    (hs : s ≠ .copy) (h : c.belongs s = true) : c.relays = false := by
  cases c with
  | recv s' | send s' =>
      have hstate : s' = s := of_decide_eq_true h
      subst hstate
      cases s' <;> first | rfl | exact absurd rfl hs
  | authenticate | shutdown | socket | connect | getsockopt | thread | setInterest
    | addInterest | reduceInterest | close => rfl

theorem relays_of_not_transfers {c : Call} (h : c.transfers = false) :
    c.relays = false := by
  cases c <;> first | rfl | cases h

/-! ## The callbacks of the other states -/

/-- What a callback has to show for what it relays: its calls, and the bytes
that it adds to the metrics. -/
def World.tally (w : World) : List Call × ℕ :=
  (w.log, w.metrics.totalBytesTransferred)

/-- `Unrelayed s t w`: from `t` to `w`, the calls are those of state `s`, and
nothing has been counted. -/
structure Unrelayed (s : GlobalState) (t : List Call × ℕ) (w : World) : Prop where
  log : ∃ calls, w.log = t.1 ++ calls ∧ ∀ c ∈ calls, c.belongs s = true
  bytes : w.metrics.totalBytesTransferred = t.2

namespace Unrelayed

variable {s : GlobalState} {t : List Call × ℕ} {w w' : World}

theorem of_tally (h : w.tally = t) : Unrelayed s t w := by
  subst h
  exact ⟨⟨[], by simp [World.tally], by simp⟩, rfl⟩

theorem trans (h : Unrelayed s t w) (h' : Unrelayed s w.tally w') :
    Unrelayed s t w' := by
  obtain ⟨calls, hlog, hcalls⟩ := h.log
  obtain ⟨calls', hlog', hcalls'⟩ := h'.log
  refine ⟨⟨calls ++ calls', ?_, ?_⟩, h'.bytes.trans h.bytes⟩
  · rw [hlog', World.tally, hlog, List.append_assoc]
  · intro c hc
    rcases List.mem_append.mp hc with hc | hc
    · exact hcalls c hc
    · exact hcalls' c hc

theorem of_call {c : Call} (hc : c.belongs s = true)
    (h : w.tally = (t.1 ++ [c], t.2)) : Unrelayed s t w :=
  ⟨⟨[c], congrArg Prod.fst h, by simpa using hc⟩, congrArg Prod.snd h⟩

end Unrelayed

/-- `Appends s t x`: after `t`, `x` only makes calls of state `s`. -/
structure Appends {α : Type} (s : GlobalState) (t : List Call × ℕ) (x : Except Fault (α × World)) :
    Prop where
  unrelayed : ∀ a w', x = .ok (a, w') → Unrelayed s t w'

namespace Appends

variable {α β γ : Type} {s : GlobalState} {t : List Call × ℕ} {x y : Except Fault (α × World)}

theorem nothing (a : α) {w : World} (hw : w.tally = t) :
    Appends s t (.ok (a, w)) := by
  refine ⟨fun a' w' h => ?_⟩
  cases h
  exact .of_tally hw

theorem error (e : Fault) : Appends s t (.error e : Except Fault (α × World)) := by
  refine ⟨fun a w' h => ?_⟩
  cases h

theorem call {c : Call} (hc : c.belongs s = true) (a : α) {w : World}
    (hw : w.tally = (t.1 ++ [c], t.2)) : Appends s t (.ok (a, w)) := by
  refine ⟨fun a' w' h => ?_⟩
  cases h
  exact .of_call hc hw

theorem after {w : World} (hw : Unrelayed s t w) (h : Appends s w.tally x) :
    Appends s t x :=
  ⟨fun a w' hx => hw.trans (h.unrelayed a w' hx)⟩

theorem bind {f : α × World → Except Fault (β × World)} (h : Appends s t x)
    (hf : ∀ a w, Appends s w.tally (f (a, w))) : Appends s t (x >>= f) := by
  refine ⟨fun b w' hbind => ?_⟩
  obtain ⟨⟨a, w₁⟩, hx, hfx⟩ := bind_eq_ok.mp hbind
  exact (h.unrelayed a w₁ hx).trans ((hf a w₁).unrelayed b w' hfx)

/-- What does not depend on the world. -/
theorem bind_same (z : Except Fault γ) {f : γ → Except Fault (β × World)}
    (hf : ∀ c, Appends s t (f c)) : Appends s t (z >>= f) := by
  refine ⟨fun b w' hbind => ?_⟩
  obtain ⟨c, -, hfx⟩ := bind_eq_ok.mp hbind
  exact (hf c).unrelayed b w' hfx

theorem ite {c : Prop} [Decidable c] (h : Appends s t x) (h' : Appends s t y) :
    Appends s t (if c then x else y) := by
  by_cases hc : c
  · rwa [if_pos hc]
  · rwa [if_neg hc]

theorem setInterestKey {w : World} (hw : w.tally = t) (fd : ℤ) (i : FdInterest) :
    Appends s t (w.setInterestKey fd i) := by
  subst hw
  exact bind_same _ fun _ => call rfl _ rfl

theorem setInterest {w : World} (hw : w.tally = t) (fd : ℤ) (i : FdInterest) :
    Appends s t (w.setInterest fd i) := by
  subst hw
  exact bind_same _ fun _ => call rfl _ rfl

theorem recvInto (w : World) (sys : Sys)
    (fd : ℤ) (b : Buffer) : Appends s w.tally (w.recvInto s sys fd b) := by
  refine ⟨fun r w' h => ?_⟩
  obtain ⟨-, rfl⟩ := World.recvInto_spec h
  exact .of_call (by simp [Call.belongs]) rfl

theorem sendFrom (w : World) (sys : Sys)
    (fd : ℤ) (b : Buffer) : Appends s w.tally (w.sendFrom s sys fd b) := by
  refine ⟨fun r w' h => ?_⟩
  obtain ⟨-, rfl⟩ := World.sendFrom_spec h
  exact .of_call (by simp [Call.belongs]) rfl

end Appends

section Callbacks

variable {s : GlobalState} (sys : Sys) (fd : ℤ) (w : World)

theorem greetingRead_appends : Appends .greetingRead w.tally (greetingRead sys fd w) := by
  refine .bind (.recvInto ..) fun received w => ?_
  cases received with
  | eof | reset | failed => exact .nothing _ rfl
  | data bs rb =>
      refine .bind_same _ fun ⟨rb, parser, a⟩ => .ite ?_ (.nothing _ rfl)
      refine .bind_same _ fun method => ?_
      refine .bind (.setInterestKey (by rfl) ..) fun ret w => .ite (.nothing _ rfl) ?_
      refine .bind_same _ fun filled => ?_
      cases filled with
      | none => exact .nothing _ rfl
      | some wb => exact .nothing _ rfl

theorem greetingWrite_appends : Appends .greetingWrite w.tally (greetingWrite sys fd w) := by
  refine .bind (.sendFrom ..) fun sent w => ?_
  cases sent with
  | none => exact .nothing _ rfl
  | some sent =>
      refine .ite (.nothing _ rfl) (.bind (.setInterestKey (by rfl) ..) fun ret w => ?_)
      exact .ite (.nothing _ rfl)
        (.ite (.nothing _ rfl) (.ite (.nothing _ rfl) (.nothing _ rfl)))

/-- The message may be authenticated first. -/
theorem Appends.authenticate {α : Type} {f : World → Except Fault (α × World)}
    (hf : ∀ w, Appends .authRead w.tally (f w)) :
    Appends .authRead w.tally (Socksv5.authenticate sys w >>= f) := by
  refine ⟨fun a w' h => ?_⟩
  obtain ⟨w₁, hauth, hrest⟩ := bind_eq_ok.mp h
  obtain ⟨reply, user, calls, hauthenticates, rfl⟩ := authenticate_spec hauth
  have hcalls : ∀ c ∈ calls, c.belongs .authRead = true := by
    cases hauthenticates <;> simp [Call.belongs]
  have hcall := (hf _).unrelayed a w' hrest
  refine .trans ?_ hcall
  exact ⟨⟨calls, rfl, hcalls⟩, rfl⟩

theorem authRead_appends : Appends .authRead w.tally (authRead sys fd w) := by
  refine .bind (.recvInto ..) fun received w => ?_
  cases received with
  | eof | reset | failed => exact .nothing _ rfl
  | data bs rb =>
      refine .bind_same _ fun ⟨rb, parser, a⟩ => .ite ?_ (.nothing _ rfl)
      refine .authenticate sys { w with
        session := { w.session with
          readBuffer := rb
          auth := { w.session.auth with parser := parser } } } fun w => ?_
      refine .bind (.setInterestKey (by rfl) ..) fun ret w => .ite (.nothing _ rfl) ?_
      exact .bind_same _ fun wb => .nothing _ rfl

theorem authWrite_appends : Appends .authWrite w.tally (authWrite sys fd w) := by
  refine .bind (.sendFrom ..) fun sent w => ?_
  cases sent with
  | none => exact .nothing _ rfl
  | some sent =>
      refine .ite (.nothing _ rfl) (.bind (.setInterestKey (by rfl) ..) fun ret w => ?_)
      exact .ite (.nothing _ rfl) (.ite (.nothing _ rfl) (.nothing _ rfl))

theorem requestRead_appends : Appends .requestRead w.tally (requestRead sys fd w) := by
  refine .bind (.recvInto ..) fun received w => ?_
  cases received with
  | eof | reset | failed => exact .nothing _ rfl
  | data bs rb =>
      refine .bind_same _ fun ⟨rb, parser, a⟩ => .ite ?_ (.ite ?_ (.nothing _ rfl))
      · exact .bind (.setInterestKey (by rfl) ..) fun ret w =>
          .ite (.nothing _ rfl) (.nothing _ rfl)
      · exact .bind (.setInterestKey (by rfl) ..) fun ret w =>
          .ite (.nothing _ rfl) (.nothing _ rfl)

theorem requestWrite_appends : Appends .requestWrite w.tally (requestWrite sys fd w) := by
  refine .bind_same _ fun wb =>
    .bind (.sendFrom (w.setWriteBuffer wb) ..) fun sent w => ?_
  cases sent with
  | none => exact .nothing _ rfl
  | some sent =>
      refine .ite (.nothing _ rfl) (.ite ?_ (.nothing _ rfl))
      refine .bind (.setInterestKey (by rfl) ..) fun ret w => .ite (.nothing _ rfl) ?_
      exact .bind (.setInterest (by rfl) ..) fun ret w => .ite (.nothing _ rfl) (.nothing _ rfl)

theorem verifyConnection_appends : Appends s w.tally (verifyConnection sys fd w) := by
  unfold verifyConnection
  cases sys.soError with
  | none => exact .call rfl _ rfl
  | some error =>
      refine .after (w := w.record (.getsockopt w.session.originFd (some error)))
        (.of_call rfl rfl) ?_
      by_cases herror : error = 0
      · simp only [ne_eq, herror, not_true_eq_false, if_false]
        refine .bind (.setInterestKey (by rfl) ..) fun ret w =>
          .ite (.nothing _ rfl) ?_
        exact .bind (.setInterest (by rfl) ..) fun ret w =>
          .ite (.nothing _ rfl) (.nothing _ rfl)
      · simp only [ne_eq, herror, not_false_eq_true, if_true]
        refine .bind (.setInterestKey (by rfl) ..) fun ret w =>
          .ite (.nothing _ rfl) ?_
        exact .bind (.setInterest (by rfl) ..) fun ret w =>
          .ite (.nothing _ rfl) (.nothing _ rfl)

theorem connectFailed_appends {t : List Call × ℕ} {w : World} (hw : w.tally = t) :
    Appends s t (connectFailed fd w) :=
  .bind (.setInterestKey hw ..) fun _ _ => .ite (.nothing _ rfl) (.nothing _ rfl)

theorem fillOriginAddr_tally {wasFqdn : Bool} {w w' : World}
    (h : fillOriginAddr wasFqdn w = .ok w') : w'.tally = w.tally := by
  unfold fillOriginAddr at h
  split at h
  · cases h
    rfl
  · obtain ⟨addr, -, h⟩ := bind_eq_ok.mp h
    split at h <;> cases h <;> rfl

theorem connectThroughIp_appends (a : Attempt) (realloc wasFqdn : Bool) :
    Appends s w.tally (connectThroughIp a realloc fd wasFqdn w) := by
  refine .after (w := { w with
    session := { w.session with originFd := socketFd a.socket }
    conn := .none
    log := w.log ++ [.socket a.socket] }) (.of_call rfl rfl) ?_
  refine .ite (connectFailed_appends fd rfl)
    (.ite (connectFailed_appends fd rfl) ⟨fun ret w' h => ?_⟩)
  obtain ⟨w₁, hfill, h⟩ := bind_eq_ok.mp h
  rw [← fillOriginAddr_tally hfill]
  refine Appends.unrelayed (.after (w := w₁.record (.connect (socketFd a.socket)
    w₁.session.request.originAddr a.connect)) (.of_call rfl rfl) ?_) ret w' h
  cases a.connect with
  | connected => exact .nothing _ rfl
  | inProgress =>
      exact .bind_same _ fun _ => .ite (.nothing _ rfl) (.nothing _ rfl)
  | failed => exact connectFailed_appends fd rfl

theorem connectOriginInit_appends : Appends s w.tally (connectOriginInit sys fd w) := by
  refine .ite (.ite (connectThroughIp_appends fd w _ _ _) ?_) (.nothing _ rfl)
  refine .ite (.nothing _ rfl) (.ite (.nothing _ rfl) ?_)
  by_cases hcreate : sys.pthreadCreate = 0
  · simp only [if_pos hcreate]
    refine .after (w := { w with
      threads := fd :: w.threads
      log := w.log ++ [.thread fd] }) (.of_call rfl rfl) ?_
    exact .bind (.setInterestKey (by rfl) ..) fun _ _ => .nothing _ rfl
  · simp only [if_neg hcreate]
    exact .bind (.setInterestKey (by rfl) ..) fun _ _ => .nothing _ rfl

theorem resolutionFailed_appends {t : List Call × ℕ} {w : World}
    (hw : w.tally = t) : Appends s t (resolutionFailed w) :=
  .bind (.setInterest hw ..) fun _ _ => .ite (.nothing _ rfl) (.nothing _ rfl)

theorem connectOriginLoop_appends (k : ℕ) (addrs : List SockAddr) :
    Appends s w.tally (connectOriginLoop sys fd k addrs w) := by
  induction addrs generalizing k w with
  | nil => exact resolutionFailed_appends (w := freeResolution w) rfl
  | cons addr rest ih =>
      exact .bind (connectThroughIp_appends fd (useAddress addr w) _ _ _)
        fun ret w => .ite (.nothing _ rfl) (.ite (.nothing _ rfl) (ih w (k + 1)))

theorem connectOriginBlock_appends :
    Appends s w.tally (connectOriginBlock sys fd w) := by
  unfold connectOriginBlock
  cases w.session.originResolution with
  | nil => exact resolutionFailed_appends rfl
  | cons addr rest => exact connectOriginLoop_appends sys fd w 0 _

/-- The callbacks of the other states make calls of their own. -/
theorem onReady_appends {r : Ready} {f : Callback}
    (hs : s ≠ .copy) (hf : onReady sys fd s r = some f) :
    Appends s w.tally (f w) := by
  cases s <;> cases r <;> cases hf
  case greetingRead.read => exact greetingRead_appends sys fd w
  case greetingWrite.write => exact greetingWrite_appends sys fd w
  case authRead.read => exact authRead_appends sys fd w
  case authWrite.write => exact authWrite_appends sys fd w
  case requestRead.read => exact requestRead_appends sys fd w
  case requestWrite.write => exact requestWrite_appends sys fd w
  case originConnect.write => exact verifyConnection_appends sys fd w
  case originConnect.block => exact connectOriginBlock_appends sys fd w
  case copy.read => exact absurd rfl hs
  case copy.write => exact absurd rfl hs

end Callbacks

/-! ## The callbacks of `COPY` -/

/-- What a `send` from the buffer would send. -/
def Sys.sentFrom (sys : Sys) (b : Buffer) : List UInt8 :=
  match sys.send with
  | .accepted k => b.pending.take (k + 1)
  | .failed => []

theorem Sends.sentFrom {sys : Sys} {b : Buffer} {r : Option (List UInt8 × Buffer)}
    (h : Sends sys b r) : sentBytes r = sys.sentFrom b := by
  cases h with
  | sent hsend hbs =>
      rw [Sys.sentFrom, hsend]
      exact hbs
  | failed hfailed =>
      unfold Sys.sentFrom
      rcases hfailed with hsend | hempty
      · rw [hsend]
        rfl
      · rw [hempty]
        cases sys.send <;> rfl

/-- The call that relays, when the event is handed to a session in state `s`. -/
def World.relayCalls (w : World) (s : GlobalState) (r : Ready) (fd : ℤ) (sys : Sys) :
    List Call :=
  match s, r, w.session.side? fd with
  | .copy, .read, some side => [side.recvCall sys fd w.session]
  | .copy, .write, some side =>
      [.send .copy fd (sys.sentFrom (side.outbox w.session))]
  | _, _, _ => []

theorem World.relayCalls_of_ne (w : World) {s : GlobalState} (hs : s ≠ .copy)
    (r : Ready) (fd : ℤ) (sys : Sys) : w.relayCalls s r fd sys = [] := by
  unfold World.relayCalls
  split <;> first | rfl | exact absurd rfl hs

theorem CopyReads.log {sys : Sys} {side : Side} {fd : ℤ} {w w' : World}
    {ret : GlobalState} (h : CopyReads sys side fd w ret w') :
    ∃ calls, w'.log = w.log ++ side.recvCall sys fd w.session :: calls ∧
      ∀ c ∈ calls, c.transfers = false ∧ c.belongs .copy = true := by
  cases h with
  | failed => exact ⟨[], rfl, by simp⟩
  | relays =>
      refine ⟨_, by
        simp only [World.changed, Side.received_log, List.append_assoc,
          List.singleton_append]
        rfl, ?_⟩
      simp [Call.transfers, Call.belongs]
  | holds =>
      refine ⟨_, by
        simp only [Side.ended, World.changed, World.record, World.setCopy,
          List.append_assoc, List.singleton_append]
        rfl, ?_⟩
      simp [Call.transfers, Call.belongs]
  | closes | unclosed =>
      refine ⟨_, by
        simp only [Side.ended, World.changed, World.record, World.setCopy,
          List.append_assoc, List.singleton_append]
        rfl, ?_⟩
      simp [Call.transfers, Call.belongs]

theorem Ends.metered {sys : Sys} {side : Side} {s : Session}
    (h : Ends sys (side.inbox s)) (fd : ℤ) :
    (side.recvCall sys fd s).metered = 0 := by
  rw [Side.recvCall]
  rcases h with h | h <;> rw [h] <;> rfl

/-- The metrics count what has been received. -/
theorem CopyReads.bytes {sys : Sys} {side : Side} {fd : ℤ} {w w' : World}
    {ret : GlobalState} (h : CopyReads sys side fd w ret w')
    (hbound : w.metrics.totalBytesTransferred < 2 ^ 64) :
    w'.metrics.totalBytesTransferred = (w.metrics.totalBytesTransferred +
      (side.recvCall sys fd w.session).metered) % 2 ^ 64 := by
  cases h with
  | failed hfailed =>
      rw [Side.recvCall, hfailed]
      exact (Nat.mod_eq_of_lt hbound).symm
  | relays hreceives =>
      rw [Side.recvCall, hreceives.data_eq]
      cases side <;> rfl
  | holds hends | closes hends | unclosed hends =>
      rw [hends.metered]
      exact (Nat.mod_eq_of_lt hbound).symm

theorem CopyWrites.log {sys : Sys} {side : Side} {fd : ℤ} {w w' : World}
    {ret : GlobalState} (h : CopyWrites sys side fd w ret w') :
    ∃ calls, w'.log = w.log ++
        .send .copy fd (sys.sentFrom (side.outbox w.session)) :: calls ∧
      ∀ c ∈ calls, c.transfers = false ∧ c.belongs .copy = true := by
  cases h with
  | failed hsends =>
      rw [← hsends.sentFrom]
      exact ⟨[], rfl, by simp⟩
  | partly hsends | partlyLast hsends | wholly hsends | closes hsends
  | unclosed hsends =>
      rw [← hsends.sentFrom]
      refine ⟨_, by
        simp only [World.changed, World.record, World.setCopy, Side.sent_log,
          List.append_assoc, List.singleton_append]
        rfl, ?_⟩
      simp [Call.transfers, Call.belongs]

theorem CopyWrites.bytes {sys : Sys} {side : Side} {fd : ℤ} {w w' : World}
    {ret : GlobalState} (h : CopyWrites sys side fd w ret w') :
    w'.metrics.totalBytesTransferred = w.metrics.totalBytesTransferred := by
  cases h <;> cases side <;> rfl

/-! ## What a dispatch relays -/

/-- The calls of a log that relay. -/
def relayed (log : List Call) : List Call := log.filter Call.relays

theorem relayed_append {log calls : List Call} (h : ∀ c ∈ calls, c.relays = false) :
    relayed (log ++ calls) = relayed log := by
  have hnil : calls.filter Call.relays = [] := by
    rw [List.filter_eq_nil_iff]
    intro c hc
    rw [h c hc]
    simp
  rw [relayed, List.filter_append, hnil, List.append_nil, relayed]

theorem relayed_call {log calls : List Call} {c : Call} (hc : c.relays = true)
    (h : ∀ c ∈ calls, c.transfers = false ∧ c.belongs .copy = true) :
    relayed (log ++ c :: calls) = relayed log ++ [c] := by
  rw [← List.singleton_append, ← List.append_assoc,
    relayed_append fun c hc => relays_of_not_transfers (h c hc).1, relayed,
    List.filter_append, List.filter_singleton, hc]
  rfl

/-- `Relayed t calls w`: from `t` to `w`, the calls that relay are `calls`, and
the metrics have counted what they received. -/
structure Relayed (t : List Call × ℕ) (calls : List Call) (w : World) : Prop where
  log : relayed w.log = relayed t.1 ++ calls
  bytes : t.2 < 2 ^ 64 → w.metrics.totalBytesTransferred =
    (t.2 + (calls.map Call.metered).sum) % 2 ^ 64

theorem Unrelayed.relayed {s : GlobalState} {t : List Call × ℕ} {w : World}
    (hs : s ≠ .copy) (h : Unrelayed s t w) : Relayed t [] w := by
  obtain ⟨calls, hlog, hcalls⟩ := h.log
  have hnone : Socksv5.relayed (t.1 ++ calls) = Socksv5.relayed t.1 :=
    relayed_append fun c hc => relays_of_belongs hs (hcalls c hc)
  refine ⟨by rw [hlog, hnone, List.append_nil], fun hbound => ?_⟩
  rw [h.bytes]
  exact (Nat.mod_eq_of_lt hbound).symm

theorem Relayed.unrelayed {s : GlobalState} {t : List Call × ℕ} {calls : List Call}
    {w w' : World} (hs : s ≠ .copy) (h : Relayed t calls w)
    (h' : Unrelayed s w.tally w') : Relayed t calls w' := by
  obtain ⟨calls', hlog, hcalls⟩ := h'.log
  refine ⟨?_, fun hbound => h'.bytes.trans (h.bytes hbound)⟩
  rw [hlog, relayed_append fun c hc => relays_of_belongs hs (hcalls c hc)]
  exact h.log

/-- A callback makes the call that relays, if it is one of `COPY`. -/
theorem onReady_relayed {sys : Sys} {fd : ℤ} {s ret : GlobalState} {r : Ready}
    {f : Callback} {w w' : World} (hreg : w.selector.Registered fd)
    (hf : onReady sys fd s r = some f) (h : f w = .ok (ret, w')) :
    Relayed w.tally (w.relayCalls s r fd sys) w' := by
  by_cases hs : s = .copy
  · subst hs
    cases r with
    | block => cases hf
    | read =>
        cases hf
        cases hside : w.session.side? fd with
        | none => simp [copyRead, hside] at h
        | some side =>
            have hreads := copyRead_spec hside hreg h
            obtain ⟨calls, hlog, hcalls⟩ := hreads.log
            simp only [World.relayCalls, hside]
            exact ⟨by rw [hlog, relayed_call rfl hcalls]; rfl, hreads.bytes⟩
    | write =>
        cases hf
        cases hside : w.session.side? fd with
        | none => simp [copyWrite, hside] at h
        | some side =>
            have hwrites := copyWrite_spec hside hreg h
            obtain ⟨calls, hlog, hcalls⟩ := hwrites.log
            simp only [World.relayCalls, hside]
            refine ⟨by rw [hlog, relayed_call rfl hcalls]; rfl, fun hbound => ?_⟩
            rw [hwrites.bytes]
            exact (Nat.mod_eq_of_lt hbound).symm
  · rw [w.relayCalls_of_ne hs]
    exact ((onReady_appends sys fd w hs hf).unrelayed _ _ h).relayed hs

theorem closeDescriptor_unrelayed {s : GlobalState} {w w' : World} {fd : ℤ}
    (h : closeDescriptor w fd = .ok w') : Unrelayed s w.tally w' := by
  unfold closeDescriptor at h
  split at h
  · obtain ⟨⟨ret, s⟩, -, h⟩ := bind_eq_ok.mp h
    dsimp only at h
    split at h <;> cases h
    exact .of_call rfl rfl
  · cases h
    exact .of_tally rfl

/-- What follows a callback may be done in any state. -/
theorem Outcome.unrelayed {sys : Sys} {fd : ℤ} {s s' ret : GlobalState}
    {via : List GlobalState} {w w' : World}
    (h : Outcome sys fd s ret w via w') : Unrelayed s' w.tally w' := by
  cases h with
  | stays => exact .of_tally rfl
  | enters => exact .of_tally (by cases ret <;> rfl)
  | connects _ h | redirected _ h =>
      exact (connectOriginInit_appends sys fd w).unrelayed _ _ h
  | ends _ h =>
      obtain ⟨w₁, hclient, h⟩ := bind_eq_ok.mp h
      obtain ⟨w₂, horigin, h⟩ := bind_eq_ok.mp h
      cases h
      exact ((closeDescriptor_unrelayed hclient).trans
        (closeDescriptor_unrelayed horigin)).trans (.of_tally rfl)

/-- What a dispatch does, in whatever state the machine is. -/
theorem dispatch_cases {sys : Sys} {fd : ℤ} {r : Ready} {c c' : Config}
    (h : dispatch r fd sys c = .ok c') :
    ∃ w₀ f ret w via, (w₀ = c.world ∨
        c.state = .greetingRead ∧ w₀ = greetingInit c.world) ∧
      onReady sys fd c.state r = some f ∧ f w₀ = .ok (ret, w) ∧
      Outcome sys fd c.state ret w via c'.world := by
  cases hc : c.stm.current with
  | none =>
      have hstate : c.state = .greetingRead := by rw [Config.state, hc]
      rw [dispatch_of_unstarted _ hc] at h
      obtain ⟨f, ret, w, via, hf, hcall, hout, -⟩ :=
        dispatch_outcome (s := .greetingRead) rfl h
      rw [hstate]
      exact ⟨_, f, ret, w, via, .inr ⟨rfl, rfl⟩, hf, hcall, hout⟩
  | some i =>
      cases hi : GlobalState.ofId i with
      | none =>
          rw [dispatch_of_unknown _ hc hi] at h
          cases h
      | some s =>
          obtain rfl := GlobalState.eq_id_of_ofId hi
          obtain ⟨f, ret, w, via, hf, hcall, hout, -⟩ := dispatch_outcome hc h
          rw [Config.state_of_current hc]
          exact ⟨_, f, ret, w, via, .inl rfl, hf, hcall, hout⟩

theorem dispatch_relayed {sys : Sys} {fd : ℤ} {r : Ready} {c c' : Config}
    (hreg : c.world.selector.Registered fd) (h : dispatch r fd sys c = .ok c') :
    Relayed c.world.tally (c.world.relayCalls c.state r fd sys) c'.world := by
  obtain ⟨w₀, f, ret, w, via, hw₀, hf, hcall, hout⟩ := dispatch_cases h
  refine .unrelayed (s := .error) (by decide) ?_ hout.unrelayed
  rcases hw₀ with rfl | ⟨hstate, rfl⟩
  · exact onReady_relayed hreg hf hcall
  · have hnone : c.state ≠ .copy := by
      rw [hstate]
      decide
    have hreg' : (greetingInit c.world).selector.Registered fd := hreg
    have hrelayed := onReady_relayed hreg' hf hcall
    rw [World.relayCalls_of_ne _ hnone] at hrelayed ⊢
    exact hrelayed

/-- The calls that relay, at an event. -/
def Config.relayCalls (c : Config) : Event → List Call
  | .dispatch r fd sys => c.world.relayCalls c.state r fd sys
  | _ => []

theorem Step.relayed_eq {company : Company} {c c' : Config} {e : Event}
    (h : Step company c e c') :
    relayed c'.world.log = relayed c.world.log ++ c.relayCalls e := by
  cases h with
  | @dispatch _ r fd sys _ hhands _ hdispatch =>
      have hreg : (c.world.delivered r fd).selector.Registered fd := by
        cases r <;> exact hhands.2.1
      rw [(dispatch_relayed hreg hdispatch).log]
      cases r <;> rfl
  | connectionEnds | resolved | others => exact (List.append_nil _).symm

end Socksv5
