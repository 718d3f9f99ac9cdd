import Socksv5.Session.Quiet

/-!
# What the callbacks of `ORIGIN_CONNECT` do

`Attempted` lists the ways in which an attempt to connect to one address can
go, `Resolves` those in which a list of addresses can be gone through, and
`Verifies` those in which an attempt in progress can end.
-/

namespace Socksv5

open Support

/-- What a callback returns, by whether its last change of interest
succeeded. -/
def afterInterest (status : SelectorStatus) (ret : GlobalState) : GlobalState :=
  if status = .success then ret else .error

theorem afterInterest_state (status : SelectorStatus) (ret : GlobalState) :
    afterInterest status ret = ret ∨ afterInterest status ret = .error := by
  unfold afterInterest
  split
  · exact Or.inl rfl
  · exact Or.inr rfl

theorem connectFailed_spec {fd : ℤ} {w w' : World} {ret : GlobalState}
    (h : connectFailed fd w = .ok (ret, w')) :
    ∃ status s, ChangesInterest w.selector fd (fun _ => some .write) status s ∧
      ret = afterInterest status .requestWrite ∧
      w' = { w with selector := s, log := w.log ++ [.setInterest fd .write] } := by
  obtain ⟨⟨status, w₁⟩, hset, h⟩ := bind_eq_ok.mp h
  obtain ⟨s, hs, rfl⟩ := World.setInterestKey_spec hset
  refine ⟨status, s, hs, ?_⟩
  dsimp only at h
  by_cases hstatus : status = .success
  · rw [if_neg (by simpa using hstatus)] at h
    cases h
    exact ⟨by rw [afterInterest, if_pos hstatus], rfl⟩
  · rw [if_pos hstatus] at h
    cases h
    exact ⟨by rw [afterInterest, if_neg hstatus], rfl⟩

/-- Storing the address changes the addresses of the request only. -/
theorem fillOriginAddr_spec {wasFqdn : Bool} {w w' : World}
    (h : fillOriginAddr wasFqdn w = .ok w') :
    ∃ request : RequestStm, request.parser = w.session.request.parser ∧
      w' = { w with session := { w.session with request := request } } := by
  unfold fillOriginAddr at h
  by_cases hfqdn : wasFqdn = true
  · rw [if_pos hfqdn] at h
    cases h
    exact ⟨_, rfl, rfl⟩
  · rw [if_neg hfqdn] at h
    obtain ⟨addr, -, h⟩ := bind_eq_ok.mp h
    split at h
    · cases h
      refine ⟨_, ?_, rfl⟩
      rfl
    · cases h
      refine ⟨_, ?_, rfl⟩
      rfl

/-- What `connect_through_ip` does. -/
inductive Attempted (a : Attempt) (realloc : Bool) (fd : ℤ) (w : World) :
    GlobalState → World → Prop
  | noSocket {status : SelectorStatus} {s : FdSelector} : a.socket = none →
      ChangesInterest w.selector fd (fun _ => some .write) status s →
      Attempted a realloc fd w (afterInterest status .requestWrite) { w with
        session := { w.session with originFd := -1 }
        conn := .none
        selector := s
        log := w.log ++ [.socket none] ++ [.setInterest fd .write] }
  | noNio {n : ℕ} {status : SelectorStatus} {s : FdSelector} :
      a.socket = some n → a.nio = false →
      ChangesInterest w.selector fd (fun _ => some .write) status s →
      Attempted a realloc fd w (afterInterest status .requestWrite) { w with
        session := { w.session with originFd := n }
        conn := .none
        selector := s
        log := w.log ++ [.socket (some n)] ++ [.setInterest fd .write] }
  | refused {n : ℕ} {request : RequestStm} {addr : SockAddr}
      {status : SelectorStatus} {s : FdSelector} :
      a.socket = some n → a.nio = true → a.connect = .failed →
      request.parser =
        { w.session.request.parser with reply := .hostUnreachable } →
      ChangesInterest w.selector fd (fun _ => some .write) status s →
      Attempted a realloc fd w (afterInterest status .requestWrite) { w with
        session := { w.session with originFd := n, request := request }
        conn := .none
        selector := s
        log := w.log ++ [.socket (some n)] ++ [.connect n addr .failed] ++
          [.setInterest fd .write] }
  | connected {n : ℕ} {request : RequestStm} {addr : SockAddr} :
      a.socket = some n → a.nio = true → a.connect = .connected →
      request.parser = w.session.request.parser →
      Attempted a realloc fd w .originConnect { w with
        session := { w.session with originFd := n, request := request }
        conn := .connected
        log := w.log ++ [.socket (some n)] ++ [.connect n addr .connected] }
  | inProgress {n : ℕ} {request : RequestStm} {addr : SockAddr}
      {status : SelectorStatus} {s : FdSelector} :
      a.socket = some n → a.nio = true → a.connect = .inProgress →
      request.parser = w.session.request.parser →
      selectorRegister w.selector n (some .socksv5Active) .write
        (some w.address) realloc = .ok (status, s) →
      Attempted a realloc fd w (afterInterest status .originConnect) { w with
        session := { w.session with originFd := n, request := request }
        conn := .connecting
        selector := s
        log := w.log ++ [.socket (some n)] ++ [.connect n addr .inProgress] }

theorem connectThroughIp_spec {a : Attempt} {realloc wasFqdn : Bool} {fd : ℤ}
    {w w' : World} {ret : GlobalState}
    (h : connectThroughIp a realloc fd wasFqdn w = .ok (ret, w')) :
    Attempted a realloc fd w ret w' := by
  unfold connectThroughIp at h
  dsimp only at h
  cases hsocket : a.socket with
  | none =>
      simp only [hsocket] at h
      rw [if_pos (by decide)] at h
      obtain ⟨status, s, hs, rfl, rfl⟩ := connectFailed_spec h
      exact .noSocket hsocket hs
  | some n =>
      simp only [hsocket] at h
      have hpos : ¬ socketFd (some n) < 0 := Int.not_lt.mpr (Int.natCast_nonneg n)
      rw [if_neg hpos] at h
      cases hnio : a.nio with
      | false =>
          simp only [hnio, Bool.not_false, if_true] at h
          obtain ⟨status, s, hs, rfl, rfl⟩ := connectFailed_spec h
          exact .noNio hsocket hnio hs
      | true =>
          simp only [hnio, Bool.not_true, Bool.false_eq_true, if_false] at h
          obtain ⟨w₁, hfill, h⟩ := bind_eq_ok.mp h
          obtain ⟨request, hparser, rfl⟩ := fillOriginAddr_spec hfill
          cases hconnect : a.connect with
          | connected =>
              simp only [hconnect] at h
              cases h
              exact .connected hsocket hnio hconnect hparser
          | inProgress =>
              simp only [hconnect] at h
              obtain ⟨⟨status, s⟩, hregister, h⟩ := bind_eq_ok.mp h
              dsimp only at h
              by_cases hstatus : status = .success
              · rw [if_neg (by simpa using hstatus)] at h
                cases h
                have hret : afterInterest status .originConnect =
                    .originConnect := if_pos hstatus
                rw [← hret]
                exact .inProgress hsocket hnio hconnect hparser hregister
              · rw [if_pos hstatus] at h
                cases h
                have hret : afterInterest status .originConnect = .error :=
                  if_neg hstatus
                rw [← hret]
                exact .inProgress hsocket hnio hconnect hparser hregister
          | failed =>
              simp only [hconnect] at h
              obtain ⟨status, s, hs, rfl, rfl⟩ := connectFailed_spec h
              exact .refused hsocket hnio hconnect (by rw [← hparser]; rfl) hs

/-- The attempt failed before `connect_through_ip` returned. -/
def Attempt.failsAtOnce (a : Attempt) : Bool :=
  a.socket.isNone || !a.nio || decide (a.connect = .failed)

/-- An attempt that failed at once leaves the descriptor it opened to nobody. -/
theorem Attempted.of_failsAtOnce {a : Attempt} {realloc : Bool} {fd : ℤ}
    {w w' : World} {ret : GlobalState} (h : Attempted a realloc fd w ret w')
    (hfails : a.failsAtOnce = true) (hreg : w.selector.Registered fd) :
    ret = .requestWrite ∧ w'.session.clientFd = w.session.clientFd ∧
      (∀ d, w'.selector.Registered d ↔ w.selector.Registered d) ∧
      w'.selector.fdSize = w.selector.fdSize := by
  have hchanged {status : SelectorStatus} {s : FdSelector}
      (hs : ChangesInterest w.selector fd (fun _ => some .write) status s) :
      afterInterest status .requestWrite = .requestWrite := by
    rw [afterInterest, if_pos (hs.success_of_registered hreg)]
  cases h with
  | noSocket _ hs => exact ⟨hchanged hs, rfl, hs.registered_iff, hs.fdSize_eq⟩
  | noNio _ _ hs => exact ⟨hchanged hs, rfl, hs.registered_iff, hs.fdSize_eq⟩
  | refused _ _ _ _ hs =>
      exact ⟨hchanged hs, rfl, hs.registered_iff, hs.fdSize_eq⟩
  | connected hsocket hnio hconnect =>
      simp [Attempt.failsAtOnce, hsocket, hnio, hconnect] at hfails
  | inProgress hsocket hnio hconnect =>
      simp [Attempt.failsAtOnce, hsocket, hnio, hconnect] at hfails

theorem Attempted.ne_requestWrite {a : Attempt} {realloc : Bool} {fd : ℤ}
    {w w' : World} {ret : GlobalState} (h : Attempted a realloc fd w ret w')
    (hfails : a.failsAtOnce = false) : ret ≠ .requestWrite := by
  cases h with
  | noSocket hsocket => simp [Attempt.failsAtOnce, hsocket] at hfails
  | noNio _ hnio => simp [Attempt.failsAtOnce, hnio] at hfails
  | refused _ _ hconnect => simp [Attempt.failsAtOnce, hconnect] at hfails
  | connected => decide
  | inProgress =>
      unfold afterInterest
      split <;> decide

/-- What `connect_origin_init` does. -/
inductive Connects (sys : Sys) (fd : ℤ) (w : World) :
    GlobalState → World → Prop
  | already : 0 ≤ w.session.originFd → Connects sys fd w .originConnect w
  | address {ret : GlobalState} {w' : World} : w.session.originFd < 0 →
      w.session.request.parser.atyp = 1 ∨ w.session.request.parser.atyp = 4 →
      Attempted (sys.attempts 0) sys.realloc fd w ret w' →
      Connects sys fd w ret w'
  | noThread : w.session.originFd < 0 →
      ¬ (w.session.request.parser.atyp = 1 ∨
        w.session.request.parser.atyp = 4) → Connects sys fd w .error w
  | name {status : SelectorStatus} {s : FdSelector} {threads : List ℤ}
      {calls : List Call} : w.session.originFd < 0 →
      ¬ (w.session.request.parser.atyp = 1 ∨
        w.session.request.parser.atyp = 4) →
      (threads = fd :: w.threads ∧ calls = [.thread fd]) ∨
        (threads = w.threads ∧ calls = []) →
      ChangesInterest w.selector fd (fun _ => some .noop) status s →
      Connects sys fd w .originConnect { w with
        selector := s
        threads := threads
        log := w.log ++ calls ++ [.setInterest fd .noop] }

theorem connectOriginInit_spec {sys : Sys} {fd : ℤ} {w w' : World}
    {ret : GlobalState} (h : connectOriginInit sys fd w = .ok (ret, w')) :
    Connects sys fd w ret w' := by
  unfold connectOriginInit connectToOrigin at h
  dsimp only at h
  by_cases horigin : w.session.originFd < 0
  · rw [if_pos horigin] at h
    by_cases hatyp : w.session.request.parser.atyp = 1 ∨
        w.session.request.parser.atyp = 4
    · rw [if_pos hatyp] at h
      exact .address horigin hatyp (connectThroughIp_spec h)
    · rw [if_neg hatyp, connectThroughFqdn] at h
      split at h
      · cases h
        exact .noThread horigin hatyp
      · split at h
        · cases h
          exact .noThread horigin hatyp
        · obtain ⟨⟨status, w₁⟩, hset, h⟩ := bind_eq_ok.mp h
          cases h
          obtain ⟨s, hs, rfl⟩ := World.setInterestKey_spec hset
          by_cases hcreate : sys.pthreadCreate = 0
          · simp only [hcreate, if_true] at hs ⊢
            exact .name horigin hatyp (Or.inl ⟨rfl, rfl⟩) hs
          · simp only [hcreate, if_false] at hs ⊢
            have : Connects sys fd w .originConnect _ :=
              .name horigin hatyp (Or.inr ⟨rfl, rfl⟩) hs
            rwa [List.append_nil] at this
  · rw [if_neg horigin] at h
    cases h
    exact .already (Int.not_lt.mp horigin)

/-- What the end of a list of addresses does. -/
inductive GivesUp (w : World) : GlobalState → World → Prop
  | failed {s : FdSelector} {status : SelectorStatus} : status ≠ .success →
      ChangesInterest w.selector w.session.clientFd (fun _ => some .write)
        status s →
      GivesUp w .error { w with
        selector := s
        log := w.log ++ [.setInterest w.session.clientFd .write] }
  | answers {s : FdSelector} :
      ChangesInterest w.selector w.session.clientFd (fun _ => some .write)
        .success s →
      GivesUp w .requestWrite { w with
        session := { w.session with request := { w.session.request with
          parser :=
            { w.session.request.parser with reply := .hostUnreachable } } }
        selector := s
        log := w.log ++ [.setInterest w.session.clientFd .write] }

theorem resolutionFailed_spec {w w' : World} {ret : GlobalState}
    (h : resolutionFailed w = .ok (ret, w')) : GivesUp w ret w' := by
  obtain ⟨⟨status, w₁⟩, hset, h⟩ := bind_eq_ok.mp h
  obtain ⟨s, hs, rfl⟩ := World.setInterest_spec hset
  dsimp only at h
  by_cases hstatus : status = .success
  · subst hstatus
    cases h
    exact .answers hs
  · rw [if_pos hstatus] at h
    cases h
    exact .failed hstatus hs

/-- What the loop of `connect_origin_block` does with a list whose first
address is the `k`-th. -/
inductive Resolves (sys : Sys) (fd : ℤ) :
    ℕ → List SockAddr → World → GlobalState → World → Prop
  | exhausted {k : ℕ} {w w' : World} {ret : GlobalState} :
      GivesUp (freeResolution w) ret w' → Resolves sys fd k [] w ret w'
  | settles {k : ℕ} {addr : SockAddr} {rest : List SockAddr}
      {w w' : World} :
      Attempted (sys.attempts k) sys.realloc fd (useAddress addr w)
        .originConnect w' →
      (∃ calls r, w'.log =
        calls ++ [.connect w'.session.originFd addr r]) →
      Resolves sys fd k (addr :: rest) w .originConnect (freeResolution w')
  | breaks {k : ℕ} {addr : SockAddr} {rest : List SockAddr} {w w' : World} :
      Attempted (sys.attempts k) sys.realloc fd (useAddress addr w) .error w' →
      Resolves sys fd k (addr :: rest) w .error w'
  | goesOn {k : ℕ} {addr : SockAddr} {rest : List SockAddr}
      {w w₁ w' : World} {ret : GlobalState} :
      Attempted (sys.attempts k) sys.realloc fd (useAddress addr w)
        .requestWrite w₁ →
      Resolves sys fd (k + 1) rest w₁ ret w' →
      Resolves sys fd k (addr :: rest) w ret w'

theorem originAddr_useAddress (addr : SockAddr) (w : World) :
    (useAddress addr w).session.request.originAddr = addr := by
  unfold useAddress RequestStm.originAddr
  cases hfamily : addr.family <;> simp

/-- The attempt that is not given up is one to connect to the address. -/
theorem connectThroughIp_address {a : Attempt} {realloc : Bool} {fd : ℤ}
    {addr : SockAddr} {w w' : World}
    (h : connectThroughIp a realloc fd true (useAddress addr w) =
      .ok (.originConnect, w')) :
    ∃ calls r, w'.log = calls ++ [.connect w'.session.originFd addr r] := by
  have hnot {v : World} (h : connectFailed fd v = .ok (.originConnect, w')) :
      False := by
    rcases connectFailed_state h with heq | heq <;> cases heq
  unfold connectThroughIp at h
  dsimp only at h
  split at h
  · exact (hnot h).elim
  · split at h
    · exact (hnot h).elim
    · obtain ⟨w₁, hfill, h⟩ := bind_eq_ok.mp h
      cases hfill
      simp only [World.record, originAddr_useAddress] at h
      split at h
      · cases h
        exact ⟨_, _, rfl⟩
      · obtain ⟨⟨status, s⟩, -, h⟩ := bind_eq_ok.mp h
        dsimp only at h
        split at h
        · cases h
        · cases h
          exact ⟨_, _, rfl⟩
      · exact (hnot h).elim

theorem connectOriginLoop_spec {sys : Sys} {fd : ℤ} {k : ℕ}
    {addrs : List SockAddr} {w w' : World} {ret : GlobalState}
    (h : connectOriginLoop sys fd k addrs w = .ok (ret, w')) :
    Resolves sys fd k addrs w ret w' := by
  induction addrs generalizing k w with
  | nil => exact .exhausted (resolutionFailed_spec h)
  | cons addr rest ih =>
      rw [connectOriginLoop] at h
      obtain ⟨⟨ret₁, w₁⟩, hattempt, h⟩ := bind_eq_ok.mp h
      have hspec := connectThroughIp_spec hattempt
      dsimp only at h
      rcases connectThroughIp_state hattempt with rfl | rfl | rfl
      · cases h
        exact .settles hspec (connectThroughIp_address hattempt)
      · exact .goesOn hspec (ih h)
      · cases h
        exact .breaks hspec

/-- What `connect_origin_block` does. -/
theorem connectOriginBlock_spec {sys : Sys} {fd : ℤ} {w w' : World}
    {ret : GlobalState} (h : connectOriginBlock sys fd w = .ok (ret, w')) :
    Resolves sys fd 0 w.session.originResolution w ret w' := by
  unfold connectOriginBlock at h
  split at h
  · rename_i hnil
    rw [hnil]
    have hfree : freeResolution w = w := by
      rw [freeResolution, ← hnil]
    exact .exhausted (hfree.symm ▸ resolutionFailed_spec h)
  · exact connectOriginLoop_spec h

/-- What `verify_connection` does. -/
inductive Verifies (sys : Sys) (fd : ℤ) (w : World) :
    GlobalState → World → Prop
  | failed {w' : World} : Verifies sys fd w .error w'
  | answers {error : ℕ} {reply : Reply} {s s' : FdSelector} :
      sys.soError = some error →
      (error = 0 ∧ reply = .succeded) ∨
        (error ≠ 0 ∧ reply = replyOfError error) →
      ChangesInterest w.selector fd (fun _ => some .noop) .success s →
      ChangesInterest s w.session.clientFd (fun _ => some .write) .success s' →
      Verifies sys fd w .requestWrite { w with
        session := { w.session with request := { w.session.request with
          parser := { w.session.request.parser with reply := reply } } }
        selector := s'
        log := w.log ++ [.getsockopt w.session.originFd (some error)] ++
          [.setInterest fd .noop] ++
          [.setInterest w.session.clientFd .write] }

theorem verifyConnection_spec {sys : Sys} {fd : ℤ} {w w' : World}
    {ret : GlobalState} (h : verifyConnection sys fd w = .ok (ret, w')) :
    Verifies sys fd w ret w' := by
  unfold verifyConnection at h
  dsimp only at h
  cases hso : sys.soError with
  | none =>
      simp only [hso] at h
      cases h
      exact .failed
  | some error =>
      simp only [hso] at h
      obtain ⟨⟨status, w₁⟩, hset, h⟩ := bind_eq_ok.mp h
      obtain ⟨s, hs, rfl⟩ := World.setInterestKey_spec hset
      dsimp only at h
      by_cases hstatus : status = .success
      · subst hstatus
        rw [if_neg (by simp)] at h
        obtain ⟨⟨status', w₂⟩, hset', h⟩ := bind_eq_ok.mp h
        obtain ⟨s', hs', rfl⟩ := World.setInterest_spec hset'
        dsimp only at h
        by_cases hstatus' : status' = .success
        · subst hstatus'
          by_cases herror : error = 0
          · subst herror
            cases h
            exact .answers hso (Or.inl ⟨rfl, rfl⟩) hs hs'
          · simp only [ne_eq, herror, not_false_eq_true, not_true_eq_false,
              if_true, if_false] at h hs hs'
            cases h
            exact .answers hso (Or.inr ⟨herror, rfl⟩) hs hs'
        · rw [if_pos hstatus'] at h
          cases h
          exact .failed
      · rw [if_pos hstatus] at h
        cases h
        exact .failed

/-- A session that waits for a connection has one, or will. -/
theorem Attempted.conn_ne_none {a : Attempt} {realloc : Bool} {fd : ℤ}
    {w w' : World} {ret : GlobalState} (h : Attempted a realloc fd w ret w')
    (hret : ret = .originConnect) : w'.conn ≠ .none := by
  have hfails (status : SelectorStatus) :
      afterInterest status .requestWrite ≠ .originConnect := by
    rcases afterInterest_state status .requestWrite with heq | heq <;>
      rw [heq] <;> decide
  cases h with
  | noSocket => exact absurd hret (hfails _)
  | noNio => exact absurd hret (hfails _)
  | refused => exact absurd hret (hfails _)
  | connected => simp
  | inProgress => simp

/-! ## The attempts that an event makes -/

/-- The buffer and the request parser after a `recv`. -/
def World.readRequest (w : World) (sys : Sys) (fd : ℤ) :
    Option (Buffer × RequestParser) :=
  match w.recvInto .requestRead sys fd w.session.readBuffer with
  | .ok (.data _ rb, _) =>
      match consumeRequestBuffer rb w.session.request.parser sys.allocs with
      | .ok (rb, parser, _) => some (rb, parser)
      | .error _ => none
  | _ => none

/-- The last attempt made for a list whose first address is the `k`-th. -/
def lastMade (attempts : ℕ → Attempt) : ℕ → List SockAddr → Option Attempt
  | _, [] => none
  | k, [_] => some (attempts k)
  | k, _ :: rest =>
      if (attempts k).failsAtOnce then lastMade attempts (k + 1) rest
      else some (attempts k)

theorem lastMade_of_goesOn {attempts : ℕ → Attempt} {k : ℕ} {addr : SockAddr}
    {rest : List SockAddr} (hfails : (attempts k).failsAtOnce = true)
    (hrest : rest ≠ []) :
    lastMade attempts k (addr :: rest) = lastMade attempts (k + 1) rest := by
  rcases rest with - | ⟨addr', rest⟩
  · exact absurd rfl hrest
  · rw [lastMade, if_pos hfails]
    simp

theorem lastMade_of_stops {attempts : ℕ → Attempt} {k : ℕ} {addr : SockAddr}
    {rest : List SockAddr}
    (hstops : (attempts k).failsAtOnce = false ∨ rest = []) :
    lastMade attempts k (addr :: rest) = some (attempts k) := by
  rcases rest with - | ⟨addr', rest⟩
  · rfl
  · have hfails := hstops.resolve_right (by simp)
    rw [lastMade, if_neg (by simp [hfails])]
    simp

/-- The last attempt that an event makes. -/
def lastAttempt (s : GlobalState) (w : World) : Event → Option Attempt
  | .dispatch .read fd sys =>
      if s = .requestRead then
        (w.readRequest sys fd).bind fun (_, parser) =>
          if parser.state = .done ∧ (parser.atyp = 1 ∨ parser.atyp = 4) then
            some (sys.attempts 0)
          else none
      else none
  | .dispatch .block _ sys =>
      if s = .originConnect then
        lastMade sys.attempts 0 w.session.originResolution
      else none
  | _ => none

/-- A request is complete when `request_read` returns `ORIGIN_CONNECT`. -/
theorem requestRead_parsed {sys : Sys} {fd : ℤ} {w w' : World}
    (h : requestRead sys fd w = .ok (.originConnect, w')) :
    w.readRequest sys fd =
        some (w'.session.readBuffer, w'.session.request.parser) ∧
      w'.session.request.parser.state = .done := by
  unfold World.readRequest
  obtain ⟨⟨received, w₁⟩, hrecv, h⟩ := bind_eq_ok.mp h
  rw [hrecv]
  rcases received with ⟨bs, rb⟩ | - | - | - <;> try cases h
  dsimp only at h ⊢
  obtain ⟨⟨rb', parser, a⟩, hconsume, h⟩ := bind_eq_ok.mp h
  have hparser : w₁.session.request.parser = w.session.request.parser := by
    obtain ⟨-, rfl⟩ := World.recvInto_spec hrecv
    rfl
  rw [hparser] at hconsume
  rw [hconsume]
  dsimp only at h ⊢
  by_cases hdone : parser.state = .done
  · rw [if_pos hdone] at h
    obtain ⟨⟨status, w₂⟩, hset, h⟩ := bind_eq_ok.mp h
    obtain ⟨s, -, rfl⟩ := World.setInterestKey_spec hset
    dsimp only at h
    split at h
    · cases h
    · cases h
      exact ⟨rfl, hdone⟩
  · rw [if_neg hdone] at h
    split at h
    · obtain ⟨⟨status, w₂⟩, -, h⟩ := bind_eq_ok.mp h
      dsimp only at h
      split at h <;> cases h
    · cases h

/-- A complete request for an address makes one attempt. -/
theorem lastAttempt_of_request {sys : Sys} {fd : ℤ} {w w' : World}
    (h : requestRead sys fd w = .ok (.originConnect, w'))
    (hatyp : w'.session.request.parser.atyp = 1 ∨
      w'.session.request.parser.atyp = 4) :
    lastAttempt .requestRead w (.dispatch .read fd sys) =
      some (sys.attempts 0) := by
  obtain ⟨hread, hdone⟩ := requestRead_parsed h
  simp only [lastAttempt, if_true, hread, Option.bind_some, hdone, hatyp,
    and_self]

end Socksv5
