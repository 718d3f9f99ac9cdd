import Socksv5.Session.Forecast

/-!
# How the client's bytes are divided

However what the client sends is divided, a session in the same surroundings
gets to the same state and sends the same bytes: provided that no message is
complete in `read_buffer` when the answer before it has been sent, and nothing
is left there when the relay begins; and that the reply goes to the client, and
both descriptors fit into a `uint8_t`.
-/

namespace Socksv5

open Support

/-! ## Runs in given surroundings -/

/-- The buffer that the write callback of the state sends from. -/
def Session.sendsFrom (s : Session) (state : GlobalState) (fd : ℤ) :
    Option Buffer :=
  match state with
  | .greetingWrite | .authWrite => some s.writeBuffer
  | .requestWrite => (requestFillMsg s.writeBuffer s.request.parser).toOption
  | .copy => (s.side? fd).map fun side => side.outbox s
  | _ => none

/-- How many attempts to connect the event can lead to. -/
def World.attemptsMade (w : World) (s : GlobalState) (r : Ready) (fd : ℤ)
    (sys : Sys) : ℕ :=
  match s, r with
  | .requestRead, .read =>
      match w.readRequest sys fd with
      | some (_, p) =>
          if p.state = .done ∧ (p.atyp = 1 ∨ p.atyp = 4) then 1 else 0
      | none => 0
  | .originConnect, .block => w.session.originResolution.length
  | _, _ => 0

namespace Surroundings

/-- The results of a callback are those of the surroundings: what is received is
data, what is sent is sent whole, and the client is notified of what has been
resolved. -/
structure Meets (E : Surroundings) (s : GlobalState) (w : World) (r : Ready)
    (fd : ℤ) (sys : Sys) : Prop where
  receives : r = .read → ∀ b ∈ w.session.receivesInto s fd,
    sys.hasData b = true
  sends : r = .write → ∀ b ∈ w.session.sendsFrom s fd, sys.sendsAll b = true
  notifies : r = .block → fd = w.session.clientFd
  allocs : sys.allocs = []
  parameters : sys.parameters = E.parameters
  malloc : sys.malloc = E.malloc
  pthreadCreate : sys.pthreadCreate = E.pthreadCreate
  soError : sys.soError = E.soError
  attempts : ∀ k < w.attemptsMade s r fd sys,
    sys.attempts k = E.attempts k ∧ ∀ n ∈ (E.attempts k).socket,
      (w.selector.HasRoom sys.realloc n ↔ E.registers k = true)

/-- The event goes as it does in the surroundings. -/
def Conforms (E : Surroundings) (s : GlobalState) (w : World) : Event → Prop
  | .dispatch r fd sys => E.Meets s w r fd sys
  | .resolved _ addrs alloc => addrs = E.addrs ∧ alloc = E.notified
  | _ => True

instance (E : Surroundings) (s : GlobalState) (w : World) (r : Ready) (fd : ℤ)
    (sys : Sys) : Decidable (E.Meets s w r fd sys) :=
  decidable_of_iff (_ ∧ _ ∧ _ ∧ _ ∧ _ ∧ _ ∧ _ ∧ _ ∧ _)
    ⟨fun h => ⟨h.1, h.2.1, h.2.2.1, h.2.2.2.1, h.2.2.2.2.1, h.2.2.2.2.2.1,
      h.2.2.2.2.2.2.1, h.2.2.2.2.2.2.2.1, h.2.2.2.2.2.2.2.2⟩,
    fun h => ⟨h.1, h.2, h.3, h.4, h.5, h.6, h.7, h.8, h.9⟩⟩

instance (E : Surroundings) (s : GlobalState) (w : World) (e : Event) :
    Decidable (E.Conforms s w e) :=
  match e with
  | .dispatch r fd sys => inferInstanceAs (Decidable (E.Meets s w r fd sys))
  | .resolved _ _ _ => inferInstanceAs (Decidable (_ ∧ _))
  | .connectionEnds _ | .others _ _ => inferInstanceAs (Decidable True)

end Surroundings

/-- Nothing is to come for the session: neither descriptor is waited for to be
written to, and no answer of the resolver is outstanding. -/
def World.Idle (w : World) : Prop :=
  ¬ w.selector.WritesTo w.session.clientFd ∧
    ¬ w.selector.WritesTo w.session.originFd ∧ w.threads = [] ∧
    w.session.clientFd ∉ w.selector.resolutionJobs

instance (w : World) : Decidable w.Idle :=
  inferInstanceAs (Decidable (_ ∧ _ ∧ _ ∧ _))

/-- `Serves E s o c₀ tr c`: in the surroundings `E`, the session has received
all of `s` from its client, unless it has ended before, and `o` from its origin,
and nothing is to come. -/
structure Serves (E : Surroundings) (s o : List UInt8) (c₀ : Config)
    (tr : List (Config × Event)) (c : Config) : Prop where
  run : Run (Step .alone) c₀ tr c
  conforms : ∀ x ∈ tr, E.Conforms x.1.state x.1.world x.2
  input : c.world.input <+: s
  whole : c.world.destroyed = false → c.world.input = s
  origin : received c.world.session.originFd c.world.log = o
  idle : c.world.destroyed = false → c.world.Idle

/-- Two sessions are in the same state, and have sent the same bytes to the
client and to the origin. -/
structure SameOutcome (c c' : Config) : Prop where
  state : c.state = c'.state
  client : sentTo c.world.session.clientFd c.world.log =
    sentTo c'.world.session.clientFd c'.world.log
  origin : sentTo c.world.session.originFd c.world.log =
    sentTo c'.world.session.originFd c'.world.log

/-- The descriptor opposite to this one fits into a `uint8_t`. -/
def Session.PeerFits (s : Session) (fd : ℤ) : Prop :=
  ∀ side ∈ s.side? fd, uint8 (side.peer.fd s) = side.peer.fd s

/-- The event leaves no message unread: what is in `read_buffer` when an answer
has been sent does not complete the message that is read next, and there is
nothing when the relay begins.  The reply is sent to the client, and the relay
arms the descriptor that it means to. -/
def PromptEvent (s : GlobalState) (w : World) : Event → Prop
  | .dispatch _ fd _ =>
      (s = .greetingWrite →
        (w.session.greeting.methodSelected = 0 →
          awaitsRequest (requestParserInit w.session.request.parser)
            w.session.readBuffer.pending = true) ∧
        (w.session.greeting.methodSelected = 2 →
          awaitsAuth authParserInit w.session.readBuffer.pending = true)) ∧
      (s = .authWrite → w.session.auth.reply = authSuccess →
        awaitsRequest (requestParserInit w.session.request.parser)
          w.session.readBuffer.pending = true) ∧
      (s = .requestWrite → fd = w.session.clientFd ∧
        (w.session.request.parser.reply = .succeded →
          w.session.readBuffer.pending = [])) ∧
      (s = .copy → w.session.PeerFits fd)
  | _ => True

instance (s : Session) (fd : ℤ) : Decidable (s.PeerFits fd) :=
  inferInstanceAs (Decidable (∀ side ∈ s.side? fd, _))

instance (s : GlobalState) (w : World) (e : Event) :
    Decidable (PromptEvent s w e) :=
  match e with
  | .dispatch _ _ _ => inferInstanceAs (Decidable (_ ∧ _ ∧ _ ∧ _))
  | .connectionEnds _ | .resolved _ _ _ | .others _ _ =>
      inferInstanceAs (Decidable True)

/-! ## What one callback leads to -/

theorem Session.side?_clientFd (s : Session) :
    s.side? s.clientFd = some .client := if_pos rfl

theorem World.attemptsMade_of_done {w : World} {sys : Sys} {fd : ℤ}
    {x : Buffer × RequestParser} (hread : w.readRequest sys fd = some x)
    (hdone : x.2.state = .done) (hatyp : x.2.atyp = 1 ∨ x.2.atyp = 4) :
    w.attemptsMade .requestRead .read fd sys = 1 := by
  simp only [World.attemptsMade, hread]
  rw [if_pos ⟨hdone, hatyp⟩]

/-- What is foretold, and how the session stands then. -/
def Promises (E : Surroundings) (s : GlobalState) (w : World)
    (ret : GlobalState) (w' : World) : Prop :=
  Proceeds E s w ret w' ∧ Poised ret w'

section Callbacks

variable {E : Surroundings} {sys : Sys} {fd : ℤ} {s ret : GlobalState}
  {r : Ready} {f : Callback} {vs via : List GlobalState} {w w₁ w₂ : World}

/-- Verifying the connection. -/
theorem verifyConnection_promises (hmeets : E.Meets .originConnect w .write fd sys)
    (hhands : w.Hands .alone .write fd) (hseated : Seated w)
    (hpoised : Poised .originConnect w)
    (h : verifyConnection sys fd w = .ok (ret, w₁)) :
    Promises E .originConnect w ret w₁ := by
  have hwrites : w.selector.WritesTo fd := hhands.2.2
  refine verifyConnection_foretold E hhands.2.1 hseated.client hmeets.soError ?_
    hpoised h
  rcases hhands.1.2 with rfl | rfl
  · exact .inr hwrites
  · exact .inl hwrites

/-- The notification: the first address is tried when it is delivered. -/
theorem connectOriginBlock_promises
    (hmeets : E.Meets .originConnect w .block fd sys)
    (hhands : w.Hands .alone .block fd) (hkernel : w.Kernel sys)
    (hresolving : Resolving w) (hpoised : Poised .originConnect w)
    (h : connectOriginBlock sys fd (w.delivered .block fd) = .ok (ret, w₁)) :
    Promises E .originConnect w ret w₁ := by
  obtain rfl := hmeets.notifies rfl
  have hjobs : w.session.clientFd ∈ w.selector.resolutionJobs := hhands.2.2
  obtain ⟨-, horigin, hunwritten⟩ := hresolving.idle (.inr hjobs)
  have hthreads : w.threads = [] := (hresolving.delivered hhands).1
  have hidle : Unresolving (w.delivered .block w.session.clientFd) :=
    ⟨hthreads, (hresolving.delivered hhands).2⟩
  have hattempts : ∀ i < w.session.originResolution.length,
      sys.attempts i = E.attempts i ∧
        E.Tries (w.delivered .block w.session.clientFd) sys.realloc i := by
    intro i hi
    obtain ⟨hattempt, hroom⟩ := hmeets.attempts i hi
    refine ⟨hattempt, fun n hn => ?_⟩
    obtain ⟨hfresh, hne⟩ := hkernel.fresh i n (hattempt ▸ hn)
    exact ⟨hfresh, hne, hroom n hn⟩
  obtain ⟨hforecast, hpoised'⟩ := connectOriginBlock_foretold E
    (w := w.delivered .block w.session.clientFd) hhands.2.1 hattempts hidle
    hpoised.1 hunwritten.not_writesTo h
  have hsilent := (delivered_silent w .block w.session.clientFd).trans
    (connectOriginBlock_spec h).silent
  refine ⟨(Takes.refl E _ w).silently hsilent fun more => ?_, hpoised'⟩
  rw [hforecast]
  simp [Surroundings.forecast, Surroundings.connecting, horigin,
    not_writesTo_none, hunwritten.not_writesTo, hthreads, hjobs]
  rfl

/-- A callback of the handshake keeps to the forecast, unless it goes on to
connect to the origin. -/
theorem onReady_promises (hs : s ≠ .originConnect) (hcopy : s ≠ .copy)
    (hmeets : E.Meets s w r fd sys)
    (hprompt : PromptEvent s w (.dispatch r fd sys)) (hunderstood : Understood w s)
    (hseated : Seated w) (hpoised : Poised s w) (hhands : w.Hands .alone r fd)
    (hf : onReady sys fd s r = some f) (h : f w = .ok (ret, w₁)) :
    (ret = s → Promises E s w s w₁) ∧
      (ret ≠ s → ret ≠ .originConnect →
        Promises E s w ret (arrived ret w₁)) := by
  have hreg := hseated.client
  have hfollows := onReady_follows hf hhands.2.1 h
  obtain ⟨hgreeting, hauth, hrequest, -⟩ := hprompt
  -- The states that read are not entered again when they stay.
  have of_reading (hreads : s = .greetingRead ∨ s = .authRead ∨
      s = .requestRead ∨ s = .originConnect ∨ s = .copy)
      (key : ret ≠ .originConnect → Promises E s w ret w₁) :
      (ret = s → Promises E s w s w₁) ∧ (ret ≠ s → ret ≠ .originConnect →
        Promises E s w ret (arrived ret w₁)) := by
    refine ⟨fun heq => heq ▸ key (heq ▸ hs), fun hne hconnect => ?_⟩
    rw [arrived_eq hreads (hfollows.resolve_left hne)]
    exact key hconnect
  have of_writing (hwrites : ∀ w, arrived s w = w)
      (key : Promises E s w ret (arrived ret w₁)) :
      (ret = s → Promises E s w s w₁) ∧ (ret ≠ s → ret ≠ .originConnect →
        Promises E s w ret (arrived ret w₁)) := by
    refine ⟨fun heq => ?_, fun _ _ => key⟩
    subst heq
    rwa [hwrites] at key
  cases s <;> cases r <;> cases hf
  case greetingRead.read =>
      obtain rfl := hhands.1.eq_clientFd hunderstood.1
      have hdata := hmeets.receives rfl _ (by
        rw [Session.receivesInto, Session.side?_clientFd]
        rfl)
      exact of_reading (by simp) fun _ => greetingRead_foretold E hreg
        hmeets.allocs hdata hunderstood.2.1 hpoised h
  case greetingWrite.write =>
      obtain rfl := hhands.1.eq_clientFd hunderstood.1
      obtain ⟨hnone, hauth⟩ := hgreeting rfl
      exact of_writing (fun _ => rfl) (greetingWrite_foretold E hreg
        (hmeets.sends rfl _ rfl) hnone hauth hpoised h)
  case authRead.read =>
      obtain rfl := hhands.1.eq_clientFd hunderstood.1
      have hdata := hmeets.receives rfl _ (by
        rw [Session.receivesInto, Session.side?_clientFd]
        rfl)
      exact of_reading (by simp) fun _ => authRead_foretold E hreg
        hmeets.allocs hmeets.parameters hdata hunderstood.2.1 hpoised h
  case authWrite.write =>
      obtain rfl := hhands.1.eq_clientFd hunderstood.1
      exact of_writing (fun _ => rfl) (authWrite_foretold E hreg
        (hmeets.sends rfl _ rfl) (hauth rfl) hpoised h)
  case requestRead.read =>
      obtain ⟨horigin, hparser, -⟩ := hunderstood
      obtain rfl := hhands.1.eq_clientFd horigin
      have hdata := hmeets.receives rfl _ (by
        rw [Session.receivesInto, Session.side?_clientFd]
        rfl)
      refine of_reading (by simp) fun hconnect => ?_
      rcases requestRead_foretold E hreg hmeets.allocs hdata horigin hparser
        hpoised h with ⟨-, hproceeds, hpoised'⟩ | ⟨heq, -⟩
      · exact ⟨hproceeds, hpoised'⟩
      · exact absurd heq hconnect
  case requestWrite.write =>
      obtain ⟨rfl, hclean⟩ := hrequest rfl
      obtain ⟨hproceeds, hpoised'⟩ := requestWrite_foretold E hreg (by
        intro wb hfill
        exact hmeets.sends rfl wb (toOption_eq_some.mpr hfill)) hclean
        hseated.distinct hpoised h
      refine of_writing (fun _ => rfl) ⟨?_, hpoised'⟩
      refine hproceeds.silently (arrived_silent ret w₁) fun more => ?_
      cases ret <;> first | rfl | exact absurd hfollows (by decide)
  case originConnect.write => exact absurd rfl hs
  case originConnect.block => exact absurd rfl hs
  case copy.read => exact absurd rfl hcopy
  case copy.write => exact absurd rfl hcopy

/-- What follows a callback leads where that promised. -/
theorem Outcome.promises (hout : Outcome sys fd s ret w₁ via w₂)
    (hlive : ¬ (s = .done ∨ s = .error))
    (hconnect : ret = .originConnect → s = .originConnect)
    (hstays : ret = s → Promises E s w s w₁)
    (henters : ret ≠ s → ret ≠ .originConnect →
      Promises E s w ret (arrived ret w₁)) :
    Proceeds E s w (via.getLastD s) w₂ ∧
      (w₂.destroyed = false → Poised (via.getLastD s) w₂) := by
  cases hout with
  | stays => exact (hstays rfl).imp_right fun hpoised _ => hpoised
  | enters hne hconnect =>
      exact (henters hne hconnect).imp_right fun hpoised _ => hpoised
  | connects hne | redirected hne => exact absurd (hconnect rfl) hne
  | ends hend hdone =>
      have hne : ret ≠ s := by
        rintro rfl
        exact hlive hend
      have harrived : arrived ret w₁ = w₁ := by
        rcases hend with rfl | rfl <;> rfl
      obtain ⟨hproceeds, -⟩ := henters hne (by
        rcases hend with rfl | rfl <;> decide)
      rw [harrived] at hproceeds
      refine ⟨hproceeds.silently (socksv5Done_silent hdone) fun more => ?_, ?_⟩
      · rcases hend with rfl | rfl <;> rfl
      · intro hlive'
        rw [socksv5Done_destroyed hdone] at hlive'
        cases hlive'

/-- The request has been read, and the session goes on to connect to the
origin. -/
theorem requestRead_promises (hmeets : E.Meets .requestRead w .read fd sys)
    (hkernel : w.Kernel sys) (hunderstood : Understood w .requestRead)
    (hseated : Seated w) (hunasked : Unasked w) (hpoised : Poised .requestRead w)
    (howns : w.session.Owns fd)
    (h : requestRead sys fd w = .ok (.originConnect, w₁))
    (hinit : connectOriginInit sys fd w₁ = .ok (ret, w₂)) :
    Promises E .requestRead w ret w₂ := by
  obtain ⟨horigin, hparser, -⟩ := hunderstood
  obtain rfl := howns.eq_clientFd horigin
  have hdata := hmeets.receives rfl _ (by
    rw [Session.receivesInto, Session.side?_clientFd]
    rfl)
  have hquiet := requestRead_quiet h
  obtain ⟨hread, hdone⟩ := requestRead_parsed h
  obtain ⟨-, hconnectable, htakes⟩ := (requestRead_foretold E hseated.client
    hmeets.allocs hdata horigin hparser hpoised h).resolve_left (by simp)
  have hattempts (hatyp : w₁.session.request.parser.atyp = 1 ∨
      w₁.session.request.parser.atyp = 4) :
      sys.attempts 0 = E.attempts 0 ∧ E.Tries w₁ sys.realloc 0 := by
    obtain ⟨hattempt, hroom⟩ := hmeets.attempts 0 (by
      rw [World.attemptsMade_of_done hread hdone hatyp]
      exact Nat.one_pos)
    refine ⟨hattempt, fun n hn => ?_⟩
    obtain ⟨hfresh, hne⟩ := hkernel.fresh 0 n (hattempt ▸ hn)
    rw [hquiet.registered, hquiet.clientFd, FdSelector.HasRoom, hquiet.fdSize]
    exact ⟨hfresh, hne, hroom n hn⟩
  have hidle := hunasked.of_quiet hquiet
  rw [← hquiet.clientFd] at hinit
  obtain ⟨hforecast, hpoised'⟩ := connectOriginInit_foretold
    (hseated.of_quiet hquiet).client hattempts hmeets.malloc
    hmeets.pthreadCreate hconnectable (hquiet.originFd.trans horigin)
    ⟨hidle.threads, List.count_eq_zero.mp hidle.jobs⟩ hinit
  refine ⟨htakes.silently (connectOriginInit_spec hinit).silent fun more => ?_,
    hpoised'⟩
  exact (hforecast more).symm

/-- A dispatch before the relay keeps to the forecast. -/
theorem foretold_of_dispatch (hcopy : s ≠ .copy) (hmeets : E.Meets s w r fd sys)
    (hprompt : PromptEvent s w (.dispatch r fd sys)) (hunderstood : Understood w s)
    (hseated : Seated w) (hasks : Asks s w) (hpoised : Poised s w)
    (hhands : w.Hands .alone r fd) (hkernel : w.Kernel sys)
    (hf : onReady sys fd s r = some f)
    (h : f (w.delivered r fd) = .ok (ret, w₁))
    (hout : Outcome sys fd s ret w₁ via w₂) :
    Proceeds E s w (via.getLastD s) w₂ ∧
      (w₂.destroyed = false → Poised (via.getLastD s) w₂) := by
  have hlive := onReady_live hf
  have hreg : (w.delivered r fd).selector.Registered fd := by
    cases r <;> exact hhands.2.1
  have hfollows := onReady_follows hf hreg h
  by_cases hs : s = .originConnect
  · subst hs
    have key : Promises E .originConnect w ret w₁ := by
      cases r <;> cases hf
      case write =>
          exact verifyConnection_promises hmeets hhands hseated hpoised h
      case block =>
          exact connectOriginBlock_promises hmeets hhands hkernel
            (hasks.connecting rfl) hpoised h
    refine hout.promises hlive (fun _ => rfl) (fun heq => heq ▸ key) ?_
    intro hne _
    rwa [arrived_eq (by simp) (hfollows.resolve_left hne)]
  have hr : r ≠ .block := by
    rintro rfl
    cases s <;> cases hf
    exact hs rfl
  rw [World.delivered_eq hr] at h
  obtain ⟨hstays, henters⟩ := onReady_promises hs hcopy hmeets hprompt
    hunderstood hseated hpoised hhands hf h
  by_cases hconnect : ret = .originConnect
  · subst hconnect
    obtain rfl := (hfollows.resolve_left (Ne.symm hs)).eq_requestRead
    cases r <;> cases hf
    have hunasked := hasks.early (by decide)
    have hinit {ret' : GlobalState}
        (h' : connectOriginInit sys fd w₁ = .ok (ret', w₂)) :=
      requestRead_promises hmeets hkernel hunderstood hseated hunasked hpoised
        hhands.1 h h'
    cases hout with
    | enters _ hconnect => exact absurd rfl hconnect
    | connects _ h' => exact (hinit h').imp_right fun hpoised _ => hpoised
    | redirected _ h' => exact (hinit h').imp_right fun hpoised _ => hpoised
    | ends hend => simp at hend
  · exact hout.promises hlive (fun heq => absurd heq hconnect) hstays henters

end Callbacks

/-! ## What a forecast looks at -/

/-- The two worlds look the same to a forecast made in the state. -/
structure Alike (E : Surroundings) (s : GlobalState) (w w' : World) : Prop where
  session : ∃ addrs, w'.session = { w.session with originResolution := addrs }
  interest : ∀ side : Side, w'.selector.interest? (side.fd w.session) =
    w.selector.interest? (side.fd w.session)
  connecting : s = .originConnect → E.connecting w' = E.connecting w
  threads : ∀ fd ∈ w'.threads, fd ∈ w.threads
  log : w'.log = w.log

namespace Alike

variable {E : Surroundings} {s : GlobalState} {w w' : World}

theorem silent (h : Alike E s w w') : Silent w w' := by
  obtain ⟨addrs, hsession⟩ := h.session
  refine ⟨?_, ?_, ?_, [], by rw [h.log, List.append_nil], by simp⟩ <;>
    rw [hsession]

theorem registered (h : Alike E s w w') :
    w'.selector.Registered w.session.originFd ↔
      w.selector.Registered w.session.originFd :=
  not_congr (iff_of_eq (congrArg (· = none) (h.interest .origin)))

theorem writesTo (h : Alike E s w w') (side : Side) :
    w'.selector.WritesTo (side.fd w.session) ↔
      w.selector.WritesTo (side.fd w.session) := by
  rw [FdSelector.WritesTo, h.interest side]
  exact Iff.rfl

theorem forecast_eq (h : Alike E s w w') (more : List UInt8) :
    E.forecast s w more = E.forecast s w' more := by
  obtain ⟨addrs, hsession⟩ := h.session
  have hconnecting := h.connecting
  have hregistered := h.registered
  cases s <;> simp only [Surroundings.forecast, hsession]
  case originConnect => rw [hconnecting rfl]
  case requestWrite => simp only [hregistered]

theorem poised (h : Alike E s w w') (hw : Poised s w) : Poised s w' := by
  obtain ⟨addrs, hsession⟩ := h.session
  have hwrites := h.writesTo
  have hclient := (hwrites .client).mpr
  have hregistered := h.registered
  cases s <;> simp only [Poised, hsession] at hw ⊢
  case greetingRead => exact hw
  case authRead => exact hw
  case requestRead => exact hw
  case greetingWrite => exact ⟨hw.1, hclient hw.2⟩
  case authWrite => exact ⟨hw.1, hclient hw.2⟩
  case requestWrite => exact ⟨hw.1, hclient hw.2⟩
  case originConnect => exact ⟨hw.1, fun fd hfd => hw.2 fd (h.threads fd hfd)⟩
  case copy =>
      refine ⟨?_, ?_, fun side => ?_⟩
      · rw [hsession]
        exact hw.flags
      · rw [hsession]
        exact hregistered.mpr hw.origin
      · rw [hsession]
        have hside := (hwrites side).trans (hw.writes side)
        cases side <;> exact hside

end Alike

theorem connectionEnds_alike (E : Surroundings) (s : GlobalState) (w : World)
    (conn : Conn) : Alike E s w { w with conn := conn } where
  session := ⟨w.session.originResolution, rfl⟩
  interest := fun _ => rfl
  connecting := fun _ => rfl
  threads := fun _ hfd => hfd
  log := rfl

theorem Side.owns_fd {s : Session} (side : Side) (h : 0 ≤ side.fd s) :
    s.Owns (side.fd s) := by
  cases side
  · exact ⟨h, .inl rfl⟩
  · exact ⟨h, .inr rfl⟩

/-- The rest of the server leaves the session's interests and notifications. -/
theorem others_alike (E : Surroundings) (s : GlobalState) {w : World}
    {sel : FdSelector} (m : Metrics) (hseated : s = .originConnect → Seated w)
    (hsame : w.Undisturbed .alone sel) :
    Alike E s w { w with selector := sel, metrics := m } := by
  have hinterest (side : Side) : sel.interest? (side.fd w.session) =
      w.selector.interest? (side.fd w.session) := by
    by_cases hpos : 0 ≤ side.fd w.session
    · exact ((hsame _ (side.owns_fd hpos)).2 rfl).1
    · have hnone (s : FdSelector) : s.interest? (side.fd w.session) = none := by
        by_contra hreg
        exact hpos (FdSelector.Registered.nonneg hreg)
      rw [hnone, hnone]
  have hwrites (side : Side) : sel.WritesTo (side.fd w.session) ↔
      w.selector.WritesTo (side.fd w.session) := by
    rw [FdSelector.WritesTo, hinterest side]
    exact Iff.rfl
  have hregistered : sel.Registered w.session.originFd ↔
      w.selector.Registered w.session.originFd :=
    not_congr (iff_of_eq (congrArg (· = none) (hinterest .origin)))
  refine ⟨⟨w.session.originResolution, rfl⟩, hinterest, fun hs => ?_,
    fun _ hfd => hfd, rfl⟩
  have hjobs : w.session.clientFd ∈ sel.resolutionJobs ↔
      w.session.clientFd ∈ w.selector.resolutionJobs := by
    rw [← List.count_pos_iff, ← List.count_pos_iff,
      ((hsame _ ⟨(hseated hs).nonneg, .inl rfl⟩).2 rfl).2]
  have hclient : sel.WritesTo w.session.clientFd ↔ _ := hwrites .client
  have horigin : sel.WritesTo w.session.originFd ↔ _ := hwrites .origin
  simp only [Surroundings.connecting, hclient, horigin, hregistered, hjobs]
  rfl

/-- The resolver's answer is the one that was awaited. -/
theorem resolved_alike {E : Surroundings} {s : GlobalState} {w : World} {fd : ℤ}
    {addrs : List SockAddr} {alloc : Bool} (haddrs : addrs = E.addrs)
    (halloc : alloc = E.notified) (hthread : fd ∈ w.threads)
    (hconnecting : s = .originConnect → Resolving w ∧ Poised .originConnect w) :
    Alike E s w (connectOriginThread fd addrs alloc w) := by
  refine ⟨⟨addrs, rfl⟩, fun _ => ?_, ?_,
    fun _ hfd => List.mem_of_mem_erase hfd, rfl⟩
  · exact congrFun (FdSelector.interest?_notified _ _ _) _
  intro hs
  obtain ⟨hresolving, hpoised⟩ := hconnecting hs
  have hpos : w.threads ≠ [] := List.ne_nil_of_mem hthread
  obtain ⟨-, horigin, hunwritten⟩ := hresolving.idle (.inl hpos)
  obtain rfl : fd = w.session.clientFd := hpoised.2 fd hthread
  have hlength := List.length_pos_iff.mpr hpos
  have honce := hresolving.once
  have hthreads : w.threads.erase w.session.clientFd = [] := by
    rw [List.eq_nil_iff_length_eq_zero, List.length_erase_of_mem hthread]
    omega
  have hjobs : w.session.clientFd ∉ w.selector.resolutionJobs := by
    rw [← List.count_eq_zero]
    omega
  have hwrites (d : ℤ) : (selectorNotifyBlock w.selector w.session.clientFd
      alloc).2.WritesTo d ↔ w.selector.WritesTo d := by
    rw [FdSelector.WritesTo, FdSelector.interest?_notified]
    exact Iff.rfl
  have hbefore : E.connecting w = E.awaited := by
    simp [Surroundings.connecting, horigin, not_writesTo_none,
      hunwritten.not_writesTo, hpos]
  rw [hbefore, Surroundings.awaited, ← halloc, ← haddrs]
  simp only [Surroundings.connecting, connectOriginThread, hwrites, horigin,
    not_writesTo_none, hunwritten.not_writesTo, hthreads, or_self, if_false,
    ne_eq, not_true_eq_false]
  cases alloc with
  | true => simp [selectorNotifyBlock]
  | false => simp [selectorNotifyBlock, hjobs]

/-- Nothing more is foretold of a session for which nothing is to come. -/
theorem forecast_of_idle {E : Surroundings} {s : GlobalState} {w : World}
    (hunderstood : Understood w s) (hpoised : Poised s w) (hidle : w.Idle) :
    E.forecast s w [] = .ok ⟨s, []⟩ := by
  obtain ⟨hclient, horigin, hthreads, hjobs⟩ := hidle
  cases s with
  | greetingRead =>
      simp only [Surroundings.forecast, hpoised.1, List.nil_append]
      exact reading_of_awaits (awaits_nil hunderstood.2.1)
  | greetingWrite | authWrite | requestWrite => exact absurd hpoised.2 hclient
  | authRead | requestRead =>
      simp only [Surroundings.forecast, List.append_nil]
      exact reading_of_awaits hpoised.2
  | originConnect =>
      simp [Surroundings.forecast, Surroundings.connecting, hclient, horigin,
        hthreads, hjobs, Outlook.stranded]
  | copy | done | error => rfl

/-! ## Runs -/

/-- The client has been sent the answers, and then what has been relayed. -/
def SentInOrder (w : World) : Prop :=
  sentTo w.session.clientFd w.log =
    w.answers ++ relayedTo w.session.clientFd w.log

theorem HandshakeLog.sentInOrder {w : World}
    (h : HandshakeLog w.session.clientFd w.log) : SentInOrder w := by
  have hrelayed : relayedTo w.session.clientFd w.log = [] := by
    rw [relayedTo, List.flatMap_eq_nil_iff]
    intro c hc
    have := h c hc
    cases c with
    | send s fd bs => cases s <;> first | rfl | exact absurd rfl this.1
    | _ => rfl
  rw [SentInOrder, hrelayed, List.append_nil]
  refine List.flatMap_congr fun c hc => ?_
  have := h c hc
  cases c with
  | send s fd bs =>
      obtain ⟨hs, rfl⟩ := this
      simp [Call.sentTo, Call.answeredTo, hs]
  | _ => rfl

/-- The relay answers nothing. -/
theorem SentInOrder.of_mute {w w' : World} (hw : SentInOrder w) (h : Mute w w') :
    SentInOrder w' := by
  obtain ⟨calls, hlog, hcalls⟩ := h.log
  have hsame : sentTo w.session.clientFd calls =
      relayedTo w.session.clientFd calls := by
    refine List.flatMap_congr fun c hc => ?_
    have := hcalls c hc
    cases c with
    | send s fd bs =>
        simp only [Call.answers, decide_eq_false_iff_not, not_not] at this
        subst this
        rfl
    | _ => rfl
  rw [SentInOrder, h.answers_eq, h.clientFd, hlog, sentTo, List.flatMap_append,
    relayedTo, List.flatMap_append, ← List.append_assoc]
  exact congrArg₂ (· ++ ·) hw hsame

/-- What holds in a run, from the world `w₀`: the session is where it had been
foretold, and has sent what it should. -/
structure Foretold (E : Surroundings) (w₀ : World) (vs : List GlobalState)
    (s : GlobalState) (w : World) : Prop where
  unstarted : vs = [] → w.session.greeting.parser = greetingParserInit
  leads : Leads E .greetingRead w₀ (E.forecast s w) w
  poised : w.destroyed = false → Poised s w
  ended : w.destroyed = true → s = .done ∨ s = .error
  distinct : w.session.originFd ≠ w.session.clientFd
  handshake : s ≠ .copy → HandshakeLog w.session.clientFd w.log
  relay : s = .copy → Relaying w
  sent : SentInOrder w

section Runs

variable {E : Surroundings} {w₀ : World} {sys : Sys} {fd : ℤ}
  {s ret : GlobalState} {r : Ready} {f : Callback}
  {vs via : List GlobalState} {w w₁ w₂ : World}

theorem Foretold.live (hw : Foretold E w₀ vs s w)
    (hs : ¬ (s = .done ∨ s = .error)) : w.destroyed = false := by
  rw [← Bool.not_eq_true]
  exact fun hdestroyed => hs (hw.ended hdestroyed)

theorem Foretold.of_alike (hw : Foretold E w₀ vs s w) (h : Alike E s w w₁)
    (hdestroyed : w₁.destroyed = w.destroyed) : Foretold E w₀ vs s w₁ := by
  have hsilent := h.silent
  obtain ⟨addrs, hsession⟩ := h.session
  have horigin : w₁.session.originFd = w.session.originFd := by rw [hsession]
  refine ⟨fun hvs => ?_, hw.leads.silently hsilent h.forecast_eq, ?_, ?_, ?_,
    fun hs => (hw.handshake hs).of_silent hsilent,
    fun hs => (hw.relay hs).of_silent hsilent horigin,
    hw.sent.of_mute hsilent.mute⟩
  · rw [hsession]
    exact hw.unstarted hvs
  · rw [hdestroyed]
    exact fun hlive => h.poised (hw.poised hlive)
  · rw [hdestroyed]
    exact hw.ended
  · rw [horigin, hsilent.clientFd]
    exact hw.distinct

/-- The reply starts the relay with nothing in the buffers. -/
theorem relaying_of_dispatch (hcopy : s ≠ .copy)
    (hprompt : PromptEvent s w (.dispatch r fd sys)) (hunderstood : Understood w s)
    (hseated : Seated w) (hlog : HandshakeLog w.session.clientFd w.log)
    (hreg : w.selector.Registered fd) (hf : onReady sys fd s r = some f)
    (h : f (w.delivered r fd) = .ok (ret, w₁))
    (hout : Outcome sys fd s ret w₁ via w₂) (hvia : via.getLastD s = .copy) :
    Relaying w₂ := by
  cases hout with
  | stays => exact absurd hvia hcopy
  | connects => cases hvia
  | redirected _ _ hto => rcases hto with rfl | rfl <;> cases hvia
  | ends hend => rcases hend with rfl | rfl <;> cases hvia
  | enters hne =>
      obtain rfl : ret = .copy := hvia
      have hreg' : (w.delivered r fd).selector.Registered fd := by
        cases r <;> exact hreg
      obtain rfl :=
        ((onReady_follows hf hreg' h).resolve_left hne).eq_requestWrite
      cases r <;> cases hf
      obtain ⟨-, -, hrequest, -⟩ := hprompt
      obtain ⟨rfl, hclean⟩ := hrequest rfl
      have hspec := requestWrite_spec h
      have hreply : w.session.request.parser.reply = .succeded := by
        cases hspec with
        | grants _ _ _ hreply => exact hreply
      exact (hspec.relaying hseated hunderstood ⟨hlog, fun _ => hclean hreply⟩).of_silent
        (arrived_silent .copy w₁) rfl

/-- A dispatch in the relay. -/
theorem Foretold.copied (hw : Foretold E w₀ vs .copy w) (hvs : vs ≠ [])
    (hseated : Seated w) (hlive : w.destroyed = false)
    (hmeets : E.Meets .copy w r fd sys) (hfits : w.session.PeerFits fd)
    (hhands : w.Hands .alone r fd) (hf : onReady sys fd .copy r = some f)
    (h : f w = .ok (ret, w₁))
    (hout : Outcome sys fd .copy ret w₁ via w₂) :
    Foretold E w₀ (vs ++ via) (via.getLastD .copy) w₂ := by
  have hflowing : Flowing w := hw.poised hlive
  have hr : r ≠ .block := by
    rintro rfl
    cases hf
  have key : ret = .copy ∧ Flowing w₁ := by
    obtain ⟨side, hside⟩ := hhands.1.exists_side
    have hfits' := hfits side hside
    obtain rfl := Session.side?_eq hside
    cases r with
    | block => cases hf
    | read =>
        cases hf
        have hdata := hmeets.receives rfl _ (by
          rw [Session.receivesInto, hside]
          rfl)
        exact (copyRead_spec hside hhands.2.1 h).flowing hdata hfits' hseated
          hflowing
    | write =>
        cases hf
        have hsends := hmeets.sends rfl _ (by
          rw [Session.sendsFrom, hside]
          rfl)
        exact (copyWrite_spec hside hhands.2.1 h).flowing hsends hhands.2.2
          hfits' hseated hflowing
  obtain ⟨rfl, hflowing'⟩ := key
  obtain ⟨-, rfl, rfl⟩ := (hout.of_copy (.inl rfl)).resolve_right (by simp)
  have hgrows := onReady_grows hf h
  have hmute := copy_mute hhands.2.1 hf h
  have hquiet := onReady_quiet hf hr h
  have hseated' := hseated.of_quiet hquiet
  obtain ⟨got, hgot⟩ := @received_mono w.session.clientFd _ _ hgrows.2
  rw [List.append_nil]
  refine ⟨fun hnil => absurd hnil hvs, hw.leads.trans ⟨got, [], ?_, ?_, ?_⟩,
    fun _ => hflowing', fun hdestroyed => ?_, hseated'.distinct,
    fun hne => absurd rfl hne,
    fun _ => copy_relaying hseated hhands.2.1 hf h (hw.relay rfl),
    hw.sent.of_mute hmute⟩
  · rw [World.input, hgrows.1]
    exact hgot.symm
  · rw [hmute.answers_eq, List.append_nil]
  · exact fun _ => rfl
  · rw [hquiet.destroyed, hlive] at hdestroyed
    cases hdestroyed

/-- A dispatch before the relay. -/
theorem Foretold.dispatched (hw : Foretold E w₀ vs s w) (hcopy : s ≠ .copy)
    (hvs : vs ≠ []) (hgate : Gate vs s w) (hseated : Seated w) (hasks : Asks s w)
    (hlive : w.destroyed = false) (hmeets : E.Meets s w r fd sys)
    (hprompt : PromptEvent s w (.dispatch r fd sys))
    (hhands : w.Hands .alone r fd) (hkernel : w.Kernel sys)
    (hf : onReady sys fd s r = some f)
    (h : f (w.delivered r fd) = .ok (ret, w₁))
    (hout : Outcome sys fd s ret w₁ via w₂) :
    Foretold E w₀ (vs ++ via) (via.getLastD s) w₂ := by
  have hlog := hw.handshake hcopy
  obtain ⟨hproceeds, hpoised⟩ := foretold_of_dispatch hcopy hmeets hprompt
    hgate.understood hseated hasks (hw.poised hlive) hhands hkernel hf h hout
  obtain ⟨hseated', hclient⟩ := onReady_seated hseated hkernel hf h
  have hdistinct := (hout.seated hseated' fun n hn => by
    rw [hclient]
    exact (hkernel.fresh 0 n hn).2).1
  have hlog' : HandshakeLog w₂.session.clientFd w₂.log := by
    obtain ⟨calls, hcalls, hhandshake⟩ := hproceeds.converses
    rw [hout.silent.clientFd, hclient, hcalls]
    exact hlog.append hhandshake
  refine ⟨fun hnil => absurd (List.append_eq_nil_iff.mp hnil).1 hvs,
    hw.leads.trans hproceeds.leads, hpoised, hout.ended ?_, hdistinct,
    fun _ => hlog', fun hvia => ?_, hlog'.sentInOrder⟩
  · rw [onReady_destroyed hf h]
    cases r <;> exact hlive
  · exact relaying_of_dispatch hcopy hprompt hgate.understood hseated hlog
      hhands.2.1 hf h hout hvia

theorem foretold_inductive (E : Surroundings) (w₀ : World) :
    Inductive .alone (fun vs s w => Basics vs s w ∧
        (w.destroyed = false → Asks s w))
      (fun s w e => E.Conforms s w e ∧ PromptEvent s w e) (Foretold E w₀) where
  started := by
    intro w _ hw
    have hparser := hw.unstarted rfl
    refine ⟨by simp, hw.leads.silently (arrived_silent .greetingRead w) ?_,
      fun hlive => hw.poised hlive, hw.ended, hw.distinct,
      fun _ => hw.handshake (by decide), fun hcopy => absurd hcopy (by decide),
      hw.sent⟩
    intro more
    simp only [Surroundings.forecast, hparser]
    rfl
  startedCondition := by
    intro w e he
    cases e with
    | dispatch r fd sys =>
        obtain ⟨hmeets, hprompt⟩ := he
        refine ⟨⟨hmeets.receives, ?_, hmeets.notifies, hmeets.allocs,
          hmeets.parameters, hmeets.malloc, hmeets.pthreadCreate, hmeets.soError,
          ?_⟩, ?_⟩
        · intro _ b hb
          cases hb
        · intro k hk
          exact absurd hk (Nat.not_lt_zero k)
        · simp [PromptEvent]
    | connectionEnds | resolved | others => exact he
  dispatched := by
    intro vs s r fd sys w f ret w₁ via w₂ hK hw hs hC hlive hhands hkernel hf h hout
    obtain ⟨⟨hgate, hseated⟩, hasks⟩ := hK
    have hvs : vs ≠ [] := by
      rintro rfl
      cases hs
    by_cases hcopy : s = .copy
    · subst hcopy
      have hdelivered : w.delivered r fd = w :=
        World.delivered_eq (by rintro rfl; cases hf) fd
      rw [hdelivered] at h
      exact hw.copied hvs (hseated hlive) hlive hC.1 (hC.2.2.2.2 rfl) hhands hf h
        hout
    · exact hw.dispatched hcopy hvs hgate (hseated hlive) (hasks hlive) hlive hC.1
        hC.2 hhands hkernel hf h hout
  connectionEnds := fun ok _ hw _ _ =>
    hw.of_alike (connectionEnds_alike E _ _ _) rfl
  resolved := by
    intro vs s w fd addrs alloc hK hw hC hthread
    refine hw.of_alike (resolved_alike hC.1.1 hC.1.2 hthread ?_) rfl
    rintro rfl
    have hlive := hw.live (by decide)
    exact ⟨(hK.2 hlive).connecting rfl, hw.poised hlive⟩
  others := by
    intro vs s w sel m hK hw _ hsame
    refine hw.of_alike (others_alike E s m ?_ hsame) rfl
    rintro rfl
    exact hK.1.2 (hw.live (by decide))

end Runs

theorem Initial.foretold (E : Surroundings) {c : Config} (h : Initial c) :
    Foretold E c.world [] .greetingRead c.world := by
  have hseated := h.basics.2
  obtain ⟨address, clientFd, s, m, rfl, -⟩ := h
  have hempty : HandshakeLog clientFd [] := by simp [HandshakeLog]
  have hroom : 2 ≤ (Buffer.init maxBuffSize fun _ => 0).room := by decide
  refine ⟨fun _ => rfl, .refl E _ _, fun _ => ⟨rfl, rfl, hroom⟩, ?_,
    (hseated rfl).distinct, fun _ => hempty, ?_, rfl⟩
  · intro hdestroyed
    cases hdestroyed
  · intro hcopy
    cases hcopy

section Serves

variable {E : Surroundings} {s o : List UInt8} {c₀ c : Config}
  {tr : List (Config × Event)}

/-- What holds at the end of a run. -/
theorem Serves.foretold (h : Serves E s o c₀ tr c) (h₀ : Initial c₀)
    (hprompt : ∀ x ∈ tr, PromptEvent x.1.state x.1.world x.2) :
    ∃ vs, Understood c.world c.state ∧ Foretold E c₀.world vs c.state c.world := by
  have hinductive := ((basics_inductive .alone).and asks_inductive).and
    (foretold_inductive E c₀.world)
  obtain ⟨vs, -, ⟨⟨hgate, -⟩, -⟩, hforetold⟩ := hinductive.run h.run
    (fun x hx => ⟨h.conforms x hx, hprompt x hx⟩) h₀.stm_eq
    ⟨⟨h₀.basics, fun _ => h₀.asks⟩, h₀.foretold E⟩
  exact ⟨vs, hgate.understood, hforetold⟩

/-- The session ends up where it had been foretold from the bytes alone. -/
theorem Serves.outlook (h : Serves E s o c₀ tr c) (h₀ : Initial c₀)
    (hprompt : ∀ x ∈ tr, PromptEvent x.1.state x.1.world x.2) :
    E.forecast .greetingRead c₀.world s = .ok ⟨c.state, c.world.answers⟩ := by
  obtain ⟨vs, hunderstood, hforetold⟩ := h.foretold h₀ hprompt
  obtain ⟨got, said, hinput, hanswers, hforecast⟩ := hforetold.leads
  have hlog : c₀.world.log = [] := h₀.gate.unstarted rfl
  have hinput : c.world.input = got := by
    rw [hinput, World.input, hlog, received_nil, List.nil_append]
  have hanswers : c.world.answers = said := by
    rw [hanswers, World.answers, hlog]
    rfl
  rw [hanswers]
  cases hdestroyed : c.world.destroyed with
  | false =>
      have hpoised := hforetold.poised hdestroyed
      rw [← h.whole hdestroyed, hinput, ← List.append_nil got, hforecast,
        forecast_of_idle hunderstood hpoised (h.idle hdestroyed)]
      simp [Except.map, Outlook.after]
  | true =>
      obtain ⟨more, rfl⟩ := h.input
      rw [hinput, hforecast]
      rcases hforetold.ended hdestroyed with hs | hs <;> rw [hs] <;>
        simp [Surroundings.forecast, Except.map, Outlook.after]

/-- What has been sent: in the relay, all that there was to relay. -/
theorem Serves.sent (h : Serves E s o c₀ tr c) (h₀ : Initial c₀)
    (hprompt : ∀ x ∈ tr, PromptEvent x.1.state x.1.world x.2) :
    (c.state ≠ .copy → sentTo c.world.session.clientFd c.world.log =
        c.world.answers ∧
      sentTo c.world.session.originFd c.world.log = []) ∧
    (c.state = .copy → sentTo c.world.session.clientFd c.world.log =
        c.world.answers ++ o ∧ c.world.input = s ∧
      AfterRequest c.world
        (sentTo c.world.session.originFd c.world.log)) := by
  obtain ⟨vs, -, hforetold⟩ := h.foretold h₀ hprompt
  have hsent : sentTo c.world.session.clientFd c.world.log = _ := hforetold.sent
  constructor
  · intro hcopy
    obtain ⟨horigin, -, hrelayed⟩ :=
      (hforetold.handshake hcopy).empty hforetold.distinct
    rw [hsent, hrelayed, List.append_nil]
    exact ⟨rfl, horigin⟩
  · intro hcopy
    have hlive := hforetold.live (by rw [hcopy]; decide)
    have hflowing : Flowing c.world := by
      have hpoised := hforetold.poised hlive
      rwa [hcopy] at hpoised
    obtain ⟨hclient, horigin, -⟩ := h.idle hlive
    have hread : c.world.session.readBuffer.pending = [] :=
      not_not.mp ((hflowing.writes .client).not.mp hclient)
    have hwrite : c.world.session.writeBuffer.pending = [] :=
      not_not.mp ((hflowing.writes .origin).not.mp horigin)
    obtain ⟨hafter, hreceived⟩ := hforetold.relay hcopy
    rw [hwrite, List.append_nil] at hafter
    rw [hread, List.append_nil, h.origin] at hreceived
    rw [hsent, ← hreceived]
    exact ⟨rfl, h.whole hlive, hafter⟩

end Serves

/-- However the bytes of the client are divided, two runs of a session in the
same surroundings end in the same state, and have sent the same bytes, when no
event of theirs leaves a message unread. -/
theorem sameOutcome_of_promptEvents {E : Surroundings} {s o : List UInt8}
    {c₀ c c' : Config} {tr tr' : List (Config × Event)} (h₀ : Initial c₀)
    (h : Serves E s o c₀ tr c) (h' : Serves E s o c₀ tr' c')
    (hprompt : ∀ x ∈ tr, PromptEvent x.1.state x.1.world x.2)
    (hprompt' : ∀ x ∈ tr', PromptEvent x.1.state x.1.world x.2) :
    SameOutcome c c' := by
  have houtlook := (h.outlook h₀ hprompt).symm.trans (h'.outlook h₀ hprompt')
  obtain ⟨hstate, hanswers⟩ := Outlook.mk.inj (Except.ok.inj houtlook)
  obtain ⟨hother, hcopy⟩ := h.sent h₀ hprompt
  obtain ⟨hother', hcopy'⟩ := h'.sent h₀ hprompt'
  by_cases hc : c.state = .copy
  · obtain ⟨hclient, hinput, hafter⟩ := hcopy hc
    obtain ⟨hclient', hinput', hafter'⟩ := hcopy' (hstate ▸ hc)
    refine ⟨hstate, ?_, hafter.unique hafter' (hinput.trans hinput'.symm)⟩
    rw [hclient, hclient', hanswers]
  · obtain ⟨hclient, horigin⟩ := hother hc
    obtain ⟨hclient', horigin'⟩ := hother' (hstate ▸ hc)
    exact ⟨hstate, by rw [hclient, hclient', hanswers], by rw [horigin, horigin']⟩

/-- A script that can be played serves what it receives. -/
theorem serves_of_play {E : Surroundings} {s o : List UInt8} {c₀ c : Config}
    {acts : List Act} (hplay : play .alone c₀ acts = some c)
    (hconforms : ∀ x ∈ playTrace .alone c₀ acts,
      E.Conforms x.1.state x.1.world x.2)
    (hinput : c.world.input = s)
    (horigin : received c.world.session.originFd c.world.log = o)
    (hidle : c.world.Idle) :
    Serves E s o c₀ (playTrace .alone c₀ acts) c where
  run := play_run hplay
  conforms := hconforms
  input := hinput ▸ List.prefix_refl _
  whole := fun _ => hinput
  origin := horigin
  idle := fun _ => hidle

/-- Every address can be connected to, by the descriptor 6. -/
def connectable : Surroundings where
  attempts := fun _ => { socket := some 6, connect := .inProgress }

/-- A client whose greeting, request and first bytes come in three parts. -/
def threeParts : List Act :=
  connectedClient [] ++
    [.dispatch .read 5 { recv := .received [71, 72] } [],
      .dispatch .read 6 { recv := .received [73] } [],
      .dispatch .write 6 { send := .accepted 1 } [],
      .dispatch .write 5 { send := .accepted 0 } []]

/-- The same client, in six parts. -/
def sixParts : List Act :=
  [.dispatch .read 5 { recv := .received [5, 1] } [],
    .dispatch .read 5 { recv := .received [0] } [],
    .dispatch .write 5 { send := .accepted 1 } [],
    .dispatch .read 5 { recv := .received [5, 1, 0, 1, 10] } [],
    .dispatch .read 5 { recv := .received [0, 0, 1, 0, 80] }
      [{ socket := some 6, connect := .inProgress }],
    .connectionEnds true,
    .dispatch .write 6 {} [],
    .dispatch .write 5 { send := .accepted 9 } [],
    .dispatch .read 6 { recv := .received [73] } [],
    .dispatch .read 5 { recv := .received [71] } [],
    .dispatch .write 6 { send := .accepted 0 } [],
    .dispatch .write 5 { send := .accepted 0 } [],
    .dispatch .read 5 { recv := .received [72] } [],
    .dispatch .write 6 { send := .accepted 0 } []]

theorem sameOutcome_of_parts :
    ∃ c c', play .alone (accepted 5) threeParts = some c ∧
      play .alone (accepted 5) sixParts = some c' ∧
      c.state = .copy ∧ sentTo 6 c.world.log = [71, 72] ∧ SameOutcome c c' := by
  have hplay : (play .alone (accepted 5) threeParts).any (fun c =>
      decide (c.world.input =
          [5, 1, 0, 5, 1, 0, 1, 10, 0, 0, 1, 0, 80, 71, 72] ∧
        received c.world.session.originFd c.world.log = [73] ∧ c.world.Idle ∧
        c.state = .copy ∧ sentTo 6 c.world.log = [71, 72])) = true := by decide
  have hplay' : (play .alone (accepted 5) sixParts).any (fun c =>
      decide (c.world.input =
          [5, 1, 0, 5, 1, 0, 1, 10, 0, 0, 1, 0, 80, 71, 72] ∧
        received c.world.session.originFd c.world.log = [73] ∧
        c.world.Idle)) = true := by decide +kernel
  have hevents : ∀ x ∈ playTrace .alone (accepted 5) threeParts,
      connectable.Conforms x.1.state x.1.world x.2 ∧
        PromptEvent x.1.state x.1.world x.2 := by decide
  have hevents' : ∀ x ∈ playTrace .alone (accepted 5) sixParts,
      connectable.Conforms x.1.state x.1.world x.2 ∧
        PromptEvent x.1.state x.1.world x.2 := by decide +kernel
  obtain ⟨c, hc, hend⟩ := (Option.any_eq_true _ _).mp hplay
  obtain ⟨hinput, horigin, hidle, hstate, hsent⟩ := of_decide_eq_true hend
  obtain ⟨c', hc', hend'⟩ := (Option.any_eq_true _ _).mp hplay'
  obtain ⟨hinput', horigin', hidle'⟩ := of_decide_eq_true hend'
  have hserves := serves_of_play hc (fun x hx => (hevents x hx).1) hinput horigin
    hidle
  have hserves' := serves_of_play hc' (fun x hx => (hevents' x hx).1) hinput'
    horigin' hidle'
  exact ⟨c, c', hc, hc', hstate, hsent,
    sameOutcome_of_promptEvents (accepted_initial (by decide) (by decide))
      hserves hserves' (fun x hx => (hevents x hx).2)
      fun x hx => (hevents' x hx).2⟩

/-- A request that comes with the greeting is never read: the session waits for
more. -/
def greetingWithRequest : List Act :=
  [.dispatch .read 5
      { recv := .received [5, 1, 0, 5, 1, 0, 1, 10, 0, 0, 1, 0, 80] } [],
    .dispatch .write 5 { send := .accepted 1 } []]

theorem not_sameOutcome_of_greetingWithRequest :
    ∃ c c' tr tr', Initial (accepted 5) ∧
      Serves connectable [5, 1, 0, 5, 1, 0, 1, 10, 0, 0, 1, 0, 80] []
        (accepted 5) tr c ∧
      Serves connectable [5, 1, 0, 5, 1, 0, 1, 10, 0, 0, 1, 0, 80] []
        (accepted 5) tr' c' ∧
      c.state = .copy ∧ c'.state = .requestRead ∧ ¬ SameOutcome c c' := by
  have hplay : (play .alone (accepted 5) (connectedClient [])).any (fun c =>
      decide (c.world.input = [5, 1, 0, 5, 1, 0, 1, 10, 0, 0, 1, 0, 80] ∧
        received c.world.session.originFd c.world.log = [] ∧ c.world.Idle ∧
        c.state = .copy)) = true := by decide
  have hplay' : (play .alone (accepted 5) greetingWithRequest).any (fun c =>
      decide (c.world.input = [5, 1, 0, 5, 1, 0, 1, 10, 0, 0, 1, 0, 80] ∧
        received c.world.session.originFd c.world.log = [] ∧ c.world.Idle ∧
        c.state = .requestRead)) = true := by decide
  have hconforms : ∀ x ∈ playTrace .alone (accepted 5) (connectedClient []),
      connectable.Conforms x.1.state x.1.world x.2 := by decide
  have hconforms' : ∀ x ∈ playTrace .alone (accepted 5) greetingWithRequest,
      connectable.Conforms x.1.state x.1.world x.2 := by decide
  obtain ⟨c, hc, hend⟩ := (Option.any_eq_true _ _).mp hplay
  obtain ⟨hinput, horigin, hidle, hstate⟩ := of_decide_eq_true hend
  obtain ⟨c', hc', hend'⟩ := (Option.any_eq_true _ _).mp hplay'
  obtain ⟨hinput', horigin', hidle', hstate'⟩ := of_decide_eq_true hend'
  refine ⟨c, c', _, _, accepted_initial (by decide) (by decide),
    serves_of_play hc hconforms hinput horigin hidle,
    serves_of_play hc' hconforms' hinput' horigin' hidle', hstate, hstate',
    fun hsame => ?_⟩
  have := hsame.state
  rw [hstate, hstate'] at this
  cases this

end Socksv5
