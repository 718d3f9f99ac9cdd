import Socksv5.Admin.Accounts
import Socksv5.Session.Admission
import Socksv5.Session.RelayCalls
import Socksv5.Session.Script

/-!
# Administrators and clients

The whole of the server as far as credentials are concerned: any number of
administrators and of clients, in any order, who share the selector, the counters
and the parameters that the arguments of the program have set.  What it decides is
what the abstract accounts allow, one decision after the other, as long as no
session changes the interest in the descriptor of an administrator; a run shows
that one may, and what comes of it.
-/

namespace Socksv5

open Support

/-! ## What a session decides -/

/-- What a call of the session at address `a` decides. -/
def Call.decision (a : ℕ) : Call → Option Decision
  | .authenticate user password ok =>
      some (.authenticates a (cString user) (cString password) ok)
  | _ => none

/-- The decisions that a dispatch to a session may make. -/
inductive ClientDecides (parameters : Parameters) (a : ℕ) : List Decision → Prop
  | nothing : ClientDecides parameters a []
  | authenticates {user password : Block} {ok : Bool} :
      ok = authenticateUser parameters user password →
      ClientDecides parameters a
        [.authenticates a (cString user) (cString password) ok]

theorem decision_eq_none_of_belongs {a : ℕ} {s : GlobalState} {c : Call}
    (hs : s ≠ .authRead) (h : c.belongs s = true) : c.decision a = none := by
  cases c with
  | authenticate => exact absurd (of_decide_eq_true h) hs
  | recv | send | shutdown | socket | connect | getsockopt | thread | setInterest
    | addInterest | reduceInterest | close => rfl

theorem decisions_eq_nil_of_belongs {a : ℕ} {s : GlobalState} {calls : List Call}
    (hs : s ≠ .authRead) (h : ∀ c ∈ calls, c.belongs s = true) :
    calls.filterMap (Call.decision a) = [] := by
  rw [List.filterMap_eq_nil_iff]
  intro c hc
  exact decision_eq_none_of_belongs hs (h c hc)

theorem decisions_eq_nil_of_transfers {a : ℕ} {c : Call} {calls : List Call}
    (hc : c.relays = true)
    (h : ∀ c ∈ calls, c.transfers = false ∧ c.belongs .copy = true) :
    (c :: calls).filterMap (Call.decision a) = [] := by
  have hnone : c.decision a = none := by
    cases c <;> first | rfl | cases hc
  rw [List.filterMap_cons_none hnone]
  exact decisions_eq_nil_of_belongs (s := .copy) (by decide) fun c hc => (h c hc).2

/-- `auth_read` makes at most one decision, which is that of `authenticate_user`. -/
theorem authRead_decides {sys : Sys} {fd : ℤ} {w w' : World} {ret : GlobalState}
    (a : ℕ) (h : authRead sys fd w = .ok (ret, w')) :
    ∃ calls, w'.log = w.log ++ calls ∧
      ClientDecides sys.parameters a (calls.filterMap (Call.decision a)) := by
  obtain ⟨⟨received, w₁⟩, hrecv, h⟩ := bind_eq_ok.mp h
  obtain ⟨-, rfl⟩ := World.recvInto_spec hrecv
  cases received with
  | eof | reset | failed =>
      cases h
      exact ⟨_, rfl, .nothing⟩
  | data bs rb =>
      obtain ⟨⟨rb', parser, m⟩, -, h⟩ := bind_eq_ok.mp h
      dsimp only at h
      by_cases hfinal : parser.state.final = true
      · rw [if_pos hfinal] at h
        obtain ⟨w₂, hauth, h⟩ := bind_eq_ok.mp h
        obtain ⟨reply, user, calls, hauths, rfl⟩ := authenticate_spec hauth
        obtain ⟨⟨status, w₃⟩, hset, h⟩ := bind_eq_ok.mp h
        obtain ⟨sel, -, rfl⟩ := World.setInterestKey_spec hset
        have hlog : w'.log = w.log ++ ([.recv .authRead fd w.session.readBuffer.room
            (sys.recv.upTo w.session.readBuffer.room)] ++ calls ++
              [.setInterest fd .write]) := by
          dsimp only at h
          split at h
          · cases h
            simp
          · obtain ⟨wb, -, h⟩ := bind_eq_ok.mp h
            cases h
            simp [World.setWriteBuffer]
        refine ⟨_, hlog, ?_⟩
        rw [List.filterMap_append, List.filterMap_append]
        cases hauths with
        | incomplete => exact .nothing
        | accepted _ _ _ hok => exact .authenticates hok.symm
        | rejected _ hok => exact .authenticates hok.symm
      · rw [if_neg hfinal] at h
        cases h
        exact ⟨_, rfl, .nothing⟩

/-- The callbacks of the other states decide nothing. -/
theorem onReady_decides {sys : Sys} {fd : ℤ} {s ret : GlobalState} {r : Ready}
    {f : Callback} {w w' : World} (a : ℕ) (hreg : w.selector.Registered fd)
    (hf : onReady sys fd s r = some f) (h : f w = .ok (ret, w')) :
    ∃ calls, w'.log = w.log ++ calls ∧
      ClientDecides sys.parameters a (calls.filterMap (Call.decision a)) := by
  by_cases hauth : s = .authRead
  · subst hauth
    cases r <;> cases hf
    exact authRead_decides a h
  by_cases hcopy : s = .copy
  · subst hcopy
    cases r with
    | block => cases hf
    | read =>
        cases hf
        cases hside : w.session.side? fd with
        | none => simp [copyRead, hside] at h
        | some side =>
            obtain ⟨calls, hlog, hcalls⟩ := (copyRead_spec hside hreg h).log
            refine ⟨_, hlog, ?_⟩
            rw [decisions_eq_nil_of_transfers rfl hcalls]
            exact .nothing
    | write =>
        cases hf
        cases hside : w.session.side? fd with
        | none => simp [copyWrite, hside] at h
        | some side =>
            obtain ⟨calls, hlog, hcalls⟩ := (copyWrite_spec hside hreg h).log
            refine ⟨_, hlog, ?_⟩
            rw [decisions_eq_nil_of_transfers rfl hcalls]
            exact .nothing
  · obtain ⟨calls, hlog, hcalls⟩ :=
      ((onReady_appends sys fd w hcopy hf).unrelayed _ _ h).log
    refine ⟨calls, hlog, ?_⟩
    rw [decisions_eq_nil_of_belongs hauth hcalls]
    exact .nothing

theorem dispatch_decides {sys : Sys} {fd : ℤ} {r : Ready} {c c' : Config} (a : ℕ)
    (hreg : c.world.selector.Registered fd) (h : dispatch r fd sys c = .ok c') :
    ∃ calls, c'.world.log = c.world.log ++ calls ∧
      ClientDecides sys.parameters a (calls.filterMap (Call.decision a)) := by
  obtain ⟨w₀, f, ret, w, via, hw₀, hf, hcall, hout⟩ := dispatch_cases h
  have hsame : w₀.log = c.world.log ∧ w₀.selector.Registered fd := by
    rcases hw₀ with rfl | ⟨-, rfl⟩
    · exact ⟨rfl, hreg⟩
    · exact ⟨rfl, hreg⟩
  obtain ⟨calls, hlog, hdecides⟩ := onReady_decides a hsame.2 hf hcall
  have hquiet : Unrelayed .error w.tally c'.world := hout.unrelayed
  obtain ⟨more, hlog', hmore⟩ := hquiet.log
  refine ⟨calls ++ more, ?_, ?_⟩
  · rw [hlog', World.tally, hlog, hsame.1, List.append_assoc]
  · rw [List.filterMap_append, decisions_eq_nil_of_belongs (by decide) hmore,
      List.append_nil]
    exact hdecides

/-- What a session decides is what the accounts say. -/
theorem ClientDecides.leadsTo {acc : Accounts} {g : Globals} (hacc : acc.Of g) {a : ℕ}
    {ds : List Decision} (h : ClientDecides g.parameters a ds) :
    LeadsTo Accounts.Allows acc ds acc := by
  cases h with
  | nothing => exact .nil acc
  | authenticates hok =>
      apply LeadsTo.single
      apply Accounts.Allows.authenticates
      rw [hok, hacc.users]
      exact any_sameString_eq_true_iff

/-! ## The proxy -/

/-- The connections of the administrators, and the sessions of the clients.  They
all share the selector and the counters, which are those of the administrators. -/
structure Proxy where
  admins : AdminServer
  clients : ℕ → Option Config := fun _ => none

/-- A session, in the world that it shares with the others. -/
def Proxy.share (p : Proxy) (c : Config) : Config :=
  ⟨c.stm, { c.world with
    selector := p.admins.selector
    metrics := p.admins.globals.metrics }⟩

/-- The proxy, when the session at `a` has got to `c`. -/
def Proxy.update (p : Proxy) (a : ℕ) (c : Config) : Proxy where
  admins := { p.admins with
    selector := c.world.selector
    globals := { p.admins.globals with metrics := c.world.metrics } }
  clients := Function.update p.clients a (if c.world.destroyed then none else some c)

/-- What can happen: an administrator or a client is accepted on a descriptor, or
an event is handed to the connection of an administrator, or something happens to
the session of a client. -/
inductive ProxyEvent
  | accepts (fd : ℤ)
  | serves (fd : ℤ) (r : Ready) (sys : AdminSys)
  | connects (a : ℕ) (fd : ℤ)
  | client (a : ℕ) (e : Event)

/-- The event is one of the session itself, and the users are those of the
parameters. -/
def Event.Uses (parameters : Parameters) : Event → Prop
  | .dispatch _ _ sys => sys.parameters = parameters
  | .others _ _ => False
  | .connectionEnds _ | .resolved _ _ _ => True

/-- A step of the proxy.  The kernel accepts on a descriptor that is not open, so
that nobody registers the descriptors of a session, or closes them, but the session
itself. -/
inductive ProxyStep : Proxy → ProxyEvent → Proxy → Prop
  | accepts {p : Proxy} {fd : ℤ} {data : Option ℕ} {alloc : Bool} {s : FdSelector} :
      p.admins.connections fd = none →
      selectorRegister p.admins.selector fd (some .adminActive) .read data alloc =
        .ok (.success, s) →
      ProxyStep p (.accepts fd) { p with admins := { p.admins with
        selector := s
        connections := Function.update p.admins.connections fd
          (some (newAdminConnection fd s p.admins.globals)) } }
  | serves {p : Proxy} {srv : AdminServer} {fd : ℤ} {r : Ready} {sys : AdminSys} :
      AdminServerStep p.admins (.dispatch fd r sys) srv →
      ProxyStep p (.serves fd r sys) { p with admins := srv }
  | connects {p : Proxy} {a : ℕ} {fd : ℤ} {alloc : Bool} {s : FdSelector} :
      p.clients a = none → p.admins.connections fd = none →
      selectorRegister p.admins.selector fd (some .socksv5Active) .read (some a) alloc =
        .ok (.success, s) →
      ProxyStep p (.connects a fd)
        (p.update a (newSession a fd s p.admins.globals.metrics.addConnection))
  | client {p : Proxy} {a : ℕ} {e : Event} {c c' : Config} :
      p.clients a = some c → e.Uses p.admins.globals.parameters →
      c.world.Undisturbed .crowded p.admins.selector →
      Step .crowded (p.share c) e c' →
      ProxyStep p (.client a e) (p.update a c')

/-- The callback of a session leaves the interests in the descriptors of the
administrators as they are.  `copy_read` and `copy_write` may not: the descriptor
of the other side, which they keep in a `uint8_t`, may have become that of an
administrator. -/
def Proxy.Spares (p : Proxy) : ProxyEvent → Prop
  | .client a (.dispatch r fd sys) => ∀ c c', p.clients a = some c →
      dispatch r fd sys ⟨c.stm, (p.share c).world.delivered r fd⟩ = .ok c' →
      ∀ d admin, p.admins.connections d = some admin →
        c'.world.selector.interest? d = p.admins.selector.interest? d
  | _ => True

theorem interest?_of_register {s s' : FdSelector} {fd : ℤ} {handler : FdHandler}
    {interest : FdInterest} {data : Option ℕ} {alloc : Bool}
    (h : selectorRegister s fd (some handler) interest data alloc = .ok (.success, s')) :
    s'.interest? = Function.update s.interest? fd (some interest) := by
  rcases selectorRegister_cases h with ⟨hne, -⟩ | ⟨-, -, -, hs, -⟩
  · exact absurd rfl hne
  · exact hs

/-- What a dispatch to an administrator decides. -/
def AdminConfig.decisions (c : AdminConfig) (fd : ℤ) (r : Ready) (sys : AdminSys) :
    List Decision :=
  match adminDispatch r sys c with
  | .ok c' => (c'.world.log.drop c.world.log.length).filterMap (AdminCall.decision fd)
  | .error _ => []

/-- What a dispatch to a client decides. -/
def Config.decisions (c : Config) (a : ℕ) (r : Ready) (fd : ℤ) (sys : Sys) :
    List Decision :=
  match dispatch r fd sys ⟨c.stm, c.world.delivered r fd⟩ with
  | .ok c' => (c'.world.log.drop c.world.log.length).filterMap (Call.decision a)
  | .error _ => []

/-- What is decided when something happens. -/
def Proxy.decisions (p : Proxy) : ProxyEvent → List Decision
  | .accepts fd => [.accepts fd]
  | .serves fd r sys => (p.admins.connections fd).toList.flatMap fun c =>
      (p.admins.share c).decisions fd r sys
  | .client a (.dispatch r fd sys) => (p.clients a).toList.flatMap fun c =>
      (p.share c).decisions a r fd sys
  | _ => []

theorem AdminConfig.decisions_eq {c c' : AdminConfig} {fd : ℤ} {r : Ready}
    {sys : AdminSys} {calls : List AdminCall} (h : adminDispatch r sys c = .ok c')
    (hlog : c'.world.log = c.world.log ++ calls) :
    c.decisions fd r sys = calls.filterMap (AdminCall.decision fd) := by
  unfold AdminConfig.decisions
  rw [h]
  dsimp only
  rw [hlog, List.drop_left]

theorem Config.decisions_eq {c c' : Config} {a : ℕ} {r : Ready} {fd : ℤ} {sys : Sys}
    {calls : List Call} (h : dispatch r fd sys ⟨c.stm, c.world.delivered r fd⟩ = .ok c')
    (hlog : c'.world.log = c.world.log ++ calls) :
    c.decisions a r fd sys = calls.filterMap (Call.decision a) := by
  unfold Config.decisions
  rw [h]
  dsimp only
  rw [hlog, List.drop_left]

/-- What is decided by a dispatch to a session. -/
theorem Proxy.decisions_of_dispatch {p : Proxy} {a : ℕ} {c c' : Config} {r : Ready}
    {fd : ℤ} {sys : Sys} (hc : p.clients a = some c)
    (hreg : p.admins.selector.Registered fd)
    (h : dispatch r fd sys ⟨c.stm, (p.share c).world.delivered r fd⟩ = .ok c') :
    ∃ calls, c'.world.log = c.world.log ++ calls ∧
      p.decisions (.client a (.dispatch r fd sys)) =
        calls.filterMap (Call.decision a) ∧
      ClientDecides sys.parameters a (p.decisions (.client a (.dispatch r fd sys))) := by
  have hfound : ((p.share c).world.delivered r fd).selector.Registered fd := by
    cases r <;> exact hreg
  obtain ⟨calls, hlog, hdecides⟩ := dispatch_decides a hfound h
  have hlog' : c'.world.log = (p.share c).world.log ++ calls := by
    cases r <;> exact hlog
  have hone : p.decisions (.client a (.dispatch r fd sys)) =
      calls.filterMap (Call.decision a) := by
    simp [Proxy.decisions, hc, Config.decisions_eq h hlog']
  refine ⟨calls, hlog', hone, ?_⟩
  rw [hone]
  exact hdecides

/-! ## The invariant -/

/-- The connection on `fd`, in the server, has got through the gate as far as it
has got, and its administrator has been let in if the accounts say so. -/
structure AdminServer.Knows (srv : AdminServer) (acc : Accounts) (fd : ℤ)
    (c : AdminConfig) : Prop where
  descriptor : c.world.fd = fd
  live : c.world.destroyed = false
  gated : (srv.share c).Gated srv.globals.parameters.admin
  admitted : (∃ u w, .authenticate u w true ∈ c.world.log) → fd ∈ acc.admitted

/-- The accounts are those of the proxy. -/
structure Proxy.Keeps (p : Proxy) (acc : Accounts) : Prop where
  accounts : acc.Of p.admins.globals
  connections : ∀ fd c, p.admins.connections fd = some c →
    p.admins.Knows acc fd c

/-- What happens elsewhere. -/
theorem AdminServer.Knows.others {srv srv' : AdminServer} {acc acc' : Accounts}
    {fd : ℤ} {c : AdminConfig} (h : srv.Knows acc fd c)
    (hsel : srv'.selector.interest? fd = srv.selector.interest? fd)
    (hadmin : srv'.globals.parameters.admin = srv.globals.parameters.admin)
    (hadmitted : fd ∈ acc.admitted → fd ∈ acc'.admitted) :
    srv'.Knows acc' fd c where
  descriptor := h.descriptor
  live := h.live
  gated := by
    have hstep : AdminConnectionStep (srv.share c)
        (.others srv'.selector srv'.globals) (srv'.share c) := by
      refine .others ?_ hadmin
      change srv'.selector.interest? c.world.fd = srv.selector.interest? c.world.fd
      rw [h.descriptor]
      exact hsel
    rw [hadmin]
    exact h.gated.step hstep
  admitted := fun hlet => hadmitted (h.admitted hlet)

/-- Commands are given by administrators who have been let in. -/
theorem AdminServer.Knows.admitted_of_request {srv : AdminServer} {acc : Accounts}
    {fd : ℤ} {c : AdminConfig} (h : srv.Knows acc fd c)
    (hrequest : (srv.share c).state = .request) : fd ∈ acc.admitted := by
  have hgate := h.gated.gate
  rw [hrequest] at hgate
  have hlog : (srv.share c).found.log = c.world.log := (srv.share c).found_eq.2.2.2
  cases hgate with
  | opened _ hauth _ _ =>
      obtain ⟨u, w, -, hmem⟩ := hauth
      rw [hlog] at hmem
      exact h.admitted ⟨_, _, hmem⟩
  | ended hend _ _ => rcases hend with hend | hend <;> cases hend

variable {p : Proxy} {acc : Accounts}

/-- An administrator is accepted. -/
theorem Proxy.Keeps.accepts (hp : p.Keeps acc) {fd : ℤ} {s : FdSelector}
    (hfree : p.admins.connections fd = none)
    (hs : s.interest? = Function.update p.admins.selector.interest? fd (some .read)) :
    Proxy.Keeps { p with admins := { p.admins with
        selector := s
        connections := Function.update p.admins.connections fd
          (some (newAdminConnection fd s p.admins.globals)) } }
      { acc with admitted := acc.admitted \ {fd} } := by
  refine ⟨⟨hp.accounts.users, hp.accounts.admins, hp.accounts.bufferSize⟩, ?_⟩
  intro d c hc
  by_cases hd : d = fd
  · subst hd
    obtain rfl : newAdminConnection d s p.admins.globals = c := by
      simpa using hc
    have hread : s.interest? d = some .read := by rw [hs, Function.update_self]
    have hinitial : AdminInitial (newAdminConnection d s p.admins.globals) :=
      ⟨d, s, p.admins.globals, rfl, hread⟩
    refine ⟨rfl, rfl, hinitial.gated, ?_⟩
    rintro ⟨u, w, hmem⟩
    cases hmem
  · have hold : p.admins.connections d = some c := by
      simpa [Function.update_of_ne hd] using hc
    have hsame : s.interest? d = p.admins.selector.interest? d := by
      rw [hs, Function.update_of_ne hd]
    refine (hp.connections d c hold).others hsame rfl ?_
    intro hmem
    exact ⟨hmem, hd⟩

/-- A session does something, and leaves the interests of the administrators as
they are. -/
theorem Proxy.Keeps.update (hp : p.Keeps acc) (a : ℕ) (c : Config)
    (hsame : ∀ d admin, p.admins.connections d = some admin →
      c.world.selector.interest? d = p.admins.selector.interest? d) :
    (p.update a c).Keeps acc := by
  refine ⟨⟨hp.accounts.users, hp.accounts.admins, hp.accounts.bufferSize⟩, ?_⟩
  intro d admin hadmin
  exact (hp.connections d admin hadmin).others (hsame d admin hadmin) rfl id

/-- An administrator is handed an event. -/
theorem Proxy.Keeps.serves (hp : p.Keeps acc) {fd : ℤ} {r : Ready} {sys : AdminSys}
    {c c' : AdminConfig} (hc : p.admins.connections fd = some c)
    (hands : (p.admins.share c).world.Hands r)
    (h : adminDispatch r sys (p.admins.share c) = .ok c') :
    ∃ acc', LeadsTo Accounts.Allows acc ((p.admins.share c).decisions fd r sys) acc' ∧
      Proxy.Keeps { p with admins := {
        selector := c'.world.selector
        globals := c'.world.globals
        connections := Function.update p.admins.connections fd
          (if c'.world.destroyed then none else some c') } } acc' := by
  have hknows := hp.connections fd c hc
  have hdecided := adminDispatch_decided h
  have hgated := hknows.gated.dispatched hands h
  have hadmin : c'.world.globals.parameters.admin =
      p.admins.globals.parameters.admin := hgated.table_eq
  obtain ⟨calls, hlog, hdecides⟩ := hdecided.calls
  rw [AdminConfig.decisions_eq h hlog]
  have hfd : (p.admins.share c).world.fd = fd := hknows.descriptor
  rw [hfd] at hdecides
  obtain ⟨acc', hleads, hacc', hkept, hlet⟩ :=
    hdecides.leadsTo hp.accounts hknows.admitted_of_request
  refine ⟨acc', hleads, hacc', ?_⟩
  intro d c₁ hc₁
  by_cases hd : d = fd
  · subst hd
    have hstays : c'.world.destroyed = false ∧ c' = c₁ := by
      cases hdestroyed : c'.world.destroyed with
      | true => simp [hdestroyed] at hc₁
      | false => simpa [hdestroyed] using hc₁
    obtain ⟨hlive, rfl⟩ := hstays
    refine ⟨hdecided.fd.trans hfd, hlive, ?_, ?_⟩
    · have htable := hgated
      rw [← hadmin] at htable
      exact htable
    · rintro ⟨u, w, hmem⟩
      rw [hlog] at hmem
      rcases List.mem_append.mp hmem with hmem | hmem
      · exact hkept (hknows.admitted ⟨u, w, hmem⟩)
      · exact hlet ⟨u, w, hmem⟩
  · have hold : p.admins.connections d = some c₁ := by
      simpa [Function.update_of_ne hd] using hc₁
    refine (hp.connections d c₁ hold).others ?_ hadmin fun hmem => hkept hmem
    apply hdecided.elsewhere
    rwa [hfd]

/-- What a session decides is what the accounts allow. -/
theorem Proxy.Keeps.client (hp : p.Keeps acc) {a : ℕ} {e : Event} {c c' : Config}
    (hc : p.clients a = some c) (huses : e.Uses p.admins.globals.parameters)
    (h : Step .crowded (p.share c) e c') (hspares : p.Spares (.client a e)) :
    LeadsTo Accounts.Allows acc (p.decisions (.client a e)) acc ∧
      (p.update a c').Keeps acc := by
  cases h with
  | @dispatch _ r fd sys hlive hhands hkernel hdispatch =>
      obtain ⟨calls, -, -, hdecides⟩ :=
        Proxy.decisions_of_dispatch hc hhands.2.1 hdispatch
      have hparameters : sys.parameters = p.admins.globals.parameters := huses
      rw [hparameters] at hdecides
      exact ⟨hdecides.leadsTo hp.accounts, hp.update a c' (hspares c c' hc hdispatch)⟩
  | connectionEnds => exact ⟨.nil acc, hp.update a _ fun _ _ _ => rfl⟩
  | resolved addrs alloc =>
      refine ⟨.nil acc, hp.update a _ fun d _ _ => ?_⟩
      exact congrFun (FdSelector.interest?_notified _ _ _) d
  | others => exact absurd huses id

/-- A step decides what the accounts allow. -/
theorem ProxyStep.keeps {p' : Proxy} {e : ProxyEvent} (hp : p.Keeps acc)
    (hspares : p.Spares e) (h : ProxyStep p e p') :
    ∃ acc', LeadsTo Accounts.Allows acc (p.decisions e) acc' ∧ p'.Keeps acc' := by
  cases h with
  | accepts hfree hregister =>
      exact ⟨_, .single .accepts, hp.accepts hfree (interest?_of_register hregister)⟩
  | @serves srv fd r sys h =>
      cases h with
      | @dispatch _ _ _ c c' hc hands h =>
          have hone : p.decisions (.serves fd r sys) =
              (p.admins.share c).decisions fd r sys := by
            simp [Proxy.decisions, hc]
          rw [hone]
          exact hp.serves hc hands h
  | @connects a fd alloc s _ hfree hregister =>
      refine ⟨acc, .nil acc, hp.update a _ fun d admin hadmin => ?_⟩
      have hd : d ≠ fd := by
        rintro rfl
        rw [hfree] at hadmin
        cases hadmin
      change s.interest? d = _
      rw [interest?_of_register hregister, Function.update_of_ne hd]
  | @client a e c c' hc huses hsame h => exact ⟨acc, hp.client hc huses h hspares⟩

/-! ## Runs -/

/-- The accounts that the parameters set up. -/
def Parameters.accounts (parameters : Parameters) : Accounts where
  users := credentialsOf parameters.users
  admins := credentialsOf parameters.admin
  bufferSize := 4096
  admitted := ∅

/-- The proxy has started with the parameters. -/
def Proxy.Starts (parameters : Parameters) (p : Proxy) : Prop :=
  p.admins.Starts parameters ∧ p.clients = fun _ => none

section Runs

variable {parameters : Parameters} {p₀ p : Proxy} {tr : List (Proxy × ProxyEvent)}

theorem Proxy.Starts.keeps (h : p₀.Starts parameters) :
    p₀.Keeps parameters.accounts := by
  obtain ⟨⟨hglobals, hconnections⟩, -⟩ := h
  refine ⟨?_, fun fd c hc => ?_⟩
  · rw [hglobals]
    exact ⟨rfl, rfl, rfl⟩
  · rw [hconnections] at hc
    cases hc

/-- A step to be taken: an administrator or a client is accepted on the
descriptor, or something happens to it. -/
inductive ProxyMove
  | accepts (fd : ℤ)
  | serves (fd : ℤ) (r : Ready) (sys : AdminSys)
  | connects (a : ℕ) (fd : ℤ)
  | client (a : ℕ) (act : Act)

/-- The act, when the users are those of the parameters. -/
def Act.using (parameters : Parameters) : Act → Act
  | .dispatch r fd sys attempts =>
      .dispatch r fd { sys with parameters := parameters } attempts
  | act => act

theorem Act.using_uses (parameters : Parameters) (act : Act) :
    (act.using parameters).event.Uses parameters := by
  cases act <;> trivial

/-- The descriptors of the session are registered where they were. -/
def World.undisturbed (w : World) (s : FdSelector) : Bool :=
  [w.session.clientFd, w.session.originFd].all fun fd =>
    (s.interest? fd).isSome == (w.selector.interest? fd).isSome

theorem World.undisturbed_spec {w : World} {s : FdSelector}
    (h : w.undisturbed s = true) : w.Undisturbed .crowded s := by
  simp only [undisturbed, List.all_cons, List.all_nil, Bool.and_true, Bool.and_eq_true,
    beq_iff_eq] at h
  have hiff (fd : ℤ) (hfd : (s.interest? fd).isSome = (w.selector.interest? fd).isSome) :
      s.Registered fd ↔ w.selector.Registered fd := by
    rw [FdSelector.Registered, FdSelector.Registered, ← Option.isSome_iff_ne_none,
      ← Option.isSome_iff_ne_none, hfd]
  intro fd howns
  constructor
  · apply hiff
    rcases howns.2 with hfd | hfd <;> rw [hfd]
    · exact h.1
    · exact h.2
  · intro halone
    cases halone

/-- The event that the step is for. -/
def ProxyMove.event (p : Proxy) : ProxyMove → ProxyEvent
  | .accepts fd => .accepts fd
  | .serves fd r sys => .serves fd r sys
  | .connects a fd => .connects a fd
  | .client a act => .client a (act.using p.admins.globals.parameters).event

/-- Where the step leads to, if it can be taken. -/
def ProxyMove.perform (p : Proxy) : ProxyMove → Option Proxy
  | .accepts fd =>
      match selectorRegister p.admins.selector fd (some .adminActive) .read none true with
      | .ok (.success, s) =>
          if (p.admins.connections fd).isNone then
            some { p with admins := { p.admins with
              selector := s
              connections := Function.update p.admins.connections fd
                (some (newAdminConnection fd s p.admins.globals)) } }
          else none
      | _ => none
  | .serves fd r sys => (p.admins.perform fd (r, sys)).map fun srv =>
      { p with admins := srv }
  | .connects a fd =>
      match selectorRegister p.admins.selector fd (some .socksv5Active) .read (some a)
          true with
      | .ok (.success, s) =>
          if (p.clients a).isNone ∧ (p.admins.connections fd).isNone then
            some (p.update a (newSession a fd s p.admins.globals.metrics.addConnection))
          else none
      | _ => none
  | .client a act => (p.clients a).bind fun c =>
      if c.world.undisturbed p.admins.selector = true then
        ((act.using p.admins.globals.parameters).perform .crowded (p.share c)).map
          (p.update a)
      else none

theorem ProxyMove.perform_step {p p' : Proxy} {m : ProxyMove}
    (h : m.perform p = some p') : ProxyStep p (m.event p) p' := by
  cases m with
  | accepts fd =>
      simp only [perform] at h
      split at h
      · rename_i s hregister
        split at h
        · rename_i hfree
          cases h
          exact .accepts (Option.isNone_iff_eq_none.mp hfree) hregister
        · cases h
      · cases h
  | serves fd r sys =>
      obtain ⟨srv, hperform, rfl⟩ := Option.map_eq_some_iff.mp h
      exact .serves (AdminServer.perform_step hperform)
  | connects a fd =>
      simp only [perform] at h
      split at h
      · rename_i s hregister
        split at h
        · rename_i hfree
          cases h
          exact .connects (Option.isNone_iff_eq_none.mp hfree.1)
            (Option.isNone_iff_eq_none.mp hfree.2) hregister
        · cases h
      · cases h
  | client a act =>
      obtain ⟨c, hc, h⟩ := Option.bind_eq_some_iff.mp h
      split at h
      · rename_i hsame
        obtain ⟨c', hperform, rfl⟩ := Option.map_eq_some_iff.mp h
        exact .client hc (act.using_uses _) (World.undisturbed_spec hsame)
          (Act.perform_step hperform)
      · cases h

/-- The step, with its event. -/
def ProxyMove.take (p : Proxy) (m : ProxyMove) : Option (ProxyEvent × Proxy) :=
  (m.perform p).map fun p' => (m.event p, p')

theorem ProxyMove.take_step (p : Proxy) (m : ProxyMove) (e : ProxyEvent) (p' : Proxy)
    (h : m.take p = some (e, p')) : ProxyStep p e p' := by
  obtain ⟨p₁, hperform, heq⟩ := Option.map_eq_some_iff.mp h
  cases heq
  exact perform_step hperform

/-- The proxy, when it has started with the arguments `-a a:b`. -/
def startedProxy : Proxy where
  admins :=
    { selector := selectorNew 1024
      globals := { parameters := loneAdminParameters } }

/-- A client that is connected through the descriptor 261, which is 5 in a
`uint8_t`, sends a byte while an administrator is accepted on 5. -/
def wakesAdministrator : List ProxyMove :=
  [.accepts 5,
    .connects 1 6,
    .client 1 (.dispatch .read 6 { recv := .received [5, 1, 0] } []),
    .client 1 (.dispatch .write 6 { send := .accepted 1 } []),
    .client 1 (.dispatch .read 6 { recv := .received [5, 1, 0, 1, 10, 0, 0, 1, 0, 80] }
      [{ socket := some 261, connect := .inProgress }]),
    .client 1 (.connectionEnds true),
    .client 1 (.dispatch .write 261 {} []),
    .client 1 (.dispatch .write 6 { send := .accepted 9 } []),
    .client 1 (.dispatch .read 6 { recv := .received [1] } []),
    .serves 5 .write { send := .accepted 0 }]

/-- Where a session does change the interest of an administrator, the connection
gets to the commands without any credentials. -/
theorem commands_without_credentials : ∃ tr p c, Run ProxyStep startedProxy tr p ∧
    p.admins.connections 5 = some c ∧ c.state = .request ∧
    adminReceived .auth c.world.log = [] := by
  have hplay : ((moves ProxyMove.take startedProxy wakesAdministrator).bind
      fun p => p.admins.connections 5).any
        (fun c => decide (c.state = .request ∧ adminReceived .auth c.world.log = [])) =
      true := by
    decide +kernel
  obtain ⟨c, hc, hchecks⟩ := (Option.any_eq_true _ _).mp hplay
  obtain ⟨hrequest, hnothing⟩ := of_decide_eq_true hchecks
  obtain ⟨p, hp, hc⟩ := Option.bind_eq_some_iff.mp hc
  obtain ⟨tr, hrun⟩ := Run.of_moves ProxyMove.take_step hp
  exact ⟨tr, p, c, hrun, hc, hrequest, hnothing⟩

/-! ## Who is served -/

/-- What a session has decided is in the decisions of the run. -/
structure Config.Recorded (c : Config) (a : ℕ) (ds : List Decision) : Prop where
  reachable : Reachable .crowded c
  decided : c.world.log.filterMap (Call.decision a) ⊆ ds

theorem Config.Recorded.mono {c : Config} {a : ℕ} {ds : List Decision}
    (h : c.Recorded a ds) (ds' : List Decision) : c.Recorded a (ds ++ ds') :=
  ⟨h.reachable, List.subset_append_of_subset_left ds' h.decided⟩

/-- What the rest of the server does. -/
theorem Config.Recorded.share {c : Config} {a : ℕ} {ds : List Decision} {p : Proxy}
    (h : c.Recorded a ds) (hsame : c.world.Undisturbed .crowded p.admins.selector) :
    (p.share c).Recorded a ds := by
  obtain ⟨c₀, tr, hinitial, hrun⟩ := h.reachable
  have hstep : Step .crowded c
      (.others p.admins.selector p.admins.globals.metrics) (p.share c) := .others _ hsame
  exact ⟨⟨c₀, _, hinitial, hrun.append (.single hstep)⟩, h.decided⟩

/-- A session that has just been accepted. -/
theorem Config.Recorded.accepted {a : ℕ} {fd : ℤ} {s : FdSelector}
    (hread : s.interest? fd = some .read) (m : Metrics) (ds : List Decision) :
    (newSession a fd s m).Recorded a ds := by
  have hinitial : Initial (newSession a fd { s with resolutionJobs := [] } m) :=
    ⟨a, fd, _, m, rfl, hread, List.not_mem_nil⟩
  have hsame : (newSession a fd { s with resolutionJobs := [] } m).world.Undisturbed
      .crowded s := fun _ _ => ⟨Iff.rfl, nofun⟩
  exact ⟨⟨_, _, hinitial, .single (.others m hsame)⟩, List.nil_subset _⟩

theorem Config.Recorded.step {c c' : Config} {a : ℕ} {ds : List Decision} {e : Event}
    {p : Proxy} (h : (p.share c).Recorded a ds) (hc : p.clients a = some c)
    (hstep : Step .crowded (p.share c) e c') :
    c'.Recorded a (ds ++ p.decisions (.client a e)) := by
  obtain ⟨c₀, tr, hinitial, hrun⟩ := h.reachable
  refine ⟨⟨c₀, _, hinitial, hrun.append (.single hstep)⟩, ?_⟩
  cases hstep with
  | @dispatch _ r fd sys hlive hhands hkernel hdispatch =>
      obtain ⟨calls, hlog, hone, -⟩ :=
        Proxy.decisions_of_dispatch hc hhands.2.1 hdispatch
      rw [hlog, List.filterMap_append, hone]
      exact List.append_subset.mpr ⟨List.subset_append_of_subset_left _ h.decided,
        List.subset_append_right _ _⟩
  | connectionEnds | resolved | others =>
      exact List.subset_append_of_subset_left _ h.decided

end Runs

end Socksv5
