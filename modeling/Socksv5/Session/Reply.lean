import Socksv5.Session.Admission

/-!
# The reply to a request

A client is told that it has been connected when it has, provided that no
address of its request fails before `connect` is called, and that nothing makes
`verify_connection` look at a connection before its attempt has ended, or for
the client's descriptor while the origin's is registered.
-/

namespace Socksv5

open Support

/-- The event leads to no reply that is not true. -/
def HonestEvent (s : GlobalState) (w : World) : Event → Prop
  | .dispatch r fd sys =>
      (s = .requestRead → ∀ a ∈ lastAttempt s w (.dispatch r fd sys),
        a.socket ≠ none ∧ a.nio = true) ∧
      (s = .originConnect → r = .write → w.conn ≠ .connecting ∧
        (fd = w.session.originFd ∨
          ¬ w.selector.Registered w.session.originFd))
  | _ => True

instance (s : GlobalState) (w : World) (e : Event) :
    Decidable (HonestEvent s w e) :=
  match e with
  | .dispatch _ _ _ => inferInstanceAs (Decidable (_ ∧ _))
  | .connectionEnds _ | .resolved _ _ _ | .others _ _ =>
      inferInstanceAs (Decidable True)

/-- The descriptor is not waited for to be written to. -/
def FdSelector.Unwritten (s : FdSelector) (fd : ℤ) : Prop :=
  ∀ i ∈ s.interest? fd, i.writes = false

/-- Nobody waits to write before there is an attempt; and once the reply is
`SUCCEDED` the origin is connected, and only the client is written to. -/
structure Honest (s : GlobalState) (w : World) : Prop where
  unresolved : s = .originConnect → w.conn = .none →
    w.session.originFd < 0 ∧ w.selector.Unwritten w.session.clientFd
  replying : s = .requestWrite →
    w.session.request.parser.reply = .succeded →
    w.conn = .connected ∧ w.selector.Unwritten w.session.originFd

theorem honest_of_ne {s : GlobalState} (w : World) (hconnect : s ≠ .originConnect)
    (hwrite : s ≠ .requestWrite) : Honest s w :=
  ⟨fun h => absurd h hconnect, fun h => absurd h hwrite⟩

theorem honest_of_reply {w : World}
    (h : w.session.request.parser.reply ≠ .succeded) : Honest .requestWrite w :=
  ⟨fun h => absurd h (by decide), fun _ hreply => absurd hreply h⟩

theorem honest_of_conn {w : World} (h : w.conn ≠ .none) :
    Honest .originConnect w :=
  ⟨fun _ hconn => absurd hconn h, fun h => absurd h (by decide)⟩

theorem ChangesInterest.unwritten {s s' : FdSelector} {fd : ℤ} {i : FdInterest}
    (h : ChangesInterest s fd (fun _ => some i) .success s')
    (hi : i.writes = false) : s'.Unwritten fd := by
  obtain ⟨_, -, hs⟩ := h.interest_eq
  intro j hj
  rw [hs, Function.update_self] at hj
  obtain rfl := Option.mem_some.mp hj
  exact hi

theorem ChangesInterest.unwritten_of_ne {s s' : FdSelector} {fd d : ℤ}
    {change : FdInterest → Option FdInterest} {ret : SelectorStatus}
    (h : ChangesInterest s fd change ret s') (hne : d ≠ fd)
    (hd : s.Unwritten d) : s'.Unwritten d := by
  cases h with
  | refused => exact hd
  | changed _ _ hs =>
      intro j hj
      rw [hs, Function.update_of_ne hne] at hj
      exact hd j hj

theorem unwritten_of_not_registered {s : FdSelector} {fd : ℤ}
    (h : ¬ s.Registered fd) : s.Unwritten fd := by
  intro i hi
  refine absurd ?_ h
  rw [FdSelector.Registered, Option.mem_def.mp hi]
  simp

theorem replyOfError_ne (error : ℕ) : replyOfError error ≠ .succeded := by
  unfold replyOfError
  split
  · decide
  · split
    · decide
    · split <;> decide

/-- A connection that has been looked at in time is reported as it is. -/
theorem Verifies.honest {sys : Sys} {fd : ℤ} {w w' : World} {ret : GlobalState}
    (h : Verifies sys fd w ret w') (hw : Seated w)
    (hkernel : w.conn = .failed → sys.soError ≠ some 0)
    (hconn : w.conn ≠ .none ∧ w.conn ≠ .connecting)
    (hfd : fd = w.session.originFd ∨
      ¬ w.selector.Registered w.session.originFd) : Honest ret w' := by
  cases h with
  | failed => exact honest_of_ne _ (by decide) (by decide)
  | answers hso hreply hs hs' =>
      rcases hreply with ⟨rfl, rfl⟩ | ⟨-, rfl⟩
      · refine ⟨fun h => absurd h (by decide), fun _ _ => ⟨?_, ?_⟩⟩
        · change w.conn = .connected
          cases hc : w.conn with
          | none => exact absurd hc hconn.1
          | connecting => exact absurd hc hconn.2
          | connected => rfl
          | failed => exact absurd hso (hkernel hc)
        · refine hs'.unwritten_of_ne hw.distinct ?_
          rcases hfd with rfl | hnot
          · exact hs.unwritten rfl
          · exact unwritten_of_not_registered
              (mt (hs.registered_iff _).mp hnot)
      · exact honest_of_reply (replyOfError_ne _)

theorem Resolves.honest {sys : Sys} {fd : ℤ} {k : ℕ} {addrs : List SockAddr}
    {w w' : World} {ret : GlobalState}
    (h : Resolves sys fd k addrs w ret w') : Honest ret w' := by
  induction h with
  | exhausted h =>
      cases h with
      | failed => exact honest_of_ne _ (by decide) (by decide)
      | answers => exact honest_of_reply (by simp)
  | @settles k addr rest w w' h =>
      exact honest_of_conn (h.conn_ne_none rfl)
  | breaks => exact honest_of_ne _ (by decide) (by decide)
  | goesOn _ _ ih => exact ih

theorem Connects.honest {sys : Sys} {fd : ℤ} {w w' : World} {ret : GlobalState}
    (h : Connects sys fd w ret w') (hw : Seated w)
    (hfd : fd = w.session.clientFd) (horigin : w.session.originFd = -1)
    (hattempt : w.session.request.parser.atyp = 1 ∨
      w.session.request.parser.atyp = 4 →
        (sys.attempts 0).socket ≠ none ∧ (sys.attempts 0).nio = true) :
    Honest ret w' := by
  cases h with
  | already hpos => omega
  | address _ hatyp h =>
      obtain ⟨hsocket, hnio⟩ := hattempt hatyp
      cases h with
      | noSocket hnone => exact absurd hnone hsocket
      | noNio _ hfails =>
          rw [hnio] at hfails
          cases hfails
      | @refused n request addr status s _ _ _ hparser _ =>
          rcases afterInterest_state status .requestWrite with heq | heq <;>
            rw [heq]
          · refine honest_of_reply ?_
            change request.parser.reply ≠ .succeded
            rw [hparser]
            simp
          · exact honest_of_ne _ (by decide) (by decide)
      | connected => exact honest_of_conn (by simp)
      | @inProgress _ _ _ status =>
          rcases afterInterest_state status .originConnect with heq | heq <;>
            rw [heq]
          · exact honest_of_conn (by simp)
          · exact honest_of_ne _ (by decide) (by decide)
  | noThread => exact honest_of_ne _ (by decide) (by decide)
  | name hneg _ _ hs =>
      obtain rfl := hs.success_of_registered (hfd ▸ hw.client)
      subst hfd
      exact ⟨fun _ _ => ⟨hneg, hs.unwritten rfl⟩,
        fun h => absurd h (by decide)⟩

theorem RequestWrites.honest {sys : Sys} {fd : ℤ} {w w' : World}
    (h : RequestWrites sys fd w .requestWrite w')
    (hw : Honest .requestWrite w) : Honest .requestWrite w' := by
  cases h with
  | partly => exact ⟨fun h => absurd h (by decide), hw.replying⟩

/-- Handing a session that is alone a write event takes an interest. -/
theorem World.Hands.not_unwritten {w : World} {fd : ℤ}
    (h : w.Hands .alone .write fd) : ¬ w.selector.Unwritten fd := by
  obtain ⟨-, -, i, hi, hwrites⟩ := h
  intro hunwritten
  have := hunwritten i hi
  rw [FdInterest.includes] at hwrites
  rw [hwrites] at this
  cases this

theorem Honest.dispatched {sys : Sys} {fd : ℤ} {vs via : List GlobalState}
    {s ret : GlobalState} {r : Ready} {f : Callback} {w w₁ w₂ : World}
    (hw : Honest s w) (hgate : Gate vs s w) (hseated : Seated w)
    (hevent : HonestEvent s w (.dispatch r fd sys))
    (hhands : w.Hands .alone r fd) (hkernel : w.Kernel sys)
    (hf : onReady sys fd s r = some f)
    (h : f (w.delivered r fd) = .ok (ret, w₁))
    (hout : Outcome sys fd s ret w₁ via w₂) : Honest (via.getLastD s) w₂ := by
  have hreg : (w.delivered r fd).selector.Registered fd := by
    cases r <;> exact hhands.2.1
  have hfollows := onReady_follows hf hreg h
  have hcalled : ret = .requestWrite ∨ ret = .originConnect →
      s ≠ .requestRead ∨ ret = .requestWrite → Honest ret w₁ := by
    intro hret hs
    cases s <;> cases r <;> cases hf
    case requestRead.read =>
        obtain rfl := hs.resolve_left (by simp)
        have hunderstood := hgate.understood
        obtain rfl := hhands.1.eq_clientFd hunderstood.1
        exact honest_of_reply ((requestRead_spec h).reply_ne hunderstood)
    case requestWrite.write =>
        rcases hret with rfl | rfl
        · exact (requestWrite_spec h).honest ⟨hw.unresolved, hw.replying⟩
        · exact absurd hfollows (by decide)
    case originConnect.write =>
        obtain ⟨hconnecting, hfd⟩ := hevent.2 rfl rfl
        refine (verifyConnection_spec h).honest hseated hkernel.soError
          ⟨fun hnone => ?_, hconnecting⟩ hfd
        obtain ⟨hneg, hunwritten⟩ := hw.unresolved rfl hnone
        rcases hhands.1 with ⟨hpos, rfl | rfl⟩
        · exact hhands.not_unwritten hunwritten
        · omega
    case originConnect.block => exact (connectOriginBlock_spec h).honest
    all_goals rcases hret with rfl | rfl <;> exact absurd hfollows (by decide)
  have hconnected (ret' : GlobalState) (hs : s ≠ .originConnect)
      (heq : ret = .originConnect)
      (hinit : connectOriginInit sys fd w₁ = .ok (ret', w₂)) :
      Honest ret' w₂ := by
    subst heq
    obtain rfl := (hfollows.resolve_left (Ne.symm hs)).eq_requestRead
    cases r <;> cases hf
    have horigin : w.session.originFd = -1 := hgate.understood.1
    have hquiet : Quiet w w₁ := requestRead_quiet h
    refine (connectOriginInit_spec hinit).honest (hseated.of_quiet hquiet) ?_ ?_
      ?_
    · rw [hquiet.clientFd]
      exact hhands.1.eq_clientFd horigin
    · rw [hquiet.originFd]
      exact horigin
    · intro hatyp
      exact hevent.1 rfl _ (lastAttempt_of_request h hatyp)
  cases hout with
  | stays =>
      by_cases hs : s = .originConnect ∨ s = .requestWrite
      · refine hcalled hs.symm (Or.inl ?_)
        rcases hs with rfl | rfl <;> decide
      · rw [not_or] at hs
        exact honest_of_ne _ hs.1 hs.2
  | enters _ hoc =>
      by_cases hret : ret = .requestWrite
      · subst hret
        exact hcalled (Or.inl rfl) (Or.inr rfl)
      · exact honest_of_ne _ hoc hret
  | connects hs hinit => exact hconnected _ hs rfl hinit
  | redirected hs hinit => exact hconnected _ hs rfl hinit
  | ends hend =>
      rcases hend with rfl | rfl <;>
        exact honest_of_ne _ (by simp) (by simp)

theorem honest_inductive : Inductive .alone Basics HonestEvent
    fun _ s w => w.destroyed = false → Honest s w where
  started := fun w _ _ _ => honest_of_ne _ (by simp) (by simp)
  startedCondition := by
    intro w e he
    cases e with
    | dispatch => exact ⟨fun h => absurd h (by decide), fun h => absurd h (by decide)⟩
    | connectionEnds | resolved | others => trivial
  dispatched := by
    intro vs s r fd sys w f ret w₁ via w₂ hK hw _ hevent hlive hhands hkernel hf h
      hout _
    exact (hw hlive).dispatched hK.1 (hK.2 hlive) hevent hhands hkernel hf h hout
  connectionEnds := by
    intro vs s w ok _ hw _ hconn hlive
    refine ⟨fun _ hnone => ?_, fun hs hreply => ?_⟩
    · cases ok <;> cases hnone
    · have := ((hw hlive).replying hs hreply).1
      rw [hconn] at this
      cases this
  resolved := by
    intro vs s w fd addrs alloc _ hw _ _ hlive
    cases alloc <;> exact ⟨(hw hlive).unresolved, (hw hlive).replying⟩
  others := by
    intro vs s w sel m hK hw _ hsame hlive
    have hhonest := hw hlive
    have hunwritten {d : ℤ} (hd : d = w.session.clientFd ∨
        d = w.session.originFd) (h : w.selector.Unwritten d) :
        sel.Unwritten d := by
      by_cases hreg : sel.Registered d
      · intro i hi
        rw [((hsame d ⟨hreg.nonneg, hd⟩).2 rfl).1] at hi
        exact h i hi
      · exact unwritten_of_not_registered hreg
    refine ⟨fun hs hnone => ?_, fun hs hreply => ?_⟩
    · exact (hhonest.unresolved hs hnone).imp_right (hunwritten (Or.inl rfl))
    · exact (hhonest.replying hs hreply).imp_right (hunwritten (Or.inr rfl))

/-- If `request_write` is called to say `SUCCEDED`, it is called for the client
and the origin has been connected. -/
def TrueReply (c : Config) (fd : ℤ) : Prop :=
  c.state = .requestWrite → c.world.session.request.parser.reply = .succeded →
    fd = c.world.session.clientFd ∧ c.world.conn = .connected

instance (c : Config) (fd : ℤ) : Decidable (TrueReply c fd) :=
  inferInstanceAs (Decidable (_ → _ → _))

/-- No false `SUCCEDED` is sent in a run of honest events. -/
theorem trueReply_of_honest {c₀ c : Config} {tr : List (Config × Event)}
    {fd : ℤ} (hinit : Initial c₀) (hrun : Run (Step .alone) c₀ tr c)
    (hhonest : ∀ x ∈ tr, HonestEvent x.1.state x.1.world x.2)
    (hlive : c.world.destroyed = false)
    (hhands : c.world.Hands .alone .write fd) : TrueReply c fd := by
  intro hstate hreply
  obtain ⟨vs, -, -, hw⟩ := ((basics_inductive .alone).and honest_inductive).run
    hrun hhonest hinit.stm_eq
    ⟨hinit.basics, fun _ => honest_of_ne _ (by simp) (by simp)⟩
  obtain ⟨hconn, hunwritten⟩ := (hw hlive).replying hstate hreply
  refine ⟨hhands.1.2.resolve_right ?_, hconn⟩
  rintro rfl
  exact hhands.not_unwritten hunwritten

/-- A client whose connection is made in time is told the truth. -/
theorem trueReply_when_connected :
    ∃ c, play .alone (accepted 5)
        (addressClient { socket := some 6, connect := .inProgress } ++
          [.connectionEnds true, .dispatch .write 6 {} []]) = some c ∧
      c.world.session.request.parser.reply = .succeded ∧ TrueReply c 5 := by
  have hplay : (play .alone (accepted 5)
      (addressClient { socket := some 6, connect := .inProgress } ++
        [.connectionEnds true, .dispatch .write 6 {} []])).any (fun c => decide
          (c.world.destroyed = false ∧ c.world.hands .alone .write 5 = true ∧
          c.world.session.request.parser.reply = .succeded)) = true := by
    decide
  have hhonest : ∀ x ∈ playTrace .alone (accepted 5)
      (addressClient { socket := some 6, connect := .inProgress } ++
        [.connectionEnds true, .dispatch .write 6 {} []]),
      HonestEvent x.1.state x.1.world x.2 := by decide
  obtain ⟨c, hc, hchecks⟩ := (Option.any_eq_true _ _).mp hplay
  obtain ⟨hlive, hhands, hreply⟩ := of_decide_eq_true hchecks
  exact ⟨c, hc, hreply,
    trueReply_of_honest (accepted_initial (by decide) (by decide)) (play_run hc)
      hhonest hlive (World.hands_spec hhands)⟩

/-- A client whose IPv4 address got no socket is told that it succeeded. -/
theorem not_trueReply_without_socket :
    ∃ c c' sys, Reachable .alone c ∧
      Step .alone c (.dispatch .write 5 sys) c' ∧ ¬ TrueReply c 5 ∧
      .send .requestWrite 5 [5, 0, 0, 1, 0, 0, 0, 0, 0, 0] ∈ c'.world.log := by
  have hplay : (play .alone (accepted 5) (addressClient { socket := none })).any
      (fun c => decide (¬ TrueReply c 5) &&
        ((Act.dispatch .write 5 { send := .accepted 9 } []).perform .alone c).any
          fun c' => decide (.send .requestWrite 5
            [5, 0, 0, 1, 0, 0, 0, 0, 0, 0] ∈ c'.world.log)) = true := by decide
  obtain ⟨c, hc, hchecks⟩ := (Option.any_eq_true _ _).mp hplay
  rw [Bool.and_eq_true, decide_eq_true_iff] at hchecks
  obtain ⟨c', hc', hsent⟩ := (Option.any_eq_true _ _).mp hchecks.2
  exact ⟨c, c', _,
    reachable_of_play (accepted_initial (by decide) (by decide)) hc,
    Act.perform_step hc', hchecks.1, of_decide_eq_true hsent⟩

end Socksv5
