import Socksv5.Session.Admission

/-!
# Ending a session

`socksv5_done` unregisters both descriptors of a session and aborts the server
when it cannot.  `origin_fd` is set by every attempt to connect, but registered
only by one that is in progress; so a session ends well if and only if the last
attempt of its every list was one, or opened no descriptor.
-/

namespace Socksv5

open Support

/-- The descriptors that the session has are registered. -/
structure Held (w : World) : Prop where
  client : w.selector.Registered w.session.clientFd
  origin : w.session.originFd = -1 ∨
    w.selector.Registered w.session.originFd ∧
      w.session.originFd ≠ w.session.clientFd

/-- The attempt opens no descriptor, or one that it registers. -/
def Attempt.Tidy (a : Attempt) (s : FdSelector) (realloc : Bool) : Prop :=
  ∀ n ∈ a.socket, a.nio = true ∧ a.connect = .inProgress ∧ s.HasRoom realloc n

instance (a : Attempt) (s : FdSelector) (realloc : Bool) :
    Decidable (a.Tidy s realloc) :=
  inferInstanceAs (Decidable (∀ n ∈ a.socket, _))

/-- The last attempt that the event makes is a tidy one. -/
def TidyEvent (s : GlobalState) (w : World) : Event → Prop
  | .dispatch r fd sys => ∀ a ∈ lastAttempt s w (.dispatch r fd sys),
      a.Tidy w.selector sys.realloc
  | _ => True

instance (s : GlobalState) (w : World) (e : Event) : Decidable (TidyEvent s w e) :=
  match e with
  | .dispatch r fd sys => inferInstanceAs
      (Decidable (∀ a ∈ lastAttempt s w (.dispatch r fd sys), _))
  | .connectionEnds _ | .resolved _ _ _ | .others _ _ =>
      inferInstanceAs (Decidable True)

/-- Whenever the handler of the event returns `DONE` or `ERROR`, both
descriptors are registered or -1, and so `socksv5_done` does not abort. -/
def EndsWell (c : Config) (r : Ready) (fd : ℤ) (sys : Sys) : Prop :=
  ∀ state stm w, stmHandler (sessionTable sys fd) r arrivalFuel c.stm
      (c.world.delivered r fd) = .ok (state, stm, w) →
    state = GlobalState.error.id ∨ state = GlobalState.done.id →
    (∀ d, d = w.session.clientFd ∨ d = w.session.originFd → d ≠ -1 →
      w.selector.Registered d) ∧ socksv5Done w ≠ .error .abort

namespace Held

variable {w w' : World}

theorem of_quiet (hw : Held w) (h : Quiet w w') : Held w' where
  client := by
    rw [h.clientFd, h.registered]
    exact hw.client
  origin := by
    rw [h.originFd, h.clientFd, h.registered]
    exact hw.origin

theorem registered (hw : Held w) {d : ℤ}
    (hd : d = w.session.clientFd ∨ d = w.session.originFd) (hne : d ≠ -1) :
    w.selector.Registered d := by
  rcases hd with rfl | rfl
  · exact hw.client
  · exact (hw.origin.resolve_left hne).1

end Held

/-- A descriptor that is registered is closed. -/
theorem exists_closeDescriptor {w : World} {fd : ℤ}
    (h : fd = -1 ∨ w.selector.Registered fd) :
    ∃ w', closeDescriptor w fd = .ok w' ∧
      ∀ d, d ≠ fd → w.selector.Registered d → w'.selector.Registered d := by
  unfold closeDescriptor
  by_cases hne : fd ≠ -1
  · obtain ⟨s, hs, hinterest⟩ :=
      selectorUnregisterFd_of_registered (h.resolve_left hne)
    refine ⟨{ w with selector := s }.record (.close fd), ?_, ?_⟩
    · rw [if_pos hne, hs]
      rfl
    · intro d hd hreg
      change s.interest? d ≠ none
      rw [hinterest, Function.update_of_ne hd]
      exact hreg
  · rw [if_neg hne]
    exact ⟨w, rfl, fun d _ hreg => hreg⟩

/-- A session whose descriptors are registered is torn down. -/
theorem Held.exists_socksv5Done {w : World} (hw : Held w) :
    ∃ w', socksv5Done w = .ok w' := by
  obtain ⟨w₁, hclient, hothers⟩ :=
    exists_closeDescriptor (w := w) (Or.inr hw.client)
  have horigin : w.session.originFd = -1 ∨
      w₁.selector.Registered w.session.originFd := by
    refine hw.origin.imp_right fun ⟨hreg, hne⟩ => ?_
    exact hothers _ hne hreg
  obtain ⟨w₂, horigin, -⟩ := exists_closeDescriptor horigin
  exact ⟨{ w₂ with metrics := w₂.metrics.removeConnection, destroyed := true },
    bind_eq_ok.mpr ⟨w₁, hclient, bind_eq_ok.mpr ⟨w₂, horigin, rfl⟩⟩⟩

theorem Attempted.held {a : Attempt} {realloc : Bool} {fd : ℤ} {w w' : World}
    {ret : GlobalState} (h : Attempted a realloc fd w ret w')
    (hclient : w.selector.Registered w.session.clientFd)
    (hfresh : ∀ n, a.socket = some n → ¬ w.selector.Registered n ∧
      (n : ℤ) ≠ w.session.clientFd)
    (htidy : a.Tidy w.selector realloc) : Held w' := by
  cases h with
  | noSocket _ hs => exact ⟨(hs.registered_iff _).mpr hclient, Or.inl rfl⟩
  | noNio hsocket hnio =>
      have := (htidy _ hsocket).1
      rw [hnio] at this
      cases this
  | refused hsocket _ hconnect =>
      have := (htidy _ hsocket).2.1
      rw [hconnect] at this
      cases this
  | connected hsocket _ hconnect =>
      have := (htidy _ hsocket).2.1
      rw [hconnect] at this
      cases this
  | @inProgress n request addr status s hsocket hnio hconnect _ hregister =>
      obtain ⟨hnot, hne⟩ := hfresh _ hsocket
      have hnone : w.selector.interest? n = none := by
        by_contra hsome
        exact hnot hsome
      obtain rfl := selectorRegister_success hregister
        (htidy _ hsocket).2.2 hnone
      rcases selectorRegister_cases hregister with ⟨hstatus, -⟩ |
        ⟨-, -, -, hs, -⟩
      · exact absurd rfl hstatus
      · refine ⟨?_, Or.inr ⟨?_, hne⟩⟩
        · change s.interest? w.session.clientFd ≠ none
          rw [hs, Function.update_of_ne (Ne.symm hne)]
          exact hclient
        · change s.interest? n ≠ none
          rw [hs, Function.update_self]
          simp

/-- Only the last attempt for a list counts. -/
theorem Resolves.held {sys : Sys} {fd : ℤ} {k : ℕ} {addrs : List SockAddr}
    {w w' : World} {ret : GlobalState} (h : Resolves sys fd k addrs w ret w')
    (hw : addrs = [] → Held w)
    (hclient : w.selector.Registered w.session.clientFd)
    (hreg : w.selector.Registered fd)
    (hfresh : ∀ k n, (sys.attempts k).socket = some n →
      ¬ w.selector.Registered n ∧ (n : ℤ) ≠ w.session.clientFd)
    (htidy : ∀ a ∈ lastMade sys.attempts k addrs,
      a.Tidy w.selector sys.realloc) : Held w' := by
  induction h with
  | exhausted h =>
      have hw := hw rfl
      cases h with
      | failed _ hs =>
          exact ⟨(hs.registered_iff _).mpr hw.client,
            hw.origin.imp_right (And.imp_left (hs.registered_iff _).mpr)⟩
      | answers hs =>
          exact ⟨(hs.registered_iff _).mpr hw.client,
            hw.origin.imp_right (And.imp_left (hs.registered_iff _).mpr)⟩
  | @settles k addr rest w w' h =>
      have hstops : (sys.attempts k).failsAtOnce = false := by
        rw [← Bool.not_eq_true]
        intro hfails
        have := (h.of_failsAtOnce hfails hreg).1
        cases this
      have hheld := h.held hclient (hfresh k)
        (htidy _ (lastMade_of_stops (Or.inl hstops)))
      exact ⟨hheld.client, hheld.origin⟩
  | @breaks k addr rest w w' h =>
      have hstops : (sys.attempts k).failsAtOnce = false := by
        rw [← Bool.not_eq_true]
        intro hfails
        have := (h.of_failsAtOnce hfails hreg).1
        cases this
      exact h.held hclient (hfresh k)
        (htidy _ (lastMade_of_stops (Or.inl hstops)))
  | @goesOn k addr rest w w₁ w' ret h _ ih =>
      have hfails : (sys.attempts k).failsAtOnce = true := by
        by_contra hstops
        exact h.ne_requestWrite (by simpa using hstops) rfl
      obtain ⟨-, hsame, hregistered, hsize⟩ := h.of_failsAtOnce hfails hreg
      refine ih ?_ ?_ ?_ ?_ ?_
      · intro hrest
        exact h.held hclient (hfresh k) (htidy _ (lastMade_of_stops (Or.inr hrest)))
      · rw [hsame, hregistered]
        exact hclient
      · rw [hregistered]
        exact hreg
      · intro j n hn
        rw [hsame, hregistered]
        exact hfresh j n hn
      · intro a ha
        have hrest : rest ≠ [] := by
          rintro rfl
          cases ha
        have := htidy a (by rwa [lastMade_of_goesOn hfails hrest])
        intro n hn
        obtain ⟨hnio, hconnect, hroom⟩ := this n hn
        refine ⟨hnio, hconnect, ?_⟩
        rw [FdSelector.HasRoom, hsize]
        exact hroom

theorem Connects.held {sys : Sys} {fd : ℤ} {w w' : World} {ret : GlobalState}
    (h : Connects sys fd w ret w') (hw : Held w)
    (hfresh : ∀ n, (sys.attempts 0).socket = some n →
      ¬ w.selector.Registered n ∧ (n : ℤ) ≠ w.session.clientFd)
    (htidy : w.session.request.parser.atyp = 1 ∨
      w.session.request.parser.atyp = 4 →
        (sys.attempts 0).Tidy w.selector sys.realloc) : Held w' := by
  cases h with
  | already => exact hw
  | address _ hatyp h => exact h.held hw.client hfresh (htidy hatyp)
  | noThread => exact hw
  | name _ _ _ hs =>
      exact ⟨(hs.registered_iff _).mpr hw.client,
        hw.origin.imp_right (And.imp_left (hs.registered_iff _).mpr)⟩

theorem Held.delivered {w : World} (hw : Held w) (r : Ready) (fd : ℤ) :
    Held (w.delivered r fd) := by
  cases r <;> exact ⟨hw.client, hw.origin⟩

/-- A callback keeps the descriptors registered. -/
theorem Held.called {company : Company} {sys : Sys} {fd : ℤ}
    {s ret : GlobalState} {r : Ready} {f : Callback} {w w' : World}
    (hw : Held w) (hhands : w.Hands company r fd) (hkernel : w.Kernel sys)
    (htidy : TidyEvent s w (.dispatch r fd sys))
    (hf : onReady sys fd s r = some f)
    (h : f (w.delivered r fd) = .ok (ret, w')) : Held w' := by
  by_cases hr : r = .block
  · subst hr
    cases s <;> cases hf
    exact (connectOriginBlock_spec h).held (fun _ => hw.delivered .block fd)
      hw.client hhands.2.1 hkernel.fresh htidy
  · exact (hw.delivered r fd).of_quiet (onReady_quiet hf hr h)

/-- So does connecting to the address of a request. -/
theorem Held.connected {company : Company} {sys : Sys} {fd : ℤ}
    {s ret : GlobalState} {r : Ready} {f : Callback} {w w₁ w₂ : World}
    (hw : Held w) (hhands : w.Hands company r fd) (hkernel : w.Kernel sys)
    (htidy : TidyEvent s w (.dispatch r fd sys))
    (hf : onReady sys fd s r = some f) (hs : s ≠ .originConnect)
    (h : f (w.delivered r fd) = .ok (.originConnect, w₁))
    (hinit : connectOriginInit sys fd w₁ = .ok (ret, w₂)) : Held w₂ := by
  have hreg : (w.delivered r fd).selector.Registered fd := by
    cases r <;> exact hhands.2.1
  obtain rfl := ((onReady_follows hf hreg h).resolve_left
    (Ne.symm hs)).eq_requestRead
  cases r <;> cases hf
  have hquiet : Quiet w w₁ := requestRead_quiet h
  refine (connectOriginInit_spec hinit).held
    (hw.of_quiet hquiet) ?_ ?_
  · intro n hn
    rw [hquiet.registered, hquiet.clientFd]
    exact hkernel.fresh 0 n hn
  · intro hatyp n hn
    obtain ⟨hnio, hconnect, hroom⟩ := htidy _ (lastAttempt_of_request h hatyp) n hn
    refine ⟨hnio, hconnect, ?_⟩
    rw [FdSelector.HasRoom, hquiet.fdSize]
    exact hroom

theorem held_inductive (company : Company) : Inductive company Anything
    TidyEvent fun _ _ w => w.destroyed = false → Held w where
  started := fun w _ hw hlive => ⟨(hw hlive).client, (hw hlive).origin⟩
  startedCondition := by
    intro w e he
    cases e with
    | dispatch r fd sys =>
        intro a ha
        cases r <;> cases ha
    | connectionEnds | resolved | others => trivial
  dispatched := by
    intro vs s r fd sys w f ret w₁ via w₂ _ hw hs htidy hlive hhands hkernel hf h
      hout hlive'
    have hheld := hw hlive
    have hcalled := hheld.called hhands hkernel htidy hf h
    cases hout with
    | stays => exact hcalled
    | enters => exact hcalled.of_quiet (arrived_quiet _ _)
    | connects hne hinit =>
        exact hheld.connected hhands hkernel htidy hf hne h hinit
    | redirected hne hinit =>
        exact hheld.connected hhands hkernel htidy hf hne h hinit
    | ends _ hdone =>
        obtain ⟨w₃, -, hdone⟩ := bind_eq_ok.mp hdone
        obtain ⟨w₄, -, hdone⟩ := bind_eq_ok.mp hdone
        cases hdone
        cases hlive'
  connectionEnds := fun _ _ hw _ _ hlive =>
    ⟨(hw hlive).client, (hw hlive).origin⟩
  resolved := by
    intro vs s w fd addrs alloc _ hw _ _ hlive
    cases alloc <;> exact ⟨(hw hlive).client, (hw hlive).origin⟩
  others := by
    intro vs s w sel m _ hw _ hsame hlive
    have hheld := hw hlive
    have hpos {d : ℤ} (hd : w.selector.Registered d) : 0 ≤ d := hd.nonneg
    constructor
    · exact (hsame _ ⟨hpos hheld.client, Or.inl rfl⟩).1.mpr hheld.client
    · refine hheld.origin.imp_right fun ⟨hreg, hne⟩ => ⟨?_, hne⟩
      exact (hsame _ ⟨hpos hreg, Or.inr rfl⟩).1.mpr hreg

theorem Initial.held {c : Config} (h : Initial c) : Held c.world := by
  obtain ⟨address, clientFd, s, m, rfl, hs, -⟩ := h
  refine ⟨?_, Or.inl rfl⟩
  change s.interest? clientFd ≠ none
  rw [hs]
  simp

/-- A session whose every last attempt is a tidy one ends well. -/
theorem endsWell_of_tidy {company : Company} {c₀ c : Config}
    {tr : List (Config × Event)} {r : Ready} {fd : ℤ} {sys : Sys}
    (hinit : Initial c₀) (hrun : Run (Step company) c₀ tr c)
    (htidy : ∀ x ∈ tr, TidyEvent x.1.state x.1.world x.2)
    (hlive : c.world.destroyed = false) (hhands : c.world.Hands company r fd)
    (hkernel : c.world.Kernel sys)
    (hevent : TidyEvent c.state c.world (.dispatch r fd sys)) :
    EndsWell c r fd sys := by
  intro state stm w h hend
  have hI := held_inductive company
  obtain ⟨vs, s, -, -, hcur, hheld, hevent'⟩ := hI.atEvent hevent
    (hI.run hrun htidy hinit.stm_eq fun _ => hinit.held)
  rw [stmHandler_started] at h
  obtain ⟨f, ret, w₁, via, hf, hcall, rfl, hland, -⟩ := stmHandler_lands hcur h
  have hw : Held w := by
    have hcalled := (hheld (c.started_destroyed.trans hlive)).called
      (c.started_hands hhands) (c.started_kernel hkernel) hevent' hf hcall
    rcases hland with ⟨-, -, rfl⟩ | ⟨-, hlands⟩
    · exact hcalled
    · cases hlands with
      | enters => exact hcalled.of_quiet (arrived_quiet _ _)
      | connects => exact absurd hend (by decide)
      | redirected => exact absurd hend (by decide)
  refine ⟨fun d hd hne => hw.registered hd hne, ?_⟩
  obtain ⟨w', hdone⟩ := hw.exists_socksv5Done
  rw [hdone]
  simp

/-- Without a socket the session ends well. -/
theorem endsWell_without_socket :
    ∃ c, play .alone (accepted 5) (addressClient { socket := none }) = some c ∧
      EndsWell c .write 5 { send := .accepted 9 } := by
  have hplay : (play .alone (accepted 5)
      (addressClient { socket := none })).any (fun c => decide
        (c.world.destroyed = false ∧ c.world.hands .alone .write 5 = true ∧
        c.world.kernel { send := .accepted 9 } [] = true ∧
        TidyEvent c.state c.world
          (.dispatch .write 5 { send := .accepted 9 }))) = true := by decide
  have htidy : ∀ x ∈ playTrace .alone (accepted 5)
      (addressClient { socket := none }),
      TidyEvent x.1.state x.1.world x.2 := by decide
  obtain ⟨c, hc, hchecks⟩ := (Option.any_eq_true _ _).mp hplay
  obtain ⟨hlive, hhands, hkernel, hevent⟩ := of_decide_eq_true hchecks
  exact ⟨c, hc, endsWell_of_tidy (accepted_initial (by decide) (by decide))
    (play_run hc) htidy hlive (World.hands_spec hhands)
    (World.kernel_spec hkernel) hevent⟩

/-- The handler of the event returns `DONE` or `ERROR`, and `socksv5_done`
aborts. -/
def aborts (c : Config) (r : Ready) (fd : ℤ) (sys : Sys) : Bool :=
  match stmHandler (sessionTable sys fd) r arrivalFuel c.stm
      (c.world.delivered r fd) with
  | .ok (state, _, w) =>
      decide (state = GlobalState.error.id ∨ state = GlobalState.done.id) &&
        match socksv5Done w with
        | .error .abort => true
        | _ => false
  | .error _ => false

theorem not_endsWell_of_aborts {c : Config} {r : Ready} {fd : ℤ} {sys : Sys}
    (h : aborts c r fd sys = true) : ¬ EndsWell c r fd sys := by
  intro hwell
  unfold aborts at h
  split at h
  · rename_i state stm w hstm
    rw [Bool.and_eq_true, decide_eq_true_iff] at h
    refine (hwell state stm w hstm h.1).2 ?_
    have hdone := h.2
    split at hdone
    · assumption
    · cases hdone
  · cases h

/-- When `connect` fails at once, the reply is sent and the server aborts. -/
theorem not_endsWell_when_refused :
    ∃ c fd sys, Reachable .alone c ∧ c.world.destroyed = false ∧
      c.world.Hands .alone .write fd ∧ c.world.Kernel sys ∧
      ¬ EndsWell c .write fd sys := by
  have hplay : (play .alone (accepted 5)
      (addressClient { socket := some 6, connect := .failed })).any (fun c =>
        decide (c.world.destroyed = false ∧
        c.world.hands .alone .write 5 = true ∧
        c.world.kernel { send := .accepted 9 } [] = true ∧
        aborts c .write 5 { send := .accepted 9 } = true)) = true := by decide
  obtain ⟨c, hc, hchecks⟩ := (Option.any_eq_true _ _).mp hplay
  obtain ⟨hlive, hhands, hkernel, haborts⟩ := of_decide_eq_true hchecks
  exact ⟨c, 5, { send := .accepted 9 },
    reachable_of_play (accepted_initial (by decide) (by decide)) hc, hlive,
    World.hands_spec hhands, World.kernel_spec hkernel,
    not_endsWell_of_aborts haborts⟩

end Socksv5
