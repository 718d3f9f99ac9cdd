import Socksv5.Session.Descriptors
import Socksv5.Session.Fallback
import Socksv5.Session.RelayCalls
import Mathlib.Data.List.ReduceOption

/-!
# The sockets that a session leaves open

A session makes a socket for every address that it tries, and stores its
descriptor in `origin_fd` over the one before.  When it ends it closes its
client's descriptor and the one in `origin_fd`: every socket but the last one that
it has made stays open.
-/

namespace Socksv5

open Support

/-- The result of a call to `socket`. -/
def Call.made : Call → Option (Option ℕ)
  | .socket result => some result
  | _ => none

/-- What `socket` has returned to the session, call by call. -/
def World.sockets (w : World) : List (Option ℕ) := w.log.filterMap Call.made

/-- The descriptor in `origin_fd` after these calls to `socket`. -/
def lastSocket (fd : ℤ) (results : List (Option ℕ)) : ℤ :=
  results.foldl (fun _ r => socketFd r) fd

theorem lastSocket_append (fd : ℤ) (rs rs' : List (Option ℕ)) :
    lastSocket fd (rs ++ rs') = lastSocket (lastSocket fd rs) rs' :=
  List.foldl_append

theorem lastSocket_concat (fd : ℤ) (rs : List (Option ℕ)) (r : Option ℕ) :
    lastSocket fd (rs ++ [r]) = socketFd r := by
  rw [lastSocket_append]
  rfl

theorem World.sockets_of_log {w w' : World} {calls : List Call}
    (h : w'.log = w.log ++ calls) :
    w'.sockets = w.sockets ++ calls.filterMap Call.made := by
  rw [World.sockets, h, List.filterMap_append]
  rfl

theorem Call.opened_eq (c : Call) :
    c.opened = c.made.join.map fun n : ℕ => (n : ℤ) := by
  cases c with
  | socket result => cases result <;> rfl
  | recv | send | shutdown | authenticate | connect | getsockopt | thread
    | setInterest | addInterest | reduceInterest | close => rfl

/-- The sockets that have been opened are those that `socket` has returned. -/
theorem World.opened_eq_sockets (w : World) :
    w.opened = w.sockets.reduceOption.map fun n : ℕ => (n : ℤ) := by
  rw [World.opened, World.sockets, List.reduceOption, List.filterMap_filterMap,
    List.map_filterMap]
  congr 1
  funext c
  rw [c.opened_eq]
  cases c.made with
  | none => rfl
  | some r => cases r <;> rfl

/-! ## What a callback makes -/

/-- From `w` to `w'` sockets may be made, each of which replaces `origin_fd`. -/
structure Makes (w w' : World) : Prop where
  clientFd : w'.session.clientFd = w.session.clientFd
  sockets : ∃ rs, w'.sockets = w.sockets ++ rs ∧
    w'.session.originFd = lastSocket w.session.originFd rs
  closed : w'.closed = w.closed
  destroyed : w'.destroyed = w.destroyed

namespace Makes

variable {w w₁ w' : World}

theorem trans (h : Makes w w₁) (h' : Makes w₁ w') : Makes w w' where
  clientFd := h'.clientFd.trans h.clientFd
  sockets := by
    obtain ⟨rs, hrs, horigin⟩ := h.sockets
    obtain ⟨rs', hrs', horigin'⟩ := h'.sockets
    refine ⟨rs ++ rs', ?_, ?_⟩
    · rw [hrs', hrs, List.append_assoc]
    · rw [horigin', horigin, lastSocket_append]
  closed := h'.closed.trans h.closed
  destroyed := h'.destroyed.trans h.destroyed

/-- Nothing is made. -/
theorem of_same (hclient : w'.session.clientFd = w.session.clientFd)
    (horigin : w'.session.originFd = w.session.originFd) (hlog : w'.log = w.log)
    (hdestroyed : w'.destroyed = w.destroyed) : Makes w w' where
  clientFd := hclient
  sockets := ⟨[], by rw [World.sockets, hlog, List.append_nil]; rfl, horigin⟩
  closed := by rw [World.closed, hlog]; rfl
  destroyed := hdestroyed

theorem of_quiet (h : Quiet w w') : Makes w w' where
  clientFd := h.clientFd
  sockets := by
    obtain ⟨calls, hlog, hcalls⟩ := h.log
    refine ⟨[], ?_, h.originFd⟩
    have hnone : calls.filterMap Call.made = [] := by
      rw [List.filterMap_eq_nil_iff]
      intro c hc
      have hconnects := hcalls c hc
      cases c with
      | socket result => cases hconnects
      | recv | send | shutdown | authenticate | connect | getsockopt | thread
        | setInterest | addInterest | reduceInterest | close => rfl
    rw [World.sockets_of_log hlog, hnone]
  closed := h.closed
  destroyed := h.destroyed

/-- Calls of which these are to `socket`. -/
theorem of_calls {calls : List Call} {rs : List (Option ℕ)}
    (hclient : w'.session.clientFd = w.session.clientFd)
    (hlog : w'.log = w.log ++ calls) (hmade : calls.filterMap Call.made = rs)
    (hclosed : calls.filterMap Call.closed = [])
    (horigin : w'.session.originFd = lastSocket w.session.originFd rs)
    (hdestroyed : w'.destroyed = w.destroyed) : Makes w w' where
  clientFd := hclient
  sockets := ⟨rs, by rw [World.sockets_of_log hlog, hmade], horigin⟩
  closed := by rw [World.closed_of_log hlog, hclosed, List.append_nil]
  destroyed := hdestroyed

end Makes

theorem Attempted.makes {a : Attempt} {realloc : Bool} {fd : ℤ} {w w' : World}
    {ret : GlobalState} (h : Attempted a realloc fd w ret w') : Makes w w' := by
  cases h with
  | noSocket => exact .of_calls rfl (List.append_assoc ..) rfl rfl rfl rfl
  | noNio => exact .of_calls rfl (List.append_assoc ..) rfl rfl rfl rfl
  | @refused n request addr status s =>
      have hlog : w.log ++ [.socket (some n)] ++ [.connect n addr .failed] ++
          [.setInterest fd .write] = w.log ++ [.socket (some n),
            .connect n addr .failed, .setInterest fd .write] := by
        simp
      exact .of_calls rfl hlog rfl rfl rfl rfl
  | connected => exact .of_calls rfl (List.append_assoc ..) rfl rfl rfl rfl
  | inProgress => exact .of_calls rfl (List.append_assoc ..) rfl rfl rfl rfl

theorem Connects.makes {sys : Sys} {fd : ℤ} {w w' : World} {ret : GlobalState}
    (h : Connects sys fd w ret w') : Makes w w' := by
  cases h with
  | already | noThread => exact .of_same rfl rfl rfl rfl
  | address _ _ h => exact h.makes
  | name _ _ hthreads =>
      rcases hthreads with ⟨-, rfl⟩ | ⟨-, rfl⟩
      · exact .of_calls rfl (List.append_assoc ..) rfl rfl rfl rfl
      · exact .of_calls rfl (List.append_assoc ..) rfl rfl rfl rfl

theorem Resolves.makes {sys : Sys} {fd : ℤ} {k : ℕ} {addrs : List SockAddr}
    {w w' : World} {ret : GlobalState} (h : Resolves sys fd k addrs w ret w') :
    Makes w w' := by
  induction h with
  | @exhausted k w w' ret h =>
      have hfree : Makes w (freeResolution w) := .of_same rfl rfl rfl rfl
      exact hfree.trans (.of_quiet h.quiet)
  | @settles k addr rest w w' h =>
      have hbefore : Makes w (useAddress addr w) := .of_same rfl rfl rfl rfl
      have hfree : Makes w' (freeResolution w') := .of_same rfl rfl rfl rfl
      exact (hbefore.trans h.makes).trans hfree
  | @breaks k addr rest w w' h =>
      have hbefore : Makes w (useAddress addr w) := .of_same rfl rfl rfl rfl
      exact hbefore.trans h.makes
  | @goesOn k addr rest w w₁ w' ret h _ ih =>
      have hbefore : Makes w (useAddress addr w) := .of_same rfl rfl rfl rfl
      exact (hbefore.trans h.makes).trans ih

theorem onReady_makes {sys : Sys} {fd : ℤ} {s ret : GlobalState} {r : Ready}
    {f : Callback} {w w' : World} (hf : onReady sys fd s r = some f)
    (h : f w = .ok (ret, w')) : Makes w w' := by
  by_cases hr : r = .block
  · subst hr
    cases s <;> cases hf
    exact (connectOriginBlock_spec h).makes
  · exact .of_quiet (onReady_quiet hf hr h)

/-! ## The end of a session -/

/-- The descriptors that a session closes when it ends. -/
def Session.closes (session : Session) : List ℤ :=
  [session.clientFd, session.originFd].filter (· ≠ -1)

theorem socksv5Done_closed {w w' : World} (h : socksv5Done w = .ok w') :
    w'.closed = w.closed ++ w.session.closes := by
  obtain ⟨w₁, hclient, h⟩ := bind_eq_ok.mp h
  obtain ⟨w₂, horigin, h⟩ := bind_eq_ok.mp h
  cases h
  have hclosed : w₂.closed = _ := (closeDescriptor_spec horigin).closed
  refine hclosed.trans ?_
  rw [(closeDescriptor_spec hclient).closed, List.append_assoc, Session.closes]
  congr 1
  by_cases hclient : w.session.clientFd = -1
  · by_cases horigin : w.session.originFd = -1
    · simp [hclient, horigin]
    · simp [hclient, horigin]
  · by_cases horigin : w.session.originFd = -1
    · simp [hclient, horigin]
    · simp [hclient, horigin]

/-- What is in `origin_fd` is the last socket, if there is one, and what is closed
at the end is that and the client's descriptor. -/
structure World.Holds (w : World) : Prop where
  client : 0 ≤ w.session.clientFd
  origin : w.session.originFd = lastSocket (-1) w.sockets
  closed : w.closed = if w.destroyed then w.session.closes else []

theorem Makes.holds {w w' : World} (h : Makes w w') (hw : w.Holds)
    (hlive : w.destroyed = false) : w'.Holds := by
  obtain ⟨rs, hrs, horigin⟩ := h.sockets
  have hlive' : w'.destroyed = false := h.destroyed.trans hlive
  refine ⟨?_, ?_, ?_⟩
  · rw [h.clientFd]
    exact hw.client
  · rw [horigin, hw.origin, hrs, lastSocket_append]
  · rw [h.closed, hw.closed, hlive, hlive']
    rfl

theorem socksv5Done_holds {w w' : World} (hw : w.Holds)
    (hlive : w.destroyed = false) (h : socksv5Done w = .ok w') : w'.Holds := by
  have hsockets : w'.sockets = w.sockets := by
    obtain ⟨w₁, hclient, h⟩ := bind_eq_ok.mp h
    obtain ⟨w₂, horigin, h⟩ := bind_eq_ok.mp h
    cases h
    have hmade {w w' : World} {fd : ℤ} (h : closeDescriptor w fd = .ok w') :
        w'.sockets = w.sockets := by
      unfold closeDescriptor at h
      split at h
      · obtain ⟨⟨ret, s⟩, -, h⟩ := bind_eq_ok.mp h
        dsimp only at h
        split at h
        · cases h
        · cases h
          exact (World.sockets_of_log rfl).trans (List.append_nil _)
      · cases h
        rfl
    exact (hmade horigin).trans (hmade hclient)
  refine ⟨?_, ?_, ?_⟩
  · rw [socksv5Done_session h]
    exact hw.client
  · rw [socksv5Done_session h, hsockets]
    exact hw.origin
  · rw [socksv5Done_closed h, hw.closed, hlive, socksv5Done_destroyed h,
      socksv5Done_session h]
    rfl

theorem Outcome.holds {sys : Sys} {fd : ℤ} {s ret : GlobalState}
    {via : List GlobalState} {w w' : World} (hw : w.Holds)
    (hlive : w.destroyed = false) (h : Outcome sys fd s ret w via w') :
    w'.Holds := by
  cases h with
  | stays => exact hw
  | enters => exact (Makes.of_quiet (arrived_quiet ret w)).holds hw hlive
  | connects _ hinit | redirected _ hinit =>
      exact (connectOriginInit_spec hinit).makes.holds hw hlive
  | ends _ hdone => exact socksv5Done_holds hw hlive hdone

theorem Step.holds {company : Company} {c c' : Config} {e : Event}
    (h : Step company c e c') (hc : c.world.Holds) : c'.world.Holds := by
  cases h with
  | @dispatch _ r fd sys hlive hhands hkernel hdispatch =>
      obtain ⟨w₀, f, ret, w, via, hw₀, hf, hcall, hout⟩ := dispatch_cases hdispatch
      have hbefore : Makes c.world w₀ := by
        have hdelivered : Makes c.world (c.world.delivered r fd) := by
          cases r <;> exact .of_same rfl rfl rfl rfl
        rcases hw₀ with rfl | ⟨-, rfl⟩
        · exact hdelivered
        · exact hdelivered.trans (.of_same rfl rfl rfl rfl)
      have hcalled := hbefore.trans (onReady_makes hf hcall)
      exact hout.holds (hcalled.holds hc hlive) (hcalled.destroyed.trans hlive)
  | connectionEnds | resolved | others => exact ⟨hc.client, hc.origin, hc.closed⟩

theorem Initial.holds {c : Config} (h : Initial c) : c.world.Holds := by
  obtain ⟨address, clientFd, s, m, rfl, hread, -⟩ := h
  have hregistered : s.Registered clientFd := by
    rw [FdSelector.Registered, hread]
    exact Option.some_ne_none _
  exact ⟨hregistered.nonneg, rfl, rfl⟩

theorem lastSocket_cases (rs : List (Option ℕ)) :
    lastSocket (-1) rs = socketFd rs.getLast?.join := by
  rcases List.eq_nil_or_concat' rs with rfl | ⟨rs, r, rfl⟩
  · rfl
  · rw [lastSocket_concat, List.getLast?_append]
    rfl

/-- A session that has ended has closed its client's descriptor and the socket that
its last call to `socket` made, if it made one; the sockets that the calls before it
made are not closed. -/
theorem session_loses_sockets {company : Company} {c₀ c : Config}
    {tr : List (Config × Event)} (h₀ : Initial c₀)
    (h : Run (Step company) c₀ tr c) (hended : c.world.destroyed = true) :
    c.world.closed = c.world.session.clientFd ::
        c.world.sockets.getLast?.join.toList.map (fun n : ℕ => (n : ℤ)) ∧
      c.world.opened = (c.world.sockets.dropLast.reduceOption ++
        c.world.sockets.getLast?.join.toList).map fun n : ℕ => (n : ℤ) := by
  have hholds : c.world.Holds :=
    h.invariant h₀.holds fun _ _ _ hc hstep => hstep.holds hc
  constructor
  · have hclient : c.world.session.clientFd ≠ -1 := by
      have hpos := hholds.client
      omega
    rw [hholds.closed, if_pos hended, Session.closes, hholds.origin,
      lastSocket_cases, List.filter_cons_of_pos (by simpa using hclient)]
    congr 1
    cases c.world.sockets.getLast?.join with
    | none => rfl
    | some n =>
        have hn : (n : ℤ) ≠ -1 := by omega
        rw [List.filter_cons_of_pos (by simp [socketFd, hn])]
        rfl
  · rw [c.world.opened_eq_sockets]
    congr 1
    rcases List.eq_nil_or_concat' c.world.sockets with hnil | ⟨rs, r, hrs⟩
    · rw [hnil]
      rfl
    · rw [hrs, List.dropLast_concat, List.getLast?_append, List.reduceOption_append]
      cases r <;> rfl

/-- A client that asks for a name with two addresses, of which the first cannot be
reached and the second is still being tried when the session ends. -/
def secondAddressClient : List Act :=
  nameClient ++
    [.dispatch .block 5 {}
      [⟨some 6, true, .failed⟩, ⟨some 7, true, .inProgress⟩],
    .dispatch .write 7 { soError := none } []]

/-- The socket for the first address is lost. -/
theorem session_loses_first_socket : ∃ c : Config, Reachable .alone c ∧
    c.world.destroyed = true ∧ c.world.opened = [6, 7] ∧
    c.world.closed = [5, 7] := by
  have hplay : (play .alone (accepted 5) secondAddressClient).any (fun c => decide
      (c.world.destroyed = true ∧ c.world.session.clientFd = 5 ∧
        c.world.sockets = [some 6, some 7])) = true := by decide
  obtain ⟨c, hc, hchecks⟩ := (Option.any_eq_true _ _).mp hplay
  obtain ⟨hended, hclient, hsockets⟩ := of_decide_eq_true hchecks
  have h₀ := @accepted_initial 5 (by decide) (by decide)
  obtain ⟨hclosed, hopened⟩ := session_loses_sockets h₀ (play_run hc) hended
  rw [hsockets] at hclosed hopened
  rw [hclient] at hclosed
  exact ⟨c, reachable_of_play h₀ hc, hended, hopened, hclosed⟩

end Socksv5
