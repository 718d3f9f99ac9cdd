import Socksv5.Credentials
import Socksv5.Pop3Dialogue
import Socksv5.Session.Dissector
import Socksv5.Session.RelayCalls
import Socksv5.Session.Streams

/-!
# What the sniffer makes of the traffic of a session

The calls that relay tell what the sniffer has been given: the chunks that were
received from the origin or sent to it, in the order of the calls.
-/

namespace Socksv5

open Support

/-- What the call transfers from or to the origin. -/
def Call.originChunks (clientFd : ℤ) : Call → List (List UInt8)
  | .recv .copy fd _ (.received (b :: bs)) | .send .copy fd (b :: bs) =>
      if fd = clientFd then [] else [b :: bs]
  | _ => []

/-- The chunks that have been relayed from the origin or to it. -/
def originChunks (clientFd : ℤ) (log : List Call) : List (List UInt8) :=
  log.flatMap (Call.originChunks clientFd)

theorem originChunks_relayed (clientFd : ℤ) (log : List Call) :
    originChunks clientFd (relayed log) = originChunks clientFd log := by
  induction log with
  | nil => rfl
  | cons c log ih =>
      have hcons : originChunks clientFd (c :: log) =
          c.originChunks clientFd ++ originChunks clientFd log :=
        List.flatMap_cons
      rw [relayed] at ih ⊢
      cases hc : c.relays with
      | true =>
          rw [List.filter_cons_of_pos hc, originChunks, List.flatMap_cons,
            hcons, ← ih]
          rfl
      | false =>
          have hnil : c.originChunks clientFd = [] := by
            unfold Call.originChunks
            split <;> first | rfl | cases hc
          rw [List.filter_cons_of_neg (by simp [hc]), ih, hcons, hnil,
            List.nil_append]

/-! ## The calls and the observations -/

/-- The event happens with the dissectors enabled, and not short of memory. -/
def Event.Dissects : Event → Prop
  | .dispatch _ _ sys =>
      sys.parameters.disectorsEnabled = true ∧ ¬ OutOfMemory sys.allocs
  | _ => True

instance (e : Event) : Decidable e.Dissects := by
  cases e <;> unfold Event.Dissects <;> infer_instance

theorem World.observed_copy {w : World} {s : GlobalState} {r : Ready} {fd : ℤ}
    {sys : Sys} {x : List UInt8 × Allocs} (h : x ∈ w.observed s r fd sys) :
    s = .copy := by
  by_contra hs
  have hnil : w.observed s r fd sys = [] := if_neg fun h => hs h.1
  rw [hnil] at h
  cases h

theorem World.observed_allocs {w : World} {s : GlobalState} {r : Ready} {fd : ℤ}
    {sys : Sys} {x : List UInt8 × Allocs} (h : x ∈ w.observed s r fd sys) :
    x.2 = sys.allocs := by
  unfold World.observed at h
  split at h
  · split at h
    · split at h
      · rw [List.mem_singleton.mp h]
      · cases h
    · split at h
      · rw [List.mem_singleton.mp h]
      · cases h
    · cases h
  · cases h

/-- What is sniffed is what the call that relays transfers. -/
theorem World.observed_eq_originChunks {w : World} {s : GlobalState} {r : Ready}
    {fd : ℤ} {sys : Sys} (henabled : sys.parameters.disectorsEnabled = true) :
    (w.observed s r fd sys).map Prod.fst =
      originChunks w.session.clientFd (w.relayCalls s r fd sys) := by
  by_cases hs : s = .copy
  · subst hs
    by_cases hclient : fd = w.session.clientFd
    · have hside : w.session.side? fd = some .client := if_pos hclient
      have hnil : w.observed .copy r fd sys = [] :=
        if_neg fun h => by simp [hside] at h
      rw [hnil]
      cases r with
      | block => rfl
      | read =>
          simp only [World.relayCalls, hside, originChunks, List.flatMap_cons,
            List.flatMap_nil, Side.recvCall]
          cases sys.recv.upTo (Side.client.inbox w.session).room with
          | connReset | failed => rfl
          | received bs => cases bs <;> simp [Call.originChunks, hclient]
      | write =>
          simp only [World.relayCalls, hside, originChunks, List.flatMap_cons,
            List.flatMap_nil]
          cases sys.sentFrom (Side.client.outbox w.session) <;>
            simp [Call.originChunks, hclient]
    · by_cases horigin : fd = w.session.originFd
      · have hside : w.session.side? fd = some .origin := by
          rw [Session.side?, if_neg hclient, if_pos horigin]
        rw [World.observed.eq_def, if_pos ⟨rfl, hside, henabled⟩]
        cases r with
        | block => rfl
        | read =>
            simp only [World.relayCalls, hside, originChunks, List.flatMap_cons,
              List.flatMap_nil, Side.recvCall, Side.inbox]
            cases sys.recv.upTo w.session.readBuffer.room with
            | connReset | failed => rfl
            | received bs => cases bs <;> simp [Call.originChunks, hclient]
        | write =>
            simp only [World.relayCalls, hside, originChunks, List.flatMap_cons,
              List.flatMap_nil, Side.outbox, Side.peer, Side.inbox, Sys.sentFrom]
            cases sys.send with
            | failed => rfl
            | accepted k =>
                cases w.session.writeBuffer.pending <;>
                  simp [Call.originChunks, hclient]
      · have hside : w.session.side? fd = none := by
          rw [Session.side?, if_neg hclient, if_neg horigin]
        have hnil : w.observed .copy r fd sys = [] :=
          if_neg fun h => by simp [hside] at h
        rw [hnil]
        cases r <;> simp [World.relayCalls, hside, originChunks]
  · have hnil : w.observed s r fd sys = [] := if_neg fun h => hs h.1
    rw [hnil, w.relayCalls_of_ne hs]
    rfl

/-! ## A run -/

/-- The client's descriptor does not change. -/
theorem Step.clientFd_eq {company : Company} {c c' : Config} {e : Event}
    (h : Step company c e c') :
    c'.world.session.clientFd = c.world.session.clientFd := by
  cases h with
  | @dispatch _ r fd sys _ _ _ hdispatch =>
      obtain ⟨w₀, f, ret, w, via, hw₀, hf, hcall, hout⟩ := dispatch_cases hdispatch
      have hclient : w₀.session.clientFd = c.world.session.clientFd := by
        rcases hw₀ with rfl | ⟨-, rfl⟩ <;> cases r <;> rfl
      rw [hout.silent.clientFd, (onReady_grows hf hcall).1, hclient]
  | connectionEnds | resolved | others => rfl

theorem originChunks_append (clientFd : ℤ) (log calls : List Call) :
    originChunks clientFd (log ++ calls) =
      originChunks clientFd log ++ originChunks clientFd calls :=
  List.flatMap_append

/-- An event gives the sniffer what it lets the relay transfer. -/
theorem Step.sniffed {company : Company} {c c' : Config} {e : Event}
    (h : Step company c e c') (he : c.state = .copy → e.Dissects) :
    ∃ chunks, sniffChunks c.world.session.pop3sniffer chunks =
        .ok c'.world.session.pop3sniffer ∧
      (∀ x ∈ chunks, ¬ OutOfMemory x.2) ∧
      originChunks c'.world.session.clientFd c'.world.log =
        originChunks c.world.session.clientFd c.world.log ++
          chunks.map Prod.fst := by
  have hlog : originChunks c'.world.session.clientFd c'.world.log =
      originChunks c.world.session.clientFd c.world.log ++
        originChunks c.world.session.clientFd (c.relayCalls e) := by
    rw [h.clientFd_eq, ← originChunks_relayed, h.relayed_eq, originChunks_append,
      originChunks_relayed]
  refine ⟨_, (step_iff_undissected.mp h).2, ?_, ?_⟩
  · intro x hx
    cases e with
    | dispatch r fd sys =>
        have hcopy : c.state = .copy := World.observed_copy hx
        rw [World.observed_allocs hx]
        exact (he hcopy).2
    | connectionEnds | resolved | others => cases hx
  · rw [hlog]
    cases e with
    | dispatch r fd sys =>
        refine congrArg _ ?_
        by_cases hcopy : c.state = .copy
        · exact (World.observed_eq_originChunks (he hcopy).1).symm
        · have hnil : (Config.parts c).1.observed (.dispatch r fd sys) = [] :=
            if_neg fun h => hcopy h.1
          rw [hnil, Config.relayCalls, World.relayCalls_of_ne _ hcopy]
          rfl
    | connectionEnds | resolved | others => rfl

theorem run_sniffed {company : Company} {c c' : Config}
    {tr : List (Config × Event)} (h : Run (Step company) c tr c')
    (hdissects : ∀ x ∈ tr, x.1.state = .copy → x.2.Dissects) :
    ∃ chunks, sniffChunks c.world.session.pop3sniffer chunks =
        .ok c'.world.session.pop3sniffer ∧
      (∀ x ∈ chunks, ¬ OutOfMemory x.2) ∧
      originChunks c'.world.session.clientFd c'.world.log =
        originChunks c.world.session.clientFd c.world.log ++
          chunks.map Prod.fst := by
  induction h with
  | nil => exact ⟨[], rfl, by simp, by simp⟩
  | @snoc tr c₁ c₂ e _ hstep ih =>
      obtain ⟨chunks, hsniff, hmem, hlog⟩ := ih fun x hx =>
        hdissects x (List.mem_append_left _ hx)
      obtain ⟨chunks', hsniff', hmem', hlog'⟩ := hstep.sniffed
        (hdissects (c₁, e) (by simp))
      refine ⟨chunks ++ chunks', ?_, ?_, ?_⟩
      · rw [sniffChunks, List.foldlM_append]
        rw [sniffChunks] at hsniff hsniff'
        rw [hsniff]
        exact hsniff'
      · intro x hx
        rcases List.mem_append.mp hx with hx | hx
        · exact hmem x hx
        · exact hmem' x hx
      · rw [hlog', hlog, List.map_append, List.append_assoc]

/-! ## What the sniffer has found -/

theorem pop3SnifferInit_of_memory (s : Pop3Sniffer) {a : Allocs}
    (h : ¬ OutOfMemory a) : pop3SnifferInit s a = pop3SnifferInit s [] := by
  rcases a with - | ⟨x, - | ⟨y, a⟩⟩
  · rfl
  · cases x
    · exact absurd (by simp [OutOfMemory]) h
    · rfl
  · cases x <;> cases y <;> first | rfl | simp [OutOfMemory] at h

namespace Pop3Sniffer

/-- A sniffer that has ended stays as it is. -/
theorem feed_of_final {s : Pop3Sniffer} (h : s.state.final = true)
    (bytes : List UInt8) : s.feed bytes = .ok s := by
  induction bytes with
  | nil => rfl
  | cons c cs ih =>
      have hstays : parsePop3Sniffer s c = .ok s := by
        rcases s with ⟨state⟩
        cases state <;> first | rfl | cases h
      rw [feed_cons, hstays]
      exact ih

theorem feedUntilFinal_eq_feed (s : Pop3Sniffer) (bytes : List UInt8) :
    s.feedUntilFinal bytes = s.feed bytes := by
  induction bytes generalizing s with
  | nil => rfl
  | cons c cs ih =>
      rw [feedUntilFinal, feed_cons]
      by_cases hfinal : s.state.final = true
      · rw [if_pos hfinal, ← feed_cons, feed_of_final hfinal]
      · rw [if_neg hfinal]
        simp only [ih]

theorem took_of_outcome {s t : Pop3Sniffer} (h : s.outcome = t.outcome)
    (user pass : List UInt8) : s.Took user pass ↔ t.Took user pass := by
  obtain ⟨hstate, huser, hpass⟩ : s.state = t.state ∧ s.user = t.user ∧
      s.pass = t.pass := by
    simpa [outcome] using h
  rw [Took, Took, hstate, huser, hpass]

end Pop3Sniffer

/-- What the room of the sniffer's buffer leaves of the chunks. -/
def cutToBuffer (chunks : List (List UInt8)) : List UInt8 :=
  chunks.flatMap (·.take pop3Buff)

/-- A session that is dissected: the sniffer is created with the first chunk that
is relayed from the origin or to it, and stands where the parser is led by all
of them, each cut at the room of the buffer. -/
theorem sniffer_of_traffic {company : Company} {c₀ c : Config}
    {tr : List (Config × Event)} (h₀ : Initial c₀) (h : Run (Step company) c₀ tr c)
    (hdissects : ∀ x ∈ tr, x.1.state = .copy → x.2.Dissects) :
    if originChunks c.world.session.clientFd c.world.log = [] then
      c.world.session.pop3sniffer = {}
    else
      ((pop3SnifferInit {} []).feed
          (cutToBuffer (originChunks c.world.session.clientFd c.world.log))).map
        Pop3Sniffer.outcome = .ok c.world.session.pop3sniffer.outcome := by
  obtain ⟨chunks, hsniff, hmem, hlog⟩ := run_sniffed h hdissects
  obtain ⟨address, clientFd, sel, m, rfl, -⟩ := h₀
  have hlog' : originChunks c.world.session.clientFd c.world.log =
      chunks.map Prod.fst := hlog
  rw [hlog']
  cases chunks with
  | nil => exact (Except.ok.inj hsniff).symm
  | cons x chunks =>
      have hsniff' : sniffChunks {} (x :: chunks) =
          .ok c.world.session.pop3sniffer := hsniff
      have hcut : cutToBuffer ((x :: chunks).map Prod.fst) =
          copied (x :: chunks) := by
        rw [cutToBuffer, List.flatMap_map]
        rfl
      have hinit := pop3SnifferInit_of_memory {} (hmem x List.mem_cons_self)
      have heq := sniffChunks_eq x chunks
      rw [hsniff', hinit, Pop3Sniffer.feedUntilFinal_eq_feed] at heq
      rw [if_neg (by simp), hcut, ← heq]
      rfl

/-- The sniffer of a session that relays a login to a server, up to the status
of the server's last answer, has taken the credentials of the login exactly when
the attempts that were refused before leave it able to. -/
theorem session_takes_login_iff {company : Company} {c₀ c : Config}
    {tr : List (Config × Event)} {greeting : Pop3Text}
    {refusals : List Pop3Refusal} {login : Pop3Login} (h₀ : Initial c₀)
    (h : Run (Step company) c₀ tr c)
    (hdissects : ∀ x ∈ tr, x.1.state = .copy → x.2.Dissects)
    (hshort : ∀ chunk ∈ originChunks c.world.session.clientFd c.world.log,
      chunk.length ≤ pop3Buff)
    (hdialogue : (originChunks c.world.session.clientFd c.world.log).flatten =
      pop3Dialogue greeting refusals login) :
    c.world.session.pop3sniffer.Took login.user.bytes login.pass.bytes ↔
      (watchAfter refusals).Takes login.user.bytes login.pass.bytes := by
  have hsniffer := sniffer_of_traffic h₀ h hdissects
  have hcut : cutToBuffer (originChunks c.world.session.clientFd c.world.log) =
      pop3Dialogue greeting refusals login := by
    rw [← hdialogue, cutToBuffer, List.flatMap_def,
      List.map_congr_left fun chunk hchunk => List.take_of_length_le
        (hshort chunk hchunk), List.map_id']
  have hsome : originChunks c.world.session.clientFd c.world.log ≠ [] := by
    intro hnil
    rw [hnil] at hdialogue
    simp [pop3Dialogue, okText] at hdialogue
  rw [if_neg hsome, hcut] at hsniffer
  obtain ⟨s', hfeed, hs'⟩ := feed_dialogue {} greeting refusals login
  rw [hfeed] at hsniffer
  have hready : ∀ u p, Watch.ready ≠ .pending u p := fun _ _ =>
    Watch.noConfusion
  have hne : ∀ u p, watchAfter refusals ≠ .pending u p :=
    (carries_refusals refusals hready).2
  cases hok : s'.feed okText with
  | error e =>
      rw [hok] at hsniffer
      cases hsniffer
  | ok t =>
      rw [hok] at hsniffer
      rw [← Pop3Sniffer.took_of_outcome (Except.ok.inj hsniffer),
        Watch.takes_iff _ _ _ hne]
      exact took_iff hs' hok

/-- The events of a relay with the dissectors enabled. -/
def dissecting : Parameters := { disectorsEnabled := true }

/-- A login that is relayed. -/
def relayedLogin : List Act :=
  connectedClient [] ++
    [.dispatch .read 6
        { recv := .received (okText ++ crlf), parameters := dissecting } [],
      .dispatch .write 5 { send := .accepted 9, parameters := dissecting } [],
      .dispatch .read 5
        { recv := .received (userText ++ [97] ++ crlf), parameters := dissecting }
        [],
      .dispatch .write 6 { send := .accepted 9, parameters := dissecting } [],
      .dispatch .read 6
        { recv := .received (okText ++ crlf), parameters := dissecting } [],
      .dispatch .write 5 { send := .accepted 9, parameters := dissecting } [],
      .dispatch .read 5
        { recv := .received (passText ++ [97] ++ crlf), parameters := dissecting }
        [],
      .dispatch .write 6 { send := .accepted 9, parameters := dissecting } [],
      .dispatch .read 6 { recv := .received okText, parameters := dissecting } []]

theorem session_takes_relayed_login :
    ∃ c, play .alone (accepted 5) relayedLogin = some c ∧
      c.world.session.pop3sniffer.Took [97] [97] := by
  have hplay : (play .alone (accepted 5) relayedLogin).any (fun c : Config =>
      decide ((∀ chunk ∈ originChunks c.world.session.clientFd c.world.log,
          chunk.length ≤ pop3Buff) ∧
        (originChunks c.world.session.clientFd c.world.log).flatten =
          pop3Dialogue pop3Silence [] pop3LoginA)) = true := by decide +kernel
  have hevents : ∀ x ∈ playTrace .alone (accepted 5) relayedLogin,
      x.1.state = .copy → x.2.Dissects := by decide +kernel
  obtain ⟨c, hc, hend⟩ := (Option.any_eq_true _ _).mp hplay
  obtain ⟨hshort, hdialogue⟩ := of_decide_eq_true hend
  exact ⟨c, hc, (session_takes_login_iff (accepted_initial (by decide) (by decide))
    (play_run hc) hevents hshort hdialogue).mpr trivial⟩

end Socksv5
