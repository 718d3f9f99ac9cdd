import Socksv5.Session.Relay
import Socksv5.Session.Script

/-!
# Isolation of the relays

`copy_read` and `copy_write` keep the descriptor of the other side in a
`uint8_t`.  Where it does not fit, they act on another descriptor, which may
belong to another session.
-/

namespace Socksv5

open Support

/-- The descriptor that a change of interest or a `shutdown` acts on. -/
def Call.actsOn : Call → Option ℤ
  | .setInterest fd _ | .addInterest fd _ | .reduceInterest fd _
  | .shutdown fd => some fd
  | _ => none

/-- The callback for `r` makes the call for the other side. -/
def Call.forPeer (r : Ready) : Call → Bool
  | .addInterest _ _ => true
  | .shutdown _ => decide (r = .read)
  | _ => false

/-- The calls made since the world was `w`. -/
def World.callsSince (w' w : World) : List Call := w'.log.drop w.log.length

/-- A callback of a side, for `r`, has acted on the session's own descriptors,
and on exactly the other one where it was meant for the other side; and every
other descriptor has the interest it had. -/
structure Isolated (r : Ready) (side : Side) (w w' : World) : Prop where
  own : ∀ c ∈ w'.callsSince w, ∀ d ∈ c.actsOn,
    d = w.session.clientFd ∨ d = w.session.originFd
  peer : ∀ c ∈ w'.callsSince w, c.forPeer r = true →
    c.actsOn = some (side.peer.fd w.session)
  others : ∀ d, d ≠ w.session.clientFd → d ≠ w.session.originFd →
    w'.selector.interest? d = w.selector.interest? d

/-- The callback has no use for the descriptor of the other side: nothing is
received, or the stream ends while bytes of it are still to be sent on; nothing
is sent, or nothing more is to be read. -/
def SparesPeer (r : Ready) (side : Side) (sys : Sys) (w : World) : Prop :=
  match r with
  | .read => sys.recv.upTo (side.inbox w.session).room = .failed ∨
      (Ends sys (side.inbox w.session) ∧ (side.inbox w.session).pending ≠ [])
  | .write => sys.send = .failed ∨ (side.outbox w.session).pending = [] ∨
      side.peer.reading w.session.copy = false
  | .block => True

/-- A callback for `r` of the descriptor `fd` has acted on `fd`, and on `target`
for the other side. -/
structure Touches (r : Ready) (fd : ℤ) (target : Option ℤ) (w w' : World) :
    Prop where
  own : ∀ c ∈ w'.callsSince w, c.forPeer r = false → ∀ d ∈ c.actsOn, d = fd
  peer : ∀ c ∈ w'.callsSince w, c.forPeer r = true →
    ∃ t, target = some t ∧ c.actsOn = some t
  used : target ≠ none → ∃ c ∈ w'.callsSince w, c.forPeer r = true
  others : ∀ d, d ≠ fd → target ≠ some d →
    w'.selector.interest? d = w.selector.interest? d

theorem World.callsSince_of_log {w w' : World} {calls : List Call}
    (h : w'.log = w.log ++ calls) : w'.callsSince w = calls := by
  rw [World.callsSince, h, List.drop_left]

theorem ChangesInterest.interest_of_ne {s s' : FdSelector} {fd d : ℤ}
    {change : FdInterest → Option FdInterest} {ret : SelectorStatus}
    (h : ChangesInterest s fd change ret s') (hne : d ≠ fd) :
    s'.interest? d = s.interest? d := by
  cases h with
  | refused => rfl
  | changed _ _ hs =>
      rw [hs]
      exact Function.update_of_ne hne _ _

theorem touches_own {r : Ready} {fd : ℤ} {w w' : World} (calls : List Call)
    (hlog : w'.log = w.log ++ calls)
    (hcalls : ∀ c ∈ calls, c.forPeer r = false ∧ ∀ d ∈ c.actsOn, d = fd)
    (hothers : ∀ d, d ≠ fd →
      w'.selector.interest? d = w.selector.interest? d) :
    Touches r fd none w w' := by
  have hsince := World.callsSince_of_log hlog
  refine ⟨?_, ?_, fun h => absurd rfl h, fun d hd _ => hothers d hd⟩
  · intro c hc _
    rw [hsince] at hc
    exact (hcalls c hc).2
  · intro c hc hpeer
    rw [hsince] at hc
    rw [(hcalls c hc).1] at hpeer
    cases hpeer

theorem touches_peer {r : Ready} {fd t : ℤ} {w w' : World} (calls : List Call)
    {c : Call} (hlog : w'.log = w.log ++ calls ++ [c])
    (hcalls : ∀ c ∈ calls, c.forPeer r = false ∧ ∀ d ∈ c.actsOn, d = fd)
    (hpeer : c.forPeer r = true) (ht : c.actsOn = some t)
    (hothers : ∀ d, d ≠ fd → d ≠ t →
      w'.selector.interest? d = w.selector.interest? d) :
    Touches r fd (some t) w w' := by
  have hsince : w'.callsSince w = calls ++ [c] :=
    World.callsSince_of_log (by rw [hlog, List.append_assoc])
  refine ⟨?_, ?_, fun _ => ⟨c, by simp [hsince], hpeer⟩, ?_⟩
  · intro c' hc' hnot
    rw [hsince, List.mem_append, List.mem_singleton] at hc'
    rcases hc' with hc' | rfl
    · exact (hcalls c' hc').2
    · rw [hpeer] at hnot
      cases hnot
  · intro c' hc' hpeer'
    rw [hsince, List.mem_append, List.mem_singleton] at hc'
    rcases hc' with hc' | rfl
    · rw [(hcalls c' hc').1] at hpeer'
      cases hpeer'
    · exact ⟨t, rfl, ht⟩
  · intro d hd hne
    exact hothers d hd fun heq => hne (congrArg some heq.symm)

theorem Ends.not_failed {sys : Sys} {b : Buffer} (h : Ends sys b) :
    sys.recv.upTo b.room ≠ .failed := by
  rcases h with h | h <;> simp [h]

theorem CopyReads.touches {sys : Sys} {side : Side} {fd : ℤ} {w w' : World}
    {ret : GlobalState} (h : CopyReads sys side fd w ret w') :
    (SparesPeer .read side sys w ∧ Touches .read fd none w w') ∨
      (¬ SparesPeer .read side sys w ∧
        Touches .read fd (some (uint8 (side.peer.fd w.session))) w w') := by
  cases h with
  | failed hfailed =>
      refine Or.inl ⟨Or.inl hfailed, touches_own [_] rfl ?_
        fun _ _ => rfl⟩
      simp [Side.recvCall, Call.forPeer, Call.actsOn]
  | @relays bs b sniffer status s s' hreceives hs hs' =>
      refine Or.inr ⟨?_, touches_peer [side.recvCall sys fd w.session,
        .reduceInterest fd .read] (c := .addInterest _ .write) ?_ ?_ rfl rfl ?_⟩
      · have hdata := hreceives.data_eq
        rintro (hfailed | ⟨hends, -⟩)
        · rw [hdata] at hfailed
          cases hfailed
        · cases hreceives with
          | data _ hne =>
              rcases hends with hends | hends <;> rw [hdata] at hends <;>
                cases hends
              exact hne rfl
      · simp [World.changed, Side.received_log]
      · simp [Side.recvCall, Call.forPeer, Call.actsOn]
      · intro d hd hne
        exact (hs'.interest_of_ne hne).trans (hs.interest_of_ne hd)
  | @holds s hends hpending hs =>
      refine Or.inl ⟨Or.inr ⟨hends, hpending⟩, touches_own
        [side.recvCall sys fd w.session, .reduceInterest fd .read]
        ?_ ?_ fun d hd => hs.interest_of_ne hd⟩
      · simp [Side.ended, World.setCopy, World.changed, World.record]
      · simp [Side.recvCall, Call.forPeer, Call.actsOn]
  | @closes s hends hpending hs _ =>
      refine Or.inr ⟨?_, touches_peer [side.recvCall sys fd w.session,
        .reduceInterest fd .read] (c := .shutdown _) ?_ ?_ rfl rfl
        fun d hd _ => hs.interest_of_ne hd⟩
      · rintro (hfailed | ⟨-, hne⟩)
        · exact hends.not_failed hfailed
        · exact hne hpending
      · simp [Side.ended, World.setCopy, World.changed, World.record]
      · simp [Side.recvCall, Call.forPeer, Call.actsOn]
  | @unclosed s hends hpending hs _ =>
      refine Or.inr ⟨?_, touches_peer [side.recvCall sys fd w.session,
        .reduceInterest fd .read] (c := .shutdown _) ?_ ?_ rfl rfl
        fun d hd _ => hs.interest_of_ne hd⟩
      · rintro (hfailed | ⟨-, hne⟩)
        · exact hends.not_failed hfailed
        · exact hne hpending
      · simp [Side.ended, World.setCopy, World.changed, World.record]
      · simp [Side.recvCall, Call.forPeer, Call.actsOn]

theorem Sends.not_spared {sys : Sys} {b b' : Buffer} {bs : List UInt8}
    (h : Sends sys b (some (bs, b'))) : ¬ (sys.send = .failed ∨ b.pending = []) := by
  rintro (hfailed | hempty)
  · exact h.accepted hfailed
  · cases h with
    | sent _ htake hne => exact hne (by rw [htake, hempty]; rfl)

theorem CopyWrites.touches {sys : Sys} {side : Side} {fd : ℤ} {w w' : World}
    {ret : GlobalState} (h : CopyWrites sys side fd w ret w') :
    (SparesPeer .write side sys w ∧ Touches .write fd none w w') ∨
      (¬ SparesPeer .write side sys w ∧
        Touches .write fd (some (uint8 (side.peer.fd w.session))) w w') := by
  have hused {bs : List UInt8} {b : Buffer}
      (hsends : Sends sys (side.outbox w.session) (some (bs, b)))
      (hreading : side.peer.reading w.session.copy = true) :
      ¬ SparesPeer .write side sys w := by
    rintro (hfailed | hempty | hnot)
    · exact hsends.not_spared (Or.inl hfailed)
    · exact hsends.not_spared (Or.inr hempty)
    · rw [hreading] at hnot
      cases hnot
  cases h with
  | failed hsends =>
      cases hsends with
      | failed hnothing =>
          refine Or.inl ⟨?_, touches_own [_] rfl ?_
            fun _ _ => rfl⟩
          · rcases hnothing with hfailed | hempty
            · exact Or.inl hfailed
            · exact Or.inr (Or.inl hempty)
          · simp [Call.forPeer, Call.actsOn]
  | @partly bs b sniffer status s hsends _ hreading hs =>
      refine Or.inr ⟨hused hsends hreading, touches_peer
        [.send .copy fd bs] (c := .addInterest _ .read) ?_ ?_ rfl rfl
        fun d _ hne => hs.interest_of_ne hne⟩
      · simp [World.changed, Side.sent_log]
      · simp [Call.forPeer, Call.actsOn]
  | @partlyLast bs b sniffer hsends _ hreading =>
      refine Or.inl ⟨Or.inr (Or.inr hreading), touches_own
        _ (side.sent_log fd w bs sniffer b) ?_ ?_⟩
      · simp [Call.forPeer, Call.actsOn]
      · intro d _
        rw [(side.sent_eq fd w bs sniffer b).2.1]
  | @wholly bs b sniffer status s s' hsends _ hreading hs hs' =>
      refine Or.inr ⟨hused hsends hreading, touches_peer
        [.send .copy fd bs, .reduceInterest fd .write]
        (c := .addInterest _ .read) ?_ ?_ rfl rfl ?_⟩
      · simp [World.changed, Side.sent_log]
      · simp [Call.forPeer, Call.actsOn]
      · intro d hd hne
        exact (hs'.interest_of_ne hne).trans (hs.interest_of_ne hd)
  | @closes bs b sniffer s _ _ hreading hs _ =>
      refine Or.inl ⟨Or.inr (Or.inr hreading), touches_own
        [.send .copy fd bs, .reduceInterest fd .write, .shutdown fd]
        ?_ ?_ fun d hd => hs.interest_of_ne hd⟩
      · simp [World.changed, World.setCopy, World.record, Side.sent_log]
      · simp [Call.forPeer, Call.actsOn]
  | @unclosed bs b sniffer s _ _ hreading hs _ =>
      refine Or.inl ⟨Or.inr (Or.inr hreading), touches_own
        [.send .copy fd bs, .reduceInterest fd .write, .shutdown fd]
        ?_ ?_ fun d hd => hs.interest_of_ne hd⟩
      · simp [World.changed, World.setCopy, World.record, Side.sent_log]
      · simp [Call.forPeer, Call.actsOn]

/-- What a callback touches says whether it is isolated. -/
theorem Touches.spares_iff {r : Ready} {side : Side} {w w' : World}
    {target : Option ℤ}
    (h : Touches r (side.fd w.session) target w w') :
    Isolated r side w w' ↔ ∀ t ∈ target, t = side.peer.fd w.session := by
  have hmine (s : Side) : s.fd w.session = w.session.clientFd ∨
      s.fd w.session = w.session.originFd := by
    cases s
    · exact Or.inl rfl
    · exact Or.inr rfl
  constructor
  · intro hisolated t ht
    obtain ⟨c, hc, hpeer⟩ := h.used (by rw [Option.mem_def.mp ht]; simp)
    obtain ⟨t', ht', hacts⟩ := h.peer c hc hpeer
    have hexact := hisolated.peer c hc hpeer
    rw [hacts] at hexact
    rw [Option.mem_def.mp ht] at ht'
    exact (Option.some.inj ht').trans (Option.some.inj hexact)
  · intro htarget
    refine ⟨fun c hc d hd => ?_, fun c hc hpeer => ?_, fun d hclient horigin => ?_⟩
    · cases hpeer : c.forPeer r with
      | false => rw [h.own c hc hpeer d hd]; exact hmine side
      | true =>
          obtain ⟨t, ht, hacts⟩ := h.peer c hc hpeer
          rw [hacts] at hd
          rw [← Option.some.inj hd, htarget t ht]
          exact hmine side.peer
    · obtain ⟨t, ht, hacts⟩ := h.peer c hc hpeer
      rw [hacts, htarget t ht]
    · refine h.others d ?_ ?_
      · rcases hmine side with heq | heq <;> rw [heq] <;> assumption
      · intro ht
        rcases hmine side.peer with heq | heq <;>
          exact absurd ((htarget d ht).trans heq) (by assumption)

/-- A callback of the relay is isolated exactly when the other descriptor fits
the `uint8_t`, or when it has no use for it. -/
theorem isolated_iff {r : Ready} {sys : Sys} {fd : ℤ} {side : Side}
    {f : Callback} {w w' : World} {ret : GlobalState}
    (hf : onReady sys fd .copy r = some f)
    (hside : w.session.side? fd = some side) (hreg : w.selector.Registered fd)
    (h : f w = .ok (ret, w')) :
    Isolated r side w w' ↔
      uint8 (side.peer.fd w.session) = side.peer.fd w.session ∨
        SparesPeer r side sys w := by
  have htouches : (SparesPeer r side sys w ∧ Touches r fd none w w') ∨
      (¬ SparesPeer r side sys w ∧
        Touches r fd (some (uint8 (side.peer.fd w.session))) w w') := by
    cases r <;> cases hf
    · exact (copyRead_spec hside hreg h).touches
    · exact (copyWrite_spec hside hreg h).touches
  obtain rfl := Session.side?_eq hside
  rcases htouches with ⟨hspares, htouches⟩ | ⟨hspares, htouches⟩
  · rw [htouches.spares_iff]
    exact iff_of_true (by simp) (Or.inr hspares)
  · rw [htouches.spares_iff]
    simp [hspares]

/-- A client that is connected through the descriptor `n`. -/
def clientThrough (n : ℕ) : List Act :=
  addressClient { socket := some n, connect := .inProgress } ++
    [.connectionEnds true, .dispatch .write n {} [],
      .dispatch .write 5 { send := .accepted 9 } []]

/-- The selector of a server in which another session has the descriptor 44,
and a session that has just been accepted there. -/
def acceptedBeside : Config :=
  match selectorRegister (acceptingSelector 44) 5 (some .socksv5Active) .read
      (some 2) true with
  | .ok (_, s) => newSession 2 5 s {}
  | .error _ => accepted 5

/-- A relay whose descriptors are small is isolated. -/
theorem isolated_of_small_descriptors :
    ∃ c ret w', play .alone (accepted 5) (clientThrough 6) = some c ∧
      copyRead { recv := .received [1] } 5 c.world = .ok (ret, w') ∧
      Isolated .read .client c.world w' := by
  have hplay : (play .alone (accepted 5) (clientThrough 6)).any (fun c =>
      decide (c.world.session.side? 5 = some .client ∧
          c.world.selector.Registered 5 ∧ c.world.session.originFd = 6) &&
        (copyRead { recv := .received [1] } 5 c.world).toOption.isSome) =
      true := by decide
  obtain ⟨c, hc, hchecks⟩ := (Option.any_eq_true _ _).mp hplay
  rw [Bool.and_eq_true, decide_eq_true_iff] at hchecks
  obtain ⟨⟨hside, hreg, horigin⟩, hsome⟩ := hchecks
  obtain ⟨⟨ret, w'⟩, hcall⟩ := Option.isSome_iff_exists.mp hsome
  have hread := toOption_eq_some.mp hcall
  refine ⟨c, ret, w', hc, hread,
    (isolated_iff (r := .read) rfl hside hreg hread).mpr (Or.inl ?_)⟩
  change uint8 c.world.session.originFd = c.world.session.originFd
  rw [horigin]
  decide

/-- What a client sends to a descriptor that does not fit wakes another
session. -/
theorem not_isolated_through_300 :
    ∃ c ret w', Reachable .alone c ∧ c.state = .copy ∧
      c.world.Hands .alone .read 5 ∧
      copyRead { recv := .received [1] } 5 c.world = .ok (ret, w') ∧
      c.world.selector.interest? 44 = some .read ∧
      w'.selector.interest? 44 = some .readWrite ∧
      ¬ Isolated .read .client c.world w' := by
  have hplay : (play .alone acceptedBeside (clientThrough 300)).any (fun c =>
      decide (c.state = .copy ∧ c.world.hands .alone .read 5 = true ∧
          c.world.session.clientFd = 5 ∧ c.world.session.originFd = 300 ∧
          c.world.selector.interest? 44 = some .read) &&
        (copyRead { recv := .received [1] } 5 c.world).toOption.any fun x =>
          decide (x.2.selector.interest? 44 = some .readWrite)) = true := by
    decide
  obtain ⟨c, hc, hchecks⟩ := (Option.any_eq_true _ _).mp hplay
  rw [Bool.and_eq_true, decide_eq_true_iff] at hchecks
  obtain ⟨⟨hcopy, hhands, hclient, horigin, hbefore⟩, hcalled⟩ := hchecks
  obtain ⟨⟨ret, w'⟩, hcall, hafter⟩ := (Option.any_eq_true _ _).mp hcalled
  have hinterest := of_decide_eq_true hafter
  have hinit : Initial acceptedBeside :=
    ⟨2, 5, acceptedBeside.world.selector, {}, rfl, by decide, by decide⟩
  refine ⟨c, ret, w', reachable_of_play hinit hc, hcopy,
    World.hands_spec hhands, toOption_eq_some.mp hcall, hbefore, hinterest, ?_⟩
  intro hisolated
  have hsame := hisolated.others 44 (by rw [hclient]; decide)
    (by rw [horigin]; decide)
  rw [hbefore, hinterest] at hsame
  cases hsame

end Socksv5
