import Socksv5.Session.Progress

/-!
# Wake-ups of the relay

In each direction of the relay there is a side that is read and a side that is
written to.  The interests of both mix the two directions, and each of them is
armed exactly when it should be, provided that the write event that entered
`COPY` was the client's.
-/

namespace Socksv5

open Support

/-- The direction towards a side is armed: the side is written to exactly when
something is there for it, and the other side is read when nothing is there and
it has not been read to its end. -/
structure Awake (w : World) (side : Side) : Prop where
  writes : w.selector.WritesTo (side.fd w.session) ↔
    (side.outbox w.session).pending ≠ []
  reads : side.peer.reading w.session.copy = true →
    (side.outbox w.session).pending = [] →
    w.selector.ReadsFrom (side.peer.fd w.session)

/-- The descriptors fit the `uint8_t` that the relay keeps one of them in. -/
def FitsUint8 (s : Session) : Prop := ∀ side : Side, uint8 (side.fd s) = side.fd s

/-- No write event finds nothing to send. -/
theorem Awake.unsent {w : World} {side : Side} (hw : Awake w side)
    (h : w.Hands .alone .write (side.fd w.session)) :
    (side.outbox w.session).pending ≠ [] := by
  obtain ⟨-, -, i, hi, hwrites⟩ := h
  exact hw.writes.mp ⟨i, hi, hwrites⟩

/-- No direction that is open waits for nothing. -/
theorem Awake.armed {w : World} {side : Side} (hw : Awake w side)
    (hopen : side.peer.reading w.session.copy = true) :
    w.selector.ReadsFrom (side.peer.fd w.session) ∨
      w.selector.WritesTo (side.fd w.session) := by
  by_cases hempty : (side.outbox w.session).pending = []
  · exact .inl (hw.reads hopen hempty)
  · exact .inr (hw.writes.mpr hempty)

/-! ## Interests -/

/-- A change of interest that keeps a flag of the interests. -/
theorem ChangesInterest.flag_iff {q : FdInterest → Bool} {s s' : FdSelector}
    {fd d : ℤ} {change : FdInterest → Option FdInterest} {ret : SelectorStatus}
    (h : ChangesInterest s fd change ret s')
    (hkeep : d = fd → ∀ i, q ((change i).getD i) = q i) :
    (∃ i, s'.interest? d = some i ∧ q i = true) ↔
      ∃ i, s.interest? d = some i ∧ q i = true := by
  cases h with
  | refused => exact Iff.rfl
  | changed i hi hs =>
      rw [hs]
      by_cases hfd : d = fd
      · subst hfd
        rw [Function.update_self, hi]
        simp [hkeep rfl]
      · rw [Function.update_of_ne hfd]

/-- A change of interest that succeeds, and clears a flag. -/
theorem ChangesInterest.flag_cleared {q : FdInterest → Bool}
    {s s' : FdSelector} {fd : ℤ} {change : FdInterest → Option FdInterest}
    (h : ChangesInterest s fd change .success s')
    (hclear : ∀ i, q ((change i).getD i) = false) :
    ¬ ∃ i, s'.interest? fd = some i ∧ q i = true := by
  obtain ⟨i, -, hs⟩ := h.interest_eq
  rw [hs, Function.update_self]
  simp [hclear]

theorem Side.eq_or_peer (side side' : Side) : side' = side ∨ side' = side.peer := by
  cases side <;> cases side' <;> simp [Side.peer]

theorem Seated.fd_ne {w : World} (hw : Seated w) (side : Side) :
    side.fd w.session ≠ side.peer.fd w.session := by
  cases side
  · exact Ne.symm hw.distinct
  · exact hw.distinct

/-! ## The callbacks -/

theorem CopyReads.awake {sys : Sys} {side : Side} {w w' : World}
    (h : CopyReads sys side (side.fd w.session) w .copy w')
    (hw : ∀ side, Awake w side) (hseated : Seated w)
    (hfits : FitsUint8 w.session) (side' : Side) : Awake w' side' := by
  have hne := hseated.fd_ne side
  generalize hret : GlobalState.copy = ret at h
  cases h with
  | failed | unclosed => cases hret
  | @relays bs b sniffer status s s' hreceives hs hs' =>
      rw [hfits side.peer] at hs'
      obtain rfl : status = .success := by
        by_contra hnot
        rw [afterInterest, if_neg hnot] at hret
        cases hret
      have hfilled : b.pending ≠ [] := by
        cases hreceives with
        | data _ hbs hpending =>
            rw [hpending]
            exact fun h => hbs (List.append_eq_nil_iff.mp h).2
      have hgained : s'.WritesTo (side.peer.fd w.session) :=
        hs'.gains fun i => by cases i <;> decide
      have hwrites : s'.WritesTo (side.fd w.session) ↔
          w.selector.WritesTo (side.fd w.session) :=
        (hs'.flag_iff fun heq => absurd heq hne).trans
          (hs.flag_iff fun _ i => by cases i <;> rfl)
      have hreads : s'.ReadsFrom (side.peer.fd w.session) ↔
          w.selector.ReadsFrom (side.peer.fd w.session) :=
        (hs'.flag_iff fun _ i => by cases i <;> rfl).trans
          (hs.flag_iff fun heq => absurd heq (Ne.symm hne))
      have hbefore := hw side
      rcases side.eq_or_peer side' with rfl | rfl
      · refine ⟨?_, fun hreading hempty => ?_⟩
        · cases side' <;> exact hwrites.trans hbefore.writes
        · cases side' <;> exact hreads.mpr (hbefore.reads hreading hempty)
      · have hafter : s'.WritesTo (side.peer.fd w.session) ↔ b.pending ≠ [] :=
          iff_of_true hgained hfilled
        refine ⟨?_, fun _ hempty => absurd ?_ hfilled⟩
        · cases side <;> exact hafter
        · cases side <;> exact hempty
  | @holds s hend hpending hs =>
      have hwrites (side' : Side) : s.WritesTo (side'.fd w.session) ↔
          w.selector.WritesTo (side'.fd w.session) :=
        hs.flag_iff fun _ i => by cases i <;> rfl
      refine ⟨(hwrites side').trans ?_, fun hreading => ?_⟩
      · exact (hw side').writes
      · cases side <;> cases side' <;> cases hreading
  | @closes s hend hpending hs =>
      have hwrites (side' : Side) : s.WritesTo (side'.fd w.session) ↔
          w.selector.WritesTo (side'.fd w.session) :=
        hs.flag_iff fun _ i => by cases i <;> rfl
      refine ⟨(hwrites side').trans ?_, fun hreading => ?_⟩
      · exact (hw side').writes
      · cases side <;> cases side' <;> cases hreading

/-- `SentTo side b w w'`: of the session, sending to the side has changed what
is left for it. -/
structure SentTo (side : Side) (b : Buffer) (w w' : World) : Prop where
  fd : ∀ side' : Side, side'.fd w'.session = side'.fd w.session
  outbox : side.outbox w'.session = b
  peer : side.peer.outbox w'.session = side.peer.outbox w.session
  reading : ∀ side' : Side,
    side'.reading w'.session.copy = side'.reading w.session.copy

/-- Sending to a side leaves the other direction as it is. -/
theorem SentTo.awake {side : Side} {w w' : World} {b : Buffer}
    (h : SentTo side b w w') (hw : Awake w side.peer)
    (hwrites : w'.selector.WritesTo (side.fd w.session) ↔ b.pending ≠ [])
    (hreads : side.peer.reading w.session.copy = true → b.pending = [] →
      w'.selector.ReadsFrom (side.peer.fd w.session))
    (hpeerWrites : w'.selector.WritesTo (side.peer.fd w.session) ↔
      w.selector.WritesTo (side.peer.fd w.session))
    (hsideReads : w'.selector.ReadsFrom (side.fd w.session) ↔
      w.selector.ReadsFrom (side.fd w.session)) (side' : Side) :
    Awake w' side' := by
  have hside : side.peer.peer = side := by cases side <;> rfl
  rcases side.eq_or_peer side' with rfl | rfl
  · refine ⟨?_, fun hreading hempty => ?_⟩
    · rw [h.fd, h.outbox]
      exact hwrites
    · rw [h.fd]
      exact hreads (h.reading _ ▸ hreading) (h.outbox ▸ hempty)
  · refine ⟨?_, fun hreading hempty => ?_⟩
    · rw [h.fd, h.peer]
      exact hpeerWrites.trans hw.writes
    · rw [h.reading] at hreading
      rw [h.peer] at hempty
      have hbefore := hw.reads hreading hempty
      rw [hside] at hbefore ⊢
      rw [h.fd]
      exact hsideReads.mpr hbefore

theorem CopyWrites.awake {sys : Sys} {side : Side} {w w' : World}
    (h : CopyWrites sys side (side.fd w.session) w .copy w')
    (hw : ∀ side, Awake w side)
    (hwriting : w.selector.WritesTo (side.fd w.session)) (hseated : Seated w)
    (hfits : FitsUint8 w.session) (side' : Side) : Awake w' side' := by
  have hne := hseated.fd_ne side
  generalize hret : GlobalState.copy = ret at h
  have hsuccess {status : SelectorStatus} {ret' : GlobalState}
      (hret : GlobalState.copy = afterInterest status ret') :
      status = .success := by
    by_contra hnot
    rw [afterInterest, if_neg hnot] at hret
    cases hret
  cases h with
  | failed | unclosed => cases hret
  | @partly bs b sniffer status s hsends hpending hreading hs =>
      rw [hfits side.peer] at hs
      have hwrites (side' : Side) : s.WritesTo (side'.fd w.session) ↔
          w.selector.WritesTo (side'.fd w.session) :=
        hs.flag_iff fun _ i => by cases i <;> rfl
      have hsent : SentTo side b w ((side.sent (side.fd w.session) w bs sniffer
          b).changed s (.addInterest (uint8 (side.peer.fd w.session)) .read)) := by
        cases side <;> exact ⟨fun side => by cases side <;> rfl, rfl, rfl,
          fun side => by cases side <;> rfl⟩
      refine hsent.awake (hw side.peer) ?_
        (fun _ hempty => absurd hempty hpending) (hwrites side.peer) ?_ side'
      · exact iff_of_true ((hwrites side).mpr hwriting) hpending
      · exact hs.flag_iff fun heq => absurd heq hne
  | @partlyLast bs b sniffer hsends hpending hreading =>
      have hsent : SentTo side b w
          (side.sent (side.fd w.session) w bs sniffer b) := by
        cases side <;> exact ⟨fun side => by cases side <;> rfl, rfl, rfl,
          fun side => by cases side <;> rfl⟩
      have hselector := (side.sent_eq (side.fd w.session) w bs sniffer b).2.1
      refine hsent.awake (hw side.peer) ?_
        (fun _ hempty => absurd hempty hpending) ?_ ?_ side'
      · rw [hselector]
        exact iff_of_true hwriting hpending
      · rw [hselector]
      · rw [hselector]
  | @wholly bs b sniffer status s s' hsends hpending hreading hs hs' =>
      rw [hfits side.peer] at hs'
      obtain rfl := hsuccess hret
      have hsent : SentTo side b w (((side.sent (side.fd w.session) w bs sniffer
          b).changed s (.reduceInterest (side.fd w.session) .write)).changed s'
          (.addInterest (uint8 (side.peer.fd w.session)) .read)) := by
        cases side <;> exact ⟨fun side => by cases side <;> rfl, rfl, rfl,
          fun side => by cases side <;> rfl⟩
      refine hsent.awake (hw side.peer) ?_ (fun _ _ => ?_) ?_ ?_ side'
      · refine iff_of_false ?_ fun hne => hne hpending
        have hcleared : ¬ s.WritesTo (side.fd w.session) :=
          hs.flag_cleared fun i => by cases i <;> rfl
        exact fun hafter => hcleared
          ((hs'.flag_iff fun heq => absurd heq hne).mp hafter)
      · exact hs'.gains fun i => by cases i <;> decide
      · exact (hs'.flag_iff fun _ i => by cases i <;> rfl).trans
          (hs.flag_iff fun heq => absurd heq (Ne.symm hne))
      · exact (hs'.flag_iff fun heq => absurd heq hne).trans
          (hs.flag_iff fun _ i => by cases i <;> rfl)
  | @closes bs b sniffer s hsends hpending hreading hs hshutdown =>
      have hsent : SentTo side b w ((((side.sent (side.fd w.session) w bs
          sniffer b).changed s (.reduceInterest (side.fd w.session)
          .write)).setCopy (side.stopWriting w.session.copy)).record
          (.shutdown (side.fd w.session))) := by
        cases side <;> exact ⟨fun side => by cases side <;> rfl, rfl, rfl,
          fun side => by cases side <;> rfl⟩
      refine hsent.awake (hw side.peer) ?_ (fun hopen _ => ?_) ?_ ?_ side'
      · refine iff_of_false ?_ fun hne => hne hpending
        exact hs.flag_cleared fun i => by cases i <;> rfl
      · rw [hreading] at hopen
        cases hopen
      · exact hs.flag_iff fun heq => absurd heq (Ne.symm hne)
      · exact hs.flag_iff fun _ i => by cases i <;> rfl

/-! ## The relay, once it is armed -/

/-- The session relays and both directions are armed, or it has ended. -/
def Wakeful (s : GlobalState) (w : World) : Prop :=
  s = .done ∨ s = .error ∨
    s = .copy ∧ FitsUint8 w.session ∧ ∀ side, Awake w side

theorem Awake.of_same {w w' : World} {side : Side} (hw : Awake w side)
    (hsession : w'.session.clientFd = w.session.clientFd ∧
      w'.session.originFd = w.session.originFd ∧
      w'.session.readBuffer = w.session.readBuffer ∧
      w'.session.writeBuffer = w.session.writeBuffer ∧
      w'.session.copy = w.session.copy)
    (hinterest : ∀ side : Side, w'.selector.interest? (side.fd w.session) =
      w.selector.interest? (side.fd w.session)) : Awake w' side := by
  obtain ⟨hclient, horigin, hread, hwrite, hcopy⟩ := hsession
  have hfd (side : Side) : side.fd w'.session = side.fd w.session := by
    cases side
    · exact hclient
    · exact horigin
  have hbox : side.outbox w'.session = side.outbox w.session := by
    cases side
    · exact hread
    · exact hwrite
  refine ⟨?_, fun hreading hempty => ?_⟩
  · rw [FdSelector.WritesTo, hfd, hinterest, hbox]
    exact hw.writes
  · rw [FdSelector.ReadsFrom, hfd, hinterest]
    exact hw.reads (hcopy ▸ hreading) (hbox ▸ hempty)

theorem Quiet.fitsUint8 {w w' : World} (h : Quiet w w')
    (hw : FitsUint8 w.session) : FitsUint8 w'.session := by
  intro side
  cases side
  · rw [Side.fd, h.clientFd]
    exact hw .client
  · rw [Side.fd, h.originFd]
    exact hw .origin

theorem wakeful_inductive : Inductive .alone Basics AnyEvent
    fun _ s w => Wakeful s w where
  started := by
    intro w _ h
    simp [Wakeful] at h
  startedCondition := fun _ _ _ => trivial
  dispatched := by
    intro vs s r fd sys w f ret w₁ via w₂ hK hw _ _ hlive hhands _ hf h hout
    obtain ⟨rfl, hfits, hawake⟩ : s = .copy ∧ FitsUint8 w.session ∧
        ∀ side, Awake w side := by
      rcases hw with rfl | rfl | hw
      · exact absurd (.inl rfl) (onReady_live hf)
      · exact absurd (.inr rfl) (onReady_live hf)
      · exact hw
    have hseated := hK.2 hlive
    have hr : r ≠ .block := by
      rintro rfl
      cases hf
    rw [World.delivered_eq hr] at h
    have hfollows := onReady_follows hf hhands.2.1 h
    have hfits₁ := (onReady_quiet hf hr h).fitsUint8 hfits
    obtain ⟨side, hside⟩ := hhands.1.exists_side
    obtain rfl := Session.side?_eq hside
    cases hout with
    | stays =>
        refine .inr (.inr ⟨rfl, hfits₁, ?_⟩)
        cases r with
        | block => exact absurd rfl hr
        | read =>
            cases hf
            exact (copyRead_spec hside hhands.2.1 h).awake hawake hseated hfits
        | write =>
            cases hf
            exact (copyWrite_spec hside hhands.2.1 h).awake hawake hhands.2.2
              hseated hfits
    | enters hne _ hdone herror =>
        exact ((hfollows.resolve_left hne).of_copy.elim hdone herror).elim
    | connects hne =>
        have hto := (hfollows.resolve_left (Ne.symm hne)).of_copy
        rcases hto with hto | hto <;> cases hto
    | redirected hne =>
        have hto := (hfollows.resolve_left (Ne.symm hne)).of_copy
        rcases hto with hto | hto <;> cases hto
    | ends hend =>
        rcases hend with rfl | rfl
        · exact .inl rfl
        · exact .inr (.inl rfl)
  connectionEnds := fun _ _ hw _ _ =>
    hw.imp_right (Or.imp_right fun ⟨hs, hfits, hawake⟩ =>
      ⟨hs, hfits, fun side => (hawake side).of_same ⟨rfl, rfl, rfl, rfl, rfl⟩
        fun _ => rfl⟩)
  resolved := fun addrs alloc _ hw _ _ =>
    hw.imp_right (Or.imp_right fun ⟨hs, hfits, hawake⟩ =>
      ⟨hs, hfits, fun side => (hawake side).of_same ⟨rfl, rfl, rfl, rfl, rfl⟩
        fun side => congrFun (FdSelector.interest?_notified _ _ _) _⟩)
  others := by
    intro vs s w sel m _ hw _ hsame
    refine hw.imp_right (Or.imp_right fun ⟨hs, hfits, hawake⟩ =>
      ⟨hs, hfits, fun side =>
        (hawake side).of_same ⟨rfl, rfl, rfl, rfl, rfl⟩ fun side => ?_⟩)
    by_cases hpos : 0 ≤ side.fd w.session
    · have howns : w.session.Owns (side.fd w.session) := by
        cases side
        · exact ⟨hpos, .inl rfl⟩
        · exact ⟨hpos, .inr rfl⟩
      exact ((hsame _ howns).2 rfl).1
    · have hinvalid : invalidFd (side.fd w.session) = true := by
        rw [invalidFd, decide_eq_true (Int.not_le.mp hpos), Bool.true_or]
      change sel.interest? _ = _
      rw [FdSelector.interest?_of_invalid hinvalid,
        FdSelector.interest?_of_invalid hinvalid]

/-! ## Entering the relay -/

/-- While the session replies, the client is written to. -/
def RepliesToClient (s : GlobalState) (w : World) : Prop :=
  s = .requestWrite → w.selector.WritesTo w.session.clientFd

theorem repliesToClient_of_ne {s : GlobalState} (w : World)
    (hs : s ≠ .requestWrite) : RepliesToClient s w :=
  fun h => absurd h hs

theorem writesTo_of_changes {s s' : FdSelector} {fd : ℤ}
    (h : ChangesInterest s fd (fun _ => some .write) .success s') :
    s'.WritesTo fd :=
  h.gains fun _ => rfl

theorem Resolves.repliesToClient {sys : Sys} {fd : ℤ} {k : ℕ}
    {addrs : List SockAddr} {w w' : World} {ret : GlobalState}
    (h : Resolves sys fd k addrs w ret w') : RepliesToClient ret w' := by
  induction h with
  | exhausted h =>
      cases h with
      | failed => exact repliesToClient_of_ne _ (by decide)
      | answers hs => exact fun _ => writesTo_of_changes hs
  | settles => exact repliesToClient_of_ne _ (by decide)
  | breaks => exact repliesToClient_of_ne _ (by decide)
  | goesOn _ _ ih => exact ih

theorem Attempted.repliesToClient {a : Attempt} {realloc : Bool}
    {w w' : World} {ret : GlobalState}
    (h : Attempted a realloc w.session.clientFd w ret w')
    (hreg : w.selector.Registered w.session.clientFd) :
    RepliesToClient ret w' := by
  cases h with
  | noSocket _ hs =>
      obtain rfl := hs.success_of_registered hreg
      exact fun _ => writesTo_of_changes hs
  | noNio _ _ hs =>
      obtain rfl := hs.success_of_registered hreg
      exact fun _ => writesTo_of_changes hs
  | refused _ _ _ _ hs =>
      obtain rfl := hs.success_of_registered hreg
      exact fun _ => writesTo_of_changes hs
  | connected => exact repliesToClient_of_ne _ (by decide)
  | inProgress =>
      refine repliesToClient_of_ne _ ?_
      unfold afterInterest
      split <;> decide

/-- A callback that returns `REQUEST_WRITE` has the client written to. -/
theorem onReady_repliesToClient {sys : Sys} {fd : ℤ} {s ret : GlobalState}
    {r : Ready} {f : Callback} {vs : List GlobalState} {w w' : World}
    (hw : RepliesToClient s w) (hgate : Gate vs s w)
    (hhands : w.Hands .alone r fd) (hf : onReady sys fd s r = some f)
    (h : f (w.delivered r fd) = .ok (ret, w')) : RepliesToClient ret w' := by
  rintro rfl
  have hreg : (w.delivered r fd).selector.Registered fd := by
    cases r <;> exact hhands.2.1
  have hfollows := onReady_follows hf hreg h
  cases s <;> cases r <;> cases hf
  case requestRead.read =>
      obtain rfl := hhands.1.eq_clientFd hgate.understood.1
      cases requestRead_spec h with
      | decides _ _ hto hset =>
          rcases hto with ⟨-, hto, -⟩ | ⟨-, -, rfl⟩
          · cases hto
          · exact writesTo_of_changes hset
  case requestWrite.write =>
      cases requestWrite_spec h with
      | partly => exact hw rfl
  case originConnect.write =>
      cases verifyConnection_spec h with
      | answers _ _ _ hset => exact writesTo_of_changes hset
  case originConnect.block =>
      exact (connectOriginBlock_spec h).repliesToClient rfl
  all_goals exact absurd hfollows (by decide)

theorem repliesToClient_inductive : Inductive .alone Basics AnyEvent
    fun _ s w => w.destroyed = false → RepliesToClient s w where
  started := fun w _ _ _ => repliesToClient_of_ne _ (by decide)
  startedCondition := fun _ _ _ => trivial
  dispatched := by
    intro vs s r fd sys w f ret w₁ via w₂ hK hw _ _ hlive hhands hkernel hf h hout
      hlive'
    have hreplies := onReady_repliesToClient (hw hlive) hK.1 hhands hf h
    obtain ⟨hseated, hclient⟩ := onReady_seated (hK.2 hlive) hkernel hf h
    cases hout with
    | stays => exact hreplies
    | enters =>
        intro hret
        obtain ⟨hselector, hclient⟩ := arrived_selector ret w₁
        rw [hselector, hclient]
        exact hreplies hret
    | connects =>
        intro hret
        cases hret
    | redirected hs hinit =>
        have hreg : (w.delivered r fd).selector.Registered fd := by
          cases r <;> exact hhands.2.1
        obtain rfl :=
          ((onReady_follows hf hreg h).resolve_left (Ne.symm hs)).eq_requestRead
        cases r <;> cases hf
        rw [hhands.1.eq_clientFd hK.1.understood.1, ← hclient] at hinit
        cases connectOriginInit_spec hinit with
        | already => exact repliesToClient_of_ne _ (by decide)
        | noThread => exact repliesToClient_of_ne _ (by decide)
        | name => exact repliesToClient_of_ne _ (by decide)
        | address _ _ h => exact h.repliesToClient hseated.client
    | ends _ hdone =>
        rw [socksv5Done_destroyed hdone] at hlive'
        cases hlive'
  connectionEnds := fun _ _ hw _ _ => hw
  resolved := by
    intro vs s w fd addrs alloc _ hw _ _ hlive hs
    have hwrites := hw hlive hs
    change (selectorNotifyBlock w.selector fd alloc).2.WritesTo _
    rw [FdSelector.WritesTo, FdSelector.interest?_notified]
    exact hwrites
  others := by
    intro vs s w sel m hK hw _ hsame hlive hs
    have howns : w.session.Owns w.session.clientFd :=
      ⟨(hK.2 hlive).nonneg, .inl rfl⟩
    have hwrites := hw hlive hs
    change sel.WritesTo _
    rw [FdSelector.WritesTo, ((hsame _ howns).2 rfl).1]
    exact hwrites

/-- The reply that enters `COPY` arms both directions when the write event was
the client's. -/
theorem RequestWrites.awake {sys : Sys} {w w' : World}
    (h : RequestWrites sys w.session.clientFd w .copy w')
    (hne : w.session.originFd ≠ w.session.clientFd)
    (hempty : ∀ side : Side, (side.outbox w'.session).pending = [])
    (side : Side) : Awake (copyInit w') side := by
  cases h with
  | @grants bs wb wb' s s' _ _ _ _ hs hs' =>
      have hreads (side : Side) : s'.ReadsFrom (side.fd w.session) := by
        cases side
        · exact (hs'.flag_iff fun heq => absurd heq (Ne.symm hne)).mpr
            (hs.gains fun _ => rfl)
        · exact hs'.gains fun _ => rfl
      have hidle (side : Side) : ¬ s'.WritesTo (side.fd w.session) := by
        cases side
        · intro hwrites
          have hcleared : ¬ s.WritesTo w.session.clientFd :=
            hs.flag_cleared fun _ => rfl
          exact hcleared
            ((hs'.flag_iff fun heq => absurd heq (Ne.symm hne)).mp hwrites)
        · exact hs'.flag_cleared fun _ => rfl
      refine ⟨iff_of_false ?_ fun hne => hne ?_, fun _ _ => ?_⟩
      · cases side
        · exact hidle .client
        · exact hidle .origin
      · cases side
        · exact hempty .client
        · exact hempty .origin
      · cases side
        · exact hreads .origin
        · exact hreads .client

/-- When it was not, the client is still written to. -/
theorem RequestWrites.writesTo {sys : Sys} {fd : ℤ} {w w' : World}
    (h : RequestWrites sys fd w .copy w') (hfd : w.session.clientFd ≠ fd)
    (hne : w.session.originFd ≠ w.session.clientFd)
    (hw : w.selector.WritesTo w.session.clientFd) :
    (copyInit w').selector.WritesTo (copyInit w').session.clientFd := by
  cases h with
  | grants _ _ _ _ hs hs' =>
      exact (hs'.flag_iff fun heq => absurd heq (Ne.symm hne)).mpr
        ((hs.flag_iff fun heq => absurd heq hfd).mpr hw)

/-- Both directions are armed, so that no write event finds nothing to send and
no direction that is open waits for nothing. -/
def Wakes (w : World) : Prop :=
  ∀ side : Side, Awake w side ∧
    (w.Hands .alone .write (side.fd w.session) →
      (side.outbox w.session).pending ≠ []) ∧
    (side.peer.reading w.session.copy = true →
      w.selector.ReadsFrom (side.peer.fd w.session) ∨
        w.selector.WritesTo (side.fd w.session))

theorem wakes_of_awake {w : World} (h : ∀ side, Awake w side) : Wakes w :=
  fun side => ⟨h side, (h side).unsent, (h side).armed⟩

theorem Config.started_eq {c : Config} (h : c.state ≠ .greetingRead) :
    c.started = c := by
  cases hc : c.stm.current with
  | none => exact absurd (by rw [Config.state, hc]) h
  | some i => exact Config.started_of_some hc

/-- `COPY` is entered by a write event in `REQUEST_WRITE`. -/
theorem Step.enters_copy {c c₁ : Config} {e : Event} {vs : List GlobalState}
    (h : Step .alone c e c₁) (hvs : c.Visited vs) (hbefore : c.state ≠ .copy)
    (hcopy : c₁.state = .copy) :
    ∃ fd sys w, e = .dispatch .write fd sys ∧ c.state = .requestWrite ∧
      c.world.destroyed = false ∧ c.world.session.Owns fd ∧
      RequestWrites sys fd c.world .copy w ∧ c₁.world = copyInit w := by
  cases h with
  | connectionEnds => exact absurd hcopy hbefore
  | resolved => exact absurd hcopy hbefore
  | others => exact absurd hcopy hbefore
  | @dispatch _ r fd sys hlive hhands hkernel hdispatch =>
      obtain ⟨f, ret, w, via, hf, hcall, hout, hstate⟩ :=
        hvs.dispatched hdispatch
      rw [hcopy] at hstate
      have hreg : (c.started.world.delivered r fd).selector.Registered fd := by
        have hstarted := (c.started_hands hhands).2.1
        cases r <;> exact hstarted
      have hfollows := onReady_follows hf hreg hcall
      generalize hs : c.state = s at *
      generalize hw : c₁.world = w₁ at hout
      cases hout with
      | stays => exact absurd hstate.symm hbefore
      | enters hne =>
          obtain rfl : ret = .copy := hstate.symm
          obtain rfl := (hfollows.resolve_left hne).eq_requestWrite
          cases r <;> cases hf
          rw [Config.started_eq (by rw [hs]; decide)] at hcall
          exact ⟨fd, sys, w, rfl, rfl, hlive, hhands.1,
            requestWrite_spec hcall, rfl⟩
      | connects => cases hstate
      | redirected _ _ hto => rcases hto with rfl | rfl <;> cases hstate
      | ends hend => rcases hend with rfl | rfl <;> cases hstate

/-- A session that enters `COPY` with nothing to relay, and with descriptors
that fit, is armed from there on exactly when the write event was the
client's. -/
theorem wakes_iff_client {c c₁ : Config} {e : Event}
    (hc : Reachable .alone c) (h : Step .alone c e c₁)
    (hbefore : c.state ≠ .copy) (hcopy : c₁.state = .copy)
    (hempty : ∀ side : Side, (side.outbox c₁.world.session).pending = [])
    (hfits : FitsUint8 c₁.world.session) :
    (∀ tr c', Run (Step .alone) c₁ tr c' → c'.state = .copy →
      Wakes c'.world) ↔
    ∃ sys, e = .dispatch .write c.world.session.clientFd sys := by
  obtain ⟨c₀, tr₀, h₀, hrun₀⟩ := hc
  obtain ⟨vs, hvs, hbasics, hreplies⟩ :=
    ((basics_inductive .alone).and repliesToClient_inductive).run hrun₀
      (fun _ _ => trivial) h₀.stm_eq
      ⟨h₀.basics, fun _ => repliesToClient_of_ne _ (by decide)⟩
  have hafter := (basics_inductive .alone).step h trivial ⟨vs, hvs, hbasics⟩
  obtain ⟨fd, sys, w, rfl, hstate, hlive, howns, hspec, hw⟩ :=
    h.enters_copy hvs hbefore hcopy
  have hdistinct := (hbasics.2 hlive).distinct
  constructor
  · intro hwakes
    by_cases hfd : fd = c.world.session.clientFd
    · exact ⟨sys, by rw [hfd]⟩
    · exfalso
      have hwriting := hspec.writesTo (Ne.symm hfd) hdistinct
        (hreplies hlive hstate)
      rw [← hw] at hwriting
      exact ((hwakes [] c₁ .nil hcopy .client).1.writes.mp hwriting)
        (hempty .client)
  · rintro ⟨sys', heq⟩
    obtain rfl : fd = c.world.session.clientFd := by
      cases heq
      rfl
    have hwakeful : ∃ vs, c₁.Visited vs ∧ Basics vs c₁.state c₁.world ∧
        Wakeful c₁.state c₁.world := by
      obtain ⟨vs₁, hvs₁, hbasics₁⟩ := hafter
      refine ⟨vs₁, hvs₁, hbasics₁, .inr (.inr ⟨hcopy, hfits, fun side => ?_⟩)⟩
      rw [hw] at hempty ⊢
      refine hspec.awake hdistinct (fun side => ?_) side
      cases side
      · exact hempty .client
      · exact hempty .origin
    intro tr c' hrun hcopy'
    obtain ⟨-, -, -, hc'⟩ := hrun.invariant
      (I := fun c => ∃ vs, c.Visited vs ∧ Basics vs c.state c.world ∧
        Wakeful c.state c.world) hwakeful
      fun _ _ _ hI hstep => ((basics_inductive .alone).and
        wakeful_inductive).step hstep trivial hI
    rcases hc' with hend | hend | ⟨-, -, hawake⟩
    · rw [hcopy'] at hend
      cases hend
    · rw [hcopy'] at hend
      cases hend
    · exact wakes_of_awake hawake

/-- The write event that tells a client that it is connected. -/
def lastReply (fd : ℤ) : Act := .dispatch .write fd { send := .accepted 9 } []

/-- The session relays, with nothing to relay yet. -/
def Config.entersCopy (c : Config) (clientFd originFd : ℤ) : Bool :=
  decide (c.state = .copy ∧ c.world.session.readBuffer.pending = [] ∧
    c.world.session.writeBuffer.pending = [] ∧
    c.world.session.clientFd = clientFd ∧ c.world.session.originFd = originFd)

theorem Config.entersCopy_spec {c : Config} {clientFd originFd : ℤ}
    (h : c.entersCopy clientFd originFd = true)
    (hclient : uint8 clientFd = clientFd) (horigin : uint8 originFd = originFd) :
    c.state = .copy ∧
      (∀ side : Side, (side.outbox c.world.session).pending = []) ∧
      FitsUint8 c.world.session := by
  obtain ⟨hcopy, hread, hwrite, hfd, hfd'⟩ := of_decide_eq_true h
  refine ⟨hcopy, fun side => ?_, fun side => ?_⟩
  · cases side
    · exact hread
    · exact hwrite
  · cases side
    · rw [Side.fd, hfd]
      exact hclient
    · rw [Side.fd, hfd']
      exact horigin

/-- A client that is connected is armed when it has been told so. -/
theorem wakes_connectedClient :
    ∃ c c₁, play .alone (accepted 5) ((connectedClient []).take 5) = some c ∧
      (lastReply 5).perform .alone c = some c₁ ∧ c₁.state = .copy ∧
      Wakes c₁.world := by
  have hplay : (play .alone (accepted 5) ((connectedClient []).take 5)).any
      (fun c => decide (c.state ≠ .copy ∧ c.world.session.clientFd = 5) &&
        ((lastReply 5).perform .alone c).any fun c₁ => c₁.entersCopy 5 6) =
      true := by decide
  obtain ⟨c, hc, hchecks⟩ := (Option.any_eq_true _ _).mp hplay
  rw [Bool.and_eq_true, decide_eq_true_iff] at hchecks
  obtain ⟨⟨hbefore, hclient⟩, hlast⟩ := hchecks
  obtain ⟨c₁, hc₁, hafter⟩ := (Option.any_eq_true _ _).mp hlast
  obtain ⟨hcopy, hempty, hfits⟩ :=
    Config.entersCopy_spec hafter (by decide) (by decide)
  have hevent : ∃ sys, (lastReply 5).event =
      .dispatch .write c.world.session.clientFd sys := by
    rw [hclient]
    exact ⟨_, rfl⟩
  refine ⟨c, c₁, hc, hc₁, hcopy, ?_⟩
  exact (wakes_iff_client
    (reachable_of_play (accepted_initial (by decide) (by decide)) hc)
    (Act.perform_step hc₁) hbefore hcopy hempty hfits).mpr hevent [] c₁ .nil hcopy

/-- A client whose first address fails at once, and whose second is connected
when it is written to. -/
def fallbackClient : List Act :=
  [.dispatch .read 5 { recv := .received [5, 1, 0] } [],
    .dispatch .write 5 { send := .accepted 1 } [],
    .dispatch .read 5 { recv := .received [5, 1, 0, 3, 1, 97, 0, 80] } [],
    .resolved 5 [⟨.inet, 80, [10, 0, 0, 1]⟩, ⟨.inet, 80, [10, 0, 0, 2]⟩],
    .dispatch .block 5 {} [{ socket := some 6, connect := .failed },
      { socket := some 7, connect := .inProgress }],
    .connectionEnds true,
    .dispatch .write 5 {} []]

/-- When the origin is written to before the reply has been sent, the reply goes
to the origin, and the client is written to with nothing to send. -/
theorem not_wakes_of_fallbackClient :
    ∃ c c₁ sys, Reachable .alone c ∧
      Step .alone c (.dispatch .write 7 sys) c₁ ∧ c.state ≠ .copy ∧
      c₁.state = .copy ∧
      (∀ side : Side, (side.outbox c₁.world.session).pending = []) ∧
      FitsUint8 c₁.world.session ∧
      c₁.world.Hands .alone .write c₁.world.session.clientFd ∧
      ¬ Wakes c₁.world := by
  have hplay : (play .alone (accepted 5) fallbackClient).any (fun c =>
      decide (c.state ≠ .copy) && ((lastReply 7).perform .alone c).any fun c₁ =>
        c₁.entersCopy 5 7 && c₁.world.hands .alone .write
          c₁.world.session.clientFd) = true := by decide
  obtain ⟨c, hc, hchecks⟩ := (Option.any_eq_true _ _).mp hplay
  rw [Bool.and_eq_true, decide_eq_true_iff] at hchecks
  obtain ⟨hbefore, hlast⟩ := hchecks
  obtain ⟨c₁, hc₁, hafter⟩ := (Option.any_eq_true _ _).mp hlast
  rw [Bool.and_eq_true] at hafter
  obtain ⟨hcopy, hempty, hfits⟩ :=
    Config.entersCopy_spec hafter.1 (by decide) (by decide)
  have hhands := World.hands_spec hafter.2
  exact ⟨c, c₁, _,
    reachable_of_play (accepted_initial (by decide) (by decide)) hc,
    Act.perform_step hc₁, hbefore, hcopy, hempty, hfits, hhands,
    fun hwakes => (hwakes .client).2.1 hhands (hempty .client)⟩

end Socksv5
