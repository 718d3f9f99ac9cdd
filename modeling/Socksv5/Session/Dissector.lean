import Socksv5.Pop3Chunks
import Socksv5.Session.Relay
import Socksv5.Session.Run
import Socksv5.Support.Monitor

/-!
# The dissector and the session

With the dissectors enabled, a session is the session without them and a
monitor: the sniffer, which is fed what the relay receives from the origin and
sends to it.
-/

namespace Socksv5

open Support

/-! ## Callbacks that the sniffer is nothing to -/

/-- `Mirrors p x y`: `y` is what `x` is, with the sniffer `p`. -/
def Mirrors {α : Type} (p : Pop3Sniffer) (x y : Except Fault (α × World)) :
    Prop :=
  y = x.map fun r => (r.1, r.2.setSniffer p)

namespace Mirrors

variable {α β γ : Type} {p : Pop3Sniffer} {x y : Except Fault (α × World)}
  {w : World}

theorem ok (a : α) (w : World) : Mirrors p (.ok (a, w)) (.ok (a, w.setSniffer p)) :=
  rfl

theorem error (e : Fault) : Mirrors p (.error e : Except Fault (α × World))
    (.error e) :=
  rfl

theorem bind {f g : α × World → Except Fault (β × World)} (h : Mirrors p x y)
    (hfg : ∀ a w, Mirrors p (f (a, w)) (g (a, w.setSniffer p))) :
    Mirrors p (x >>= f) (y >>= g) := by
  rw [Mirrors] at h
  subst h
  rcases x with e | ⟨a, w⟩
  · rfl
  · exact hfg a w

/-- What does not depend on the world. -/
theorem bind_same (z : Except Fault γ) {f g : γ → Except Fault (β × World)}
    (hfg : ∀ c, Mirrors p (f c) (g c)) : Mirrors p (z >>= f) (z >>= g) := by
  rcases z with e | c
  · rfl
  · exact hfg c

theorem ite {c : Prop} [Decidable c] {x' y' : Except Fault (α × World)}
    (h : Mirrors p x y) (h' : Mirrors p x' y') :
    Mirrors p (if c then x else x') (if c then y else y') := by
  by_cases hc : c
  · rwa [if_pos hc, if_pos hc]
  · rwa [if_neg hc, if_neg hc]

theorem recvInto (w : World) (s : GlobalState) (sys : Sys) (fd : ℤ) (b : Buffer) :
    Mirrors p (w.recvInto s sys fd b) ((w.setSniffer p).recvInto s sys fd b) := by
  unfold World.recvInto
  dsimp only
  cases sys.recv.upTo b.room with
  | connReset | failed => exact ok _ _
  | received bs =>
      cases bs with
      | nil => exact ok _ _
      | cons c cs => exact bind_same _ fun _ => ok _ _

theorem sendFrom (w : World) (s : GlobalState) (sys : Sys) (fd : ℤ) (b : Buffer) :
    Mirrors p (w.sendFrom s sys fd b) ((w.setSniffer p).sendFrom s sys fd b) := by
  unfold World.sendFrom
  cases sys.send with
  | failed => exact ok _ _
  | accepted k =>
      cases b.pending with
      | nil => exact ok _ _
      | cons c cs => exact bind_same _ fun _ => ok _ _

theorem setInterest (w : World) (fd : ℤ) (i : FdInterest) :
    Mirrors p (w.setInterest fd i) ((w.setSniffer p).setInterest fd i) :=
  bind_same _ fun _ => ok _ _

theorem setInterestKey (w : World) (fd : ℤ) (i : FdInterest) :
    Mirrors p (w.setInterestKey fd i) ((w.setSniffer p).setInterestKey fd i) :=
  bind_same _ fun _ => ok _ _

theorem addInterest (w : World) (fd : ℤ) (i : FdInterest) :
    Mirrors p (w.addInterest fd i) ((w.setSniffer p).addInterest fd i) :=
  bind_same _ fun _ => ok _ _

theorem reduceInterest (w : World) (fd : ℤ) (i : FdInterest) :
    Mirrors p (w.reduceInterest fd i) ((w.setSniffer p).reduceInterest fd i) :=
  bind_same _ fun _ => ok _ _

end Mirrors

/-- A callback that neither looks at the sniffer nor changes it. -/
def Oblivious {α : Type} (f : World → Except Fault (α × World)) : Prop :=
  ∀ p w, Mirrors p (f w) (f (w.setSniffer p))

section Callbacks

variable (sys : Sys) (fd : ℤ)

theorem greetingRead_oblivious : Oblivious (greetingRead sys fd) := by
  intro p w
  refine .bind (.recvInto ..) fun received w => ?_
  cases received with
  | eof | reset | failed => exact .ok _ _
  | data bs rb =>
      refine .bind_same _ fun ⟨rb, parser, a⟩ => .ite ?_ (.ok _ _)
      refine .bind_same _ fun method => ?_
      refine .bind (.setInterestKey ..) fun ret w => .ite (.ok _ _) ?_
      refine .bind_same _ fun filled => ?_
      cases filled with
      | none => exact .ok _ _
      | some wb => exact .ok _ _

theorem greetingWrite_oblivious : Oblivious (greetingWrite sys fd) := by
  intro p w
  refine .bind (.sendFrom ..) fun sent w => ?_
  cases sent with
  | none => exact .ok _ _
  | some sent =>
      refine .ite (.ok _ _) ?_
      refine .bind (.setInterestKey ..) fun ret w => ?_
      exact .ite (.ok _ _) (.ite (.ok _ _) (.ite (.ok _ _) (.ok _ _)))

theorem authenticate_setSniffer (p : Pop3Sniffer) (w : World) :
    authenticate sys (w.setSniffer p) =
      (authenticate sys w).map fun w => w.setSniffer p := by
  have hauth : (w.setSniffer p).session.auth = w.session.auth := rfl
  unfold authenticate
  rw [hauth]
  by_cases hdone : w.session.auth.parser.state = .done
  · simp only [if_pos hdone]
    cases w.session.auth.parser.user with
    | none => rfl
    | some user =>
        cases w.session.auth.parser.password with
        | none => rfl
        | some password =>
            dsimp only
            split <;> rfl
  · simp only [if_neg hdone]
    rfl

theorem authRead_oblivious : Oblivious (authRead sys fd) := by
  intro p w
  refine .bind (.recvInto ..) fun received w => ?_
  cases received with
  | eof | reset | failed => exact .ok _ _
  | data bs rb =>
      refine .bind_same _ fun ⟨rb, parser, a⟩ => .ite ?_ (.ok _ _)
      have hauth := authenticate_setSniffer sys p { w with
        session := { w.session with
          readBuffer := rb
          auth := { w.session.auth with parser := parser } } }
      change Mirrors p _ (authenticate sys (World.setSniffer { w with
        session := { w.session with
          readBuffer := rb
          auth := { w.session.auth with parser := parser } } } p) >>= _)
      rw [hauth]
      rcases authenticate sys _ with e | w
      · exact .error e
      · refine .bind (.setInterestKey ..) fun ret w => .ite (.ok _ _) ?_
        exact .bind_same _ fun wb => .ok _ _

theorem authWrite_oblivious : Oblivious (authWrite sys fd) := by
  intro p w
  refine .bind (.sendFrom ..) fun sent w => ?_
  cases sent with
  | none => exact .ok _ _
  | some sent =>
      refine .ite (.ok _ _) ?_
      refine .bind (.setInterestKey ..) fun ret w => ?_
      exact .ite (.ok _ _) (.ite (.ok _ _) (.ok _ _))

theorem requestRead_oblivious : Oblivious (requestRead sys fd) := by
  intro p w
  refine .bind (.recvInto ..) fun received w => ?_
  cases received with
  | eof | reset | failed => exact .ok _ _
  | data bs rb =>
      refine .bind_same _ fun ⟨rb, parser, a⟩ => .ite ?_ (.ite ?_ (.ok _ _))
      · exact .bind (.setInterestKey ..) fun ret w => .ite (.ok _ _) (.ok _ _)
      · exact .bind (.setInterestKey ..) fun ret w => .ite (.ok _ _) (.ok _ _)

theorem requestWrite_oblivious : Oblivious (requestWrite sys fd) := by
  intro p w
  refine .bind_same _ fun wb => .bind (.sendFrom ..) fun sent w => ?_
  cases sent with
  | none => exact .ok _ _
  | some sent =>
      refine .ite (.ok _ _) (.ite ?_ (.ok _ _))
      refine .bind (.setInterestKey ..) fun ret w => .ite (.ok _ _) ?_
      exact .bind (.setInterest ..) fun ret w => .ite (.ok _ _) (.ok _ _)

theorem connectFailed_oblivious : Oblivious (connectFailed fd) := fun _ _ =>
  .bind (.setInterestKey ..) fun _ _ => .ite (.ok _ _) (.ok _ _)

theorem fillOriginAddr_setSniffer (wasFqdn : Bool) (p : Pop3Sniffer) (w : World) :
    fillOriginAddr wasFqdn (w.setSniffer p) =
      (fillOriginAddr wasFqdn w).map fun w => w.setSniffer p := by
  unfold fillOriginAddr
  by_cases hfqdn : wasFqdn = true
  · rw [if_pos hfqdn, if_pos hfqdn]
    rfl
  · rw [if_neg hfqdn, if_neg hfqdn]
    change (readAddr w.session.request.parser.addr
      w.session.request.parser.addrLen >>= _) = Except.map _ (_ >>= _)
    cases readAddr w.session.request.parser.addr
      w.session.request.parser.addrLen with
    | error e => rfl
    | ok addr =>
        rw [ok_bind, ok_bind]
        have hatyp_eq : (w.setSniffer p).session.request.parser.atyp =
          w.session.request.parser.atyp := rfl
        by_cases hatyp : w.session.request.parser.atyp = 1
        · rw [if_pos (hatyp_eq.trans hatyp), if_pos hatyp]
          rfl
        · rw [if_neg (hatyp_eq ▸ hatyp), if_neg hatyp]
          rfl

theorem connectThroughIp_oblivious (a : Attempt) (realloc wasFqdn : Bool) :
    Oblivious (connectThroughIp a realloc fd wasFqdn) := by
  intro p w
  unfold connectThroughIp
  refine .ite (connectFailed_oblivious fd p _)
    (.ite (connectFailed_oblivious fd p _) ?_)
  change Mirrors p (fillOriginAddr wasFqdn { w with
    session := { w.session with originFd := socketFd a.socket }
    conn := .none
    log := w.log ++ [.socket a.socket] } >>= _)
    (fillOriginAddr wasFqdn (World.setSniffer { w with
      session := { w.session with originFd := socketFd a.socket }
      conn := .none
      log := w.log ++ [.socket a.socket] } p) >>= _)
  rw [fillOriginAddr_setSniffer]
  rcases fillOriginAddr wasFqdn _ with e | w
  · exact .error e
  · cases a.connect with
    | connected => exact .ok _ _
    | inProgress => exact .bind_same _ fun _ => .ite (.ok _ _) (.ok _ _)
    | failed => exact connectFailed_oblivious fd p _

theorem connectOriginInit_oblivious : Oblivious (connectOriginInit sys fd) := by
  intro p w
  refine .ite (.ite (connectThroughIp_oblivious _ _ _ _ p w) ?_) (.ok _ _)
  refine .ite (.ok _ _) (.ite (.ok _ _) ?_)
  by_cases hcreate : sys.pthreadCreate = 0
  · simp only [if_pos hcreate]
    exact .bind (.setInterestKey ..) fun _ _ => .ok _ _
  · simp only [if_neg hcreate]
    exact .bind (.setInterestKey ..) fun _ _ => .ok _ _

theorem useAddress_setSniffer (addr : SockAddr) (p : Pop3Sniffer) (w : World) :
    useAddress addr (w.setSniffer p) = (useAddress addr w).setSniffer p := by
  unfold useAddress
  cases addr.family <;> rfl

theorem resolutionFailed_oblivious : Oblivious resolutionFailed := fun _ _ =>
  .bind (.setInterest ..) fun _ _ => .ite (.ok _ _) (.ok _ _)

theorem connectOriginLoop_oblivious (k : ℕ) (addrs : List SockAddr) :
    Oblivious (connectOriginLoop sys fd k addrs) := by
  induction addrs generalizing k with
  | nil => exact fun p w => resolutionFailed_oblivious p (freeResolution w)
  | cons addr rest ih =>
      intro p w
      rw [connectOriginLoop, connectOriginLoop, useAddress_setSniffer]
      exact .bind (connectThroughIp_oblivious _ _ _ _ p _) fun ret w =>
        .ite (.ok _ _) (.ite (.ok _ _) (ih (k + 1) p w))

theorem connectOriginBlock_oblivious : Oblivious (connectOriginBlock sys fd) := by
  intro p w
  have hresolution : (w.setSniffer p).session.originResolution =
      w.session.originResolution := rfl
  unfold connectOriginBlock
  rw [hresolution]
  cases w.session.originResolution with
  | nil => exact resolutionFailed_oblivious p w
  | cons addr rest => exact connectOriginLoop_oblivious sys fd 0 _ p w

theorem verifyConnection_oblivious : Oblivious (verifyConnection sys fd) := by
  intro p w
  unfold verifyConnection
  cases sys.soError with
  | none => exact .ok _ _
  | some error =>
      by_cases herror : error = 0
      · simp only [ne_eq, herror, not_true_eq_false, if_false]
        refine .bind (.setInterestKey ..) fun ret w => .ite (.ok _ _) ?_
        exact .bind (.setInterest ..) fun ret w => .ite (.ok _ _) (.ok _ _)
      · simp only [ne_eq, herror, not_false_eq_true, if_true]
        refine .bind (.setInterestKey ..) fun ret w => .ite (.ok _ _) ?_
        exact .bind (.setInterest ..) fun ret w => .ite (.ok _ _) (.ok _ _)

theorem closeDescriptor_setSniffer (p : Pop3Sniffer) (w : World) :
    closeDescriptor (w.setSniffer p) fd =
      (closeDescriptor w fd).map fun w => w.setSniffer p := by
  unfold closeDescriptor
  by_cases hfd : fd ≠ -1
  · rw [if_pos hfd, if_pos hfd]
    change (selectorUnregisterFd w.selector fd >>= _) = Except.map _ (_ >>= _)
    rcases selectorUnregisterFd w.selector fd with e | ⟨ret, s⟩
    · rfl
    · simp only [ok_bind]
      split <;> rfl
  · rw [if_neg hfd, if_neg hfd]
    rfl

theorem socksv5Done_setSniffer (p : Pop3Sniffer) (w : World) :
    socksv5Done (w.setSniffer p) =
      (socksv5Done w).map fun w => w.setSniffer p := by
  unfold socksv5Done
  dsimp only
  change (closeDescriptor (w.setSniffer p) w.session.clientFd >>= _) = _
  rw [closeDescriptor_setSniffer]
  rcases closeDescriptor w w.session.clientFd with e | w₁
  · rfl
  · change (closeDescriptor (w₁.setSniffer p) w.session.originFd >>= _) =
      Except.map _ (closeDescriptor w₁ w.session.originFd >>= _)
    rw [closeDescriptor_setSniffer]
    rcases closeDescriptor w₁ w.session.originFd with e | w₂ <;> rfl

end Callbacks

/-! ## The engine -/

theorem Oblivious.numbered {f : Callback} (hf : Oblivious f) :
    Oblivious f.numbered :=
  fun p w => .bind (hf p w) fun _ _ => .ok _ _

section Engine

variable (sys : Sys) (fd : ℤ)

theorem onArrival_oblivious {s : GlobalState} {f : Callback}
    (hf : onArrival sys fd s = some f) : Oblivious f := by
  cases s <;> cases hf
  case originConnect => exact connectOriginInit_oblivious sys fd
  all_goals exact fun p w => .ok _ _

theorem arrive_oblivious (i : ℕ) : Oblivious (arrive (sessionTable sys fd) i) := by
  intro p w
  simp only [arrive, sessionTable, globalStatesDefinition]
  cases GlobalState.ofId i with
  | none => exact .ok _ _
  | some s =>
      cases hf : onArrival sys fd s with
      | none =>
          simp only [hf, Option.map_none]
          exact .ok _ _
      | some f =>
          simp only [hf, Option.map_some]
          exact (onArrival_oblivious sys fd hf).numbered p w

theorem departCurrent_eq_ok (m : Machine) (w : World) :
    departCurrent (sessionTable sys fd) m w = .ok w := by
  unfold departCurrent depart
  cases m.current with
  | none => rfl
  | some i =>
      simp only [sessionTable, globalStatesDefinition]
      cases GlobalState.ofId i <;> rfl

theorem jump_oblivious (fuel next : ℕ) (m : Machine) :
    Oblivious (jump (sessionTable sys fd) fuel next m) := by
  induction fuel generalizing next m with
  | zero => exact fun p w => .error _
  | succ fuel ih =>
      intro p w
      rw [jump, jump, departCurrent_eq_ok, departCurrent_eq_ok]
      refine .ite (.error _) (.ite (.ok _ _) ?_)
      exact .bind (arrive_oblivious sys fd next p w) fun ret w =>
        .ite (ih _ _ p w) (.ok _ _)

/-- What a dispatch does once a callback has returned. -/
def landing (m : Machine) (ret : GlobalState) (w : World) :
    Except Fault (Machine × World) := do
  let (m, w) ← jump (sessionTable sys fd) arrivalFuel ret.id m w
  if ret.id = GlobalState.error.id ∨ ret.id = GlobalState.done.id then do
    let w ← socksv5Done w
    .ok (m, w)
  else .ok (m, w)

theorem landing_oblivious (m : Machine) (ret : GlobalState) :
    Oblivious (landing sys fd m ret) := by
  intro p w
  refine .bind (jump_oblivious sys fd _ _ _ p w) fun m w => .ite ?_ (.ok _ _)
  rw [socksv5Done_setSniffer]
  rcases socksv5Done w with e | w
  · exact .error e
  · exact .ok _ _

end Engine

/-- The configuration, with the sniffer in another state. -/
def Config.setSniffer (c : Config) (p : Pop3Sniffer) : Config :=
  ⟨c.stm, c.world.setSniffer p⟩

/-- A machine and its world, as a configuration. -/
def Config.ofPair (x : Machine × World) : Config := ⟨x.1, x.2⟩

theorem dispatch_eq_landing {r : Ready} {fd : ℤ} {sys : Sys} {s : GlobalState}
    {c : Config} (hc : c.stm.current = some s.id) :
    dispatch r fd sys c =
      match onReady sys fd s r with
      | none => .error .abort
      | some f => (f c.world >>= fun x =>
          landing sys fd c.stm x.1 x.2).map Config.ofPair := by
  unfold dispatch stmHandler handleFirst
  simp only [hc, sessionTable_states, ok_bind, ne_eq, not_true_eq_false, if_false]
  cases onReady sys fd s r with
  | none => rfl
  | some f =>
      simp only [Option.map_some, Callback.numbered, landing]
      rcases f c.world with e | ⟨ret, w⟩
      · rfl
      · simp only [ok_bind]
        rcases jump (sessionTable sys fd) arrivalFuel ret.id c.stm w with
          e | ⟨m, w⟩
        · rfl
        · simp only [ok_bind]
          split
          · rcases socksv5Done w with e | w <;> rfl
          · rfl

/-! ## What is sniffed -/

/-- The results of a callback, with the dissectors disabled. -/
def Sys.undissected (sys : Sys) : Sys :=
  { sys with parameters := { sys.parameters with disectorsEnabled := false } }

@[simp] theorem Sys.undissected_recv (sys : Sys) :
    sys.undissected.recv = sys.recv := rfl

@[simp] theorem Sys.undissected_send (sys : Sys) :
    sys.undissected.send = sys.send := rfl

@[simp] theorem World.setSniffer_readBuffer (w : World) (p : Pop3Sniffer) :
    (w.setSniffer p).session.readBuffer = w.session.readBuffer := rfl

@[simp] theorem World.setSniffer_writeBuffer (w : World) (p : Pop3Sniffer) :
    (w.setSniffer p).session.writeBuffer = w.session.writeBuffer := rfl

/-- What `copy_read` and `copy_write` pass to `sniff_pop3`, with the results of
its allocations. -/
def World.observed (w : World) (s : GlobalState) (r : Ready) (fd : ℤ) (sys : Sys) :
    List (List UInt8 × Allocs) :=
  if s = .copy ∧ w.session.side? fd = some .origin ∧
      sys.parameters.disectorsEnabled = true then
    match r with
    | .read =>
        match sys.recv.upTo w.session.readBuffer.room with
        | .received (b :: bs) => [(b :: bs, sys.allocs)]
        | _ => []
    | .write =>
        match sys.send, w.session.writeBuffer.pending with
        | .accepted k, c :: cs => [((c :: cs).take (k + 1), sys.allocs)]
        | _, _ => []
    | .block => []
  else []

/-- `Feeds chunks w x f`: `x` is what `f` gives for the world `w` once the
chunks have been sniffed, and a fault if that is one. -/
structure Feeds {α : Type} (chunks : List (List UInt8 × Allocs)) (w : World)
    (x : Except Fault α) (f : World → Except Fault α) : Prop where
  sniffed : ∀ p, sniffChunks w.session.pop3sniffer chunks = .ok p →
    x = f (w.setSniffer p)
  faults : ∀ e, sniffChunks w.session.pop3sniffer chunks = .error e →
    ∃ e', x = .error e'

namespace Feeds

variable {α β : Type} {chunks : List (List UInt8 × Allocs)} {w : World}
  {x : Except Fault α} {f : World → Except Fault α}

theorem bind (h : Feeds chunks w x f) (k : α → Except Fault β) :
    Feeds chunks w (x >>= k) fun w => f w >>= k where
  sniffed := fun p hp => by rw [h.sniffed p hp]
  faults := by
    intro e he
    obtain ⟨e', rfl⟩ := h.faults e he
    exact ⟨e', rfl⟩

theorem map (h : Feeds chunks w x f) (k : α → β) :
    Feeds chunks w (x.map k) fun w => (f w).map k where
  sniffed := fun p hp => by rw [h.sniffed p hp]
  faults := by
    intro e he
    obtain ⟨e', rfl⟩ := h.faults e he
    exact ⟨e', rfl⟩

/-- Nothing is sniffed. -/
theorem nothing (h : x = f w) : Feeds [] w x f where
  sniffed := by
    intro p hp
    cases hp
    exact h
  faults := by
    intro e he
    cases he

theorem nothing_of_ne {fd : ℤ} {s : GlobalState} {r : Ready} {sys : Sys}
    (hnot : ¬ (s = .copy ∧ w.session.side? fd = some .origin ∧
      sys.parameters.disectorsEnabled = true)) (h : x = f w) :
    Feeds (w.observed s r fd sys) w x f := by
  have hnil : w.observed s r fd sys = [] := if_neg hnot
  rw [hnil]
  exact .nothing h

/-- The computation fails before anything is sniffed. -/
theorem of_error {e : Fault} (h : x = .error e)
    (hf : ∀ p, f (w.setSniffer p) = .error e) : Feeds chunks w x f where
  sniffed := fun p _ => h.trans (hf p).symm
  faults := fun _ _ => ⟨e, h⟩

/-- A chunk is sniffed on the way. -/
theorem of_sniff {bs : List UInt8} {a : Allocs}
    (h : x = sniffPop3 w.session.pop3sniffer bs a >>= fun p =>
      f (w.setSniffer p)) : Feeds [(bs, a)] w x f := by
  have hchunks : sniffChunks w.session.pop3sniffer [(bs, a)] =
      sniffPop3 w.session.pop3sniffer bs a := by
    rw [sniffChunks, List.foldlM_cons]
    cases sniffPop3 w.session.pop3sniffer bs a <;> rfl
  constructor
  · intro p hp
    rw [hchunks] at hp
    rw [h, hp, ok_bind]
  · intro e he
    rw [hchunks] at he
    rw [h, he]
    exact ⟨e, rfl⟩

end Feeds

theorem sniff_eq_ok {sys : Sys} {side : Side}
    (hnot : ¬ (side = .origin ∧ sys.parameters.disectorsEnabled = true))
    (bs : List UInt8) (w : World) : sniff sys side bs w = .ok w :=
  if_neg hnot

theorem sniff_eq_pop3 {sys : Sys}
    (henabled : sys.parameters.disectorsEnabled = true) (bs : List UInt8)
    (w : World) : sniff sys .origin bs w =
      sniffPop3 w.session.pop3sniffer bs sys.allocs >>= fun p =>
        .ok (w.setSniffer p) :=
  if_pos ⟨rfl, henabled⟩

theorem sniff_undissected (sys : Sys) (side : Side) (bs : List UInt8) (w : World) :
    sniff sys.undissected side bs w = .ok w :=
  sniff_eq_ok (fun h => Bool.false_ne_true h.2) bs w

theorem copyRead_feeds (sys : Sys) (fd : ℤ) (w : World) :
    Feeds (w.observed .copy .read fd sys) w (copyRead sys fd w)
      (copyRead sys.undissected fd) := by
  by_cases hnot : w.session.side? fd = some .origin ∧
      sys.parameters.disectorsEnabled = true
  · obtain ⟨hside, henabled⟩ := hnot
    have hside' (p : Pop3Sniffer) :
        (w.setSniffer p).session.side? fd = some .origin := hside
    rw [World.observed.eq_def, if_pos ⟨rfl, hside, henabled⟩]
    cases hrecv : sys.recv.upTo w.session.readBuffer.room with
    | connReset | failed =>
        refine .nothing ?_
        simp only [copyRead, hside, World.recvInto, Side.inbox, hrecv,
          Sys.undissected_recv]
        rfl
    | received bs =>
        cases bs with
        | nil =>
            refine .nothing ?_
            simp only [copyRead, hside, World.recvInto, Side.inbox, hrecv,
              Sys.undissected_recv]
            rfl
        | cons b bs =>
            cases hput : w.session.readBuffer.put (b :: bs) with
            | error e =>
                refine .of_error (e := e) ?_ fun p => ?_
                · simp only [copyRead, hside, World.recvInto, Side.inbox, hrecv,
                    hput]
                  rfl
                · simp only [copyRead, hside', World.recvInto, Side.inbox, hrecv,
                    hput, Sys.undissected_recv, World.setSniffer_readBuffer]
                  rfl
            | ok rb =>
                refine .of_sniff ?_
                simp only [copyRead, hside, hside', World.recvInto, Side.inbox,
                  hrecv, hput, Sys.undissected_recv, World.setSniffer_readBuffer,
                  World.record, sniff_eq_pop3 henabled, sniff_undissected, ok_bind]
                cases sniffPop3 w.session.pop3sniffer (b :: bs) sys.allocs <;> rfl
  · refine .nothing_of_ne (fun h => hnot h.2) ?_
    unfold copyRead
    cases hside : w.session.side? fd with
    | none => rfl
    | some side =>
        have hnone : ¬ (side = .origin ∧
            sys.parameters.disectorsEnabled = true) := by
          rintro ⟨rfl, henabled⟩
          exact hnot ⟨hside, henabled⟩
        simp only [sniff_eq_ok hnone, sniff_undissected]
        rfl

theorem copyWrite_feeds (sys : Sys) (fd : ℤ) (w : World) :
    Feeds (w.observed .copy .write fd sys) w (copyWrite sys fd w)
      (copyWrite sys.undissected fd) := by
  by_cases hnot : w.session.side? fd = some .origin ∧
      sys.parameters.disectorsEnabled = true
  · obtain ⟨hside, henabled⟩ := hnot
    have hside' (p : Pop3Sniffer) :
        (w.setSniffer p).session.side? fd = some .origin := hside
    rw [World.observed.eq_def, if_pos ⟨rfl, hside, henabled⟩]
    cases hsend : sys.send with
    | failed =>
        refine .nothing ?_
        simp only [copyWrite, hside, World.sendFrom, hsend, Sys.undissected_send]
        rfl
    | accepted k =>
        cases hpending : w.session.writeBuffer.pending with
        | nil =>
            refine .nothing ?_
            simp only [copyWrite, hside, World.sendFrom, Side.outbox, Side.peer,
              Side.inbox, hsend, hpending, Sys.undissected_send]
            rfl
        | cons c cs =>
            cases hadv : w.session.writeBuffer.readAdv
                ((c :: cs).take (k + 1)).length with
            | error e =>
                refine .of_error (e := e) ?_ fun p => ?_
                · simp only [copyWrite, hside, World.sendFrom, Side.outbox,
                    Side.peer, Side.inbox, hsend, hpending, hadv]
                  rfl
                · simp only [copyWrite, hside', World.sendFrom, Side.outbox,
                    Side.peer, Side.inbox, hsend, hpending, hadv,
                    Sys.undissected_send, World.setSniffer_writeBuffer]
                  rfl
            | ok wb =>
                refine .of_sniff ?_
                simp only [copyWrite, hside, hside', World.sendFrom, Side.outbox,
                  Side.peer, Side.inbox, hsend, hpending, hadv,
                  Sys.undissected_send, World.setSniffer_writeBuffer, World.record,
                  sniff_eq_pop3 henabled, sniff_undissected, ok_bind]
                cases sniffPop3 w.session.pop3sniffer ((c :: cs).take (k + 1))
                  sys.allocs <;> rfl
  · refine .nothing_of_ne (fun h => hnot h.2) ?_
    unfold copyWrite
    cases hside : w.session.side? fd with
    | none => rfl
    | some side =>
        have hnone : ¬ (side = .origin ∧
            sys.parameters.disectorsEnabled = true) := by
          rintro ⟨rfl, henabled⟩
          exact hnot ⟨hside, henabled⟩
        simp only [sniff_eq_ok hnone, sniff_undissected]
        rfl

/-! ## Without the dissectors -/

section Undissected

variable (sys : Sys) (fd : ℤ)

theorem copyReadEnd_oblivious (side : Side) (fdTarget : ℤ) :
    Oblivious (copyReadEnd sys side fd fdTarget) := by
  intro p w
  refine .bind (.reduceInterest ..) fun ret w => .ite (.ok _ _) ?_
  cases side with
  | client => exact .ite (.ok _ _) (.ite (.ok _ _) (.ok _ _))
  | origin => exact .ite (.ok _ _) (.ite (.ok _ _) (.ok _ _))

theorem copyRead_oblivious : Oblivious (copyRead sys.undissected fd) := by
  intro p w
  have hside_eq : (w.setSniffer p).session.side? fd = w.session.side? fd := rfl
  unfold copyRead
  rw [hside_eq]
  cases w.session.side? fd with
  | none => exact .error _
  | some side =>
      have hinbox : side.inbox (w.setSniffer p).session = side.inbox w.session := by
        cases side <;> rfl
      have hpeer : side.peer.fd (w.setSniffer p).session =
          side.peer.fd w.session := by
        cases side <;> rfl
      simp only [hinbox, hpeer]
      refine .bind (.recvInto ..) fun received w => ?_
      cases received with
      | eof | reset => exact copyReadEnd_oblivious sys.undissected fd side _ p w
      | failed => exact .ok _ _
      | data bs b =>
          simp only [sniff_undissected, ok_bind]
          have hset (m : Metrics) :
              side.setInbox { w.setSniffer p with metrics := m } b =
                (side.setInbox { w with metrics := m } b).setSniffer p := by
            cases side <;> rfl
          rw [hset]
          refine .bind (.reduceInterest ..) fun ret w => .ite (.ok _ _) ?_
          exact .bind (.addInterest ..) fun ret w => .ite (.ok _ _) (.ok _ _)

theorem copyWriteDrained_oblivious (side : Side) :
    Oblivious (copyWriteDrained sys side fd) := by
  intro p w
  have houtbox : side.outbox (w.setSniffer p).session = side.outbox w.session := by
    cases side <;> rfl
  unfold copyWriteDrained
  rw [houtbox]
  refine .ite (.ok _ _) (.bind (.reduceInterest ..) fun ret w => ?_)
  exact .ite (.ok _ _) (.ite (.ok _ _) (.ok _ _))

theorem copyWrite_oblivious : Oblivious (copyWrite sys.undissected fd) := by
  intro p w
  have hside_eq : (w.setSniffer p).session.side? fd = w.session.side? fd := rfl
  unfold copyWrite
  rw [hside_eq]
  cases w.session.side? fd with
  | none => exact .error _
  | some side =>
      have houtbox : side.outbox (w.setSniffer p).session =
          side.outbox w.session := by
        cases side <;> rfl
      have hpeer : side.peer.fd (w.setSniffer p).session =
          side.peer.fd w.session := by
        cases side <;> rfl
      simp only [houtbox, hpeer]
      refine .bind (.sendFrom ..) fun sent w => ?_
      cases sent with
      | none => exact .ok _ _
      | some sent =>
          simp only [sniff_undissected, ok_bind]
          have hset : side.setOutbox (w.setSniffer p) sent.2 =
              (side.setOutbox w sent.2).setSniffer p := by
            cases side <;> rfl
          rw [hset]
          refine .bind (copyWriteDrained_oblivious sys.undissected fd side p _)
            fun ok w => .ite (.ok _ _) (.ite ?_ (.ok _ _))
          exact .bind (.addInterest ..) fun ret w => .ite (.ok _ _) (.ok _ _)

theorem onReady_oblivious {s : GlobalState} {r : Ready} {f : Callback}
    (hf : onReady sys.undissected fd s r = some f) : Oblivious f := by
  cases s <;> cases r <;> cases hf
  case greetingRead.read => exact greetingRead_oblivious _ fd
  case greetingWrite.write => exact greetingWrite_oblivious _ fd
  case authRead.read => exact authRead_oblivious _ fd
  case authWrite.write => exact authWrite_oblivious _ fd
  case requestRead.read => exact requestRead_oblivious _ fd
  case requestWrite.write => exact requestWrite_oblivious _ fd
  case originConnect.write => exact verifyConnection_oblivious _ fd
  case originConnect.block => exact connectOriginBlock_oblivious _ fd
  case copy.read => exact copyRead_oblivious sys fd
  case copy.write => exact copyWrite_oblivious sys fd

theorem connectOriginBlock_undissected :
    connectOriginBlock sys.undissected fd = connectOriginBlock sys fd := by
  have hloop (k : ℕ) (addrs : List SockAddr) (w : World) :
      connectOriginLoop sys.undissected fd k addrs w =
        connectOriginLoop sys fd k addrs w := by
    induction addrs generalizing k w with
    | nil => rfl
    | cons addr rest ih =>
        rw [connectOriginLoop, connectOriginLoop]
        simp only [ih]
        rfl
  funext w
  unfold connectOriginBlock
  simp only [hloop]

/-- The callbacks of the other states do not call `sniff_pop3`. -/
theorem onReady_undissected {s : GlobalState} (hs : s ≠ .copy) (r : Ready) :
    onReady sys.undissected fd s r = onReady sys fd s r := by
  cases s <;> cases r
  case originConnect.block =>
      exact congrArg some (connectOriginBlock_undissected sys fd)
  all_goals first | rfl | exact absurd rfl hs

theorem landing_undissected (m : Machine) (ret : GlobalState) (w : World) :
    landing sys.undissected fd m ret w = landing sys fd m ret w := by
  have harrive (i : ℕ) : arrive (sessionTable sys.undissected fd) i =
      arrive (sessionTable sys fd) i := by
    funext w
    simp only [arrive, sessionTable, globalStatesDefinition]
    cases GlobalState.ofId i with
    | none => rfl
    | some s => cases s <;> rfl
  have hstate (i : ℕ) : ((sessionTable sys.undissected fd).states i).state =
      ((sessionTable sys fd).states i).state := by
    simp only [sessionTable, globalStatesDefinition]
    cases GlobalState.ofId i <;> rfl
  have hjump (fuel next : ℕ) (m : Machine) (w : World) :
      jump (sessionTable sys.undissected fd) fuel next m w =
        jump (sessionTable sys fd) fuel next m w := by
    induction fuel generalizing next m w with
    | zero => rfl
    | succ fuel ih =>
        rw [jump, jump, departCurrent_eq_ok, departCurrent_eq_ok, harrive, hstate]
        simp only [ih]
        rfl
  rw [landing, landing, hjump]

end Undissected

/-! ## A dispatch -/

section Dispatch

variable {r : Ready} {fd : ℤ} {c : Config}

/-- Without the dissectors, a dispatch has nothing to do with the sniffer. -/
theorem dispatch_undissected_setSniffer (sys : Sys) (p : Pop3Sniffer) (c : Config) :
    dispatch r fd sys.undissected (c.setSniffer p) =
      (dispatch r fd sys.undissected c).map fun c => c.setSniffer p := by
  have hknown (c : Config) (s : GlobalState) (hc : c.stm.current = some s.id) :
      dispatch r fd sys.undissected (c.setSniffer p) =
        (dispatch r fd sys.undissected c).map fun c => c.setSniffer p := by
    have hc' : (c.setSniffer p).stm.current = some s.id := hc
    rw [dispatch_eq_landing hc, dispatch_eq_landing hc']
    cases hf : onReady sys.undissected fd s r with
    | none => rfl
    | some f =>
        have hmirrors : Mirrors p
            (f c.world >>= fun x =>
              landing sys.undissected fd c.stm x.1 x.2)
            (f (c.world.setSniffer p) >>= fun x =>
              landing sys.undissected fd c.stm x.1 x.2) :=
          .bind (onReady_oblivious sys fd hf p c.world) fun ret w =>
            landing_oblivious _ fd c.stm ret p w
        rw [Mirrors] at hmirrors
        dsimp only
        change Except.map _ (f (c.world.setSniffer p) >>= fun x =>
          landing sys.undissected fd c.stm x.1 x.2) = _
        rw [hmirrors]
        rcases f c.world >>= _ with e | x <;> rfl
  cases hc : c.stm.current with
  | none =>
      rw [dispatch_of_unstarted _ hc,
        dispatch_of_unstarted (c := c.setSniffer p) _ hc]
      exact hknown c.start .greetingRead rfl
  | some i =>
      cases hi : GlobalState.ofId i with
      | none =>
          rw [dispatch_of_unknown _ hc hi,
            dispatch_of_unknown (c := c.setSniffer p) _ hc hi]
          rfl
      | some s => exact hknown c s (by rw [hc, GlobalState.eq_id_of_ofId hi])

/-- A dispatch sniffs what is observed of it, before it does anything else that
could fail in another way without the dissectors. -/
theorem dispatch_feeds (sys : Sys) (c : Config) :
    Feeds (c.world.observed c.state r fd sys) c.world (dispatch r fd sys c)
      fun w => dispatch r fd sys.undissected ⟨c.stm, w⟩ := by
  cases hc : c.stm.current with
  | none =>
      have hstate : c.state = .greetingRead := by rw [Config.state, hc]
      rw [hstate]
      refine .nothing_of_ne (fun h => absurd h.1 (by decide)) ?_
      have hstart : c.start.stm.current = some GlobalState.greetingRead.id := rfl
      rw [dispatch_of_unstarted _ hc, dispatch_of_unstarted _ hc,
        dispatch_eq_landing hstart, dispatch_eq_landing hstart,
        onReady_undissected sys fd (by decide)]
      simp only [landing_undissected]
  | some i =>
      cases hi : GlobalState.ofId i with
      | none =>
          exact .of_error (dispatch_of_unknown _ hc hi) fun p =>
            dispatch_of_unknown (c := c.setSniffer p) _ hc hi
      | some s =>
          obtain rfl := GlobalState.eq_id_of_ofId hi
          have hblind (w : World) :
              (⟨c.stm, w⟩ : Config).stm.current = some s.id := hc
          rw [Config.state_of_current hc, dispatch_eq_landing hc]
          simp only [dispatch_eq_landing (hblind _), landing_undissected]
          by_cases hs : s = .copy
          · subst hs
            cases r with
            | block => exact .of_error rfl fun p => rfl
            | read => exact ((copyRead_feeds sys fd c.world).bind _).map _
            | write => exact ((copyWrite_feeds sys fd c.world).bind _).map _
          · refine .nothing_of_ne (fun h => hs h.1) ?_
            rw [onReady_undissected sys fd hs]

/-- What a dispatch does, with the sniffer apart. -/
theorem dispatch_eq_ok_iff (sys : Sys) (c c' : Config) :
    dispatch r fd sys c = .ok c' ↔
      dispatch r fd sys.undissected (c.setSniffer {}) = .ok (c'.setSniffer {}) ∧
        sniffChunks c.world.session.pop3sniffer
          (c.world.observed c.state r fd sys) =
            .ok c'.world.session.pop3sniffer := by
  have hfeeds := @dispatch_feeds r fd sys c
  cases hchunks : sniffChunks c.world.session.pop3sniffer
      (c.world.observed c.state r fd sys) with
  | error e =>
      obtain ⟨e', he'⟩ := hfeeds.faults e hchunks
      simp [he']
  | ok p =>
      have hdispatch : dispatch r fd sys c =
          (dispatch r fd sys.undissected (c.setSniffer {})).map fun c =>
            c.setSniffer p := by
        rw [hfeeds.sniffed p hchunks,
          ← dispatch_undissected_setSniffer sys p (c.setSniffer {})]
        rfl
      have hself := @dispatch_undissected_setSniffer r fd sys {} (c.setSniffer {})
      rw [hdispatch]
      cases hblind : dispatch r fd sys.undissected (c.setSniffer {}) with
      | error e => simp [Except.map]
      | ok c₁ =>
          have hc₁ : c₁ = c₁.setSniffer {} := by
            change dispatch r fd sys.undissected (c.setSniffer {}) = _ at hself
            rw [hblind] at hself
            exact Except.ok.inj hself
          simp only [Except.map, Except.ok.injEq]
          constructor
          · rintro rfl
            exact ⟨hc₁, rfl⟩
          · rintro ⟨heq, rfl⟩
            rw [heq]
            rfl

end Dispatch

/-! ## The dissector does not interfere -/

/-- A session whose sniffer is as it was created. -/
def Undissected : Type := { c : Config // c.world.session.pop3sniffer = {} }

/-- A session is a session whose sniffer is as it was created, and a sniffer. -/
def Config.parts : Config ≃ Undissected × Pop3Sniffer where
  toFun c := (⟨c.setSniffer {}, rfl⟩, c.world.session.pop3sniffer)
  invFun x := x.1.1.setSniffer x.2
  left_inv _ := rfl
  right_inv := by
    rintro ⟨⟨c, hc⟩, p⟩
    have hself : c.setSniffer {} = c := by
      rw [← hc]
      rfl
    exact Prod.ext (Subtype.ext hself) rfl

/-- The event, when the dissectors are disabled. -/
def Event.undissected : Event → Event
  | .dispatch r fd sys => .dispatch r fd sys.undissected
  | e => e

/-- The steps of a session when the dissectors are disabled. -/
def UndissectedStep (company : Company) (c : Undissected) (e : Event)
    (c' : Undissected) : Prop :=
  Step company c.1 e.undissected c'.1

/-- What is passed to `sniff_pop3` at an event. -/
def Undissected.observed (c : Undissected) : Event → List (List UInt8 × Allocs)
  | .dispatch r fd sys => c.1.world.observed c.1.state r fd sys
  | _ => []

theorem Config.eq_of_setSniffer {c d : Config}
    (h : c.setSniffer {} = d.setSniffer {})
    (hsniffer : d.world.session.pop3sniffer = c.world.session.pop3sniffer) :
    c = d :=
  Config.parts.injective (Prod.ext (Subtype.ext h) hsniffer.symm)

theorem step_iff_undissected {company : Company} {c c' : Config} {e : Event} :
    Step company c e c' ↔
      UndissectedStep company (Config.parts c).1 e (Config.parts c').1 ∧
        sniffChunks c.world.session.pop3sniffer
          ((Config.parts c).1.observed e) = .ok c'.world.session.pop3sniffer := by
  cases e with
  | dispatch r fd sys =>
      have hiff := @dispatch_eq_ok_iff r fd sys ⟨c.stm, c.world.delivered r fd⟩ c'
      have hobserved : (c.world.delivered r fd).observed c.state r fd sys =
          c.world.observed c.state r fd sys := by
        cases r <;> rfl
      have hsniffer : (c.world.delivered r fd).session.pop3sniffer =
          c.world.session.pop3sniffer := by
        cases r <;> rfl
      have hdelivered : Config.setSniffer ⟨c.stm, c.world.delivered r fd⟩ {} =
          ⟨c.stm, (c.world.setSniffer {}).delivered r fd⟩ := by
        cases r <;> rfl
      dsimp only at hiff
      rw [hsniffer, hdelivered] at hiff
      change _ ↔ _ ∧ sniffChunks c.world.session.pop3sniffer
        (c.world.observed c.state r fd sys) = _
      rw [← hobserved]
      constructor
      · rintro (⟨hlive, hhands, hkernel, h⟩)
        obtain ⟨hblind, hsniff⟩ := hiff.mp h
        exact ⟨.dispatch hlive hhands ⟨hkernel.fresh, hkernel.soError⟩ hblind,
          hsniff⟩
      · rintro ⟨hstep, hsniff⟩
        cases hstep with
        | dispatch hlive hhands hkernel hblind =>
            exact .dispatch hlive hhands ⟨hkernel.fresh, hkernel.soError⟩
              (hiff.mpr ⟨hblind, hsniff⟩)
  | connectionEnds ok =>
      constructor
      · intro hstep
        cases hstep with
        | connectionEnds _ hlive hconn =>
            exact ⟨.connectionEnds (c := (Config.parts c).1.1) ok hlive hconn, rfl⟩
      · rintro ⟨hstep, hsniff⟩
        have hstep : Step company (c.setSniffer {}) (.connectionEnds ok)
          (c'.setSniffer {}) := hstep
        generalize hd : c'.setSniffer {} = d at hstep
        cases hstep with
        | connectionEnds _ hlive hconn =>
            obtain rfl := Config.eq_of_setSniffer (d := ⟨c.stm, { c.world with
              conn := if ok then .connected else .failed }⟩) hd
              (Except.ok.inj hsniff)
            exact .connectionEnds ok hlive hconn
  | resolved fd addrs alloc =>
      constructor
      · intro hstep
        cases hstep with
        | resolved _ _ hlive hfd =>
            exact ⟨.resolved (c := (Config.parts c).1.1) addrs alloc hlive hfd, rfl⟩
      · rintro ⟨hstep, hsniff⟩
        have hstep : Step company (c.setSniffer {}) (.resolved fd addrs alloc)
          (c'.setSniffer {}) := hstep
        generalize hd : c'.setSniffer {} = d at hstep
        cases hstep with
        | resolved _ _ hlive hfd =>
            obtain rfl := Config.eq_of_setSniffer (d := ⟨c.stm,
              connectOriginThread fd addrs alloc c.world⟩) hd
              (Except.ok.inj hsniff)
            exact .resolved addrs alloc hlive hfd
  | others s m =>
      constructor
      · intro hstep
        cases hstep with
        | others _ hsame =>
            exact ⟨.others (c := (Config.parts c).1.1) m hsame, rfl⟩
      · rintro ⟨hstep, hsniff⟩
        have hstep : Step company (c.setSniffer {}) (.others s m)
          (c'.setSniffer {}) := hstep
        generalize hd : c'.setSniffer {} = d at hstep
        cases hstep with
        | others _ hsame =>
            obtain rfl := Config.eq_of_setSniffer (d := ⟨c.stm, { c.world with
              selector := s, metrics := m }⟩) hd (Except.ok.inj hsniff)
            exact .others m hsame

/-- The sniffer monitors the session. -/
theorem sniffer_monitors (company : Company) :
    Monitors (Step company) (UndissectedStep company) Config.parts
      Undissected.observed fun p x => sniffPop3 p x.1 x.2 :=
  ⟨fun _ _ _ => step_iff_undissected⟩

/-- A session goes through the same events, to the same end, whether it is
dissected or not, unless `sniff_pop3` faults; and the sniffer ends in the state
that the chunks which the relay has carried lead to. -/
theorem dissector_does_not_interfere {company : Company} {c c' : Config}
    {es : List Event} :
    (∃ tr, Run (Step company) c tr c' ∧ tr.map Prod.snd = es) ↔
      ∃ tr, Run (UndissectedStep company) (Config.parts c).1 tr
          (Config.parts c').1 ∧ tr.map Prod.snd = es ∧
        sniffChunks c.world.session.pop3sniffer
          (observations Undissected.observed tr) =
            .ok c'.world.session.pop3sniffer :=
  (sniffer_monitors company).run_iff

end Socksv5
