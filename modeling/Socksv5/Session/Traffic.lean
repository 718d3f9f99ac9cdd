import Socksv5.Session.Order

/-!
# The bytes of a session

What the calls of a log received and sent, and the callbacks that transfer
nothing.
-/

namespace Socksv5

open Support

/-- The bytes that a call received from a descriptor. -/
def Call.receivedFrom (fd : ℤ) : Call → List UInt8
  | .recv _ fd' _ (.received bs) => if fd' = fd then bs else []
  | _ => []

/-- The bytes received from a descriptor. -/
def received (fd : ℤ) (log : List Call) : List UInt8 :=
  log.flatMap (Call.receivedFrom fd)

/-- What the client has sent. -/
def World.input (w : World) : List UInt8 := received w.session.clientFd w.log

/-- The call transfers bytes. -/
def Call.transfers : Call → Bool
  | .recv _ _ _ _ | .send _ _ _ => true
  | _ => false

theorem received_append (fd : ℤ) (log log' : List Call) :
    received fd (log ++ log') = received fd log ++ received fd log' :=
  List.flatMap_append

theorem received_mono {fd : ℤ} {log log' : List Call} (h : log <+: log') :
    received fd log <+: received fd log' := by
  obtain ⟨calls, rfl⟩ := h
  rw [received_append]
  exact List.prefix_append _ _

@[simp] theorem received_nil (fd : ℤ) : received fd [] = [] := rfl

theorem receivedFrom_of_not_transfers {fd : ℤ} {c : Call}
    (h : c.transfers = false) : c.receivedFrom fd = [] := by
  cases c <;> first | rfl | cases h

theorem received_of_not_transfers {fd : ℤ} {calls : List Call}
    (h : ∀ c ∈ calls, c.transfers = false) : received fd calls = [] := by
  rw [received, List.flatMap_eq_nil_iff]
  intro c hc
  exact receivedFrom_of_not_transfers (h c hc)

@[simp] theorem received_recv (state : GlobalState) (fd : ℤ) (n : ℕ)
    (bs : List UInt8) :
    received fd [.recv state fd n (.received bs)] = bs := by
  simp [received, Call.receivedFrom]

/-- The log grows. -/
theorem Quiet.log_prefix {w w' : World} (h : Quiet w w') : w.log <+: w'.log := by
  obtain ⟨calls, hlog, -⟩ := h.log
  exact ⟨calls, hlog.symm⟩

/-- Nothing has been transferred: the buffers are the same, and no call
received or sent. -/
structure Silent (w w' : World) : Prop where
  clientFd : w'.session.clientFd = w.session.clientFd
  readBuffer : w'.session.readBuffer = w.session.readBuffer
  writeBuffer : w'.session.writeBuffer = w.session.writeBuffer
  log : ∃ calls, w'.log = w.log ++ calls ∧ ∀ c ∈ calls, c.transfers = false

namespace Silent

variable {w w₁ w₂ : World}

theorem refl (w : World) : Silent w w :=
  ⟨rfl, rfl, rfl, [], by simp, by simp⟩

theorem trans (h : Silent w w₁) (h' : Silent w₁ w₂) : Silent w w₂ where
  clientFd := h'.clientFd.trans h.clientFd
  readBuffer := h'.readBuffer.trans h.readBuffer
  writeBuffer := h'.writeBuffer.trans h.writeBuffer
  log := by
    obtain ⟨calls, hlog, hcalls⟩ := h.log
    obtain ⟨calls', hlog', hcalls'⟩ := h'.log
    refine ⟨calls ++ calls', by rw [hlog', hlog, List.append_assoc], ?_⟩
    intro c hc
    rcases List.mem_append.mp hc with hc | hc
    · exact hcalls c hc
    · exact hcalls' c hc

theorem log_prefix (h : Silent w w₁) : w.log <+: w₁.log := by
  obtain ⟨calls, hlog, -⟩ := h.log
  exact ⟨calls, hlog.symm⟩

theorem received_eq (h : Silent w w₁) (fd : ℤ) :
    received fd w₁.log = received fd w.log := by
  obtain ⟨calls, hlog, hcalls⟩ := h.log
  rw [hlog, received_append, received_of_not_transfers hcalls,
    List.append_nil]

theorem input_eq (h : Silent w w₁) : w₁.input = w.input := by
  rw [World.input, h.clientFd, h.received_eq]
  rfl

end Silent

/-! ## Connecting transfers nothing -/

theorem Attempted.silent {a : Attempt} {realloc : Bool} {fd : ℤ} {w w' : World}
    {ret : GlobalState} (h : Attempted a realloc fd w ret w') :
    Silent w w' := by
  cases h <;>
    refine ⟨rfl, rfl, rfl, _, by simp only [List.append_assoc]; rfl, ?_⟩ <;>
    simp [Call.transfers]

theorem Connects.silent {sys : Sys} {fd : ℤ} {w w' : World} {ret : GlobalState}
    (h : Connects sys fd w ret w') : Silent w w' := by
  cases h with
  | already => exact .refl w
  | address _ _ h => exact h.silent
  | noThread => exact .refl w
  | name _ _ hcalls =>
      rcases hcalls with ⟨-, rfl⟩ | ⟨-, rfl⟩ <;>
        refine ⟨rfl, rfl, rfl, _, by simp only [List.append_assoc]; rfl, ?_⟩ <;>
        simp [Call.transfers]

theorem useAddress_silent (addr : SockAddr) (w : World) :
    Silent w (useAddress addr w) :=
  ⟨rfl, rfl, rfl, [], by simp [useAddress], by simp⟩

theorem freeResolution_silent (w : World) : Silent w (freeResolution w) :=
  ⟨rfl, rfl, rfl, [], by simp [freeResolution], by simp⟩

theorem GivesUp.silent {w w' : World} {ret : GlobalState}
    (h : GivesUp w ret w') : Silent w w' := by
  cases h <;> exact ⟨rfl, rfl, rfl, _, rfl, by simp [Call.transfers]⟩

theorem Resolves.silent {sys : Sys} {fd : ℤ} {k : ℕ} {addrs : List SockAddr}
    {w w' : World} {ret : GlobalState} (h : Resolves sys fd k addrs w ret w') :
    Silent w w' := by
  induction h with
  | exhausted h => exact (freeResolution_silent _).trans h.silent
  | settles h =>
      exact ((useAddress_silent _ _).trans h.silent).trans
        (freeResolution_silent _)
  | breaks h => exact (useAddress_silent _ _).trans h.silent
  | goesOn h _ ih => exact ((useAddress_silent _ _).trans h.silent).trans ih

theorem arrived_silent (s : GlobalState) (w : World) : Silent w (arrived s w) := by
  cases s <;> exact ⟨rfl, rfl, rfl, [], by simp [arrived, greetingInit, authInit,
    requestReadInit, copyInit], by simp⟩

theorem closeDescriptor_silent {w w' : World} {fd : ℤ}
    (h : closeDescriptor w fd = .ok w') : Silent w w' := by
  unfold closeDescriptor at h
  split at h
  · obtain ⟨⟨status, s⟩, -, h⟩ := bind_eq_ok.mp h
    dsimp only at h
    split at h
    · cases h
    · cases h
      exact ⟨rfl, rfl, rfl, _, rfl, by simp [Call.transfers]⟩
  · cases h
    exact .refl w

theorem socksv5Done_silent {w w' : World} (h : socksv5Done w = .ok w') :
    Silent w w' := by
  obtain ⟨w₁, hclient, h⟩ := bind_eq_ok.mp h
  obtain ⟨w₂, horigin, h⟩ := bind_eq_ok.mp h
  cases h
  have hsilent :=
    (closeDescriptor_silent hclient).trans (closeDescriptor_silent horigin)
  exact ⟨hsilent.clientFd, hsilent.readBuffer, hsilent.writeBuffer,
    hsilent.log⟩

theorem closeDescriptor_session {w w' : World} {fd : ℤ}
    (h : closeDescriptor w fd = .ok w') : w'.session = w.session := by
  unfold closeDescriptor at h
  split at h
  · obtain ⟨⟨status, s⟩, -, h⟩ := bind_eq_ok.mp h
    dsimp only at h
    split at h
    · cases h
    · cases h
      rfl
  · cases h
    rfl

theorem socksv5Done_session {w w' : World} (h : socksv5Done w = .ok w') :
    w'.session = w.session := by
  obtain ⟨w₁, hclient, h⟩ := bind_eq_ok.mp h
  obtain ⟨w₂, horigin, h⟩ := bind_eq_ok.mp h
  cases h
  exact (closeDescriptor_session horigin).trans (closeDescriptor_session hclient)

theorem socksv5Done_destroyed {w w' : World} (h : socksv5Done w = .ok w') :
    w'.destroyed = true := by
  obtain ⟨w₁, -, h⟩ := bind_eq_ok.mp h
  obtain ⟨w₂, -, h⟩ := bind_eq_ok.mp h
  cases h
  rfl

/-- What follows a callback transfers nothing. -/
theorem Outcome.silent {sys : Sys} {fd : ℤ} {s ret : GlobalState}
    {via : List GlobalState} {w w' : World}
    (h : Outcome sys fd s ret w via w') : Silent w w' := by
  cases h with
  | stays => exact .refl w
  | enters => exact arrived_silent _ w
  | connects _ h => exact (connectOriginInit_spec h).silent
  | redirected _ h => exact (connectOriginInit_spec h).silent
  | ends _ h => exact socksv5Done_silent h

theorem delivered_silent (w : World) (r : Ready) (fd : ℤ) :
    Silent w (w.delivered r fd) := by
  cases r <;> exact ⟨rfl, rfl, rfl, [], by simp [World.delivered], by simp⟩

/-- A callback lets the log grow, and the client's descriptor is the same. -/
theorem onReady_grows {sys : Sys} {fd : ℤ} {s ret : GlobalState} {r : Ready}
    {f : Callback} {w w' : World} (hf : onReady sys fd s r = some f)
    (h : f w = .ok (ret, w')) :
    w'.session.clientFd = w.session.clientFd ∧ w.log <+: w'.log := by
  by_cases hr : r = .block
  · subst hr
    cases s <;> cases hf
    have hsilent := (connectOriginBlock_spec h).silent
    exact ⟨hsilent.clientFd, hsilent.log_prefix⟩
  · have hquiet := onReady_quiet hf hr h
    exact ⟨hquiet.clientFd, hquiet.log_prefix⟩

end Socksv5
