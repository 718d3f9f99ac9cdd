import Socksv5.Session.Resolving

/-!
# What becomes of the attempts to connect

`connect_origin_block` goes on to the next address of the list when an attempt
fails at once.  The list is given up as soon as an attempt is in progress, and
`connect_through_ip` arms writing to the client for every attempt that failed
before.
-/

namespace Socksv5

open Support

/-- What becomes of an attempt to connect to an address. -/
inductive Fate
  | failsAtOnce
  | failsLater
  | accepts
deriving DecidableEq, Repr

/-- The attempt begins as fated. -/
def Attempt.Begins (a : Attempt) (s : FdSelector) (realloc : Bool) : Fate → Prop
  | .failsAtOnce => a.failsAtOnce = true
  | .failsLater | .accepts => a.nio = true ∧ a.connect = .inProgress ∧
      ∃ n ∈ a.socket, s.HasRoom realloc n

/-- A call of `socket`. -/
def Call.isSocket : Call → Bool
  | .socket _ => true
  | _ => false

/-- How many attempts have been made. -/
def World.made (w : World) : ℕ := w.log.countP Call.isSocket

/-- The descriptor and the address of a call of `connect`. -/
def Call.connection : Call → Option (ℤ × SockAddr)
  | .connect fd addr _ => some (fd, addr)
  | _ => none

/-- The last call of `connect`. -/
def World.lastConnection (w : World) : Option (ℤ × SockAddr) :=
  (w.log.filterMap Call.connection).getLast?

/-! ## What an attempt does -/

theorem Attempt.Begins.of_fdSize {a : Attempt} {s s' : FdSelector}
    {realloc : Bool} {f : Fate} (h : a.Begins s realloc f)
    (hsize : s'.fdSize = s.fdSize) : a.Begins s' realloc f := by
  cases f with
  | failsAtOnce => exact h
  | failsLater | accepts =>
      obtain ⟨hnio, hconnect, n, hsocket, hroom⟩ := h
      refine ⟨hnio, hconnect, n, hsocket, hroom.1, ?_⟩
      rw [hsize]
      exact hroom.2

/-- What an attempt that fails at once leaves. -/
structure Failed (w w' : World) (fd : ℤ) : Prop where
  clientFd : w'.session.clientFd = w.session.clientFd
  fdSize : w'.selector.fdSize = w.selector.fdSize
  made : w'.made = w.made + 1
  interest : w'.selector.interest? =
    Function.update w.selector.interest? fd (some .write)

/-- What an attempt that is in progress leaves. -/
structure InProgress (w w' : World) (n : ℕ) : Prop where
  conn : w'.conn = .connecting
  made : w'.made = w.made + 1
  originFd : w'.session.originFd = n
  interest : w'.selector.interest? =
    Function.update w.selector.interest? n (some .write)

/-- What an attempt does that begins as fated. -/
theorem Attempted.fated {a : Attempt} {realloc : Bool} {fd : ℤ} {w w' : World}
    {ret : GlobalState} {f : Fate} (h : Attempted a realloc fd w ret w')
    (hbegins : a.Begins w.selector realloc f)
    (hreg : w.selector.Registered fd)
    (hfresh : ∀ n, a.socket = some n →
      ¬ w.selector.Registered n ∧ (n : ℤ) ≠ w.session.clientFd) :
    (f = .failsAtOnce ∧ ret = .requestWrite ∧ Failed w w' fd) ∨
      (f ≠ .failsAtOnce ∧ ret = .originConnect ∧
        ∃ n : ℕ, (n : ℤ) ≠ w.session.clientFd ∧ InProgress w w' n) := by
  have hchanged {status : SelectorStatus} {s : FdSelector}
      (hs : ChangesInterest w.selector fd (fun _ => some .write) status s) :
      s.interest? = Function.update w.selector.interest? fd (some .write) := by
    obtain rfl := hs.success_of_registered hreg
    obtain ⟨i, -, hinterest⟩ := hs.interest_eq
    exact hinterest
  by_cases hf : f = .failsAtOnce
  · subst hf
    obtain ⟨hret, hclient, -, hsize⟩ := h.of_failsAtOnce hbegins hreg
    refine Or.inl ⟨rfl, hret, hclient, hsize, ?_, ?_⟩
    · cases h <;> simp [World.made, Call.isSocket, List.countP_cons]
    · cases h with
      | noSocket _ hs | noNio _ _ hs | refused _ _ _ _ hs => exact hchanged hs
      | connected hsocket hnio hconnect | inProgress hsocket hnio hconnect =>
          simp [Attempt.Begins, Attempt.failsAtOnce, hsocket, hnio, hconnect]
            at hbegins
  · obtain ⟨hnio, hconnect, n, hsocket, hroom⟩ : a.nio = true ∧
        a.connect = .inProgress ∧
        ∃ n ∈ a.socket, w.selector.HasRoom realloc n := by
      cases f with
      | failsAtOnce => exact absurd rfl hf
      | failsLater | accepts => exact hbegins
    obtain ⟨hnot, hne⟩ := hfresh n hsocket
    refine Or.inr ⟨hf, ?_⟩
    cases h with
    | noSocket hsocket' => rw [hsocket] at hsocket'; cases hsocket'
    | noNio _ hnio' => rw [hnio] at hnio'; cases hnio'
    | refused _ _ hconnect' => rw [hconnect] at hconnect'; cases hconnect'
    | connected _ _ hconnect' => rw [hconnect] at hconnect'; cases hconnect'
    | inProgress hsocket' _ _ _ hregister =>
        rw [hsocket] at hsocket'
        cases hsocket'
        have hnone : w.selector.interest? n = none := not_not.mp hnot
        obtain rfl := selectorRegister_success hregister hroom hnone
        rcases selectorRegister_cases hregister with
          ⟨hsuccess, -⟩ | ⟨-, -, -, hs, -⟩
        · exact absurd rfl hsuccess
        · refine ⟨if_pos rfl, n, hne, rfl, ?_, rfl, hs⟩
          simp [World.made, Call.isSocket, List.countP_cons]

/-- What the block callback leaves when the `j`-th attempt is in progress, for
the address `addr`: writing to the client is armed if there was one before. -/
structure Underway (w w' : World) (j : ℕ) (addr : SockAddr) : Prop where
  conn : w'.conn = .connecting
  made : w'.made = w.made + j + 1
  connection : w'.lastConnection = some (w'.session.originFd, addr)
  origin : w'.selector.interest? w'.session.originFd = some .write
  distinct : w'.session.originFd ≠ w.session.clientFd
  client : w'.selector.interest? w.session.clientFd =
    if j = 0 then w.selector.interest? w.session.clientFd else some .write

/-- What it leaves when every attempt has failed at once. -/
structure GivenUp (w w' : World) (n : ℕ) : Prop where
  reply : w'.session.request.parser.reply = .hostUnreachable
  made : w'.made = w.made + n

theorem GivesUp.givenUp {w w' : World} {ret : GlobalState}
    (h : GivesUp (freeResolution w) ret w')
    (hreg : w.selector.Registered w.session.clientFd) :
    ret = .requestWrite ∧ GivenUp w w' 0 := by
  cases h with
  | failed hne hs => exact absurd (hs.success_of_registered hreg) hne
  | answers hs =>
      exact ⟨rfl, rfl, by simp [World.made, freeResolution, Call.isSocket]⟩

theorem lastConnection_of_log {w : World} {calls : List Call} {fd : ℤ}
    {addr : SockAddr} {r : ConnectResult}
    (h : w.log = calls ++ [.connect fd addr r]) :
    w.lastConnection = some (fd, addr) := by
  simp [World.lastConnection, h, Call.connection]

/-- The first address that does not fail at once ends the list. -/
theorem Resolves.fated {sys : Sys} {fd : ℤ} {k : ℕ} {addrs : List SockAddr}
    {fs : List Fate} {w w' : World} {ret : GlobalState}
    (h : Resolves sys fd k addrs w ret w') (hfd : fd = w.session.clientFd)
    (hlen : fs.length = addrs.length)
    (hbegins : ∀ (i : ℕ) (hi : i < fs.length), (sys.attempts (k + i)).Begins
      w.selector sys.realloc (fs.get ⟨i, hi⟩))
    (hreg : w.selector.Registered fd)
    (hfresh : ∀ i n, (sys.attempts i).socket = some n →
      ¬ w.selector.Registered n ∧ (n : ℤ) ≠ w.session.clientFd) :
    ((∀ f ∈ fs, f = .failsAtOnce) ∧ ret = .requestWrite ∧
        GivenUp w w' fs.length) ∨
      ∃ pre f post addr, fs = pre ++ f :: post ∧
        (∀ g ∈ pre, g = .failsAtOnce) ∧ f ≠ .failsAtOnce ∧
        ret = .originConnect ∧ addrs[pre.length]? = some addr ∧
        Underway w w' pre.length addr := by
  induction h generalizing fs with
  | @exhausted k w w' ret h =>
      obtain rfl := List.length_eq_zero_iff.mp hlen
      obtain ⟨rfl, hgiven⟩ := h.givenUp (hfd ▸ hreg)
      exact Or.inl ⟨by simp, rfl, hgiven⟩
  | @settles k addr rest w w' h hlog =>
      rcases fs with - | ⟨f, fs⟩
      · cases hlen
      rcases h.fated (hbegins 0 (Nat.zero_lt_succ _)) hreg (hfresh k) with
        ⟨-, hret, -⟩ | ⟨hf, -, n, hne, hgoes⟩
      · cases hret
      · obtain ⟨calls, r, hlog⟩ := hlog
        refine Or.inr ⟨[], f, fs, addr, rfl, by simp, hf, rfl, rfl, hgoes.conn,
          hgoes.made, lastConnection_of_log hlog, ?_, ?_, ?_⟩
        · change w'.selector.interest? w'.session.originFd = _
          rw [hgoes.originFd, hgoes.interest, Function.update_self]
        · change w'.session.originFd ≠ _
          rw [hgoes.originFd]
          exact hne
        · change w'.selector.interest? _ = _
          rw [hgoes.interest]
          exact Function.update_of_ne (Ne.symm hne) _ _
  | @breaks k addr rest w w' h =>
      rcases fs with - | ⟨f, fs⟩
      · cases hlen
      rcases h.fated (hbegins 0 (Nat.zero_lt_succ _)) hreg (hfresh k) with
        ⟨-, hret, -⟩ | ⟨-, hret, -⟩ <;> cases hret
  | @goesOn k addr rest w w₁ w' ret h _ ih =>
      rcases fs with - | ⟨f, fs⟩
      · cases hlen
      rcases h.fated (hbegins 0 (Nat.zero_lt_succ _)) hreg (hfresh k) with
        ⟨rfl, -, hfailed⟩ | ⟨-, hret, -⟩
      · have hregs (d : ℤ) : w₁.selector.Registered d ↔
            w.selector.Registered d := by
          unfold FdSelector.Registered
          rw [hfailed.interest]
          by_cases hd : d = fd
          · subst hd
            rw [Function.update_self]
            exact iff_of_true (by simp) hreg
          · rw [Function.update_of_ne hd]
            rfl
        have hclient : w₁.session.clientFd = w.session.clientFd :=
          hfailed.clientFd
        have hmade : w₁.made = w.made + 1 := hfailed.made
        have hwrite : w₁.selector.interest? w₁.session.clientFd =
            some .write := by
          rw [hclient, ← hfd, hfailed.interest, Function.update_self]
        have hbegins₁ (i : ℕ) (hi : i < fs.length) :
            (sys.attempts (k + 1 + i)).Begins w₁.selector sys.realloc
              (fs.get ⟨i, hi⟩) := by
          have := hbegins (i + 1) (Nat.succ_lt_succ hi)
          rw [← Nat.add_assoc, Nat.add_right_comm] at this
          exact this.of_fdSize hfailed.fdSize
        have hfresh₁ (i n : ℕ) (hn : (sys.attempts i).socket = some n) :
            ¬ w₁.selector.Registered n ∧ (n : ℤ) ≠ w₁.session.clientFd := by
          rw [hregs, hclient]
          exact hfresh i n hn
        rcases ih (hfd.trans hclient.symm) (Nat.succ.inj hlen) hbegins₁
          ((hregs fd).mpr hreg) hfresh₁ with
          ⟨hall, hret, hgiven⟩ | ⟨pre, g, post, addr, rfl, hpre, hg, hret, haddr,
            hunderway⟩
        · refine Or.inl ⟨?_, hret, hgiven.reply, ?_⟩
          · simpa using hall
          · rw [hgiven.made, hmade, List.length_cons]
            omega
        · refine Or.inr ⟨.failsAtOnce :: pre, g, post, addr, rfl, by simpa using hpre,
            hg, hret, haddr, hunderway.conn, ?_, hunderway.connection,
            hunderway.origin, hclient ▸ hunderway.distinct, ?_⟩
          · rw [hunderway.made, hmade, List.length_cons]
            omega
          · rw [← hclient, hunderway.client, hwrite]
            simp
      · cases hret

end Socksv5
