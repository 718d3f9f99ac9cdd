import Socksv5.Session.Attempts

/-!
# Callbacks of `ORIGIN_CONNECT` that return

The callbacks look into the table of the selector.  Where it has items for the
descriptors that they use, they return.
-/

namespace Socksv5

open Support

theorem World.exists_setInterest {w : World} {fd : ℤ} (i : FdInterest)
    (h : w.selector.Registered fd) :
    ∃ s, w.setInterest fd i = .ok (.success, { w with
        selector := s, log := w.log ++ [.setInterest fd i] }) ∧
      ChangesInterest w.selector fd (fun _ => some i) .success s := by
  obtain ⟨s, hs⟩ := exists_updateInterest (fun _ => some i) h
  refine ⟨s, ?_, updateInterest_spec hs⟩
  rw [World.setInterest, selectorSetInterest, hs]
  rfl

theorem World.setInterestKey_eq (w : World) (fd : ℤ) (i : FdInterest) :
    w.setInterestKey fd i = w.setInterest fd i := by
  rw [World.setInterestKey, selectorSetInterestKey_eq, World.setInterest]

theorem exists_connectFailed {fd : ℤ} {w : World}
    (h : w.selector.Registered fd) :
    ∃ ret w', connectFailed fd w = .ok (ret, w') := by
  obtain ⟨s, hs, -⟩ := w.exists_setInterest .write h
  rw [connectFailed, World.setInterestKey_eq, hs]
  exact ⟨_, _, rfl⟩

/-- An attempt whose address can be stored returns. -/
theorem exists_connectThroughIp_of_fill {a : Attempt} (realloc : Bool) {fd : ℤ}
    {wasFqdn : Bool} {w : World} (hreg : w.selector.Registered fd)
    (hsize : ∀ n ∈ a.socket, n < w.selector.fdSize)
    (hfill : ∀ v : World, v.session.request = w.session.request →
      ∃ w₁, fillOriginAddr wasFqdn v = .ok w₁) :
    ∃ ret w', connectThroughIp a realloc fd wasFqdn w = .ok (ret, w') := by
  unfold connectThroughIp
  dsimp only
  split
  · exact exists_connectFailed hreg
  · rename_i hpos
    split
    · exact exists_connectFailed hreg
    · obtain ⟨w₁, hw₁⟩ := hfill { w with
        session := { w.session with originFd := socketFd a.socket }
        conn := .none
        log := w.log ++ [.socket a.socket] } rfl
      obtain ⟨request, -, rfl⟩ := fillOriginAddr_spec hw₁
      rw [hw₁, ok_bind]
      cases a.connect with
      | connected => exact ⟨_, _, rfl⟩
      | inProgress =>
          have hlt : (socketFd a.socket).toNat < w.selector.fdSize := by
            cases hsocket : a.socket with
            | none => simp [hsocket, socketFd] at hpos
            | some n => exact hsize n hsocket
          obtain ⟨ret, s, hregister⟩ := exists_selectorRegister
            (some .socksv5Active) .write (some w.address) realloc hlt
          simp only [World.record, hregister, ok_bind]
          split <;> exact ⟨_, _, rfl⟩
      | failed => exact exists_connectFailed hreg

/-- An attempt for an address of a list returns. -/
theorem exists_connectThroughIp {a : Attempt} (realloc : Bool) {fd : ℤ}
    {w : World} (hreg : w.selector.Registered fd)
    (hsize : ∀ n ∈ a.socket, n < w.selector.fdSize) :
    ∃ ret w', connectThroughIp a realloc fd true w = .ok (ret, w') :=
  exists_connectThroughIp_of_fill realloc hreg hsize fun v _ => ⟨v, rfl⟩

theorem exists_resolutionFailed {w : World}
    (h : w.selector.Registered w.session.clientFd) :
    ∃ ret w', resolutionFailed w = .ok (ret, w') := by
  obtain ⟨s, hs, -⟩ := w.exists_setInterest .write h
  rw [resolutionFailed, hs]
  exact ⟨_, _, rfl⟩

/-- Going through a list of addresses returns. -/
theorem exists_connectOriginLoop {sys : Sys} {fd : ℤ} {k : ℕ}
    {addrs : List SockAddr} {w : World} (hfd : fd = w.session.clientFd)
    (hreg : w.selector.Registered fd)
    (hsize : ∀ i, ∀ n ∈ (sys.attempts i).socket, n < w.selector.fdSize) :
    ∃ ret w', connectOriginLoop sys fd k addrs w = .ok (ret, w') := by
  induction addrs generalizing k w with
  | nil => exact exists_resolutionFailed (w := freeResolution w) (hfd ▸ hreg)
  | cons addr rest ih =>
      have hreg' : (useAddress addr w).selector.Registered fd := hreg
      obtain ⟨ret, w₁, hattempt⟩ := exists_connectThroughIp
        sys.realloc hreg' (hsize k)
      rw [connectOriginLoop, hattempt, ok_bind]
      dsimp only
      rcases connectThroughIp_state hattempt with rfl | rfl | rfl
      · exact ⟨_, _, rfl⟩
      · have hspec := connectThroughIp_spec hattempt
        have hfails : (sys.attempts k).failsAtOnce = true := by
          by_contra hnot
          exact hspec.ne_requestWrite (Bool.eq_false_iff.mpr hnot) rfl
        obtain ⟨-, hclient, hregs, hfdSize⟩ := hspec.of_failsAtOnce hfails hreg'
        refine ih (hfd.trans hclient.symm) ((hregs fd).mpr hreg) ?_
        rw [hfdSize]
        exact hsize
      · exact ⟨_, _, rfl⟩

/-- Going through the addresses that were found returns. -/
theorem exists_connectOriginBlock (sys : Sys) {fd : ℤ} {w : World}
    (hfd : fd = w.session.clientFd) (hreg : w.selector.Registered fd)
    (hsize : ∀ i, ∀ n ∈ (sys.attempts i).socket, n < w.selector.fdSize) :
    ∃ ret w', connectOriginBlock sys fd w = .ok (ret, w') := by
  unfold connectOriginBlock
  split
  · exact exists_resolutionFailed (hfd ▸ hreg)
  · exact exists_connectOriginLoop hfd hreg hsize

/-- The interests can be changed as `verify_connection` does. -/
theorem exists_answer {fd : ℤ} (w : World) (hreg : w.selector.Registered fd)
    (hclient : w.selector.Registered w.session.clientFd) :
    ∃ w₁ w₂, w.setInterestKey fd .noop = .ok (.success, w₁) ∧
      w₁.setInterest w₁.session.clientFd .write = .ok (.success, w₂) := by
  obtain ⟨s, hset, hs⟩ := w.exists_setInterest .noop hreg
  have hclient' : s.Registered w.session.clientFd :=
    (hs.registered_iff _).mpr hclient
  obtain ⟨s', hset', -⟩ := World.exists_setInterest .write
    (w := { w with selector := s, log := w.log ++ [.setInterest fd .noop] })
    hclient'
  exact ⟨_, _, (w.setInterestKey_eq fd .noop).trans hset, hset'⟩

/-- Looking at the connection answers. -/
theorem exists_verifyConnection {sys : Sys} {fd : ℤ} {w : World} {error : ℕ}
    (herror : sys.soError = some error) (hreg : w.selector.Registered fd)
    (hclient : w.selector.Registered w.session.clientFd) :
    ∃ w', verifyConnection sys fd w = .ok (.requestWrite, w') := by
  unfold verifyConnection
  simp only [herror]
  by_cases hzero : error = 0
  · obtain ⟨w₁, w₂, hset, hset'⟩ := exists_answer
      (w.record (.getsockopt w.session.originFd (some error))) hreg hclient
    simp [hzero] at hset ⊢
    simp [hset, hset', ok_bind]
  · obtain ⟨w₁, w₂, hset, hset'⟩ := exists_answer
      ((w.record (.getsockopt w.session.originFd (some error))).setReply
        (replyOfError error)) hreg hclient
    simp [hzero, hset, hset', ok_bind]

end Socksv5
