import Socksv5.Session.Attempts

/-!
# What the callbacks of `COPY` do

`CopyReads` and `CopyWrites` list the ways in which `copy_read` and
`copy_write` can return, for a descriptor that is registered.
-/

namespace Socksv5

open Support

/-- Set the state of the sniffer. -/
def World.setSniffer (w : World) (sniffer : Pop3Sniffer) : World :=
  { w with session := { w.session with pop3sniffer := sniffer } }

theorem sniff_spec {sys : Sys} {side : Side} {bs : List UInt8} {w w' : World}
    (h : sniff sys side bs w = .ok w') : ∃ sniffer, w' = w.setSniffer sniffer := by
  unfold sniff at h
  split at h
  · obtain ⟨sniffer, -, h⟩ := bind_eq_ok.mp h
    cases h
    exact ⟨sniffer, rfl⟩
  · cases h
    exact ⟨_, rfl⟩

/-- Changing an interest, of what is left of the world. -/
def World.changed (w : World) (s : FdSelector) (c : Call) : World :=
  { w with selector := s, log := w.log ++ [c] }

/-- The end of both callbacks: arming the other side's descriptor. -/
theorem addInterest_closing {w w' : World} {fd : ℤ} {i : FdInterest}
    {ret : GlobalState}
    (h : (w.addInterest fd i >>= fun x =>
      if x.1 ≠ .success then .ok (.error, x.2)
      else .ok (checkCloseConnection x.2.session.copy, x.2)) = .ok (ret, w')) :
    ∃ status s, ChangesInterest w.selector fd (additive i) status s ∧
      ret = afterInterest status (checkCloseConnection w.session.copy) ∧
      w' = w.changed s (.addInterest fd i) := by
  obtain ⟨⟨status, w₁⟩, hset, h⟩ := bind_eq_ok.mp h
  obtain ⟨s, hs, rfl⟩ := World.addInterest_spec hset
  refine ⟨status, s, hs, ?_⟩
  dsimp only at h
  by_cases hstatus : status = .success
  · rw [if_neg (by simpa using hstatus)] at h
    cases h
    exact ⟨by rw [afterInterest, if_pos hstatus], rfl⟩
  · rw [if_pos hstatus] at h
    cases h
    exact ⟨by rw [afterInterest, if_neg hstatus], rfl⟩

/-- The end of the stream, or the peer's reset of the connection. -/
def Ends (sys : Sys) (b : Buffer) : Prop :=
  sys.recv.upTo b.room = .received [] ∨ sys.recv.upTo b.room = .connReset

instance (sys : Sys) (b : Buffer) : Decidable (Ends sys b) :=
  inferInstanceAs (Decidable (_ ∨ _))

/-- The call of `recv` for a side. -/
def Side.recvCall (side : Side) (sys : Sys) (fd : ℤ) (s : Session) : Call :=
  .recv .copy fd (side.inbox s).room (sys.recv.upTo (side.inbox s).room)

/-- What a side has been read into, with the `n` bytes counted. -/
def Side.received (side : Side) (sys : Sys) (fd : ℤ) (w : World) (n : ℕ)
    (sniffer : Pop3Sniffer) (b : Buffer) : World :=
  side.setInbox (World.setSniffer { w with
    metrics := w.metrics.addTotalBytesTransferred n
    log := w.log ++ [side.recvCall sys fd w.session] } sniffer) b

theorem Side.received_log (side : Side) (sys : Sys) (fd : ℤ) (w : World) (n : ℕ)
    (sniffer : Pop3Sniffer) (b : Buffer) :
    (side.received sys fd w n sniffer b).log =
      w.log ++ [side.recvCall sys fd w.session] := by
  cases side <;> rfl

theorem Session.side?_eq {s : Session} {fd : ℤ} {side : Side}
    (h : s.side? fd = some side) : fd = side.fd s := by
  unfold Session.side? at h
  split at h
  · cases h
    assumption
  · split at h
    · cases h
      assumption
    · cases h

theorem Session.Owns.exists_side {s : Session} {fd : ℤ} (h : s.Owns fd) :
    ∃ side, s.side? fd = some side := by
  unfold Session.side?
  by_cases hclient : fd = s.clientFd
  · exact ⟨.client, if_pos hclient⟩
  · rw [if_neg hclient, if_pos (h.2.resolve_left hclient)]
    exact ⟨.origin, rfl⟩

/-- What is left when a side was read to its end. -/
def Side.ended (side : Side) (sys : Sys) (fd : ℤ) (w : World)
    (s : FdSelector) : World :=
  ((w.record (side.recvCall sys fd w.session)).changed s
    (.reduceInterest fd .read)).setCopy (endOfStream w.session.copy side)

/-- What `copy_read` does for a registered descriptor of a side. -/
inductive CopyReads (sys : Sys) (side : Side) (fd : ℤ) (w : World) :
    GlobalState → World → Prop
  | failed : sys.recv.upTo (side.inbox w.session).room = .failed →
      CopyReads sys side fd w .error
        (w.record (side.recvCall sys fd w.session))
  | relays {bs : List UInt8} {b : Buffer} {sniffer : Pop3Sniffer}
      {status : SelectorStatus} {s s' : FdSelector} :
      Receives sys (side.inbox w.session) (.data bs b) →
      ChangesInterest w.selector fd (reduction .read) .success s →
      ChangesInterest s (uint8 (side.peer.fd w.session)) (additive .write)
        status s' →
      CopyReads sys side fd w
        (afterInterest status (checkCloseConnection w.session.copy))
        (((side.received sys fd w bs.length sniffer b).changed s
          (.reduceInterest fd .read)).changed s'
          (.addInterest (uint8 (side.peer.fd w.session)) .write))
  | holds {s : FdSelector} : Ends sys (side.inbox w.session) →
      (side.inbox w.session).pending ≠ [] →
      ChangesInterest w.selector fd (reduction .read) .success s →
      CopyReads sys side fd w
        (checkCloseConnection (endOfStream w.session.copy side))
        (side.ended sys fd w s)
  | closes {s : FdSelector} : Ends sys (side.inbox w.session) →
      (side.inbox w.session).pending = [] →
      ChangesInterest w.selector fd (reduction .read) .success s →
      sys.shutdown = true →
      CopyReads sys side fd w
        (checkCloseConnection
          (side.peer.stopWriting (endOfStream w.session.copy side)))
        (((side.ended sys fd w s).record
          (.shutdown (uint8 (side.peer.fd w.session)))).setCopy
          (side.peer.stopWriting (endOfStream w.session.copy side)))
  | unclosed {s : FdSelector} : Ends sys (side.inbox w.session) →
      (side.inbox w.session).pending = [] →
      ChangesInterest w.selector fd (reduction .read) .success s →
      sys.shutdown = false →
      CopyReads sys side fd w .error ((side.ended sys fd w s).record
        (.shutdown (uint8 (side.peer.fd w.session))))

theorem copyReadEnd_spec {sys : Sys} {side : Side} {fd : ℤ} {w w' : World}
    {ret : GlobalState} (hends : Ends sys (side.inbox w.session))
    (hreg : w.selector.Registered fd)
    (h : copyReadEnd sys side fd (uint8 (side.peer.fd w.session))
      (w.record (side.recvCall sys fd w.session)) = .ok (ret, w')) :
    CopyReads sys side fd w ret w' := by
  obtain ⟨⟨status, w₁⟩, hset, h⟩ := bind_eq_ok.mp h
  obtain ⟨s, hs, rfl⟩ := World.reduceInterest_spec hset
  obtain rfl := hs.success_of_registered hreg
  dsimp only at h
  rw [if_neg (by simp)] at h
  by_cases hread : (side.inbox w.session).canRead = true
  · rw [if_pos (by cases side <;> exact hread)] at h
    cases h
    exact .holds hends ((Buffer.canRead_iff _).mp hread) hs
  · rw [if_neg (by cases side <;> exact hread)] at h
    have hempty := Buffer.pending_eq_nil hread
    cases hok : sys.shutdown with
    | false =>
        simp only [World.shutdown, hok, Bool.not_false, if_true] at h
        cases h
        exact .unclosed hends hempty hs hok
    | true =>
        simp only [World.shutdown, hok, Bool.not_true, Bool.false_eq_true,
          if_false] at h
        cases h
        exact .closes hends hempty hs hok

theorem copyRead_spec {sys : Sys} {side : Side} {fd : ℤ} {w w' : World}
    {ret : GlobalState} (hside : w.session.side? fd = some side)
    (hreg : w.selector.Registered fd)
    (h : copyRead sys fd w = .ok (ret, w')) :
    CopyReads sys side fd w ret w' := by
  unfold copyRead at h
  simp only [hside] at h
  obtain ⟨⟨received, w₁⟩, hrecv, h⟩ := bind_eq_ok.mp h
  obtain ⟨hreceives, rfl⟩ := World.recvInto_spec hrecv
  rcases received with ⟨bs, b⟩ | - | - | -
  · dsimp only at h
    obtain ⟨w₂, hsniff, h⟩ := bind_eq_ok.mp h
    obtain ⟨sniffer, rfl⟩ := sniff_spec hsniff
    obtain ⟨⟨status, w₃⟩, hset, h⟩ := bind_eq_ok.mp h
    obtain ⟨s, hs, rfl⟩ := World.reduceInterest_spec hset
    obtain rfl := hs.success_of_registered (by cases side <;> exact hreg)
    dsimp only at h
    rw [if_neg (by simp)] at h
    obtain ⟨status, s', hs', rfl, rfl⟩ := addInterest_closing h
    cases side <;> exact .relays hreceives hs hs'
  · cases hreceives with
    | eof heof => exact copyReadEnd_spec (Or.inl heof) hreg h
  · cases hreceives with
    | reset hreset => exact copyReadEnd_spec (Or.inr hreset) hreg h
  · cases hreceives with
    | failed hfailed =>
        cases h
        exact .failed hfailed

/-- What a side has been sent from, with what the sniffer has seen. -/
def Side.sent (side : Side) (fd : ℤ) (w : World) (bs : List UInt8)
    (sniffer : Pop3Sniffer) (b : Buffer) : World :=
  side.setOutbox (World.setSniffer (w.record (.send .copy fd bs)) sniffer) b

theorem Side.sent_eq (side : Side) (fd : ℤ) (w : World) (bs : List UInt8)
    (sniffer : Pop3Sniffer) (b : Buffer) :
    (side.sent fd w bs sniffer b).session.copy = w.session.copy ∧
      (side.sent fd w bs sniffer b).selector = w.selector ∧
      side.outbox (side.sent fd w bs sniffer b).session = b := by
  cases side <;> exact ⟨rfl, rfl, rfl⟩

theorem Side.sent_log(side : Side) (fd : ℤ) (w : World) (bs : List UInt8)
    (sniffer : Pop3Sniffer) (b : Buffer) :
    (side.sent fd w bs sniffer b).log = w.log ++ [.send .copy fd bs] := by
  cases side <;> rfl

/-- What `copy_write` does for a registered descriptor of a side. -/
inductive CopyWrites (sys : Sys) (side : Side) (fd : ℤ) (w : World) :
    GlobalState → World → Prop
  | failed : Sends sys (side.outbox w.session) none →
      CopyWrites sys side fd w .error (w.record (.send .copy fd []))
  | partly {bs : List UInt8} {b : Buffer} {sniffer : Pop3Sniffer}
      {status : SelectorStatus} {s : FdSelector} :
      Sends sys (side.outbox w.session) (some (bs, b)) → b.pending ≠ [] →
      side.peer.reading w.session.copy = true →
      ChangesInterest w.selector (uint8 (side.peer.fd w.session))
        (additive .read) status s →
      CopyWrites sys side fd w
        (afterInterest status (checkCloseConnection w.session.copy))
        ((side.sent fd w bs sniffer b).changed s
          (.addInterest (uint8 (side.peer.fd w.session)) .read))
  | partlyLast {bs : List UInt8} {b : Buffer} {sniffer : Pop3Sniffer} :
      Sends sys (side.outbox w.session) (some (bs, b)) → b.pending ≠ [] →
      side.peer.reading w.session.copy = false →
      CopyWrites sys side fd w (checkCloseConnection w.session.copy)
        (side.sent fd w bs sniffer b)
  | wholly {bs : List UInt8} {b : Buffer} {sniffer : Pop3Sniffer}
      {status : SelectorStatus} {s s' : FdSelector} :
      Sends sys (side.outbox w.session) (some (bs, b)) → b.pending = [] →
      side.peer.reading w.session.copy = true →
      ChangesInterest w.selector fd (reduction .write) .success s →
      ChangesInterest s (uint8 (side.peer.fd w.session)) (additive .read)
        status s' →
      CopyWrites sys side fd w
        (afterInterest status (checkCloseConnection w.session.copy))
        (((side.sent fd w bs sniffer b).changed s
          (.reduceInterest fd .write)).changed s'
          (.addInterest (uint8 (side.peer.fd w.session)) .read))
  | closes {bs : List UInt8} {b : Buffer} {sniffer : Pop3Sniffer}
      {s : FdSelector} :
      Sends sys (side.outbox w.session) (some (bs, b)) → b.pending = [] →
      side.peer.reading w.session.copy = false →
      ChangesInterest w.selector fd (reduction .write) .success s →
      sys.shutdown = true →
      CopyWrites sys side fd w
        (checkCloseConnection (side.stopWriting w.session.copy))
        ((((side.sent fd w bs sniffer b).changed s
          (.reduceInterest fd .write)).setCopy
          (side.stopWriting w.session.copy)).record (.shutdown fd))
  | unclosed {bs : List UInt8} {b : Buffer} {sniffer : Pop3Sniffer}
      {s : FdSelector} :
      Sends sys (side.outbox w.session) (some (bs, b)) → b.pending = [] →
      side.peer.reading w.session.copy = false →
      ChangesInterest w.selector fd (reduction .write) .success s →
      sys.shutdown = false →
      CopyWrites sys side fd w .error
        ((((side.sent fd w bs sniffer b).changed s
          (.reduceInterest fd .write)).setCopy
          (side.stopWriting w.session.copy)).record (.shutdown fd))

theorem copyWrite_spec {sys : Sys} {side : Side} {fd : ℤ} {w w' : World}
    {ret : GlobalState} (hside : w.session.side? fd = some side)
    (hreg : w.selector.Registered fd)
    (h : copyWrite sys fd w = .ok (ret, w')) :
    CopyWrites sys side fd w ret w' := by
  unfold copyWrite at h
  simp only [hside] at h
  obtain ⟨⟨sent, w₁⟩, hsend, h⟩ := bind_eq_ok.mp h
  obtain ⟨hsends, rfl⟩ := World.sendFrom_spec hsend
  rcases sent with - | ⟨bs, b⟩
  · cases h
    exact .failed hsends
  · dsimp only at h
    obtain ⟨w₂, hsniff, h⟩ := bind_eq_ok.mp h
    obtain ⟨sniffer, rfl⟩ := sniff_spec hsniff
    obtain ⟨⟨ok, w₃⟩, hdrained, h⟩ := bind_eq_ok.mp h
    change copyWriteDrained sys side fd (side.sent fd w bs sniffer b) =
      .ok (ok, w₃) at hdrained
    obtain ⟨hcopy, hselector, houtbox⟩ := side.sent_eq fd w bs sniffer b
    unfold copyWriteDrained at hdrained
    rw [houtbox] at hdrained
    by_cases hread : b.canRead = true
    · rw [if_pos hread] at hdrained
      cases hdrained
      have hne := (Buffer.canRead_iff b).mp hread
      dsimp only at h
      rw [if_neg (by simp), hcopy] at h
      by_cases hreading : side.peer.reading w.session.copy = true
      · rw [if_pos hreading] at h
        obtain ⟨status, s, hs, rfl, rfl⟩ := addInterest_closing h
        rw [hselector] at hs
        rw [hcopy]
        exact .partly hsends hne hreading hs
      · rw [if_neg hreading] at h
        cases h
        exact .partlyLast hsends hne (by simpa using hreading)
    · rw [if_neg hread] at hdrained
      have hempty := Buffer.pending_eq_nil hread
      obtain ⟨⟨status, w₄⟩, hset, hdrained⟩ := bind_eq_ok.mp hdrained
      obtain ⟨s, hs, rfl⟩ := World.reduceInterest_spec hset
      rw [hselector] at hs
      obtain rfl := hs.success_of_registered hreg
      dsimp only at hdrained
      rw [if_neg (by simp), hcopy] at hdrained
      by_cases hreading : side.peer.reading w.session.copy = true
      · rw [if_pos hreading] at hdrained
        cases hdrained
        dsimp only at h
        rw [if_neg (by simp), hcopy, if_pos hreading] at h
        obtain ⟨status, s', hs', rfl, rfl⟩ := addInterest_closing h
        dsimp only
        rw [hcopy]
        exact .wholly hsends hempty hreading hs hs'
      · rw [if_neg hreading] at hdrained
        rw [Bool.not_eq_true] at hreading
        cases hok : sys.shutdown with
        | false =>
            simp only [World.shutdown, hok] at hdrained
            cases hdrained
            cases h
            exact .unclosed hsends hempty hreading hs hok
        | true =>
            simp only [World.shutdown, hok] at hdrained
            cases hdrained
            dsimp only at h
            have hstopped : side.peer.reading
                (side.stopWriting w.session.copy) = false := by
              cases side <;> exact hreading
            rw [if_neg (by simp)] at h
            change (if side.peer.reading (side.stopWriting w.session.copy) = true
              then _ else _) = _ at h
            rw [if_neg (by simp [hstopped])] at h
            cases h
            exact .closes hsends hempty hreading hs hok

end Socksv5
