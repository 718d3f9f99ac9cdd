import Mathlib.Data.List.SplitLengths
import Socksv5.Consume
import Socksv5.Pop3Dialogue

/-!
# Sniffing a stream in chunks

`sniff_pop3` copies every chunk that the relay carries into the buffer of the
sniffer, whose `POP3_BUFF` bytes are fewer than the relay can carry at once:
what a chunk has beyond them is not seen.  The parser sees the rest of every
chunk, one byte after the other.
-/

namespace Socksv5

open Support

namespace Pop3Sniffer

/-- `parse_pop3_sniffer` for one byte at a time, until `POP3_FINISH` or
`POP3_SNIFF_SUCCESSFUL`. -/
def feedUntilFinal (s : Pop3Sniffer) : List UInt8 → Except Fault Pop3Sniffer
  | [] => .ok s
  | c :: cs =>
      if s.state.final then .ok s
      else do
        let s ← parsePop3Sniffer s c
        feedUntilFinal s cs

/-- The state, the user and the pass of the sniffer. -/
def outcome (s : Pop3Sniffer) :
    Pop3SnifferState × Option Block × Option Block :=
  (s.state, s.user, s.pass)

/-- The sniffer with another buffer and another `is_parsing`. -/
def reframe (b : Buffer) (p : Bool) (s : Pop3Sniffer) : Pop3Sniffer :=
  { s with buffer := b, isParsing := p }

@[simp] theorem outcome_reframe (b : Buffer) (p : Bool) (s : Pop3Sniffer) :
    (s.reframe b p).outcome = s.outcome :=
  rfl

@[simp] theorem state_reframe (b : Buffer) (p : Bool) (s : Pop3Sniffer) :
    (s.reframe b p).state = s.state :=
  rfl

end Pop3Sniffer

/-- `sniff_pop3` for the chunks of a stream, with the results of the allocations
of each call. -/
def sniffChunks (s : Pop3Sniffer) (chunks : List (List UInt8 × Allocs)) :
    Except Fault Pop3Sniffer :=
  chunks.foldlM (fun s x => sniffPop3 s x.1 x.2) s

/-! ## The parser and the buffer -/

/-- A transition that does not look at the buffer of the sniffer, nor at
`is_parsing`. -/
def IgnoresBuffer
    (f : Pop3Sniffer → UInt8 → Except Fault (Pop3SnifferState × Pop3Sniffer)) :
    Prop :=
  ∀ (b : Buffer) (p : Bool) (s : Pop3Sniffer) (c : UInt8),
    f (s.reframe b p) c =
      (f s c).map fun r => (r.1, r.2.reframe b p)

theorem readOkMsg_ignoresBuffer : IgnoresBuffer readOkMsg := by
  intro b p s c
  have hread : (s.reframe b p).read = s.read := rfl
  unfold readOkMsg
  rw [hread]
  cases charAt okText s.read with
  | error e => rfl
  | ok k =>
      by_cases hc : tolower c = tolower k
      · by_cases hlast : s.remaining - 1 = 0
        · simp [hc, hlast, Pop3Sniffer.reframe, resetIndexes, Except.map]
        · simp [hc, hlast, Pop3Sniffer.reframe, Except.map]
      · simp [hc, Except.map]

theorem readCommand_ignoresBuffer (text : List UInt8)
    (here next : Pop3SnifferState) :
    IgnoresBuffer (readCommand text here next) := by
  intro b p s c
  have hread : (s.reframe b p).read = s.read := rfl
  unfold readCommand
  rw [hread]
  cases charAt text s.read with
  | error e => rfl
  | ok k =>
      by_cases hc : tolower c = tolower k
      · by_cases hlast : s.remaining - 1 = 0
        · simp [hc, hlast, Pop3Sniffer.reframe, Except.map]
        · simp [hc, hlast, Pop3Sniffer.reframe, Except.map]
      · by_cases hfirst : s.read = 0
        · simp [hc, hfirst, Except.map]
        · simp [hc, hfirst, Pop3Sniffer.reframe, resetIndexes, Except.map]

theorem readUser_ignoresBuffer : IgnoresBuffer readUser := by
  intro b p s c
  have hread : (s.reframe b p).read = s.read := rfl
  have huser : (s.reframe b p).user = s.user := rfl
  unfold readUser
  rw [hread, huser]
  by_cases hc : c ≠ 10 ∧ c ≠ 13
  · rw [if_pos hc, if_pos hc]
    by_cases hroom : s.read.toNat < credentialsSize
    · rw [if_pos hroom, if_pos hroom]
      cases putByte s.user s.read.toNat c <;> rfl
    · rw [if_neg hroom, if_neg hroom]
      rfl
  · rw [if_neg hc, if_neg hc]
    cases putByte s.user s.read.toNat 0 <;> rfl

theorem readPass_ignoresBuffer : IgnoresBuffer readPass := by
  intro b p s c
  have hread : (s.reframe b p).read = s.read := rfl
  have hpass : (s.reframe b p).pass = s.pass := rfl
  unfold readPass
  rw [hread, hpass]
  by_cases hc : c ≠ 10 ∧ c ≠ 13
  · rw [if_pos hc, if_pos hc]
    by_cases hroom : s.read.toNat < credentialsSize
    · rw [if_pos hroom, if_pos hroom]
      cases putByte s.pass s.read.toNat c <;> rfl
    · rw [if_neg hroom, if_neg hroom]
      rfl
  · rw [if_neg hc, if_neg hc]
    cases putByte s.pass s.read.toNat 0 <;> rfl

theorem checkResponse_ignoresBuffer : IgnoresBuffer checkResponse := by
  intro b p s c
  have hread : (s.reframe b p).read = s.read := rfl
  have hcheck : (s.reframe b p).checkRead = s.checkRead := rfl
  unfold checkResponse
  rw [hread, hcheck]
  cases charAt okText s.read with
  | error e => rfl
  | ok k =>
      rw [ok_bind, ok_bind]
      by_cases hc : tolower c = tolower k
      · rw [if_pos hc, if_pos hc]
        rfl
      · rw [if_neg hc, if_neg hc]
        cases charAt errText s.checkRead with
        | error e => rfl
        | ok k =>
            rw [ok_bind, ok_bind]
            by_cases hc : tolower c = tolower k
            · rw [if_pos hc, if_pos hc]
              rfl
            · rw [if_neg hc, if_neg hc]
              rfl

theorem parsePop3Sniffer_reframe (b : Buffer) (p : Bool) (s : Pop3Sniffer)
    (c : UInt8) :
    parsePop3Sniffer (s.reframe b p) c =
      (parsePop3Sniffer s c).map (Pop3Sniffer.reframe b p) := by
  have hmap : ∀ {f}, IgnoresBuffer f →
      (f (s.reframe b p) c >>= fun r => (.ok { r.2 with state := r.1 } :
        Except Fault Pop3Sniffer)) =
      (f s c >>= fun r => .ok { r.2 with state := r.1 }).map
        (Pop3Sniffer.reframe b p) := by
    intro f hf
    rw [hf b p s c]
    cases f s c <;> rfl
  unfold parsePop3Sniffer
  rw [Pop3Sniffer.state_reframe]
  cases s.state with
  | init => exact hmap readOkMsg_ignoresBuffer
  | userCommand => exact hmap (readCommand_ignoresBuffer _ _ _)
  | readUser => exact hmap readUser_ignoresBuffer
  | passCommand => exact hmap (readCommand_ignoresBuffer _ _ _)
  | readPass => exact hmap readPass_ignoresBuffer
  | checkCreds => exact hmap checkResponse_ignoresBuffer
  | sniffSuccessful | finish => rfl

/-- The parser leaves the buffer and `is_parsing` as they are. -/
theorem parsePop3Sniffer_frame {s t : Pop3Sniffer} {c : UInt8}
    (h : parsePop3Sniffer s c = .ok t) :
    t.buffer = s.buffer ∧ t.isParsing = s.isParsing := by
  have hsame := parsePop3Sniffer_reframe s.buffer s.isParsing s c
  have hself : s.reframe s.buffer s.isParsing = s := rfl
  rw [hself, h] at hsame
  have ht : t = t.reframe s.buffer s.isParsing := Except.ok.inj hsame
  rw [ht]
  exact ⟨rfl, rfl⟩

namespace Pop3Sniffer

theorem feedUntilFinal_of_final {s : Pop3Sniffer} (h : s.state.final = true)
    (bytes : List UInt8) : s.feedUntilFinal bytes = .ok s := by
  cases bytes with
  | nil => rfl
  | cons c cs => exact if_pos h

theorem feedUntilFinal_append (s : Pop3Sniffer) (xs ys : List UInt8) :
    s.feedUntilFinal (xs ++ ys) =
      s.feedUntilFinal xs >>= fun t => t.feedUntilFinal ys := by
  induction xs generalizing s with
  | nil => rfl
  | cons c cs ih =>
      rw [List.cons_append, feedUntilFinal, feedUntilFinal]
      by_cases hfinal : s.state.final = true
      · rw [if_pos hfinal, if_pos hfinal, ok_bind,
          feedUntilFinal_of_final hfinal]
      · rw [if_neg hfinal, if_neg hfinal]
        cases parsePop3Sniffer s c with
        | error e => rfl
        | ok t => exact ih t

theorem feedUntilFinal_reframe (b : Buffer) (p : Bool) (s : Pop3Sniffer)
    (bytes : List UInt8) :
    (s.reframe b p).feedUntilFinal bytes =
      (s.feedUntilFinal bytes).map (reframe b p) := by
  induction bytes generalizing s with
  | nil => rfl
  | cons c cs ih =>
      rw [feedUntilFinal, feedUntilFinal, state_reframe]
      by_cases hfinal : s.state.final = true
      · rw [if_pos hfinal, if_pos hfinal]
        rfl
      · rw [if_neg hfinal, if_neg hfinal, parsePop3Sniffer_reframe]
        cases parsePop3Sniffer s c with
        | error e => rfl
        | ok t => exact ih t

/-- Where the buffer does not matter, neither does it for the outcome. -/
theorem outcome_feedUntilFinal (b : Buffer) (p : Bool) (s : Pop3Sniffer)
    (bytes : List UInt8) :
    ((s.reframe b p).feedUntilFinal bytes).map outcome =
      (s.feedUntilFinal bytes).map outcome := by
  rw [feedUntilFinal_reframe]
  cases s.feedUntilFinal bytes <;> rfl

/-- The sniffer has ended, or its buffer is empty and all of it is free. -/
def Idle (s : Pop3Sniffer) : Prop :=
  s.isParsing = true ∧
    (s.state.final = false →
      s.buffer.pending = [] ∧ s.buffer.Settled ∧ s.buffer.limit = pop3Buff)

end Pop3Sniffer

/-! ## One chunk -/

/-- The loop of `pop3_sniffer_consume` feeds what is pending. -/
theorem exists_pop3SnifferLoop {s : Pop3Sniffer} (hset : s.buffer.Settled) :
    ∃ b, pop3SnifferLoop s.buffer.pending.length s =
        (s.feedUntilFinal s.buffer.pending).map (.reframe b s.isParsing) ∧
      ∀ t, s.feedUntilFinal s.buffer.pending = .ok t →
        t.state.final = false →
        b.pending = [] ∧ b.Settled ∧ b.limit = s.buffer.limit := by
  generalize hbytes : s.buffer.pending = bytes
  induction bytes generalizing s with
  | nil =>
      refine ⟨s.buffer, rfl, ?_⟩
      intro t _ _
      exact ⟨hbytes, hset, rfl⟩
  | cons c cs ih =>
      rw [List.length_cons, pop3SnifferLoop, Pop3Sniffer.feedUntilFinal]
      have hcan : s.buffer.canRead = true := by
        rw [Buffer.canRead_iff, hbytes]
        exact List.cons_ne_nil c cs
      by_cases hfinal : s.state.final = true
      · refine ⟨s.buffer, ?_, ?_⟩
        · rw [hfinal, Bool.not_true, Bool.and_false, if_neg Bool.false_ne_true,
            if_pos rfl]
          rfl
        · intro t ht hnot
          rw [if_pos hfinal] at ht
          cases ht
          rw [hfinal] at hnot
          cases hnot
      · obtain ⟨d, b₁, hread⟩ := Buffer.exists_readByte hcan
        obtain ⟨hpending, hleft⟩ := Buffer.readByte_spec hcan hread
        rw [hbytes] at hpending
        obtain ⟨rfl, hcs⟩ := List.cons.inj hpending
        have hframe : ({ s with buffer := b₁ } : Pop3Sniffer) =
            s.reframe b₁ s.isParsing := rfl
        rw [if_neg hfinal, if_pos (by simp [hcan, hfinal]), hread, ok_bind]
        dsimp only
        rw [hframe, parsePop3Sniffer_reframe]
        cases hparse : parsePop3Sniffer s c with
        | error e =>
            refine ⟨s.buffer, rfl, ?_⟩
            intro t ht
            cases ht
        | ok t =>
            obtain ⟨-, hparsing⟩ := parsePop3Sniffer_frame hparse
            have hset₁ : (t.reframe b₁ s.isParsing).buffer.Settled :=
              hleft.settled
            obtain ⟨b, hloop, hempty⟩ := ih hset₁ hcs.symm
            refine ⟨b, ?_, ?_⟩
            · refine hloop.trans ?_
              rw [Pop3Sniffer.feedUntilFinal_reframe, ok_bind]
              cases t.feedUntilFinal cs <;> rfl
            · intro t' ht' hnot
              obtain ⟨hnil, hsettled, hlimit⟩ :=
                hempty (t'.reframe b₁ s.isParsing)
                  (by rw [Pop3Sniffer.feedUntilFinal_reframe]; rw [ok_bind] at ht'
                      rw [ht']; rfl) hnot
              exact ⟨hnil, hsettled, hlimit.trans hleft.limit⟩

theorem Buffer.Settled.put {b b' : Buffer} {bs : List UInt8} (h : b.Settled)
    (hput : b.put bs = .ok b') : b'.Settled := by
  cases bs with
  | nil =>
      have hroom : ([] : List UInt8).length ≤ b.room := Nat.zero_le _
      have hpos : (-1 : ℤ) < ([] : List UInt8).length := by decide
      rw [Buffer.put, Buffer.store, if_pos hroom, ok_bind, Buffer.writeAdv,
        if_pos hpos] at hput
      split at hput
      case isTrue =>
        cases hput
        exact h
      case isFalse => cases hput
  | cons c cs => exact (Buffer.put_spec hput).2.2.2 (List.cons_ne_nil c cs)

/-- A call of `sniff_pop3` feeds the first `POP3_BUFF` bytes of the chunk. -/
theorem sniffPop3_idle {s : Pop3Sniffer} (hs : s.Idle) (bytes : List UInt8)
    (a : Allocs) :
    ∃ b, sniffPop3 s bytes a =
        (s.feedUntilFinal (bytes.take pop3Buff)).map (.reframe b true) ∧
      ∀ t, s.feedUntilFinal (bytes.take pop3Buff) = .ok t →
        (t.reframe b true).Idle := by
  obtain ⟨hparsing, hidle⟩ := hs
  unfold sniffPop3
  rw [if_pos hparsing]
  dsimp only
  by_cases hfinal : s.state.final = true
  · refine ⟨s.buffer, ?_, ?_⟩
    · rw [if_pos hfinal, Pop3Sniffer.feedUntilFinal_of_final hfinal, ← hparsing]
      rfl
    · intro t ht
      rw [Pop3Sniffer.feedUntilFinal_of_final hfinal] at ht
      cases ht
      refine ⟨rfl, fun hnot => ?_⟩
      rw [Pop3Sniffer.state_reframe, hfinal] at hnot
      cases hnot
  · obtain ⟨hnil, hset, hlimit⟩ := hidle (Bool.eq_false_iff.mpr hfinal)
    have hroom : s.buffer.room = pop3Buff :=
      (hset.room_of_pending hnil).trans hlimit
    have htake : bytes.take (if bytes.length ≤ s.buffer.room then bytes.length
        else s.buffer.room) = bytes.take pop3Buff := by
      rw [hroom]
      split
      case isTrue hle => rw [List.take_length, List.take_of_length_le hle]
      case isFalse => rfl
    have hfits : (bytes.take pop3Buff).length ≤ s.buffer.room := by
      rw [hroom]
      exact List.length_take_le _ _
    obtain ⟨b₁, hput⟩ := Buffer.exists_put hfits
    obtain ⟨hpending, -, hlimit₁, -⟩ := Buffer.put_spec hput
    rw [hnil, List.nil_append] at hpending
    have hset₁ : (s.reframe b₁ true).buffer.Settled := hset.put hput
    obtain ⟨b, hloop, hempty⟩ := exists_pop3SnifferLoop hset₁
    have hbuffer : (s.reframe b₁ true).buffer.pending =
        bytes.take pop3Buff := hpending
    rw [hbuffer] at hloop hempty
    have hsame : ({ s with buffer := b₁ } : Pop3Sniffer) =
        s.reframe b₁ true := by
      rw [← hparsing]
      rfl
    refine ⟨b, ?_, ?_⟩
    · rw [if_neg hfinal, htake, hput, ok_bind, hsame, pop3SnifferConsume,
        ← Buffer.length_pending, hbuffer, hloop,
        Pop3Sniffer.feedUntilFinal_reframe]
      cases s.feedUntilFinal (bytes.take pop3Buff) <;> rfl
    · intro t ht
      refine ⟨rfl, fun hnot => ?_⟩
      obtain ⟨hpending', hset', hlimit'⟩ := hempty (t.reframe b₁ true)
        (by rw [Pop3Sniffer.feedUntilFinal_reframe, ht]; rfl) hnot
      exact ⟨hpending', hset', hlimit'.trans (hlimit₁.trans hlimit)⟩

/-! ## A stream -/

/-- The bytes of the chunks. -/
def carried (chunks : List (List UInt8 × Allocs)) : List UInt8 :=
  chunks.flatMap Prod.fst

/-- The bytes of the chunks that the buffer of the sniffer has room for. -/
def copied (chunks : List (List UInt8 × Allocs)) : List UInt8 :=
  chunks.flatMap fun x => x.1.take pop3Buff

theorem sniffChunks_idle {s : Pop3Sniffer} (hs : s.Idle)
    (chunks : List (List UInt8 × Allocs)) :
    (sniffChunks s chunks).map Pop3Sniffer.outcome =
      (s.feedUntilFinal (copied chunks)).map Pop3Sniffer.outcome := by
  induction chunks generalizing s with
  | nil => rfl
  | cons x chunks ih =>
      obtain ⟨b, hsniff, hidle⟩ := sniffPop3_idle hs x.1 x.2
      rw [sniffChunks, List.foldlM_cons, hsniff, copied, List.flatMap_cons,
        Pop3Sniffer.feedUntilFinal_append]
      cases hfeed : s.feedUntilFinal (x.1.take pop3Buff) with
      | error e => rfl
      | ok t =>
          have hrest := ih (hidle t hfeed)
          rw [Pop3Sniffer.outcome_feedUntilFinal] at hrest
          exact hrest

/-- The sniffer of a new session sees the bytes that its buffer has room for. -/
theorem sniffChunks_eq (x : List UInt8 × Allocs)
    (chunks : List (List UInt8 × Allocs)) :
    (sniffChunks {} (x :: chunks)).map Pop3Sniffer.outcome =
      ((pop3SnifferInit {} x.2).feedUntilFinal (copied (x :: chunks))).map
        Pop3Sniffer.outcome := by
  have hidle : (pop3SnifferInit {} x.2).Idle :=
    ⟨rfl, fun _ => ⟨rfl, Buffer.settled_init _ _, rfl⟩⟩
  rw [← sniffChunks_idle hidle]
  rfl

/-! ## What is dropped -/

/-- The bytes before the first one that is dropped. -/
def seenFirst : List (List UInt8 × Allocs) → List UInt8
  | [] => []
  | x :: chunks =>
      if x.1.length ≤ pop3Buff then x.1 ++ seenFirst chunks
      else x.1.take pop3Buff

theorem seenFirst_prefix_copied (chunks : List (List UInt8 × Allocs)) :
    seenFirst chunks <+: copied chunks := by
  induction chunks with
  | nil => exact List.prefix_refl []
  | cons x chunks ih =>
      rw [seenFirst, copied, List.flatMap_cons]
      by_cases hle : x.1.length ≤ pop3Buff
      · rw [if_pos hle, List.take_of_length_le hle]
        exact List.prefix_append_right_inj _ |>.mpr ih
      · rw [if_neg hle]
        exact List.prefix_append _ _

theorem seenFirst_prefix_carried (chunks : List (List UInt8 × Allocs)) :
    seenFirst chunks <+: carried chunks := by
  induction chunks with
  | nil => exact List.prefix_refl []
  | cons x chunks ih =>
      rw [seenFirst, carried, List.flatMap_cons]
      by_cases hle : x.1.length ≤ pop3Buff
      · rw [if_pos hle]
        exact List.prefix_append_right_inj _ |>.mpr ih
      · rw [if_neg hle]
        exact (List.take_prefix _ _).trans (List.prefix_append _ _)

theorem copied_eq_carried {chunks : List (List UInt8 × Allocs)}
    (h : ∀ x ∈ chunks, x.1.length ≤ pop3Buff) : copied chunks = carried chunks := by
  apply List.flatMap_congr
  intro x hx
  exact List.take_of_length_le (h x hx)

/-- What follows the end of the sniffing makes no difference. -/
theorem feedUntilFinal_of_ended {s : Pop3Sniffer} {xs ys : List UInt8}
    (hxs : ∀ t, s.feedUntilFinal xs = .ok t → t.state.final = true)
    (h : xs <+: ys) : s.feedUntilFinal ys = s.feedUntilFinal xs := by
  obtain ⟨zs, rfl⟩ := h
  rw [Pop3Sniffer.feedUntilFinal_append]
  cases hfeed : s.feedUntilFinal xs with
  | error e => rfl
  | ok t => exact Pop3Sniffer.feedUntilFinal_of_final (hxs t hfeed) zs

/-- The stream that comes in these chunks to a new session is sniffed as by
`parse_pop3_sniffer` for one byte at a time. -/
def SniffedBytewise (x : List UInt8 × Allocs)
    (chunks : List (List UInt8 × Allocs)) : Prop :=
  (sniffChunks {} (x :: chunks)).map Pop3Sniffer.outcome =
    ((pop3SnifferInit {} x.2).feedUntilFinal (carried (x :: chunks))).map
      Pop3Sniffer.outcome

/-- No chunk has more bytes than the buffer of the sniffer, or the sniffing has
ended when the first byte is dropped. -/
def NothingMissed (x : List UInt8 × Allocs)
    (chunks : List (List UInt8 × Allocs)) : Prop :=
  (∀ y ∈ x :: chunks, y.1.length ≤ pop3Buff) ∨
    ∀ t, (pop3SnifferInit {} x.2).feedUntilFinal (seenFirst (x :: chunks)) =
      .ok t → t.state.final = true

theorem NothingMissed.bytewise {x : List UInt8 × Allocs}
    {chunks : List (List UInt8 × Allocs)} (h : NothingMissed x chunks) :
    SniffedBytewise x chunks := by
  rw [SniffedBytewise, sniffChunks_eq]
  rcases h with hshort | hended
  · rw [copied_eq_carried hshort]
  · rw [feedUntilFinal_of_ended hended (seenFirst_prefix_copied _),
      feedUntilFinal_of_ended hended (seenFirst_prefix_carried _)]

/-! ## A name that is dropped -/

/-- Bytes that the parser passes over. -/
theorem feedUntilFinal_replicate {s : Pop3Sniffer} {c : UInt8}
    (hfinal : s.state.final = false) (hparse : parsePop3Sniffer s c = .ok s)
    (n : ℕ) (bytes : List UInt8) :
    s.feedUntilFinal (List.replicate n c ++ bytes) = s.feedUntilFinal bytes := by
  induction n with
  | zero => rfl
  | succ n ih =>
      rw [List.replicate_succ, List.cons_append, Pop3Sniffer.feedUntilFinal,
        if_neg (Bool.eq_false_iff.mp hfinal), hparse]
      exact ih

/-- The sniffer after the greeting. -/
def greetedSniffer : Pop3Sniffer :=
  { pop3SnifferInit {} [] with state := .userCommand, remaining := 5 }

theorem feedUntilFinal_greeting (n : ℕ) (bytes : List UInt8) :
    (pop3SnifferInit {} []).feedUntilFinal
        (okText ++ (List.replicate n 120 ++ bytes)) =
      greetedSniffer.feedUntilFinal bytes := by
  rw [Pop3Sniffer.feedUntilFinal_append]
  have hgreeted : (pop3SnifferInit {} []).feedUntilFinal okText =
      .ok greetedSniffer := rfl
  rw [hgreeted, ok_bind]
  exact feedUntilFinal_replicate rfl rfl n bytes

/-- The end of the name is not seen in bytes that do not end it. -/
theorem state_feedUntilFinal_of_readUser {s t : Pop3Sniffer} {n : ℕ}
    (hstate : s.state = .readUser)
    (h : s.feedUntilFinal (List.replicate n 120) = .ok t) :
    t.state = .readUser := by
  induction n generalizing s with
  | zero =>
      cases h
      exact hstate
  | succ n ih =>
      have hlive : ¬ s.state.final = true := by
        rw [hstate]
        decide
      rw [List.replicate_succ, Pop3Sniffer.feedUntilFinal, if_neg hlive] at h
      obtain ⟨s₁, hparse, hrest⟩ := bind_eq_ok.mp h
      refine ih ?_ hrest
      have hname : (120 : UInt8) ≠ 10 ∧ (120 : UInt8) ≠ 13 := by decide
      rw [parsePop3Sniffer, hstate] at hparse
      obtain ⟨⟨next, s₂⟩, hread, hs₁⟩ := bind_eq_ok.mp hparse
      cases hs₁
      rw [readUser, if_pos hname] at hread
      split at hread
      · obtain ⟨user, -, hread⟩ := bind_eq_ok.mp hread
        cases hread
        rfl
      · cases hread
        rfl

/-- With the newline after an empty name dropped, the sniffer goes on reading the
name. -/
theorem outcome_ne_of_dropped (m n k : ℕ) :
    ((pop3SnifferInit {} []).feedUntilFinal
        (okText ++ (List.replicate m 120 ++ (userText ++
          List.replicate n 120)))).map Pop3Sniffer.outcome ≠
      ((pop3SnifferInit {} []).feedUntilFinal
        (okText ++ (List.replicate m 120 ++ (userText ++
          10 :: List.replicate k 120)))).map Pop3Sniffer.outcome := by
  rw [feedUntilFinal_greeting, feedUntilFinal_greeting,
    Pop3Sniffer.feedUntilFinal_append, Pop3Sniffer.feedUntilFinal_append]
  obtain ⟨s, hs, hreading⟩ : ∃ s, greetedSniffer.feedUntilFinal userText = .ok s ∧
      s.state = .readUser := ⟨_, rfl, rfl⟩
  obtain ⟨t, ht, hlive, hstate, hpassed⟩ : ∃ t, s.feedUntilFinal [10] = .ok t ∧
      t.state.final = false ∧ t.state = .passCommand ∧
      parsePop3Sniffer t 120 = .ok t := by
    cases hs
    exact ⟨_, rfl, rfl, rfl, rfl⟩
  have hnamed : s.feedUntilFinal (10 :: List.replicate k 120) = .ok t := by
    rw [← List.singleton_append, Pop3Sniffer.feedUntilFinal_append, ht, ok_bind,
      ← List.append_nil (List.replicate k 120),
      feedUntilFinal_replicate hlive hpassed]
    rfl
  rw [hs, ok_bind, ok_bind, hnamed]
  cases hfeed : s.feedUntilFinal (List.replicate n 120) with
  | error e => exact nofun
  | ok u =>
      intro heq
      have hsame : u.state = t.state :=
        congrArg Prod.fst (Except.ok.inj heq)
      rw [state_feedUntilFinal_of_readUser hreading hfeed, hstate] at hsame
      cases hsame

/-- The first chunk that is too long is found. -/
theorem exists_first_overlong {lengths : List ℕ}
    (h : ∃ n ∈ lengths, pop3Buff < n) :
    ∃ before n after, lengths = before ++ n :: after ∧ pop3Buff < n ∧
      ∀ m ∈ before, m ≤ pop3Buff := by
  have hsome : (lengths.find? fun n => pop3Buff < n).isSome = true := by
    rw [List.find?_isSome]
    obtain ⟨n, hn, hover⟩ := h
    exact ⟨n, hn, decide_eq_true hover⟩
  obtain ⟨n, hn⟩ := Option.isSome_iff_exists.mp hsome
  obtain ⟨hover, before, after, rfl, hbefore⟩ :=
    List.find?_eq_some_iff_append.mp hn
  refine ⟨before, n, after, rfl, of_decide_eq_true hover, ?_⟩
  intro m hm
  exact not_lt.mp (of_decide_eq_false (Bool.not_eq_true' _ ▸ hbefore m hm))

/-- The greeting, text and the keyword before a name, in as many bytes as are seen
when the first one is dropped from a chunk that comes after `m` bytes. -/
def beforeDropped (m : ℕ) : List UInt8 :=
  okText ++ (List.replicate (m + pop3Buff - 8) 120 ++ userText)

theorem length_beforeDropped (m : ℕ) :
    (beforeDropped m).length = m + pop3Buff := by
  have hbuff : pop3Buff = 4096 := rfl
  have hok : okText.length = 3 := rfl
  have huser : userText.length = 5 := rfl
  rw [beforeDropped, List.length_append, List.length_append,
    List.length_replicate]
  omega

/-- Chunks of given lengths, of which the `n` bytes of one are too many: the first
byte that is dropped is the newline that ends the name. -/
def missedChunks (before : List ℕ) (n : ℕ) (after : List ℕ) :
    List (List UInt8) :=
  before.splitLengths ((beforeDropped before.sum).take before.sum) ++
    ((beforeDropped before.sum).drop before.sum ++
        10 :: List.replicate (n - pop3Buff - 1) 120) ::
      after.map fun m => List.replicate m 120

theorem length_take_beforeDropped (m : ℕ) :
    ((beforeDropped m).take m).length = m := by
  rw [List.length_take, length_beforeDropped]
  omega

theorem length_drop_beforeDropped (m : ℕ) :
    ((beforeDropped m).drop m).length = pop3Buff := by
  rw [List.length_drop, length_beforeDropped]
  omega

theorem map_length_missedChunks (before after : List ℕ) {n : ℕ}
    (hover : pop3Buff < n) :
    (missedChunks before n after).map List.length = before ++ n :: after := by
  have hlong : ((beforeDropped before.sum).drop before.sum ++
      10 :: List.replicate (n - pop3Buff - 1) 120).length = n := by
    rw [List.length_append, length_drop_beforeDropped, List.length_cons,
      List.length_replicate]
    omega
  have hafter : (after.map fun m => List.replicate m (120 : UInt8)).map
      List.length = after := by
    rw [List.map_map]
    exact (List.map_congr_left fun m _ => List.length_replicate).trans
      (List.map_id after)
  rw [missedChunks, List.map_append, List.map_cons, hlong, hafter,
    List.map_splitLengths_length _ _
      (le_of_eq (length_take_beforeDropped _).symm)]

/-- What the sniffer sees of these chunks. -/
theorem exists_seen_missedChunks {before : List ℕ}
    (hbefore : ∀ m ∈ before, m ≤ pop3Buff) (n : ℕ) (after : List ℕ) :
    ∃ k, ((missedChunks before n after).flatMap fun b => b.take pop3Buff) =
      beforeDropped before.sum ++ List.replicate k 120 := by
  let early := before.splitLengths ((beforeDropped before.sum).take before.sum)
  have hshort : (early.flatMap fun b => b.take pop3Buff) =
      (beforeDropped before.sum).take before.sum := by
    have htake : (early.flatMap fun b => b.take pop3Buff) = early.flatMap id := by
      apply List.flatMap_congr
      intro b hb
      apply List.take_of_length_le
      apply hbefore
      rw [← List.map_splitLengths_length _ _
        (le_of_eq (length_take_beforeDropped before.sum).symm)]
      exact List.mem_map_of_mem hb
    rw [htake, List.flatMap_id]
    exact List.flatten_splitLengths _ _
      (le_of_eq (length_take_beforeDropped before.sum))
  refine ⟨((after.map fun m => List.replicate m (120 : UInt8)).flatMap
    fun b => b.take pop3Buff).length, ?_⟩
  rw [missedChunks, List.flatMap_append, List.flatMap_cons, hshort,
    List.take_left' (length_drop_beforeDropped _), ← List.append_assoc,
    List.take_append_drop]
  apply congrArg
  apply List.eq_replicate_of_mem
  intro c hc
  obtain ⟨b, hb, hc⟩ := List.mem_flatMap.mp hc
  obtain ⟨m, -, rfl⟩ := List.mem_map.mp hb
  exact List.eq_of_mem_replicate (List.mem_of_mem_take hc)

/-- What these chunks carry. -/
theorem exists_flatten_missedChunks (before : List ℕ) (n : ℕ) (after : List ℕ) :
    ∃ k, (missedChunks before n after).flatten =
      beforeDropped before.sum ++ 10 :: List.replicate k 120 := by
  have hafter : (after.map fun m => List.replicate m (120 : UInt8)).flatten =
      List.replicate (after.map fun m => List.replicate m (120 : UInt8)).flatten.length
        120 := by
    apply List.eq_replicate_of_mem
    intro c hc
    obtain ⟨b, hb, hc⟩ := List.mem_flatten.mp hc
    obtain ⟨m, -, rfl⟩ := List.mem_map.mp hb
    exact List.eq_of_mem_replicate hc
  refine ⟨n - pop3Buff - 1 +
    (after.map fun m => List.replicate m (120 : UInt8)).flatten.length, ?_⟩
  rw [← List.replicate_append_replicate, ← hafter, missedChunks,
    List.flatten_append, List.flatten_cons,
    List.flatten_splitLengths _ _ (le_of_eq (length_take_beforeDropped _)),
    ← List.append_assoc, ← List.append_assoc, List.take_append_drop,
    List.append_assoc, List.cons_append]

/-- A split in which a chunk is longer than the buffer of the sniffer is one in
which some stream is not sniffed as it should be. -/
theorem exists_not_bytewise {lengths : List ℕ}
    (h : ∃ n ∈ lengths, pop3Buff < n) :
    ∃ (x : List UInt8 × Allocs) (chunks : List (List UInt8 × Allocs)),
      (x :: chunks).map (fun y => y.1.length) = lengths ∧
        ¬ SniffedBytewise x chunks := by
  obtain ⟨before, n, after, rfl, hover, hbefore⟩ := exists_first_overlong h
  have hlengths := map_length_missedChunks before after hover
  obtain ⟨k, hseen⟩ := exists_seen_missedChunks hbefore n after
  obtain ⟨l, hflatten⟩ := exists_flatten_missedChunks before n after
  cases hchunks : missedChunks before n after with
  | nil =>
      rw [hchunks] at hlengths
      exact absurd hlengths.symm (by simp)
  | cons chunk later =>
      refine ⟨(chunk, []), later.map fun b => (b, []), ?_, ?_⟩
      · rw [← hlengths, hchunks, List.map_cons, List.map_cons, List.map_map]
        rfl
      · have hcopied : copied ((chunk, []) :: later.map fun b => (b, [])) =
            beforeDropped before.sum ++ List.replicate k 120 := by
          rw [← hseen, hchunks, copied, List.flatMap_cons, List.flatMap_cons,
            List.flatMap_map]
        have hcarried : carried ((chunk, []) :: later.map fun b => (b, [])) =
            beforeDropped before.sum ++ 10 :: List.replicate l 120 := by
          rw [← hflatten, hchunks, carried, List.flatMap_cons, List.flatten_cons,
            List.flatMap_map, List.flatMap_id']
        rw [SniffedBytewise, sniffChunks_eq, hcopied, hcarried, beforeDropped,
          List.append_assoc, List.append_assoc, List.append_assoc,
          List.append_assoc]
        exact outcome_ne_of_dropped _ k l

/-- A stream of which nothing is missed is sniffed as by `parse_pop3_sniffer` for
one byte at a time.  A split of a stream is one for which this is so whatever the
bytes are exactly when it has no chunk of more than `POP3_BUFF` bytes. -/
theorem sniffChunks_bytewise (lengths : List ℕ) :
    (∀ x chunks, NothingMissed x chunks → SniffedBytewise x chunks) ∧
      ((∀ x chunks, (x :: chunks).map (fun y => y.1.length) = lengths →
          SniffedBytewise x chunks) ↔
        ∀ n ∈ lengths, n ≤ pop3Buff) := by
  refine ⟨fun x chunks h => h.bytewise, ?_, ?_⟩
  · intro h n hn
    by_contra hover
    obtain ⟨x, chunks, hlengths, hnot⟩ :=
      exists_not_bytewise ⟨n, hn, not_le.mp hover⟩
    exact hnot (h x chunks hlengths)
  · rintro h x chunks rfl
    apply NothingMissed.bytewise
    left
    intro y hy
    exact h y.1.length (List.mem_map_of_mem (f := fun y => y.1.length) hy)

/-- What is not a dialogue of POP3 is sniffed up to its first byte, however long
the chunk is. -/
theorem sniffChunks_bytewise_of_text :
    SniffedBytewise (List.replicate 4103 120, []) [] := by
  apply (sniffChunks_bytewise []).1
  right
  intro t ht
  have hseen : seenFirst [(List.replicate 4103 120, [])] =
      [120] ++ List.replicate 4095 120 := by
    have hlong : ¬ (List.replicate 4103 (120 : UInt8)).length ≤ pop3Buff := by
      rw [List.length_replicate]
      decide
    rw [seenFirst, if_neg hlong, List.take_replicate]
    rfl
  rw [hseen, Pop3Sniffer.feedUntilFinal_append] at ht
  obtain ⟨s, hs, hrest⟩ := bind_eq_ok.mp ht
  have hfinal : s.state.final = true := by
    cases hs
    rfl
  rw [Pop3Sniffer.feedUntilFinal_of_final hfinal] at hrest
  cases hrest
  exact hfinal

/-- The greeting, more text than the buffer of the sniffer has room for, and a
name. -/
def overlongChunk : List UInt8 :=
  okText ++ (List.replicate 4093 120 ++ (userText ++ [97, 10]))

/-- A chunk that `recv` can return, of which the name is not seen. -/
theorem overlongChunk_not_bytewise :
    1 ≤ overlongChunk.length ∧ overlongChunk.length ≤ maxBuffSize ∧
      (sniffChunks {} [(overlongChunk, [])]).map Pop3Sniffer.outcome ≠
        ((pop3SnifferInit {} []).feedUntilFinal
          (carried [(overlongChunk, [])])).map Pop3Sniffer.outcome := by
  have hlen : overlongChunk.length = 4103 := by
    rw [overlongChunk, List.length_append, List.length_append,
      List.length_replicate]
    rfl
  have hcopied : copied [(overlongChunk, [])] =
      okText ++ (List.replicate 4093 120 ++ []) := by
    have hprefix : (okText ++ List.replicate 4093 120).length = pop3Buff := by
      rw [List.length_append, List.length_replicate]
      rfl
    rw [copied, List.flatMap_singleton, overlongChunk, ← List.append_assoc,
      ← hprefix, List.take_left, List.append_nil]
  have hcarried : carried [(overlongChunk, [])] = overlongChunk := by
    rw [carried, List.flatMap_singleton]
  refine ⟨by omega, by rw [hlen]; decide, ?_⟩
  rw [sniffChunks_eq, hcopied, hcarried, overlongChunk, feedUntilFinal_greeting,
    feedUntilFinal_greeting]
  decide

end Socksv5
