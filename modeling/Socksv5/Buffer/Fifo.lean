import Socksv5.Consume
import Socksv5.Support.Run

/-!
# The buffer as a queue

Any sequence of the operations of `buffer.c`, with what is written to the buffer
and what is delivered to its readers since the last `buffer_init` or
`buffer_reset`.  An operation is used as the header prescribes: no more is
stored, or advanced, than the pointer functions report.
-/

namespace Socksv5

open Support

/-- The operations. `fill` stores bytes at `buffer_write_ptr` and calls
`buffer_write_adv`. -/
inductive BufferOp
  | init (n : ℕ) (data : ℕ → UInt8)
  | write (c : UInt8)
  | fill (bs : List UInt8) (bytes : ℤ)
  | read
  | readAdv (bytes : ℤ)
  | compact
  | reset

/-- The operation stays within what the pointer functions report. -/
def BufferOp.Allowed (b : Buffer) : BufferOp → Prop
  | .fill bs bytes => bs.length ≤ b.room ∧ bytes ≤ b.room
  | .readAdv bytes => bytes ≤ b.count
  | _ => True

/-- A buffer, the capacity that it was initialised with, and what has gone
through it. -/
structure BufferHistory where
  buffer : Buffer
  capacity : ℕ
  written : List UInt8 := []
  delivered : List UInt8 := []

namespace BufferHistory

/-- A buffer that has been initialised. -/
def init (n : ℕ) (data : ℕ → UInt8) : BufferHistory where
  buffer := .init n data
  capacity := n

/-- An operation.  What has been written is what lies between the old and the
new `write`, and what has been delivered is what lay between the old and the
new `read`. -/
def perform (h : BufferHistory) : BufferOp → Except Fault BufferHistory
  | .init n data => .ok (init n data)
  | .write c => do
      let b ← h.buffer.writeByte c
      .ok { h with
        buffer := b
        written := h.written ++ if h.buffer.canWrite then [c] else [] }
  | .fill bs bytes => do
      let b ← h.buffer.store bs
      let b' ← b.writeAdv bytes
      .ok { h with
        buffer := b'
        written := h.written ++ window b.data b.write bytes.toNat }
  | .read => do
      let (c, b) ← h.buffer.readByte
      .ok { h with
        buffer := b
        delivered := h.delivered ++ if h.buffer.canRead then [c] else [] }
  | .readAdv bytes => do
      let b ← h.buffer.readAdv bytes
      .ok { h with
        buffer := b
        delivered := h.delivered ++
          window h.buffer.data h.buffer.read bytes.toNat }
  | .compact => .ok { h with buffer := h.buffer.compact }
  | .reset => .ok { h with
      buffer := h.buffer.reset, written := [], delivered := [] }

/-- An operation that is allowed. -/
def Step (h : BufferHistory) (op : BufferOp) (h' : BufferHistory) : Prop :=
  op.Allowed h.buffer ∧ h.perform op = .ok h'

/-- The buffer is a queue: what has been written is what has been delivered and
what is pending, and the whole block is free when nothing is. -/
structure IsQueue (h : BufferHistory) : Prop where
  limit : h.buffer.limit = h.capacity
  fifo : h.delivered ++ h.buffer.pending = h.written
  settled : h.buffer.Settled

end BufferHistory

/-! ## The operations -/

namespace Buffer

/-- Compacting moves the pending bytes. -/
theorem pending_compact (b : Buffer) : b.compact.pending = b.pending := by
  unfold compact
  by_cases hstart : b.read = 0
  · rw [if_pos hstart]
  · rw [if_neg hstart]
    by_cases hempty : b.read = b.write
    · rw [if_pos hempty, pending_reset]
      have hcount : b.count = 0 := by rw [count, hempty, Nat.sub_self]
      rw [pending, hcount, window_zero]
    · rw [if_neg hempty]
      have hwindow := window_storeAt_self b.data b.pending 0
      rw [length_pending] at hwindow
      exact hwindow

theorem limit_compact (b : Buffer) : b.compact.limit = b.limit := by
  unfold compact
  split
  · rfl
  · split <;> rfl

theorem Settled.compact {b : Buffer} (h : b.Settled) : b.compact.Settled := by
  unfold Buffer.compact
  by_cases hstart : b.read = 0
  · rw [if_pos hstart]
    exact h
  · rw [if_neg hstart]
    by_cases hempty : b.read = b.write
    · rw [if_pos hempty]
      exact fun _ => rfl
    · rw [if_neg hempty]
      intro hzero
      exact hzero.symm

theorem writeAdv_of_neg (b : Buffer) {bytes : ℤ} (h : bytes < 0) :
    b.writeAdv bytes = .ok b :=
  if_neg (by omega)

theorem readAdv_of_neg (b : Buffer) {bytes : ℤ} (h : bytes < 0) :
    b.readAdv bytes = .ok b :=
  if_neg (by omega)

/-- Storing and advancing, within the room that is reported. -/
theorem exists_fill {b : Buffer} {bs : List UInt8} {bytes : ℤ}
    (hbs : bs.length ≤ b.room) (hbytes : bytes ≤ b.room) :
    ∃ b₁ b₂, b.store bs = .ok b₁ ∧ b₁.writeAdv bytes = .ok b₂ ∧
      b₂.limit = b.limit ∧ (b.Settled → b₂.Settled) ∧
      b₂.pending = b.pending ++ window b₁.data b₁.write bytes.toNat := by
  have hrw := b.read_le
  have hwl := b.write_le
  refine ⟨{ b with data := storeAt b.data b.write bs }, ?_⟩
  have hstore : b.store bs =
      .ok { b with data := storeAt b.data b.write bs } := if_pos hbs
  have hpending : window (storeAt b.data b.write bs) b.read b.count =
      b.pending :=
    window_storeAt_below _ _ (by unfold count; omega)
  by_cases hneg : -1 < bytes
  · have hle : b.write + bytes.toNat ≤ b.limit := by
      unfold room at hbytes
      omega
    refine ⟨⟨storeAt b.data b.write bs, b.limit, b.read,
      b.write + bytes.toNat, b.read_le.trans (Nat.le_add_right _ _), hle⟩,
      hstore, ?_, rfl, ?_, ?_⟩
    · rw [writeAdv, if_pos hneg, dif_pos hle]
    · intro hsettled heq
      have hzero : b.read = b.write := by
        simp only at heq
        omega
      have hwrite := hsettled hzero
      simp only at heq ⊢
      omega
    · have hcount : b.write + bytes.toNat - b.read =
          b.count + bytes.toNat := by
        unfold count
        omega
      have hend : b.read + b.count = b.write := by
        unfold count
        omega
      simp only [pending, count, hcount]
      rw [show b.write - b.read = b.count from rfl, window_add, hpending, hend]
      rfl
  · have hzero : bytes.toNat = 0 := by omega
    refine ⟨_, hstore, if_neg hneg, rfl, id, ?_⟩
    rw [hzero, window_zero, List.append_nil]
    exact hpending

end Buffer

/-! ## The invariant -/

namespace BufferHistory

theorem isQueue_init (n : ℕ) (data : ℕ → UInt8) : (init n data).IsQueue :=
  ⟨rfl, rfl, Buffer.settled_init n data⟩

theorem IsQueue.write {h : BufferHistory} (hq : h.IsQueue) (c : UInt8) :
    ∃ h', h.perform (.write c) = .ok h' ∧ h'.IsQueue := by
  rw [perform, Buffer.writeByte]
  by_cases hroom : h.buffer.canWrite = true
  · have hle : [c].length ≤ h.buffer.room := of_decide_eq_true hroom
    obtain ⟨b, hput⟩ := Buffer.exists_put hle
    obtain ⟨hpending, -, hlimit, hsettled⟩ := Buffer.put_spec hput
    have hwrite : (h.buffer.store [c] >>= fun b => b.writeAdv 1) = .ok b := hput
    rw [if_pos hroom, if_pos hroom, hwrite, ok_bind]
    refine ⟨_, rfl, hlimit.trans hq.limit, ?_, hsettled (List.cons_ne_nil c [])⟩
    change h.delivered ++ b.pending = h.written ++ [c]
    rw [hpending, ← List.append_assoc, hq.fifo]
  · rw [if_neg hroom, if_neg hroom, ok_bind, List.append_nil]
    exact ⟨_, rfl, hq.limit, hq.fifo, hq.settled⟩

theorem IsQueue.fill {h : BufferHistory} (hq : h.IsQueue) {bs : List UInt8}
    {bytes : ℤ} (hbs : bs.length ≤ h.buffer.room)
    (hbytes : bytes ≤ h.buffer.room) :
    ∃ h', h.perform (.fill bs bytes) = .ok h' ∧ h'.IsQueue := by
  obtain ⟨b, b', hstore, hadv, hlimit, hsettled, hpending⟩ :=
    Buffer.exists_fill hbs hbytes
  rw [perform]
  rw [hstore, ok_bind, hadv, ok_bind]
  refine ⟨_, rfl, hlimit.trans hq.limit, ?_, hsettled hq.settled⟩
  change h.delivered ++ b'.pending = h.written ++ _
  rw [hpending, ← List.append_assoc, hq.fifo]

theorem IsQueue.read {h : BufferHistory} (hq : h.IsQueue) :
    ∃ h', h.perform .read = .ok h' ∧ h'.IsQueue := by
  rw [perform]
  by_cases hread : h.buffer.canRead = true
  · obtain ⟨c, b, hbyte⟩ := Buffer.exists_readByte hread
    obtain ⟨hpending, hleft⟩ := Buffer.readByte_spec hread hbyte
    rw [hbyte, ok_bind]
    refine ⟨_, rfl, hleft.limit.trans hq.limit, ?_, hleft.settled⟩
    change (h.delivered ++ if h.buffer.canRead then [c] else []) ++ b.pending =
      h.written
    rw [if_pos hread, List.append_assoc, List.singleton_append, ← hpending,
      hq.fifo]
  · rw [Buffer.readByte, if_neg hread, ok_bind]
    refine ⟨_, rfl, hq.limit, ?_, hq.settled⟩
    change (h.delivered ++ if h.buffer.canRead then [0] else []) ++ _ = h.written
    rw [if_neg hread, List.append_nil, hq.fifo]

theorem IsQueue.readAdv {h : BufferHistory} (hq : h.IsQueue) {bytes : ℤ}
    (hbytes : bytes ≤ h.buffer.count) :
    ∃ h', h.perform (.readAdv bytes) = .ok h' ∧ h'.IsQueue := by
  rw [perform]
  by_cases hneg : bytes < 0
  · have hzero : bytes.toNat = 0 := by omega
    rw [Buffer.readAdv_of_neg _ hneg, ok_bind, hzero, window_zero,
      List.append_nil]
    exact ⟨_, rfl, hq.limit, hq.fifo, hq.settled⟩
  · obtain ⟨k, rfl⟩ := Int.eq_ofNat_of_zero_le (Int.not_lt.mp hneg)
    have hk : k ≤ h.buffer.count := Int.ofNat_le.mp hbytes
    obtain ⟨b, hadv⟩ := Buffer.exists_readAdv hk
    obtain ⟨-, hpending, hlimit, hsettled, -⟩ := Buffer.readAdv_spec hadv
    rw [hadv, ok_bind]
    refine ⟨_, rfl, hlimit.trans hq.limit, ?_, hsettled⟩
    change (h.delivered ++ window h.buffer.data h.buffer.read k) ++ b.pending =
      h.written
    have htake : window h.buffer.data h.buffer.read k =
        h.buffer.pending.take k := (window_take _ hk).symm
    rw [htake, hpending, List.append_assoc, List.take_append_drop, hq.fifo]

/-- An operation that is allowed does not fail, and leaves a queue. -/
theorem IsQueue.perform {h : BufferHistory} (hq : h.IsQueue) {op : BufferOp}
    (hop : op.Allowed h.buffer) :
    ∃ h', h.perform op = .ok h' ∧ h'.IsQueue := by
  cases op with
  | init n data => exact ⟨_, rfl, isQueue_init n data⟩
  | write c => exact hq.write c
  | fill bs bytes => exact hq.fill hop.1 hop.2
  | read => exact hq.read
  | readAdv bytes => exact hq.readAdv hop
  | compact =>
      refine ⟨_, rfl, ?_, ?_, hq.settled.compact⟩
      · exact (Buffer.limit_compact _).trans hq.limit
      · change h.delivered ++ h.buffer.compact.pending = h.written
        rw [Buffer.pending_compact, hq.fifo]
  | reset => exact ⟨_, rfl, hq.limit, rfl, fun _ => rfl⟩

theorem isQueue_of_run {n : ℕ} {data : ℕ → UInt8} {h : BufferHistory}
    {tr : List (BufferHistory × BufferOp)} (hrun : Run Step (init n data) tr h) :
    h.IsQueue := by
  apply hrun.invariant (isQueue_init n data)
  rintro h₁ op h₂ hq ⟨hop, hperform⟩
  obtain ⟨h', hh', hq'⟩ := hq.perform hop
  rw [hperform] at hh'
  cases hh'
  exact hq'

end BufferHistory

/-- The buffer is a bounded queue.  After any operations the pointers are in
order and the limit is where `buffer_init` has put it; what has been delivered
and what is pending is what has been written; the whole block can be written
when nothing is pending; the next operation does not fail; and neither
compacting nor a negative advance changes what is pending. -/
theorem buffer_fifo {n : ℕ} {data : ℕ → UInt8} {h : BufferHistory}
    {tr : List (BufferHistory × BufferOp)}
    (hrun : Run BufferHistory.Step (.init n data) tr h) :
    h.buffer.read ≤ h.buffer.write ∧ h.buffer.write ≤ h.buffer.limit ∧
      h.buffer.limit = h.capacity ∧
      h.delivered ++ h.buffer.pending = h.written ∧
      (h.buffer.pending = [] → h.buffer.room = h.capacity) ∧
      (∀ op, op.Allowed h.buffer → ∃ h', h.perform op = .ok h') ∧
      h.buffer.compact.pending = h.buffer.pending ∧
      ∀ bytes < 0, h.buffer.writeAdv bytes = .ok h.buffer ∧
        h.buffer.readAdv bytes = .ok h.buffer := by
  have hq := BufferHistory.isQueue_of_run hrun
  refine ⟨h.buffer.read_le, h.buffer.write_le, hq.limit, hq.fifo, ?_, ?_,
    h.buffer.pending_compact, ?_⟩
  · intro hnil
    rw [hq.settled.room_of_pending hnil, hq.limit]
  · intro op hop
    obtain ⟨h', hh', -⟩ := hq.perform hop
    exact ⟨h', hh'⟩
  · intro bytes hneg
    exact ⟨h.buffer.writeAdv_of_neg hneg, h.buffer.readAdv_of_neg hneg⟩

/-- Four bytes are stored, and three of them are read, in a block of six. -/
theorem buffer_fifo_six : ∃ h tr,
    Run BufferHistory.Step (.init 6 fun _ => 0) tr h ∧
      h.written = [72, 79, 76, 65] ∧ h.delivered = [72, 79, 76] ∧
      h.delivered ++ h.buffer.pending = h.written := by
  have hroom : 4 ≤ 6 ∧ (4 : ℤ) ≤ (6 : ℕ) := by decide
  have hcount : (3 : ℤ) ≤ (4 : ℕ) := by decide
  have hfill : BufferHistory.Step (.init 6 fun _ => 0)
      (.fill [72, 79, 76, 65] 4) _ := ⟨hroom, rfl⟩
  have hrun := (Run.single hfill).append
    (Run.single (l := BufferOp.readAdv 3) ⟨hcount, rfl⟩)
  exact ⟨_, _, hrun, rfl, rfl, (buffer_fifo hrun).2.2.2.1⟩

end Socksv5
