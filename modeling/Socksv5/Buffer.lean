import Socksv5.Fault
import Socksv5.Support.Memory
import Socksv5.Support.Partial

/-!
# The I/O buffer

`buffer.c`: a block of bytes with a read and a write pointer.  Pointers are
offsets from `data`, so that `data` itself is `0`.  The invariant that the
header documents, `R <= W <= limit`, is part of the type; the assertions of
the source are the faults of the operations that would break it.

What a reader of the buffer still has to receive is `pending`; what the next
`recv` may store is `room`.
-/

namespace Socksv5

open Support

/-- `MAX_BUFF_SIZE` -/
def maxBuffSize : ℕ := 5000

/-- `struct buffer`: `data` is the block, and `read`, `write` and `limit` are
offsets into it. -/
structure Buffer where
  data : ℕ → UInt8
  limit : ℕ
  read : ℕ
  write : ℕ
  read_le : read ≤ write
  write_le : write ≤ limit

namespace Buffer

/-- `buffer_reset` -/
def reset (b : Buffer) : Buffer where
  data := b.data
  limit := b.limit
  read := 0
  write := 0
  read_le := le_refl 0
  write_le := Nat.zero_le _

/-- `buffer_init` -/
def init (n : ℕ) (data : ℕ → UInt8) : Buffer where
  data := data
  limit := n
  read := 0
  write := 0
  read_le := le_refl 0
  write_le := Nat.zero_le _

/-- The `nbyte` of `buffer_write_ptr`: how much may be stored at `write`. -/
def room (b : Buffer) : ℕ := b.limit - b.write

/-- The `nbyte` of `buffer_read_ptr`: how much is to be read at `read`. -/
def count (b : Buffer) : ℕ := b.write - b.read

/-- `buffer_can_write` -/
def canWrite (b : Buffer) : Bool := decide (0 < b.room)

/-- `buffer_can_read` -/
def canRead (b : Buffer) : Bool := decide (0 < b.count)

/-- The bytes between `read` and `write`. -/
def pending (b : Buffer) : List UInt8 := window b.data b.read b.count

/-- `buffer_compact` -/
def compact (b : Buffer) : Buffer :=
  if b.read = 0 then b
  else if b.read = b.write then b.reset
  else
    { data := storeAt b.data 0 b.pending
      limit := b.limit
      read := 0
      write := b.count
      read_le := Nat.zero_le _
      write_le := (Nat.sub_le _ _).trans b.write_le }

/-- Storing `bs` where `buffer_write_ptr` points, without advancing. -/
def store (b : Buffer) (bs : List UInt8) : Except Fault Buffer :=
  if bs.length ≤ b.room then .ok { b with data := storeAt b.data b.write bs }
  else .error .outOfBounds

/-- `buffer_write_adv` -/
def writeAdv (b : Buffer) (bytes : ℤ) : Except Fault Buffer :=
  if -1 < bytes then
    if h : b.write + bytes.toNat ≤ b.limit then
      .ok { b with
        write := b.write + bytes.toNat
        read_le := b.read_le.trans (Nat.le_add_right _ _)
        write_le := h }
    else .error .assertion
  else .ok b

/-- `buffer_read_adv` -/
def readAdv (b : Buffer) (bytes : ℤ) : Except Fault Buffer :=
  if -1 < bytes then
    if h : b.read + bytes.toNat ≤ b.write then
      let b' := { b with read := b.read + bytes.toNat, read_le := h }
      .ok (if b'.read = b'.write then b'.compact else b')
    else .error .assertion
  else .ok b

/-- `buffer_read` -/
def readByte (b : Buffer) : Except Fault (UInt8 × Buffer) :=
  if b.canRead then do
    let b' ← b.readAdv 1
    .ok (b.data b.read, b')
  else .ok (0, b)

/-- `buffer_write` -/
def writeByte (b : Buffer) (c : UInt8) : Except Fault Buffer :=
  if b.canWrite then do
    let b' ← b.store [c]
    b'.writeAdv 1
  else .ok b

/-- Store bytes at `write` and advance over them. -/
def put (b : Buffer) (bs : List UInt8) : Except Fault Buffer := do
  let b ← b.store bs
  b.writeAdv bs.length

/-! ## What the operations do to the pending bytes and to the room -/

@[simp] theorem length_pending (b : Buffer) : b.pending.length = b.count := by
  simp [pending]

theorem canRead_iff (b : Buffer) : b.canRead = true ↔ b.pending ≠ [] := by
  rw [canRead, decide_eq_true_iff, ← length_pending, List.length_pos_iff]

theorem pending_eq_nil {b : Buffer} (h : ¬ b.canRead = true) :
    b.pending = [] := by
  by_contra hne
  exact h ((canRead_iff b).mpr hne)

@[simp] theorem pending_reset (b : Buffer) : b.reset.pending = [] := rfl

@[simp] theorem room_reset (b : Buffer) : b.reset.room = b.limit := rfl

@[simp] theorem limit_reset (b : Buffer) : b.reset.limit = b.limit := rfl

@[simp] theorem pending_init (n : ℕ) (data : ℕ → UInt8) :
    (init n data).pending = [] := rfl

@[simp] theorem room_init (n : ℕ) (data : ℕ → UInt8) :
    (init n data).room = n := rfl

/-- A buffer that has been emptied stands at the start of its block. -/
def Settled (b : Buffer) : Prop := b.read = b.write → b.write = 0

theorem settled_init (n : ℕ) (data : ℕ → UInt8) : (init n data).Settled :=
  fun _ => rfl

theorem Settled.room_of_pending {b : Buffer} (h : b.Settled)
    (hp : b.pending = []) : b.room = b.limit := by
  have hcount : b.count = 0 := by rw [← length_pending, hp]; rfl
  have hle := b.read_le
  have hwrite : b.write = 0 := h (by simp only [count] at hcount; omega)
  simp [room, hwrite]

/-- What has been put is pending after what was pending before. -/
theorem put_spec {b b' : Buffer} {bs : List UInt8} (h : b.put bs = .ok b') :
    b'.pending = b.pending ++ bs ∧ b'.room + bs.length = b.room ∧
      b'.limit = b.limit ∧ (bs ≠ [] → b'.Settled) := by
  obtain ⟨b₁, h₁, h₂⟩ := bind_eq_ok.mp h
  unfold store at h₁
  split at h₁
  case isFalse => cases h₁
  case isTrue hroom =>
    cases h₁
    have hpos : (-1 : ℤ) < bs.length := by omega
    simp only [writeAdv, hpos, if_true, Int.toNat_natCast] at h₂
    split at h₂
    case isFalse => cases h₂
    case isTrue hle =>
      cases h₂
      have hrw := b.read_le
      refine ⟨?_, ?_, rfl, ?_⟩
      · have hcount : b.write + bs.length - b.read = b.count + bs.length := by
          simp only [count]; omega
        have hwrite : b.read + b.count = b.write := by
          simp only [count]; omega
        simp only [pending, count, hcount]
        rw [show b.write - b.read = b.count from rfl, window_add, hwrite,
          window_storeAt_self, window_storeAt_below _ _ (by omega)]
      · simp only [room] at hroom ⊢
        omega
      · intro hne heq
        have hlen := List.length_pos_iff.mpr hne
        simp only at heq
        omega

/-- Bytes that fit can be put. -/
theorem exists_put {b : Buffer} {bs : List UInt8} (h : bs.length ≤ b.room) :
    ∃ b', b.put bs = .ok b' := by
  have hpos : (-1 : ℤ) < bs.length := by omega
  have hw := b.write_le
  have hle : b.write + bs.length ≤ b.limit := by
    simp only [room] at h
    omega
  simp [put, store, writeAdv, h, hpos, hle, Bind.bind, Except.bind]

/-- Advancing the read pointer drops from the pending bytes; when it empties
the buffer the whole block is free again. -/
theorem readAdv_spec {b b' : Buffer} {k : ℕ} (h : b.readAdv k = .ok b') :
    k ≤ b.count ∧ b'.pending = b.pending.drop k ∧ b'.limit = b.limit ∧
      b'.Settled ∧ (b'.pending ≠ [] → b'.room = b.room) := by
  have hpos : (-1 : ℤ) < k := by omega
  have hrw := b.read_le
  simp only [readAdv, hpos, if_true, Int.toNat_natCast] at h
  split at h
  case isFalse => cases h
  case isTrue hle =>
    cases h
    have hk : k ≤ b.count := by simp only [count]; omega
    have hdrop : b.pending.drop k = window b.data (b.read + k) (b.count - k) :=
      window_drop _ hk
    refine ⟨hk, ?_⟩
    by_cases heq : b.read + k = b.write
    · have hzero : b.count - k = 0 := by simp only [count]; omega
      simp only [heq, if_true, hdrop, hzero, window_zero]
      by_cases hw : b.write = 0
      · simp [compact, hw, pending, count, Settled]
      · simp [compact, hw, Settled, reset, pending, count]
    · have hcount : b.write - (b.read + k) = b.count - k := by
        simp only [count]; omega
      simp only [heq, if_false, hdrop]
      refine ⟨by simp only [pending, hcount, count], trivial, ?_, ?_⟩
      · intro hrw'
        exact absurd hrw' heq
      · intro _
        rfl

theorem exists_readAdv {b : Buffer} {k : ℕ} (hk : k ≤ b.count) :
    ∃ b', b.readAdv k = .ok b' := by
  have hpos : (-1 : ℤ) < k := by omega
  have hrw := b.read_le
  have hle : b.read + k ≤ b.write := by simp only [count] at hk; omega
  simp [readAdv, hpos, hle]

end Buffer

end Socksv5
