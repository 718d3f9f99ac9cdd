import Socksv5.Buffer
import Socksv5.Support.Decoder

/-!
# The parsers' loop over a buffer

Every parser of the server is driven by the same loop: while the buffer can be
read, read one byte, feed it, and leave the loop when the parser has reached a
final state.  The loop is stated once, with the feed function and the test for
a final state as parameters, and related to `decode` on the pending bytes.
-/

namespace Socksv5

open Support

variable {P : Type}

/-- The loop of the `consume_*_buffer` functions.  Every iteration reads one
of the pending bytes, so as many as there are bytes pending are enough. -/
def consumeLoop (feed : UInt8 → P → Except Fault P) (stop : P → Bool) :
    ℕ → Buffer → P → Except Fault (Buffer × P)
  | 0, b, p => .ok (b, p)
  | n + 1, b, p =>
      if b.canRead then do
        let (c, b) ← b.readByte
        let p ← feed c p
        if stop p then .ok (b, p) else consumeLoop feed stop n b p
      else .ok (b, p)

/-- The loop, run until the buffer is empty or the parser stops. -/
def consume (feed : UInt8 → P → Except Fault P) (stop : P → Bool)
    (b : Buffer) (p : P) : Except Fault (Buffer × P) :=
  consumeLoop feed stop b.count b p

/-- What the loop leaves of a buffer: the bytes it has not read; and, once
they are all read, the whole block free. -/
structure Leftover (b b' : Buffer) : Prop where
  limit : b'.limit = b.limit
  settled : b'.Settled
  room : b'.pending ≠ [] → b'.room = b.room

theorem Leftover.refl {b : Buffer} (h : b.Settled) : Leftover b b :=
  ⟨rfl, h, fun _ => rfl⟩

theorem Buffer.readByte_spec {b b' : Buffer} {c : UInt8} (hb : b.canRead = true)
    (h : b.readByte = .ok (c, b')) :
    b.pending = c :: b'.pending ∧ Leftover b b' := by
  rw [Buffer.readByte, if_pos hb] at h
  obtain ⟨b₁, hadv, heq⟩ := bind_eq_ok.mp h
  cases heq
  obtain ⟨hk, hpending, hlimit, hsettled, hroom⟩ :=
    Buffer.readAdv_spec (k := 1) hadv
  refine ⟨?_, hlimit, hsettled, hroom⟩
  obtain ⟨n, hn⟩ := Nat.exists_eq_add_of_le' hk
  rw [hpending, Buffer.pending, hn, window_succ]
  rfl

theorem Buffer.exists_readByte {b : Buffer} (hb : b.canRead = true) :
    ∃ c b', b.readByte = .ok (c, b') := by
  have hcount : 1 ≤ b.count := by
    simpa [Buffer.canRead, Nat.succ_le_iff] using hb
  obtain ⟨b', hb'⟩ := Buffer.exists_readAdv (k := 1) hcount
  refine ⟨b.data b.read, b', ?_⟩
  rw [Buffer.readByte, if_pos hb]
  exact bind_eq_ok.mpr ⟨b', hb', rfl⟩

theorem consumeLoop_spec {feed : UInt8 → P → Except Fault P} {stop : P → Bool}
    {n : ℕ} {b b' : Buffer} {p p' : P} (hn : b.count ≤ n) (hset : b.Settled)
    (h : consumeLoop feed stop n b p = .ok (b', p')) :
    decode feed stop b.pending p = .ok (p', b'.pending) ∧ Leftover b b' := by
  induction n generalizing b p with
  | zero =>
      have hnil : b.pending = [] := by
        rw [← List.length_eq_zero_iff, Buffer.length_pending]; omega
      cases h
      exact ⟨by rw [hnil]; rfl, .refl hset⟩
  | succ n ih =>
      rw [consumeLoop] at h
      by_cases hb : b.canRead = true
      · rw [if_pos hb] at h
        obtain ⟨⟨c, b₁⟩, hread, h⟩ := bind_eq_ok.mp h
        obtain ⟨p₁, hfeed, h⟩ := bind_eq_ok.mp h
        obtain ⟨hpending, hleft⟩ := Buffer.readByte_spec hb hread
        have hcount : b₁.count ≤ n := by
          have := congrArg List.length hpending
          simp only [List.length_cons, Buffer.length_pending] at this
          omega
        rw [hpending, decode]
        by_cases hstop : stop p₁ = true
        · rw [if_pos hstop] at h
          cases h
          exact ⟨bind_eq_ok.mpr ⟨p', hfeed, if_pos hstop⟩, hleft⟩
        · rw [if_neg hstop] at h
          obtain ⟨hdecode, hleft'⟩ := ih hcount hleft.settled h
          refine ⟨bind_eq_ok.mpr ⟨p₁, hfeed, by rw [if_neg hstop, hdecode]⟩,
            hleft'.limit.trans hleft.limit, hleft'.settled, ?_⟩
          intro hne
          rw [hleft'.room hne]
          apply hleft.room
          intro hnil
          rw [hnil] at hdecode
          simp only [decode, Except.ok.injEq, Prod.mk.injEq] at hdecode
          exact hne hdecode.2.symm
      · rw [if_neg hb] at h
        obtain ⟨rfl, rfl⟩ : b = b' ∧ p = p' := by simpa using h
        have hnil : b.pending = [] := by
          by_contra hne
          exact hb ((Buffer.canRead_iff b).mpr hne)
        exact ⟨by rw [hnil]; rfl, .refl hset⟩

/-- The loop decodes the pending bytes and leaves the unread ones pending. -/
theorem consume_spec {feed : UInt8 → P → Except Fault P} {stop : P → Bool}
    {b b' : Buffer} {p p' : P} (hset : b.Settled)
    (h : consume feed stop b p = .ok (b', p')) :
    decode feed stop b.pending p = .ok (p', b'.pending) ∧ Leftover b b' :=
  consumeLoop_spec (le_refl _) hset h

/-- The loop fails where the decoding of the pending bytes does. -/
theorem consumeLoop_decode {feed : UInt8 → P → Except Fault P}
    {stop : P → Bool} {n : ℕ} {b : Buffer} (p : P) (hn : b.count ≤ n) :
    (consumeLoop feed stop n b p >>= fun r => .ok (r.2, r.1.pending)) =
      decode feed stop b.pending p := by
  induction n generalizing b p with
  | zero =>
      have hnil : b.pending = [] := by
        rw [← List.length_eq_zero_iff, Buffer.length_pending]; omega
      rw [consumeLoop, ok_bind, hnil]
      rfl
  | succ n ih =>
      rw [consumeLoop]
      by_cases hb : b.canRead = true
      · obtain ⟨c, b₁, hread⟩ := Buffer.exists_readByte hb
        obtain ⟨hpending, -⟩ := Buffer.readByte_spec hb hread
        have hcount : b₁.count ≤ n := by
          have := congrArg List.length hpending
          simp only [List.length_cons, Buffer.length_pending] at this
          omega
        rw [if_pos hb, hread, hpending, decode, ok_bind]
        rcases hfeed : feed c p with e | p₁
        · simp only [hfeed]
          rfl
        · simp only [hfeed, ok_bind]
          by_cases hstop : stop p₁ = true
          · rw [if_pos hstop, if_pos hstop, ok_bind]
          · rw [if_neg hstop, if_neg hstop]
            exact ih p₁ hcount
      · rw [if_neg hb, ok_bind, Buffer.pending_eq_nil hb]
        rfl

/-! ## A message that comes in several chunks -/

/-- What is received as long as the parser has not stopped: every chunk is
stored in the buffer, and what is pending is parsed.  The chunks that were not
received any more are returned with the state. -/
def consumeChunks (feed : UInt8 → P → Except Fault P) (stop : P → Bool) :
    List (List UInt8) → Buffer → P →
      Except Fault (Buffer × P × List (List UInt8))
  | [], b, p => .ok (b, p, [])
  | chunk :: chunks, b, p => do
      let b ← b.put chunk
      let (b, p) ← consume feed stop b p
      if stop p then .ok (b, p, chunks) else consumeChunks feed stop chunks b p

/-- The chunks `recv` may return: none is empty, and each has the room that the
buffer offers, the whole block once everything before it has been parsed. -/
def Receivable (b : Buffer) : List (List UInt8) → Prop
  | [] => True
  | chunk :: chunks => chunk ≠ [] ∧ chunk.length ≤ b.room ∧
      ∀ later ∈ chunks, later ≠ [] ∧ later.length ≤ b.limit

theorem Receivable.tail {b b' : Buffer} {chunk : List UInt8}
    {chunks : List (List UInt8)} (h : Receivable b (chunk :: chunks))
    (hlimit : b'.limit = b.limit) (hroom : b'.room = b'.limit) :
    Receivable b' chunks := by
  obtain ⟨-, -, hlater⟩ := h
  cases chunks with
  | nil => trivial
  | cons next chunks =>
      obtain ⟨hne, hle⟩ := hlater next (List.mem_cons_self ..)
      refine ⟨hne, by rw [hroom, hlimit]; exact hle, ?_⟩
      intro later hmem
      rw [hlimit]
      exact hlater later (List.mem_cons_of_mem _ hmem)

/-- However a stream is cut into chunks, it is decoded as a whole, from the
first byte that was pending; what is not read is pending or has not been
received. -/
theorem consumeChunks_decode {feed : UInt8 → P → Except Fault P}
    {stop : P → Bool} {chunks : List (List UInt8)} {b : Buffer} {p : P}
    (hrecv : Receivable b chunks) (hstop : stop p = false)
    (hstart : b.pending = [] ∨ chunks ≠ []) :
    (consumeChunks feed stop chunks b p >>= fun r =>
        .ok (r.2.1, r.1.pending ++ r.2.2.flatten)) =
      decode feed stop (b.pending ++ chunks.flatten) p := by
  induction chunks generalizing b p with
  | nil =>
      rcases hstart with hnil | hne
      · simp [consumeChunks, hnil, decode]
      · exact absurd rfl hne
  | cons chunk chunks ih =>
      obtain ⟨hne, hle, -⟩ := id hrecv
      obtain ⟨b₁, hput⟩ := Buffer.exists_put hle
      obtain ⟨hpending, -, hlimit, hsettled⟩ := Buffer.put_spec hput
      rw [consumeChunks, hput, ok_bind, List.flatten_cons, ← List.append_assoc,
        ← hpending, decode_append hstop, ← consumeLoop_decode p (le_refl _),
        ← consume]
      rcases hconsume : consume feed stop b₁ p with e | ⟨b₂, p₂⟩
      · rfl
      · simp only [ok_bind]
        obtain ⟨hdecode, hleft⟩ := consume_spec (hsettled hne) hconsume
        by_cases hstop₂ : stop p₂ = true
        · simp only [if_pos hstop₂, ok_bind]
        · have hgoes : stop p₂ = false := by simpa using hstop₂
          have hnil : b₂.pending = [] := decode_rest_eq_nil hdecode hgoes
          rw [if_neg hstop₂, if_neg hstop₂, ih ?_ hgoes (Or.inl hnil), hnil,
            List.nil_append]
          apply hrecv.tail (hleft.limit.trans hlimit)
          exact hleft.settled.room_of_pending hnil

/-- What a decoder makes of a stream it makes of the chunks that the stream is
cut into. -/
theorem exists_consumeChunks {feed : UInt8 → P → Except Fault P}
    {stop : P → Bool} {chunks : List (List UInt8)} {b : Buffer} {p p' : P}
    {unread : List UInt8} (hrecv : Receivable b chunks)
    (hstart : b.pending = [] ∨ chunks ≠ []) (hstop : stop p = false)
    (h : decode feed stop (b.pending ++ chunks.flatten) p =
      .ok (p', unread)) :
    ∃ b' later, consumeChunks feed stop chunks b p = .ok (b', p', later) ∧
      b'.pending ++ later.flatten = unread := by
  rw [← consumeChunks_decode hrecv hstop hstart] at h
  obtain ⟨⟨b', p₁, later⟩, hconsume, heq⟩ := bind_eq_ok.mp h
  cases heq
  exact ⟨b', later, hconsume, rfl⟩

end Socksv5
