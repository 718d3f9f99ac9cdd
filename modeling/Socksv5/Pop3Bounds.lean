import Socksv5.Pop3Dialogue

/-!
# The stores of the sniffer

The sniffer stops keeping a name or a password at `CREDENTIALS_SIZE` bytes, but
then stores the terminator after them; and after a refusal the 8-bit counter of
the letters that are missing starts at zero, so that the search for `USER` goes
past the end of the keyword.  The positions below tell from the bytes alone how
far the sniffer has got; `overflowed` is where it goes out of bounds.
-/

namespace Socksv5

open Support

/-- How far the sniffer has got. -/
inductive SniffPosition
  /-- So many bytes of `+OK`. -/
  | greeting (i : ℕ)
  /-- So many letters of `USER`. -/
  | seekingUser (i : ℕ)
  /-- So many letters of a `USER` after a refusal, or its terminator as well. -/
  | missed (i : ℕ)
  /-- A name of so many bytes. -/
  | name (n : ℕ)
  /-- So many letters of `PASS`. -/
  | seekingPass (i : ℕ)
  /-- A password of so many bytes. -/
  | password (n : ℕ)
  /-- So many bytes of `+OK`, and of `-ERR`. -/
  | answer (ok err : ℕ)
  /-- Nothing more is read, or the program ends. -/
  | ended
  | overflowed
deriving DecidableEq, Repr

/-- The end of a name or a password. -/
def isLineEnd (c : UInt8) : Bool := c = 10 ∨ c = 13

namespace SniffPosition

/-- The next byte of a name or a password of `n` bytes. -/
def afterByte (kept : Bool) (n : ℕ) (c : UInt8) (line : SniffPosition)
    (goesOn : ℕ → SniffPosition) : SniffPosition :=
  if kept = false then .ended
  else if isLineEnd c then if n < credentialsSize then line else .overflowed
  else goesOn (n + 1)

/-- The next byte; `userKept` and `passKept` tell whether the blocks for the
name and for the password have been allocated. -/
def next (userKept passKept : Bool) : SniffPosition → UInt8 → SniffPosition
  | .greeting i, c =>
      if goesOn sameLetter okText i c then
        if i + 1 = okText.length then .seekingUser 0 else .greeting (i + 1)
      else .ended
  | .seekingUser i, c =>
      if goesOn sameLetter userText i c then
        if i + 1 = userText.length then .name 0 else .seekingUser (i + 1)
      else .seekingUser 0
  | .missed i, c =>
      if userText.length < i then .overflowed
      else if goesOn sameLetter (userText ++ [0]) i c then .missed (i + 1)
      else if i = 0 then .missed 0
      else .seekingUser 0
  | .name n, c => afterByte userKept n c (.seekingPass 0) .name
  | .seekingPass i, c =>
      if goesOn sameLetter passText i c then
        if i + 1 = passText.length then .password 0 else .seekingPass (i + 1)
      else .seekingPass 0
  | .password n, c => afterByte passKept n c (.answer 0 0) .password
  | .answer i j, c =>
      if goesOn sameLetter okText i c then
        if i + 1 = okText.length then .ended else .answer (i + 1) j
      else if goesOn sameLetter errText j c then
        if j + 1 = errText.length then .missed i else .answer i (j + 1)
      else .answer i j
  | .ended, _ => .ended
  | .overflowed, _ => .overflowed

/-- The position after a stream. -/
def run (userKept passKept : Bool) (pos : SniffPosition) (stream : List UInt8) :
    SniffPosition :=
  stream.foldl (next userKept passKept) pos

/-- The next byte goes out of bounds: it ends a name or a password that does
not leave room for the terminator, or is compared with what lies behind `USER`
and its terminator. -/
def Exceeds (userKept passKept : Bool) : SniffPosition → UInt8 → Prop
  | .name n, c => userKept = true ∧ isLineEnd c = true ∧ credentialsSize ≤ n
  | .password n, c => passKept = true ∧ isLineEnd c = true ∧ credentialsSize ≤ n
  | .missed i, _ => userText.length < i
  | _, _ => False

/-- The sniffer that has got to a position. -/
def Stands (userKept passKept : Bool) (s : Pop3Sniffer) : SniffPosition → Prop
  | .greeting i => i < 3 ∧ s.state = .init ∧ s.read = UInt8.ofNat i ∧
      s.remaining = 3 - UInt8.ofNat i
  | .seekingUser i => i < 5 ∧ s = Pop3Command.user.seeking 5 i s
  | .missed i => i ≤ 6 ∧ ∃ left : UInt8, left.toNat ≤ i ∧ left.toNat < 3 ∧
      s = Pop3Command.user.seeking left i s
  | .name n => s.state = .readUser ∧ s.read = UInt8.ofNat (min n 100) ∧
      (userKept = false → n = 0)
  | .seekingPass i => i < 5 ∧ s = (Pop3Command.pass []).seeking 5 i s
  | .password n => s.state = .readPass ∧ s.read = UInt8.ofNat (min n 100) ∧
      s.remaining = 0 ∧ (passKept = false → n = 0)
  | .answer i j => i < 3 ∧ j < 4 ∧ s.state = .checkCreds ∧
      s.read = UInt8.ofNat i ∧ s.checkRead = UInt8.ofNat j ∧ s.remaining = 0
  | .ended => s.state.final = true
  | .overflowed => False

end SniffPosition

/-- The block has been allocated, with `CREDENTIALS_SIZE` bytes, or not. -/
def KeptIn (kept : Bool) (block : Option Block) : Prop :=
  if kept then Sized block else block = none

/-- The position and the blocks are those of the sniffer. -/
structure SniffPosition.Describes (userKept passKept : Bool)
    (pos : SniffPosition) (s : Pop3Sniffer) : Prop where
  stands : pos.Stands userKept passKept s
  user : KeptIn userKept s.user
  pass : KeptIn passKept s.pass

/-- What one byte does: the sniffer gets to the next position, or the program
ends at a null pointer or out of bounds. -/
inductive Sniffs (userKept passKept : Bool) (s : Pop3Sniffer) (c : UInt8)
    (next : SniffPosition) : Prop
  | describes {t : Pop3Sniffer} : parsePop3Sniffer s c = .ok t →
      next.Describes userKept passKept t → Sniffs userKept passKept s c next
  | null : parsePop3Sniffer s c = .error .nullDereference → next = .ended →
      Sniffs userKept passKept s c next
  | overflows : parsePop3Sniffer s c = .error .outOfBounds →
      next = .overflowed → Sniffs userKept passKept s c next

/-! ## One byte -/

theorem charAt_eq_ok {text : List UInt8} {i : ℕ} (hi : i < text.length)
    (htext : text.length < 256) : charAt text (UInt8.ofNat i) = .ok text[i] := by
  have hnat : (UInt8.ofNat i).toNat = i := by
    rw [UInt8.toNat_ofNat']
    omega
  rw [charAt, hnat, List.getElem?_append_left hi, List.getElem?_eq_getElem hi]

theorem goesOn_iff {text : List UInt8} {i : ℕ} (hi : i < text.length)
    (c : UInt8) :
    goesOn sameLetter text i c = true ↔ tolower c = tolower text[i] := by
  rw [goesOn, List.getElem?_eq_getElem hi]
  exact beq_iff_eq

theorem ofNat_add_one (i : ℕ) : UInt8.ofNat i + 1 = UInt8.ofNat (i + 1) := by
  rw [UInt8.ofNat_add]
  rfl

theorem sub_ofNat_sub_one (n : UInt8) (i : ℕ) :
    n - UInt8.ofNat i - 1 = n - UInt8.ofNat (i + 1) := by
  rw [← ofNat_add_one]
  grind

theorem greeting_remaining_iff {i : ℕ} (hi : i < 3) :
    3 - UInt8.ofNat (i + 1) = 0 ↔ i + 1 = 3 := by
  interval_cases i <;> decide

/-- Storing a byte into a block that was or was not allocated. -/
theorem putByte_keptIn {kept : Bool} {block : Option Block}
    (h : KeptIn kept block) (n : ℕ) (c : UInt8) :
    (kept = false ∧ putByte block n c = .error .nullDereference) ∨
      (kept = true ∧ n < credentialsSize ∧
        ∃ block', putByte block n c = .ok block' ∧ KeptIn kept block') ∨
      (kept = true ∧ ¬ n < credentialsSize ∧
        putByte block n c = .error .outOfBounds) := by
  cases kept with
  | false =>
      obtain rfl : block = none := h
      exact .inl ⟨rfl, rfl⟩
  | true =>
      obtain ⟨bs, rfl, hlen⟩ : Sized block := h
      by_cases hn : n < credentialsSize
      · have hlt : n < bs.length := by
          rw [hlen]
          exact hn
        refine .inr (.inl ⟨rfl, hn, some (bs.set n c), if_pos hlt, bs.set n c,
          rfl, ?_⟩)
        rw [List.length_set, hlen]
      · have hge : ¬ n < bs.length := by
          rw [hlen]
          exact hn
        exact .inr (.inr ⟨rfl, hn, if_neg hge⟩)

variable {userKept passKept : Bool} {s : Pop3Sniffer}

/-- A byte of the greeting. -/
theorem sniffs_greeting {i : ℕ}
    (h : (SniffPosition.greeting i).Describes userKept passKept s)
    (c : UInt8) :
    Sniffs userKept passKept s c
      ((SniffPosition.greeting i).next userKept passKept c) := by
  obtain ⟨⟨hi, hstate, hread, hremaining⟩, huser, hpass⟩ := h
  have hchar : charAt okText s.read = .ok okText[i] := by
    rw [hread]
    exact charAt_eq_ok hi (by decide)
  have hparse : parsePop3Sniffer s c = readOkMsg s c >>= fun r =>
      .ok { r.2 with state := r.1 } := by
    unfold parsePop3Sniffer
    rw [hstate]
  rw [readOkMsg, hchar, ok_bind] at hparse
  rw [SniffPosition.next]
  by_cases hc : goesOn sameLetter okText i c = true
  · rw [if_pos ((goesOn_iff hi c).mp hc)] at hparse
    have hsub : s.remaining - 1 = 3 - UInt8.ofNat (i + 1) := by
      rw [hremaining, sub_ofNat_sub_one]
    rw [if_pos hc]
    by_cases hlast : i + 1 = okText.length
    · have hzero : s.remaining - 1 = 0 := by
        rw [hsub]
        exact (greeting_remaining_iff hi).mpr hlast
      rw [if_pos hzero] at hparse
      rw [if_pos hlast]
      exact .describes hparse ⟨⟨by omega, rfl⟩, huser, hpass⟩
    · have hne : s.remaining - 1 ≠ 0 := by
        rw [hsub]
        exact fun h => hlast ((greeting_remaining_iff hi).mp h)
      rw [if_neg hne] at hparse
      rw [if_neg hlast]
      have hread' : s.read + 1 = UInt8.ofNat (i + 1) := by
        rw [hread, ofNat_add_one]
      have hlt : i + 1 < 3 := Nat.lt_of_le_of_ne hi hlast
      exact .describes hparse ⟨⟨hlt, rfl, hread', hsub⟩, huser, hpass⟩
  · rw [if_neg (fun h => hc ((goesOn_iff hi c).mpr h))] at hparse
    rw [if_neg hc]
    exact .describes hparse ⟨rfl, huser, hpass⟩

/-- A byte while a command is looked for; `seeking` and `found` are the
positions of that command. -/
theorem sniffs_seeking (cmd : Pop3Command) {seeking : ℕ → SniffPosition}
    {found : SniffPosition} {i : ℕ} (hi : i < 5) (hs : s = cmd.seeking 5 i s)
    (huser : KeptIn userKept s.user) (hpass : KeptIn passKept s.pass)
    (hseeking : ∀ j, j < 5 → ∀ t : Pop3Sniffer, t = cmd.seeking 5 j t →
      (seeking j).Stands userKept passKept t)
    (hfound : ∀ t : Pop3Sniffer, t = cmd.matched t →
      found.Stands userKept passKept t) (c : UInt8) :
    Sniffs userKept passKept s c
      (if goesOn sameLetter cmd.text i c then
        if i + 1 = cmd.text.length then found else seeking (i + 1)
      else seeking 0) := by
  rw [cmd.text_length]
  by_cases hc : goesOn sameLetter cmd.text i c = true
  · have hparse := parse_seeking_goesOn cmd s hi (.inl rfl) hc
    rw [← hs] at hparse
    rw [if_pos hc]
    by_cases hlast : i + 1 = 5
    · rw [if_pos ⟨rfl, hlast⟩] at hparse
      rw [if_pos hlast]
      exact .describes hparse ⟨hfound _ rfl, huser, hpass⟩
    · rw [if_neg (fun h => hlast h.2)] at hparse
      rw [if_neg hlast]
      have hlt : i + 1 < 5 := Nat.lt_of_le_of_ne hi hlast
      exact .describes hparse ⟨hseeking _ hlt _ rfl, huser, hpass⟩
  · have hparse : parsePop3Sniffer (cmd.seeking 5 i s) c = _ :=
      parse_seeking_differs cmd s hi (Bool.eq_false_iff.mpr hc)
    rw [← hs, ite_self] at hparse
    rw [if_neg hc]
    exact .describes hparse ⟨hseeking 0 (by omega) _ rfl, huser, hpass⟩

theorem sniffs_seekingUser {i : ℕ}
    (h : (SniffPosition.seekingUser i).Describes userKept passKept s)
    (c : UInt8) :
    Sniffs userKept passKept s c
      ((SniffPosition.seekingUser i).next userKept passKept c) := by
  obtain ⟨⟨hi, hs⟩, huser, hpass⟩ := h
  have hfound : ∀ t : Pop3Sniffer, t = Pop3Command.user.matched t →
      (SniffPosition.name 0).Stands userKept passKept t := by
    intro t ht
    rw [ht]
    exact ⟨rfl, rfl, fun _ => rfl⟩
  have hseeking : ∀ j, j < 5 → ∀ t : Pop3Sniffer,
      t = Pop3Command.user.seeking 5 j t →
        (SniffPosition.seekingUser j).Stands userKept passKept t :=
    fun j hj t ht => ⟨hj, ht⟩
  exact sniffs_seeking .user hi hs huser hpass hseeking hfound c

theorem sniffs_seekingPass {i : ℕ}
    (h : (SniffPosition.seekingPass i).Describes userKept passKept s)
    (c : UInt8) :
    Sniffs userKept passKept s c
      ((SniffPosition.seekingPass i).next userKept passKept c) := by
  obtain ⟨⟨hi, hs⟩, huser, hpass⟩ := h
  have hfound : ∀ t : Pop3Sniffer, t = (Pop3Command.pass []).matched t →
      (SniffPosition.password 0).Stands userKept passKept t := by
    intro t ht
    rw [ht]
    exact ⟨rfl, rfl, rfl, fun _ => rfl⟩
  have hseeking : ∀ j, j < 5 → ∀ t : Pop3Sniffer,
      t = (Pop3Command.pass []).seeking 5 j t →
        (SniffPosition.seekingPass j).Stands userKept passKept t :=
    fun j hj t ht => ⟨hj, ht⟩
  exact sniffs_seeking (.pass []) hi hs huser hpass hseeking hfound c

/-- A byte while `USER` is missed: its terminator is compared as well, and
after that what lies behind it. -/
theorem sniffs_missed {i : ℕ}
    (h : (SniffPosition.missed i).Describes userKept passKept s)
    (c : UInt8) :
    Sniffs userKept passKept s c
      ((SniffPosition.missed i).next userKept passKept c) := by
  obtain ⟨⟨hi, left, hle, hlt, hs⟩, huser, hpass⟩ := h
  have hleft5 : left ≠ 5 := by
    rintro rfl
    exact absurd hlt (by decide)
  rw [SniffPosition.next]
  rcases Nat.lt_trichotomy i 5 with hi5 | rfl | hi6
  · have hshort : ¬ userText.length < i := by
      intro h
      exact absurd (Nat.lt_trans h hi5) (by decide)
    have hletter : goesOn sameLetter (userText ++ [0]) i c =
        goesOn sameLetter userText i c := by
      rw [goesOn, List.getElem?_append_left hi5, goesOn]
    rw [if_neg hshort, hletter]
    by_cases hc : goesOn sameLetter userText i c = true
    · have hparse : parsePop3Sniffer (Pop3Command.user.seeking left i s) c = _ :=
        parse_seeking_goesOn .user s hi5 (.inr hle) hc
      rw [← hs, if_neg (fun h => hleft5 h.1)] at hparse
      rw [if_pos hc]
      exact .describes hparse
        ⟨⟨by omega, left, by omega, hlt, rfl⟩, huser, hpass⟩
    · have hparse : parsePop3Sniffer (Pop3Command.user.seeking left i s) c = _ :=
        parse_seeking_differs .user s hi5 (Bool.eq_false_iff.mpr hc)
      rw [← hs] at hparse
      rw [if_neg hc]
      by_cases h0 : i = 0
      · subst h0
        rw [if_pos rfl] at hparse
        rw [if_pos rfl]
        exact .describes hparse ⟨⟨hi, left, hle, hlt, rfl⟩, huser, hpass⟩
      · rw [if_neg h0] at hparse
        rw [if_neg h0]
        exact .describes hparse ⟨⟨by omega, rfl⟩, huser, hpass⟩
  · have hterm : goesOn sameLetter (userText ++ [0]) 5 c = true ↔
        tolower c = tolower 0 := goesOn_iff (by decide) c
    have hparse := parsePop3Sniffer_seeking .user left 5 s c
    have hchar : charAt Pop3Command.user.text
        (Pop3Command.user.seeking left 5 s).read = .ok 0 := rfl
    rw [← hs] at hparse hchar
    rw [readCommand, hchar, ok_bind] at hparse
    rw [if_neg (by decide)]
    by_cases hc : goesOn sameLetter (userText ++ [0]) 5 c = true
    · rw [if_pos (hterm.mp hc)] at hparse
      have hremaining : s.remaining - 1 = left - UInt8.ofNat 6 := by
        rw [hs]
        exact sub_ofNat_sub_one left 5
      have hne : s.remaining - 1 ≠ 0 := by
        rw [hremaining]
        intro h0
        have h6 := congrArg UInt8.toNat h0
        rw [UInt8.toNat_sub] at h6
        simp only [UInt8.toNat_ofNat', UInt8.toNat_ofNat] at h6
        omega
      have hread : s.read + 1 = UInt8.ofNat 6 := by
        rw [hs]
        rfl
      rw [if_neg hne, hremaining, hread] at hparse
      rw [if_pos hc]
      exact .describes hparse ⟨⟨by omega, left, by omega, hlt, rfl⟩, huser, hpass⟩
    · have hread : s.read ≠ 0 := by
        rw [hs]
        change UInt8.ofNat 5 ≠ 0
        decide
      rw [if_neg (fun h => hc (hterm.mpr h)), if_pos hread] at hparse
      rw [if_neg hc, if_neg (by decide)]
      exact .describes hparse ⟨⟨by omega, rfl⟩, huser, hpass⟩
  · obtain rfl : i = 6 := by omega
    have hparse := parsePop3Sniffer_seeking .user left 6 s c
    have hchar : charAt Pop3Command.user.text
        (Pop3Command.user.seeking left 6 s).read = .error .outOfBounds := rfl
    rw [← hs] at hparse hchar
    rw [readCommand, hchar] at hparse
    exact .overflows hparse (if_pos (by decide))

/-- A byte of a name or a password; `holding` and `ending` are what the
sniffer keeps of it and what it turns to after it. -/
theorem sniffs_argument {kept : Bool} {block : Option Block} {n : ℕ}
    {c : UInt8} {line : SniffPosition} {goesOn : ℕ → SniffPosition}
    (holding : Option Block → UInt8 → Pop3Sniffer)
    (ending : Option Block → Pop3Sniffer)
    (hparse : parsePop3Sniffer s c =
      if c ≠ 10 ∧ c ≠ 13 then
        if s.read.toNat < credentialsSize then do
          let block ← putByte block s.read.toNat c
          .ok (holding block (s.read + 1))
        else .ok (holding block s.read)
      else do
        let block ← putByte block s.read.toNat 0
        .ok (ending block))
    (hkept : KeptIn kept block) (hread : s.read = UInt8.ofNat (min n 100))
    (hnull : kept = false → n = 0)
    (hholding : ∀ b, KeptIn kept b → kept = true →
      (goesOn (n + 1)).Describes userKept passKept
        (holding b (UInt8.ofNat (min (n + 1) 100))))
    (hending : ∀ b, KeptIn kept b →
      line.Describes userKept passKept (ending b)) :
    Sniffs userKept passKept s c
      (SniffPosition.afterByte kept n c line goesOn) := by
  have hindex : s.read.toNat = min n 100 := by
    rw [hread, UInt8.toNat_ofNat']
    omega
  have hroom : min n 100 < credentialsSize ↔ n < credentialsSize := by
    unfold credentialsSize
    omega
  have hline : isLineEnd c = true ↔ ¬ (c ≠ 10 ∧ c ≠ 13) := by
    unfold isLineEnd
    rw [decide_eq_true_iff]
    tauto
  rw [hindex] at hparse
  rw [SniffPosition.afterByte]
  by_cases hc : c ≠ 10 ∧ c ≠ 13
  · rw [if_pos hc] at hparse
    rw [if_neg (fun h => hline.mp h hc)]
    by_cases hn : n < credentialsSize
    · rw [if_pos (hroom.mpr hn)] at hparse
      rcases putByte_keptIn hkept (min n 100) c with
        ⟨hfalse, hput⟩ | ⟨htrue, -, b, hput, hb⟩ | ⟨-, hge, -⟩
      · rw [hput] at hparse
        exact .null hparse (if_pos hfalse)
      · rw [hput, ok_bind, hread] at hparse
        rw [if_neg (by rw [htrue]; decide)]
        have hsucc : UInt8.ofNat (min n 100) + 1 =
            UInt8.ofNat (min (n + 1) 100) := by
          have hmin : min n 100 + 1 = min (n + 1) 100 := by
            unfold credentialsSize at hn
            omega
          rw [ofNat_add_one, hmin]
        rw [hsucc] at hparse
        exact .describes hparse (hholding b hb htrue)
      · exact absurd (hroom.mpr hn) hge
    · rw [if_neg (fun h => hn (hroom.mp h)), hread] at hparse
      have htrue : kept = true := by
        rw [← Bool.not_eq_false]
        intro hfalse
        rw [hnull hfalse] at hn
        exact hn (by decide)
      rw [if_neg (by rw [htrue]; decide)]
      have hfull : min n 100 = min (n + 1) 100 := by
        unfold credentialsSize at hn
        omega
      rw [hfull] at hparse
      exact .describes hparse (hholding block hkept htrue)
  · rw [if_neg hc] at hparse
    rw [if_pos (hline.mpr hc)]
    rcases putByte_keptIn hkept (min n 100) 0 with
      ⟨hfalse, hput⟩ | ⟨htrue, hlt, b, hput, hb⟩ | ⟨htrue, hge, hput⟩
    · rw [hput] at hparse
      exact .null hparse (if_pos hfalse)
    · rw [hput, ok_bind] at hparse
      rw [if_neg (by rw [htrue]; decide), if_pos (hroom.mp hlt)]
      exact .describes hparse (hending b hb)
    · rw [hput] at hparse
      rw [if_neg (by rw [htrue]; decide),
        if_neg (fun h => hge (hroom.mpr h))]
      exact .overflows hparse rfl

theorem sniffs_name {n : ℕ}
    (h : (SniffPosition.name n).Describes userKept passKept s) (c : UInt8) :
    Sniffs userKept passKept s c
      ((SniffPosition.name n).next userKept passKept c) := by
  obtain ⟨⟨hstate, hread, hnull⟩, huser, hpass⟩ := h
  have hparse : parsePop3Sniffer s c = readUser s c >>= fun r =>
      .ok { r.2 with state := r.1 } := by
    unfold parsePop3Sniffer
    rw [hstate]
  refine sniffs_argument
    (fun b r => { s with state := .readUser, user := b, read := r })
    (fun b => { s with
      state := .passCommand, user := b, read := 0, remaining := 5,
      checkRead := 0, checkRemaining := 4 }) ?_ huser hread hnull ?_ ?_
  · rw [hparse, readUser]
    by_cases hc : c ≠ 10 ∧ c ≠ 13
    · rw [if_pos hc, if_pos hc]
      by_cases hn : s.read.toNat < credentialsSize
      · rw [if_pos hn, if_pos hn]
        cases putByte s.user s.read.toNat c <;> rfl
      · rw [if_neg hn, if_neg hn]
        rfl
    · rw [if_neg hc, if_neg hc]
      cases putByte s.user s.read.toNat 0 <;> rfl
  · intro b hb htrue
    have hnull' : userKept = false → n + 1 = 0 := by
      rw [htrue]
      exact Bool.noConfusion
    exact ⟨⟨rfl, rfl, hnull'⟩, hb, hpass⟩
  · intro b hb
    exact ⟨⟨by omega, rfl⟩, hb, hpass⟩

theorem sniffs_password {n : ℕ}
    (h : (SniffPosition.password n).Describes userKept passKept s)
    (c : UInt8) :
    Sniffs userKept passKept s c
      ((SniffPosition.password n).next userKept passKept c) := by
  obtain ⟨⟨hstate, hread, hremaining, hnull⟩, huser, hpass⟩ := h
  have hparse : parsePop3Sniffer s c = readPass s c >>= fun r =>
      .ok { r.2 with state := r.1 } := by
    unfold parsePop3Sniffer
    rw [hstate]
  refine sniffs_argument
    (fun b r => { s with state := .readPass, pass := b, read := r })
    (fun b => { s with
      state := .checkCreds, pass := b, read := 0, checkRead := 0 })
    ?_ hpass hread hnull ?_ ?_
  · rw [hparse, readPass]
    by_cases hc : c ≠ 10 ∧ c ≠ 13
    · rw [if_pos hc, if_pos hc]
      by_cases hn : s.read.toNat < credentialsSize
      · rw [if_pos hn, if_pos hn]
        cases putByte s.pass s.read.toNat c <;> rfl
      · rw [if_neg hn, if_neg hn]
        rfl
    · rw [if_neg hc, if_neg hc]
      cases putByte s.pass s.read.toNat 0 <;> rfl
  · intro b hb htrue
    have hnull' : passKept = false → n + 1 = 0 := by
      rw [htrue]
      exact Bool.noConfusion
    exact ⟨⟨rfl, rfl, hremaining, hnull'⟩, huser, hb⟩
  · intro b hb
    exact ⟨⟨by omega, by omega, rfl, rfl, rfl, hremaining⟩, huser, hb⟩

/-- A byte of the answer to the password. -/
theorem sniffs_answer {i j : ℕ}
    (h : (SniffPosition.answer i j).Describes userKept passKept s)
    (c : UInt8) :
    Sniffs userKept passKept s c
      ((SniffPosition.answer i j).next userKept passKept c) := by
  obtain ⟨⟨hi, hj, hstate, hread, hcheck, hremaining⟩, huser, hpass⟩ := h
  have hok : charAt okText s.read = .ok okText[i] := by
    rw [hread]
    exact charAt_eq_ok hi (by decide)
  have herr : charAt errText s.checkRead = .ok errText[j] := by
    rw [hcheck]
    exact charAt_eq_ok hj (by decide)
  have hparse : parsePop3Sniffer s c = checkResponse s c >>= fun r =>
      .ok { r.2 with state := r.1 } := by
    unfold parsePop3Sniffer
    rw [hstate]
  rw [checkResponse, hok, ok_bind] at hparse
  rw [SniffPosition.next]
  by_cases hc : goesOn sameLetter okText i c = true
  · have hnext : s.read + 1 = UInt8.ofNat (i + 1) := by
      rw [hread, ofNat_add_one]
    have hlast : s.read + 1 = 3 ↔ i + 1 = okText.length := by
      rw [hnext]
      interval_cases i <;> decide
    rw [if_pos ((goesOn_iff hi c).mp hc)] at hparse
    dsimp only at hparse
    rw [if_pos hc]
    by_cases hend : i + 1 = okText.length
    · rw [if_pos hend]
      rw [if_pos (hlast.mpr hend)] at hparse
      exact .describes hparse ⟨rfl, huser, hpass⟩
    · rw [if_neg hend]
      rw [if_neg (fun h => hend (hlast.mp h))] at hparse
      have hlt : i + 1 < 3 := Nat.lt_of_le_of_ne hi hend
      exact .describes hparse
        ⟨⟨hlt, hj, rfl, hnext, hcheck, hremaining⟩, huser, hpass⟩
  · rw [if_neg (fun h => hc ((goesOn_iff hi c).mpr h)), herr, ok_bind] at hparse
    rw [if_neg hc]
    by_cases hd : goesOn sameLetter errText j c = true
    · have hnext : s.checkRead + 1 = UInt8.ofNat (j + 1) := by
        rw [hcheck, ofNat_add_one]
      have hlast : s.checkRead + 1 = 4 ↔ j + 1 = errText.length := by
        rw [hnext]
        interval_cases j <;> decide
      rw [if_pos ((goesOn_iff hj c).mp hd)] at hparse
      dsimp only at hparse
      rw [if_pos hd]
      by_cases hend : j + 1 = errText.length
      · rw [if_pos hend]
        rw [if_pos (hlast.mpr hend)] at hparse
        have hnat : (UInt8.ofNat i).toNat = i := by
          rw [UInt8.toNat_ofNat']
          omega
        refine .describes hparse ⟨⟨by omega, UInt8.ofNat i, hnat.le,
          by rw [hnat]; exact hi, ?_⟩, huser, hpass⟩
        unfold Pop3Command.seeking
        rw [UInt8.sub_self, ← hread, ← hremaining]
        rfl
      · rw [if_neg hend]
        rw [if_neg (fun h => hend (hlast.mp h))] at hparse
        have hlt : j + 1 < 4 := Nat.lt_of_le_of_ne hj hend
        exact .describes hparse
          ⟨⟨hi, hlt, rfl, hread, hnext, hremaining⟩, huser, hpass⟩
    · rw [if_neg (fun h => hd ((goesOn_iff hj c).mpr h))] at hparse
      rw [if_neg hd]
      exact .describes hparse
        ⟨⟨hi, hj, rfl, hread, hcheck, hremaining⟩, huser, hpass⟩

/-- What one byte does. -/
theorem SniffPosition.Describes.sniffs {pos : SniffPosition}
    (h : pos.Describes userKept passKept s) (c : UInt8) :
    Sniffs userKept passKept s c (pos.next userKept passKept c) := by
  cases pos with
  | greeting i => exact sniffs_greeting h c
  | seekingUser i => exact sniffs_seekingUser h c
  | missed i => exact sniffs_missed h c
  | name n => exact sniffs_name h c
  | seekingPass i => exact sniffs_seekingPass h c
  | password n => exact sniffs_password h c
  | answer i j => exact sniffs_answer h c
  | ended =>
      have hparse : parsePop3Sniffer s c = .ok s := by
        have hfinal : s.state.final = true := h.stands
        unfold parsePop3Sniffer
        cases hstate : s.state with
        | sniffSuccessful | finish =>
            cases s
            cases hstate
            rfl
        | init | userCommand | readUser | passCommand | readPass | checkCreds =>
            rw [hstate] at hfinal
            cases hfinal
      exact .describes hparse h
  | overflowed => exact False.elim h.stands

/-! ## A stream -/

namespace SniffPosition

theorem run_cons (pos : SniffPosition) (c : UInt8) (stream : List UInt8) :
    run userKept passKept pos (c :: stream) =
      run userKept passKept (pos.next userKept passKept c) stream :=
  rfl

theorem run_ended (stream : List UInt8) :
    run userKept passKept .ended stream = .ended := by
  induction stream with
  | nil => rfl
  | cons c stream ih => exact ih

theorem run_overflowed (stream : List UInt8) :
    run userKept passKept .overflowed stream = .overflowed := by
  induction stream with
  | nil => rfl
  | cons c stream ih => exact ih

/-- What a stream does. -/
theorem Describes.feed {pos : SniffPosition} {s : Pop3Sniffer}
    (h : pos.Describes userKept passKept s) (stream : List UInt8) :
    (∃ t, s.feed stream = .ok t ∧
        (run userKept passKept pos stream).Describes userKept passKept t) ∨
      (∃ e, s.feed stream = .error e) ∧
        (run userKept passKept pos stream = .ended ∨
          run userKept passKept pos stream = .overflowed) := by
  induction stream generalizing pos s with
  | nil => exact .inl ⟨s, rfl, h⟩
  | cons c stream ih =>
      rw [Pop3Sniffer.feed_cons, run_cons]
      cases h.sniffs c with
      | describes hparse hnext =>
          rw [hparse]
          exact ih hnext
      | null hparse hnext =>
          rw [hparse, hnext, run_ended]
          exact .inr ⟨⟨_, rfl⟩, .inl rfl⟩
      | overflows hparse hnext =>
          rw [hparse, hnext, run_overflowed]
          exact .inr ⟨⟨_, rfl⟩, .inr rfl⟩

theorem afterByte_eq_overflowed_iff {kept : Bool} {n : ℕ} {c : UInt8}
    {line : SniffPosition} {goesOn : ℕ → SniffPosition}
    (hline : line ≠ .overflowed) (hgoesOn : ∀ m, goesOn m ≠ .overflowed) :
    afterByte kept n c line goesOn = .overflowed ↔
      kept = true ∧ isLineEnd c = true ∧ credentialsSize ≤ n := by
  unfold afterByte
  cases kept with
  | false => simp
  | true =>
      by_cases hc : isLineEnd c = true
      · by_cases hn : n < credentialsSize
        · simpa [hc, hn, Nat.not_le.mpr hn] using hline
        · simpa [hc, hn] using Nat.le_of_not_lt hn
      · simpa [hc] using hgoesOn (n + 1)

theorem next_eq_overflowed_iff (pos : SniffPosition) (c : UInt8) :
    pos.next userKept passKept c = .overflowed ↔
      pos = .overflowed ∨ pos.Exceeds userKept passKept c := by
  have hnot : ∀ {p : Prop}, pos ≠ .overflowed → (p ↔ pos = .overflowed ∨ p) :=
    fun h => ⟨.inr, fun h' => h'.resolve_left h⟩
  cases pos with
  | name n =>
      rw [next, afterByte_eq_overflowed_iff (by simp) (by simp)]
      exact hnot (by simp)
  | password n =>
      rw [next, afterByte_eq_overflowed_iff (by simp) (by simp)]
      exact hnot (by simp)
  | missed i =>
      rw [next]
      by_cases hi : userText.length < i
      · simp [Exceeds, hi]
      · rw [if_neg hi]
        have hsplit : ¬ (SniffPosition.missed i).Exceeds userKept passKept c := hi
        split
        · simpa using hsplit
        · split <;> simpa using hsplit
  | greeting i | seekingUser i | seekingPass i =>
      rw [next]
      split
      · split <;> simp [Exceeds]
      · simp [Exceeds]
  | answer i j =>
      rw [next]
      split
      · split <;> simp [Exceeds]
      · split
        · split <;> simp [Exceeds]
        · simp [Exceeds]
  | ended => simp [next, Exceeds]
  | overflowed => simp [next]

end SniffPosition

/-- In every state that is reached, what is accessed for the next byte is
within the blocks and the keywords. -/
def SniffedInBounds (s : Pop3Sniffer) (stream : List UInt8) : Prop :=
  ∀ seen c t, seen ++ [c] <+: stream → s.feed seen = .ok t →
    parsePop3Sniffer t c ≠ .error .outOfBounds

theorem SniffPosition.Describes.inBounds_iff {pos : SniffPosition}
    (h : pos.Describes userKept passKept s) (stream : List UInt8) :
    SniffedInBounds s stream ↔ ∀ seen c, seen ++ [c] <+: stream →
      ¬ (run userKept passKept pos seen).Exceeds userKept passKept c := by
  constructor
  · intro hbounds seen c hseen hexceeds
    have hover := (next_eq_overflowed_iff _ c).mpr (.inr hexceeds)
    rcases h.feed seen with ⟨t, ht, hpos⟩ | ⟨-, hended | hended⟩
    · cases hpos.sniffs c with
      | describes hparse hnext =>
          rw [hover] at hnext
          exact hnext.stands
      | null hparse hnext =>
          rw [hover] at hnext
          cases hnext
      | overflows hparse hnext => exact hbounds seen c t hseen ht hparse
    · rw [hended] at hexceeds
      exact hexceeds
    · rw [hended] at hexceeds
      exact hexceeds
  · intro hpos seen c t hseen ht hfault
    rcases h.feed seen with ⟨t', ht', hdescribes⟩ | ⟨⟨e, he⟩, -⟩
    · rw [ht] at ht'
      cases ht'
      cases hdescribes.sniffs c with
      | describes hparse hnext =>
          rw [hfault] at hparse
          cases hparse
      | null hparse hnext =>
          rw [hfault] at hparse
          cases hparse
      | overflows hparse hnext =>
          rcases (next_eq_overflowed_iff _ c).mp hnext with hover | hexceeds
          · rw [hover] at hdescribes
            exact hdescribes.stands
          · exact hpos seen c hseen hexceeds
    · rw [ht] at he
      cases he

/-- Whether the allocation of `pop3_sniffer_init` for the name, or for the
password, succeeds. -/
def keepsUser (a : Allocs) : Bool := a.headD true

def keepsPass (a : Allocs) : Bool := a.tail.headD true

/-- The sniffer that has just been initialised. -/
theorem describes_init (s : Pop3Sniffer) (a : Allocs) :
    (SniffPosition.greeting 0).Describes (keepsUser a) (keepsPass a)
      (pop3SnifferInit s a) := by
  have hsized : Sized (some (List.replicate credentialsSize 0)) :=
    ⟨_, rfl, List.length_replicate⟩
  refine ⟨⟨by omega, rfl, rfl, rfl⟩, ?_, ?_⟩
  · rcases a with - | ⟨_ | _, a⟩
    · exact hsized
    · rfl
    · exact hsized
  · rcases a with - | ⟨_ | _, - | ⟨_ | _, a⟩⟩
    all_goals first | exact hsized | rfl

/-- The position after a stream that begins with the greeting. -/
def sniffPosition (a : Allocs) (seen : List UInt8) : SniffPosition :=
  SniffPosition.run (keepsUser a) (keepsPass a) (.greeting 0) seen

/-- The stores and the comparisons of the sniffer are in bounds as long as no
name and no password of `CREDENTIALS_SIZE` bytes or more is ended, and nothing
follows a `USER` and its terminator that are missed after a refusal. -/
theorem sniffedInBounds_iff (s : Pop3Sniffer) (a : Allocs)
    (stream : List UInt8) :
    SniffedInBounds (pop3SnifferInit s a) stream ↔
      ∀ seen c, seen ++ [c] <+: stream →
        ¬ (sniffPosition a seen).Exceeds (keepsUser a) (keepsPass a) c :=
  (describes_init s a).inBounds_iff stream

/-- A name of `CREDENTIALS_SIZE` bytes, with the end of its line. -/
def longName : List UInt8 :=
  okText ++ userText ++ List.replicate credentialsSize 97 ++ [10]

/-- Its terminator is stored behind the block. -/
theorem not_sniffedInBounds_longName :
    ¬ SniffedInBounds (pop3SnifferInit {} []) longName := by
  intro hbounds
  have hpos : SniffPosition.run true true (.greeting 0)
      (okText ++ userText ++ List.replicate credentialsSize 97) = .name 100 := by
    decide +kernel
  refine ((describes_init {} []).inBounds_iff longName).mp hbounds
    (okText ++ userText ++ List.replicate credentialsSize 97) 10
    (List.prefix_refl _) ?_
  have hkept : keepsUser [] = true ∧ keepsPass [] = true := ⟨rfl, rfl⟩
  rw [hkept.1, hkept.2, hpos]
  exact ⟨rfl, rfl, Nat.le_refl _⟩

end Socksv5
