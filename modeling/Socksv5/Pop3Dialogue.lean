import Socksv5.Pop3Sniffer
import Socksv5.Support.Search
import Mathlib.Tactic.IntervalCases

/-!
# POP3 logins

The dialogue of a POP3 login, byte by byte through `parse_pop3_sniffer`: a
greeting, some attempts that the server refuses, and one that it accepts.
-/

namespace Socksv5

open Support

/-! ## Dialogues -/

/-- `"\r\n"` -/
def crlf : List UInt8 := [13, 10]

/-- The text holds the keyword, in any letter case. -/
def Mentions (keyword text : List UInt8) : Prop :=
  keyword.map tolower <:+: text.map tolower

instance (keyword text : List UInt8) : Decidable (Mentions keyword text) :=
  inferInstanceAs (Decidable (_ <:+: _))

/-- What the sniffer can keep of a name or a password. -/
structure Pop3Plain (bytes : List UInt8) : Prop where
  short : bytes.length < 100
  plain : ∀ b ∈ bytes, b ≠ 13 ∧ b ≠ 10 ∧ b ≠ 0

/-- A name or a password. -/
structure Pop3Word where
  bytes : List UInt8
  plain : Pop3Plain bytes

/-- What a server says after its status. -/
structure Pop3Text where
  bytes : List UInt8
  oneLine : ∀ b ∈ bytes, b ≠ 13 ∧ b ≠ 10
  noUser : ¬ Mentions userText bytes
  noPass : ¬ Mentions passText bytes

/-- A login up to the server's answer to the password. -/
structure Pop3Login where
  user : Pop3Word
  reply : Pop3Text
  pass : Pop3Word

/-- A login that the server refuses. -/
structure Pop3Refusal where
  login : Pop3Login
  reason : Pop3Text

/-- The bytes of a login, in the order in which both sides send them. -/
def Pop3Login.bytes (l : Pop3Login) : List UInt8 :=
  userText ++ l.user.bytes ++ crlf ++ (okText ++ l.reply.bytes ++ crlf) ++
    (passText ++ l.pass.bytes ++ crlf)

def Pop3Refusal.bytes (r : Pop3Refusal) : List UInt8 :=
  r.login.bytes ++ (errText ++ r.reason.bytes ++ crlf)

/-- The dialogue up to the status of the answer to the last password. -/
def pop3Dialogue (greeting : Pop3Text) (refusals : List Pop3Refusal)
    (login : Pop3Login) : List UInt8 :=
  okText ++ greeting.bytes ++ crlf ++ refusals.flatMap Pop3Refusal.bytes ++
    login.bytes ++ okText

/-- `parse_pop3_sniffer` for each byte. -/
def Pop3Sniffer.feed (s : Pop3Sniffer) (bytes : List UInt8) :
    Except Fault Pop3Sniffer :=
  bytes.foldlM parsePop3Sniffer s

/-- The credentials that the sniffer has kept. -/
def Pop3Sniffer.Took (s : Pop3Sniffer) (user pass : List UInt8) : Prop :=
  s.state = .sniffSuccessful ∧ s.user.map cString = some user ∧
    s.pass.map cString = some pass

/-! ## What the sniffer follows -/

/-- `b` and `c` are one letter. -/
def sameLetter (b c : UInt8) : Bool := tolower b == tolower c

/-- What the sniffer reads as a name in a line. -/
def afterUser : List UInt8 → Option (List UInt8) :=
  afterKeyword sameLetter userText

/-- What the sniffer reads as a password in a line. -/
def afterPass : List UInt8 → Option (List UInt8) :=
  afterKeyword sameLetter passText

/-- Where the sniffer stands between two lines. -/
inductive Watch
  /-- The next `USER` is seen. -/
  | ready
  /-- The next `USER` is missed: the indexes are those of the last match. -/
  | stale
  /-- A name was read. -/
  | named (user : List UInt8)
  /-- A name and a password were read, whose answer is awaited. -/
  | pending (user pass : List UInt8)
  | sniffed (user pass : List UInt8)

/-- What is left of a login up to the answer to the password. -/
def Watch.login (user pass : List UInt8) : Watch → Watch
  | .ready => .pending user pass
  | .stale =>
      match afterUser user.tail with
      | some name => .pending name pass
      | none =>
          match afterUser pass with
          | some name => .named name
          | none => .ready
  | .named name =>
      match afterPass user with
      | some secret => .sniffed name secret
      | none => .pending name pass
  | w => w

/-- What `-ERR` and the reason leave.  The indexes of the last match stay
until some letter of the reason begins another one. -/
def Watch.refuse (reason : List UInt8) : Watch → Watch
  | .pending _ _ | .stale =>
      if reason.any (sameLetter · 85) then .ready else .stale
  | w => w

/-- Where the sniffer stands after the attempts that were refused. -/
def watchAfter (refusals : List Pop3Refusal) : Watch :=
  refusals.foldl
    (fun w r => (w.login r.login.user.bytes r.login.pass.bytes).refuse
      r.reason.bytes) .ready

/-- From where the sniffer takes the credentials of a login as they are. -/
def Watch.Takes (user pass : List UInt8) : Watch → Prop
  | .ready => True
  | .named name => name = user ∧ (afterPass user).getD pass = pass
  | .sniffed name secret => name = user ∧ secret = pass
  | _ => False

/-! ## Searching in lines -/

theorem tolower_eq_zero {b : UInt8} (h : tolower b = 0) : b = 0 := by
  unfold tolower at h
  split at h
  · rename_i hb
    have h1 := UInt8.le_iff_toNat_le.mp hb.1
    have h2 := UInt8.le_iff_toNat_le.mp hb.2
    have h3 := congrArg UInt8.toNat h
    rw [UInt8.toNat_add] at h3
    simp only [UInt8.toNat_ofNat] at h1 h2 h3
    omega
  · exact h

/-- Letter by letter the same is the same in one letter case. -/
theorem forall₂_sameLetter_iff {k keyword : List UInt8} :
    List.Forall₂ (fun b c => sameLetter b c = true) k keyword ↔
      k.map tolower = keyword.map tolower := by
  rw [← List.forall₂_eq_eq_eq, List.forall₂_map_left_iff,
    List.forall₂_map_right_iff]
  simp only [sameLetter, beq_iff_eq]

/-- A text in which the keyword is found mentions it. -/
theorem mentions_of_seek {keyword text rest : List UInt8}
    (hk : keyword ≠ []) (h : seek sameLetter keyword 0 text = .inr rest) :
    Mentions keyword text := by
  obtain ⟨pre, k, rfl, hmatch⟩ :=
    exists_of_seek (List.length_pos_of_ne_nil hk) h
  have heq : k.map tolower = keyword.map tolower := by
    rw [← forall₂_sameLetter_iff]
    rcases hmatch with hmatch | ⟨-, hmatch⟩
    · exact hmatch
    · exact hmatch
  refine ⟨pre.map tolower, rest.map tolower, ?_⟩
  rw [List.map_append, List.map_append, heq]

/-- The two commands, with what is known when each is looked for. -/
inductive Pop3Command
  | user
  | pass (name : List UInt8)

/-- The keyword of the command. -/
def Pop3Command.text : Pop3Command → List UInt8
  | .user => userText
  | .pass _ => passText

theorem Pop3Command.text_length (c : Pop3Command) : c.text.length = 5 := by
  cases c <;> rfl

theorem Pop3Command.text_ne_nil (c : Pop3Command) : c.text ≠ [] := by
  cases c <;> exact List.cons_ne_nil _ _

theorem Pop3Text.seek (t : Pop3Text) (c : Pop3Command) :
    ∃ j, Support.seek sameLetter c.text 0 t.bytes = .inl j := by
  cases h : Support.seek sameLetter c.text 0 t.bytes with
  | inl j => exact ⟨j, rfl⟩
  | inr rest =>
      have hm := mentions_of_seek c.text_ne_nil h
      cases c with
      | user => exact absurd hm t.noUser
      | pass name => exact absurd hm t.noPass

/-- The end of a line ends a match. -/
theorem seek_crlf (c : Pop3Command) (j : ℕ) :
    seek sameLetter c.text j crlf = .inl 0 := by
  have hoff : ∀ b, b = 13 ∨ b = 10 → ∀ d ∈ c.text, sameLetter b d = false := by
    rintro b (rfl | rfl) <;> cases c <;>
      simp [Pop3Command.text, userText, passText, sameLetter, tolower]
  unfold crlf
  rw [seek_of_not_mem _ (hoff 13 (.inl rfl)),
    seek_of_not_mem _ (hoff 10 (.inr rfl))]
  rfl

/-! ## Looking for a command -/

/-- Every state of a run is what the fold makes of the bytes so far. -/
theorem Pop3Sniffer.feed_append (s : Pop3Sniffer) (xs ys : List UInt8) :
    s.feed (xs ++ ys) = s.feed xs >>= fun s => s.feed ys := by
  unfold Pop3Sniffer.feed
  rw [List.foldlM_append]

theorem Pop3Sniffer.feed_cons (s : Pop3Sniffer) (b : UInt8)
    (bs : List UInt8) :
    s.feed (b :: bs) = parsePop3Sniffer s b >>= fun s => s.feed bs := by
  unfold Pop3Sniffer.feed
  rw [List.foldlM_cons]

/-- The state in which the command is looked for. -/
def Pop3Command.here : Pop3Command → Pop3SnifferState
  | .user => .userCommand
  | .pass _ => .passCommand

/-- The state in which its argument is read. -/
def Pop3Command.next : Pop3Command → Pop3SnifferState
  | .user => .readUser
  | .pass _ => .readPass

/-- The sniffer with `i` letters of the command matched, where `left` were
missing at the beginning. -/
def Pop3Command.seeking (c : Pop3Command) (left : UInt8) (i : ℕ)
    (s : Pop3Sniffer) : Pop3Sniffer :=
  { s with
    state := c.here, read := UInt8.ofNat i,
    remaining := left - UInt8.ofNat i }

/-- The sniffer that has matched the whole command. -/
def Pop3Command.matched (c : Pop3Command) (s : Pop3Sniffer) : Pop3Sniffer :=
  { s with state := c.next, read := 0, remaining := 0 }

theorem parsePop3Sniffer_seeking (c : Pop3Command) (left : UInt8) (i : ℕ)
    (s : Pop3Sniffer) (b : UInt8) :
    parsePop3Sniffer (c.seeking left i s) b =
      readCommand c.text c.here c.next (c.seeking left i s) b >>= fun r =>
        .ok { r.2 with state := r.1 } := by
  cases c <;> rfl

theorem charAt_text (c : Pop3Command) {i : ℕ} (hi : i < c.text.length) :
    charAt c.text (UInt8.ofNat i) = .ok c.text[i] := by
  have h5 : i < 5 := by rwa [c.text_length] at hi
  cases c <;> interval_cases i <;> rfl

/-- A letter that goes on with the command. -/
theorem parse_seeking_goesOn (c : Pop3Command) {left : UInt8} {i : ℕ}
    {b : UInt8} (s : Pop3Sniffer) (hi : i < 5)
    (hleft : left = 5 ∨ left.toNat ≤ i)
    (hb : goesOn sameLetter c.text i b = true) :
    parsePop3Sniffer (c.seeking left i s) b =
      if left = 5 ∧ i + 1 = 5 then .ok (c.matched s)
      else .ok (c.seeking left (i + 1) s) := by
  have hlt : i < c.text.length := by rw [c.text_length]; exact hi
  have hsame : tolower b = tolower c.text[i] := by
    rw [goesOn, List.getElem?_eq_getElem hlt] at hb
    exact eq_of_beq hb
  have hread : (c.seeking left i s).read = UInt8.ofNat i := rfl
  rw [parsePop3Sniffer_seeking, readCommand, hread, charAt_text c hlt]
  simp only [Except.bind, bind, hsame, if_true]
  have hcount : left - UInt8.ofNat i - 1 = 0 ↔ left = 5 ∧ i + 1 = 5 := by
    rw [← UInt8.toNat_inj, ← UInt8.toNat_inj, UInt8.toNat_sub, UInt8.toNat_sub]
    rw [← UInt8.toNat_inj] at hleft
    simp only [UInt8.toNat_ofNat', UInt8.toNat_ofNat] at hleft ⊢
    omega
  by_cases hlast : left = 5 ∧ i + 1 = 5
  · obtain ⟨rfl, h4⟩ := hlast
    obtain rfl : i = 4 := by omega
    have hrest : (c.seeking 5 4 s).remaining - 1 = 0 :=
      hcount.mpr ⟨rfl, h4⟩
    rw [if_pos hrest, hrest, if_pos ⟨rfl, h4⟩]
    rfl
  · rw [if_neg hlast]
    have hrest : (c.seeking left i s).remaining - 1 ≠ 0 := by
      intro h0
      exact hlast (hcount.mp h0)
    rw [if_neg hrest]
    have hsub : left - UInt8.ofNat i - 1 = left - UInt8.ofNat (i + 1) := by
      rw [← UInt8.toNat_inj]
      simp only [UInt8.toNat_sub, UInt8.toNat_ofNat', UInt8.toNat_ofNat]
      omega
    have hsucc : UInt8.ofNat i + 1 = UInt8.ofNat (i + 1) := by
      interval_cases i <;> rfl
    unfold Pop3Command.seeking
    rw [hsub, hsucc]

/-- A letter that does not: the indexes begin again, unless nothing was
matched. -/
theorem parse_seeking_differs (c : Pop3Command) {left : UInt8} {i : ℕ}
    {b : UInt8} (s : Pop3Sniffer) (hi : i < 5)
    (hb : goesOn sameLetter c.text i b = false) :
    parsePop3Sniffer (c.seeking left i s) b =
      .ok (c.seeking (if i = 0 then left else 5) 0 s) := by
  have hlt : i < c.text.length := by rw [c.text_length]; exact hi
  have hdiff : tolower b ≠ tolower c.text[i] := by
    rw [goesOn, List.getElem?_eq_getElem hlt] at hb
    exact ne_of_beq_false hb
  have hread : (c.seeking left i s).read = UInt8.ofNat i := rfl
  rw [parsePop3Sniffer_seeking, readCommand, hread, charAt_text c hlt]
  simp only [Except.bind, bind, if_neg hdiff]
  by_cases h0 : i = 0
  · subst h0
    rfl
  · have hne : UInt8.ofNat i ≠ 0 := by
      interval_cases i
      · exact absurd rfl h0
      all_goals decide
    rw [if_pos hne, if_neg h0]
    rfl

/-- With the indexes in their places, the sniffer searches for the command. -/
theorem feed_seeking (c : Pop3Command) {i : ℕ} (s : Pop3Sniffer)
    (bs : List UInt8) (hi : i < 5) :
    (c.seeking 5 i s).feed bs =
      match seek sameLetter c.text i bs with
      | .inl j => .ok (c.seeking 5 j s)
      | .inr rest => (c.matched s).feed rest := by
  induction bs generalizing i with
  | nil => rfl
  | cons b bs ih =>
      rw [Pop3Sniffer.feed_cons, seek, c.text_length]
      by_cases hb : goesOn sameLetter c.text i b = true
      · rw [parse_seeking_goesOn c s hi (.inl rfl) hb, if_pos hb]
        by_cases hlast : i + 1 = 5
        · rw [if_pos ⟨rfl, hlast⟩, if_pos hlast]
          rfl
        · rw [if_neg (fun h => hlast h.2), if_neg hlast]
          exact ih (by omega)
      · rw [parse_seeking_differs c s hi (Bool.eq_false_iff.mpr hb), if_neg hb,
          ite_self]
        exact ih (by omega)

/-- With the indexes of the last match, a search that finds nothing puts them
in their places at the first letter that does not go on with a match. -/
theorem feed_stale (c : Pop3Command) {i j : ℕ} (s : Pop3Sniffer)
    {bs : List UInt8} (hi : i < 5)
    (h : seek sameLetter c.text i bs = .inl j) :
    ∃ left, (c.seeking 0 i s).feed bs = .ok (c.seeking left j s) ∧
      (left = 5 ∧ (i = 0 → bs.any (goesOn sameLetter c.text 0) = true) ∨
        left = 0 ∧
          ((i = 0 ∧ j = 0 ∧ bs.any (goesOn sameLetter c.text 0) = false) ∨
            0 < j)) := by
  induction bs generalizing i with
  | nil =>
      cases h
      refine ⟨0, rfl, .inr ⟨rfl, ?_⟩⟩
      rcases Nat.eq_zero_or_pos j with rfl | hpos
      · exact .inl ⟨rfl, rfl, rfl⟩
      · exact .inr hpos
  | cons b bs ih =>
      rw [Pop3Sniffer.feed_cons]
      rw [seek, c.text_length] at h
      by_cases hb : goesOn sameLetter c.text i b = true
      · rw [if_pos hb] at h
        by_cases hlast : i + 1 = 5
        · rw [if_pos hlast] at h
          cases h
        · rw [if_neg hlast] at h
          rw [parse_seeking_goesOn c s hi (.inr (Nat.zero_le _)) hb,
            if_neg fun h => absurd h.1 (by decide)]
          obtain ⟨left, hfeed, ⟨h5, -⟩ | ⟨h0, ⟨hi0, -⟩ | hj⟩⟩ := ih (by omega) h
          · refine ⟨left, hfeed, .inl ⟨h5, ?_⟩⟩
            rintro rfl
            rw [List.any_cons, hb]
            rfl
          · omega
          · exact ⟨left, hfeed, .inr ⟨h0, .inr hj⟩⟩
      · rw [if_neg hb] at h
        have hb' := Bool.eq_false_iff.mpr hb
        rw [parse_seeking_differs c s hi hb']
        by_cases h0 : i = 0
        · subst h0
          rw [if_pos rfl]
          obtain ⟨left, hfeed, ⟨h5, hany⟩ | ⟨hl, ⟨-, hj, hany⟩ | hj⟩⟩ :=
            ih (by omega) h
          · refine ⟨left, hfeed, .inl ⟨h5, ?_⟩⟩
            intro _
            rw [List.any_cons, hany rfl, Bool.or_true]
          · refine ⟨left, hfeed, .inr ⟨hl, .inl ⟨rfl, hj, ?_⟩⟩⟩
            rw [List.any_cons, hb', hany]
            rfl
          · exact ⟨left, hfeed, .inr ⟨hl, .inr hj⟩⟩
        · rw [if_neg h0]
          refine ⟨5, ?_, .inl ⟨rfl, fun hi0 => absurd hi0 h0⟩⟩
          change (c.seeking 5 0 s).feed bs = _
          rw [feed_seeking c s bs (by omega), h]

/-- The whole command is matched, but with the indexes of the last match this
is not seen. -/
theorem feed_staleKeyword (c : Pop3Command) (s : Pop3Sniffer) {i n : ℕ}
    (h : i + n = 5) :
    (c.seeking 0 i s).feed (c.text.drop i) = .ok (c.seeking 0 5 s) := by
  induction n generalizing i with
  | zero =>
      obtain rfl : i = 5 := h
      cases c <;> rfl
  | succ n ih =>
      have hlt : i < c.text.length := by
        rw [c.text_length]
        omega
      have hon : goesOn sameLetter c.text i c.text[i] = true := by
        rw [goesOn, List.getElem?_eq_getElem hlt]
        exact beq_self_eq_true _
      rw [List.drop_eq_getElem_cons hlt, Pop3Sniffer.feed_cons,
        parse_seeking_goesOn c s (by omega) (.inr (Nat.zero_le _)) hon,
        if_neg fun h => absurd h.1 (by decide)]
      exact ih (by omega)

/-! ## Reading a name or a password -/

/-- The block that the argument of the command is read into. -/
def Pop3Command.block (c : Pop3Command) (s : Pop3Sniffer) : Option Block :=
  match c with
  | .user => s.user
  | .pass _ => s.pass

/-- The sniffer that has read `xs` of the argument into a block that ends with
`rest`. -/
def Pop3Command.reading (c : Pop3Command) (xs rest : List UInt8)
    (s : Pop3Sniffer) : Pop3Sniffer :=
  match c with
  | .user =>
      { s with
        state := .readUser, read := UInt8.ofNat xs.length,
        user := some (xs ++ rest) }
  | .pass _ =>
      { s with
        state := .readPass, read := UInt8.ofNat xs.length,
        pass := some (xs ++ rest) }

theorem read_lt {xs : List UInt8} (h : xs.length < 100) :
    (UInt8.ofNat xs.length).toNat = xs.length := by
  rw [UInt8.toNat_ofNat']
  omega

theorem readUser_of_room {s : Pop3Sniffer} {b : UInt8} {block : Option Block}
    (hb : b ≠ 10 ∧ b ≠ 13) (hread : s.read.toNat < 100)
    (hput : putByte s.user s.read.toNat b = .ok block) :
    readUser s b =
      .ok (.readUser, { s with user := block, read := s.read + 1 }) := by
  have hroom : s.read.toNat < credentialsSize := hread
  rw [readUser, if_pos hb, if_pos hroom, hput]
  rfl

theorem readPass_of_room {s : Pop3Sniffer} {b : UInt8} {block : Option Block}
    (hb : b ≠ 10 ∧ b ≠ 13) (hread : s.read.toNat < 100)
    (hput : putByte s.pass s.read.toNat b = .ok block) :
    readPass s b =
      .ok (.readPass, { s with pass := block, read := s.read + 1 }) := by
  have hroom : s.read.toNat < credentialsSize := hread
  rw [readPass, if_pos hb, if_pos hroom, hput]
  rfl

/-- A byte of the argument. -/
theorem parse_reading (c : Pop3Command) {xs rest : List UInt8} {r b : UInt8}
    (s : Pop3Sniffer) (hxs : xs.length < 100) (hb : b ≠ 10 ∧ b ≠ 13) :
    parsePop3Sniffer (c.reading xs (r :: rest) s) b =
      .ok (c.reading (xs ++ [b]) rest s) := by
  have hread := read_lt hxs
  have hlt : (UInt8.ofNat xs.length).toNat < 100 := by
    rw [hread]
    exact hxs
  have hput : putByte (some (xs ++ r :: rest)) (UInt8.ofNat xs.length).toNat b =
      .ok (some (xs ++ [b] ++ rest)) := by
    rw [hread, putByte_append, List.append_assoc]
    rfl
  have hsucc := ofNat_length_succ xs b
  cases c with
  | user =>
      have hstep := readUser_of_room
        (s := Pop3Command.user.reading xs (r :: rest) s) hb hlt hput
      change (readUser _ b >>= fun r => Except.ok { r.2 with state := r.1 }) = _
      rw [hstep]
      unfold Pop3Command.reading
      rw [← hsucc]
      rfl
  | pass name =>
      have hstep := readPass_of_room
        (s := (Pop3Command.pass name).reading xs (r :: rest) s) hb hlt hput
      change (readPass _ b >>= fun r => Except.ok { r.2 with state := r.1 }) = _
      rw [hstep]
      unfold Pop3Command.reading
      rw [← hsucc]
      rfl

/-- The argument as far as the end of its line. -/
theorem feed_reading (c : Pop3Command) {xs rest v : List UInt8}
    (s : Pop3Sniffer) (hv : ∀ b ∈ v, b ≠ 10 ∧ b ≠ 13)
    (hlen : xs.length + v.length < 100)
    (hrest : (xs ++ rest).length = 100) :
    (c.reading xs rest s).feed v =
      .ok (c.reading (xs ++ v) (rest.drop v.length) s) := by
  induction v generalizing xs rest with
  | nil =>
      rw [List.append_nil]
      rfl
  | cons b v ih =>
      rw [List.length_append] at hrest
      rw [List.length_cons] at hlen
      cases rest with
      | nil =>
          rw [List.length_nil] at hrest
          omega
      | cons r rest =>
          rw [List.length_cons] at hrest
          have hb := hv b List.mem_cons_self
          rw [Pop3Sniffer.feed_cons, parse_reading c s (by omega) hb]
          have hxs : (xs ++ [b]).length = xs.length + 1 := by simp
          have hv' : ∀ d ∈ v, d ≠ 10 ∧ d ≠ 13 := by
            intro d hd
            exact hv d (List.mem_cons_of_mem b hd)
          have hlen' : (xs ++ [b]).length + v.length < 100 := by omega
          have hrest' : (xs ++ [b] ++ rest).length = 100 := by
            rw [List.length_append, hxs]
            omega
          have h := ih hv' hlen' hrest'
          rw [List.append_assoc] at h
          exact h

/-- A block of the sniffer. -/
def Sized (block : Option Block) : Prop :=
  ∃ bs, block = some bs ∧ bs.length = 100

/-- A block that holds a string. -/
def Holds (block : Option Block) (v : List UInt8) : Prop :=
  Sized block ∧ block.map cString = some v

theorem cString_terminated {v rest : List UInt8} (hv : ∀ b ∈ v, b ≠ 0) :
    cString (v ++ 0 :: rest) = v := by
  unfold cString
  rw [List.takeWhile_append_of_pos (fun b hb => bne_iff_ne.mpr (hv b hb))]
  simp

/-! ## Lines -/

/-- From every state with `P` the bytes lead to one with `Q`. -/
def Carries (P : Pop3Sniffer → Prop) (bytes : List UInt8)
    (Q : Pop3Sniffer → Prop) : Prop :=
  ∀ s, P s → ∃ s', s.feed bytes = .ok s' ∧ Q s'

theorem Carries.trans {P Q R : Pop3Sniffer → Prop} {xs ys : List UInt8}
    (h : Carries P xs Q) (h' : Carries Q ys R) : Carries P (xs ++ ys) R := by
  intro s hs
  obtain ⟨s', hfeed, hs'⟩ := h s hs
  obtain ⟨s'', hfeed', hs''⟩ := h' s' hs'
  refine ⟨s'', ?_, hs''⟩
  rw [Pop3Sniffer.feed_append, hfeed]
  exact hfeed'

/-- What the blocks hold while the command is looked for. -/
def Pop3Command.Kept (c : Pop3Command) (s : Pop3Sniffer) : Prop :=
  Sized s.pass ∧
    match c with
    | .user => Sized s.user
    | .pass name => Holds s.user name

/-- The command is looked for, with nothing matched. -/
def Pop3Command.Sought (c : Pop3Command) (left : UInt8) (s : Pop3Sniffer) :
    Prop :=
  c.Kept s ∧ ∃ s₀, s = c.seeking left 0 s₀

/-- The answer to the password is awaited. -/
def Awaited (user pass : List UInt8) (s : Pop3Sniffer) : Prop :=
  Holds s.user user ∧ Holds s.pass pass ∧ s.state = .checkCreds ∧
    s.read = 0 ∧ s.remaining = 0 ∧ s.checkRead = 0

/-- The credentials were accepted. -/
def Sniffed (user pass : List UInt8) (s : Pop3Sniffer) : Prop :=
  Holds s.user user ∧ Holds s.pass pass ∧ s.state = .sniffSuccessful

/-- The sniffer stands where the watch says. -/
def Watch.Stands : Watch → Pop3Sniffer → Prop
  | .ready => Pop3Command.user.Sought 5
  | .stale => Pop3Command.user.Sought 0
  | .named name => (Pop3Command.pass name).Sought 5
  | .pending user pass => Awaited user pass
  | .sniffed user pass => Sniffed user pass

/-- A line without the command. -/
theorem carries_without (c : Pop3Command) {line : List UInt8}
    (h : seek sameLetter c.text 0 line = .inl 0) :
    Carries (c.Sought 5) line (c.Sought 5) := by
  rintro s ⟨hkept, s₀, rfl⟩
  refine ⟨c.seeking 5 0 s₀, ?_, hkept, s₀, rfl⟩
  rw [feed_seeking c s₀ line (by omega), h]

/-- A line without the command, when the indexes are those of the last
match. -/
theorem carries_stale {line : List UInt8}
    (h : seek sameLetter userText 0 line = .inl 0) :
    Carries (Pop3Command.user.Sought 0) line
      (Pop3Command.user.Sought (if line.any (sameLetter · 85) then 5 else 0)) := by
  rintro s ⟨hkept, s₀, rfl⟩
  obtain ⟨left, hfeed, hleft⟩ := feed_stale .user s₀ (by omega) h
  refine ⟨_, hfeed, hkept, s₀, ?_⟩
  have hany : line.any (sameLetter · 85) =
      line.any (goesOn sameLetter Pop3Command.user.text 0) := rfl
  rw [hany]
  rcases hleft with ⟨rfl, hstart⟩ | ⟨rfl, ⟨-, -, hstart⟩ | hpos⟩
  · rw [hstart rfl]
    rfl
  · rw [hstart]
    rfl
  · omega

/-- The argument of a command up to the end of its line. -/
theorem feed_matched (c : Pop3Command) {v : List UInt8} {s : Pop3Sniffer}
    (hv : Pop3Plain v) (hkept : c.Kept s) :
    ∃ r rest, (v ++ r :: rest).length = 100 ∧
      (c.matched s).feed v =
        .ok (c.reading v (r :: rest) { s with remaining := 0 }) := by
  have hsized : ∃ bs : Block, bs.length = 100 ∧
      c.matched s = c.reading [] bs { s with remaining := 0 } := by
    cases c with
    | user =>
        obtain ⟨-, bs, hbs, hlen⟩ := hkept
        refine ⟨bs, hlen, ?_⟩
        unfold Pop3Command.matched Pop3Command.reading
        rw [List.nil_append, ← hbs]
        rfl
    | pass name =>
        obtain ⟨⟨bs, hbs, hlen⟩, -⟩ := hkept
        refine ⟨bs, hlen, ?_⟩
        unfold Pop3Command.matched Pop3Command.reading
        rw [List.nil_append, ← hbs]
        rfl
  obtain ⟨bs, hlen, hmatched⟩ := hsized
  have hshort := hv.short
  have hdrop : (bs.drop v.length).length = 100 - v.length := by
    rw [List.length_drop, hlen]
  have hline : ∀ b ∈ v, b ≠ 10 ∧ b ≠ 13 := by
    intro b hb
    exact ⟨(hv.plain b hb).2.1, (hv.plain b hb).1⟩
  have hroom : ([] : List UInt8).length + v.length < 100 := by
    rw [List.length_nil]
    omega
  have hvalue := feed_reading c { s with remaining := 0 } hline hroom hlen
  cases hrest : bs.drop v.length with
  | nil =>
      rw [hrest, List.length_nil] at hdrop
      omega
  | cons r rest =>
      refine ⟨r, rest, ?_, ?_⟩
      · rw [List.length_append, ← hrest, hdrop]
        omega
      · rw [hmatched, hvalue, List.nil_append, hrest]

theorem holds_terminated {v rest : List UInt8} (hv : Pop3Plain v)
    (h : (v ++ 0 :: rest).length = 100) : Holds (some (v ++ 0 :: rest)) v := by
  refine ⟨⟨_, rfl, h⟩, ?_⟩
  rw [Option.map_some, cString_terminated fun b hb => (hv.plain b hb).2.2]

/-- The end of the line of a name. -/
theorem parse_userEnd {v rest : List UInt8} {r : UInt8} {s : Pop3Sniffer}
    (hv : Pop3Plain v) (h : (v ++ r :: rest).length = 100)
    (hkept : Pop3Command.user.Kept s) :
    ∃ s', parsePop3Sniffer (Pop3Command.user.reading v (r :: rest) s) 13 =
      .ok s' ∧ (Pop3Command.pass v).Sought 5 s' := by
  have hput : putByte (some (v ++ r :: rest)) (UInt8.ofNat v.length).toNat 0 =
      .ok (some (v ++ 0 :: rest)) := by
    rw [read_lt hv.short, putByte_append]
  refine ⟨{ s with
    state := .passCommand, user := some (v ++ 0 :: rest), read := 0,
    remaining := 5, checkRead := 0, checkRemaining := 4 }, ?_,
    ⟨hkept.1, ?_⟩, { s with
      user := some (v ++ 0 :: rest), checkRead := 0, checkRemaining := 4 }, rfl⟩
  · change (do
      let st ← readUser (Pop3Command.user.reading v (r :: rest) s) 13
      Except.ok { st.2 with state := st.1 }) = _
    have hread : readUser (Pop3Command.user.reading v (r :: rest) s) 13 = (do
      let user ← putByte (some (v ++ r :: rest)) (UInt8.ofNat v.length).toNat 0
      Except.ok (.passCommand, { s with
        state := .readUser, user := user, read := 0, remaining := 5,
        checkRead := 0, checkRemaining := 4 })) := rfl
    rw [hread, hput]
    rfl
  · refine holds_terminated hv ?_
    simpa using h

/-- The end of the line of a password. -/
theorem parse_passEnd {name v rest : List UInt8} {r : UInt8} {s : Pop3Sniffer}
    (hv : Pop3Plain v) (h : (v ++ r :: rest).length = 100)
    (hkept : (Pop3Command.pass name).Kept s) (hleft : s.remaining = 0) :
    ∃ s', parsePop3Sniffer
      ((Pop3Command.pass name).reading v (r :: rest) s) 13 = .ok s' ∧
      Awaited name v s' := by
  have hput : putByte (some (v ++ r :: rest)) (UInt8.ofNat v.length).toNat 0 =
      .ok (some (v ++ 0 :: rest)) := by
    rw [read_lt hv.short, putByte_append]
  refine ⟨{ s with
    state := .checkCreds, pass := some (v ++ 0 :: rest), read := 0,
    checkRead := 0 }, ?_, hkept.2, ?_, rfl, rfl, hleft, rfl⟩
  · change (do
      let st ← readPass ((Pop3Command.pass name).reading v (r :: rest) s) 13
      Except.ok { st.2 with state := st.1 }) = _
    have hread :
        readPass ((Pop3Command.pass name).reading v (r :: rest) s) 13 = (do
          let pass ←
            putByte (some (v ++ r :: rest)) (UInt8.ofNat v.length).toNat 0
          Except.ok (.checkCreds, { s with
            state := .readPass, pass := pass, read := 0, checkRead := 0 })) :=
      rfl
    rw [hread, hput]
    rfl
  · refine holds_terminated hv ?_
    simpa using h

/-- Where the sniffer gets to with the argument of the command. -/
def Pop3Command.Argued (v : List UInt8) : Pop3Command → Pop3Sniffer → Prop
  | .user => (Pop3Command.pass v).Sought 5
  | .pass name => Awaited name v

/-- The second byte of the end of a line changes nothing. -/
theorem carries_lf (c : Pop3Command) (v : List UInt8) :
    Carries (c.Argued v) [10] (c.Argued v) := by
  cases c with
  | user => exact carries_without (.pass v) rfl
  | pass name =>
      intro s hs
      refine ⟨s, ?_, hs⟩
      obtain ⟨-, -, hstate, hread, -, hcheck⟩ := hs
      rw [Pop3Sniffer.feed_cons]
      unfold parsePop3Sniffer
      rw [hstate]
      change ((checkResponse s 10 >>= fun st =>
        Except.ok { st.2 with state := st.1 }) >>= fun s => s.feed []) = _
      have hresponse : checkResponse s 10 = .ok (.checkCreds, s) := by
        unfold checkResponse
        rw [hread, hcheck]
        rfl
      rw [hresponse, ← hstate]
      rfl

/-- A line in which the command is found. -/
theorem carries_found (c : Pop3Command) {line v : List UInt8}
    (hv : Pop3Plain v)
    (h : seek sameLetter c.text 0 line = .inr (v ++ crlf)) :
    Carries (c.Sought 5) line (c.Argued v) := by
  rintro s ⟨hkept, s₀, rfl⟩
  have hkept₀ : c.Kept s₀ := hkept
  obtain ⟨r, rest, hlen, hfeed⟩ := feed_matched c hv hkept₀
  have hend : ∃ s', parsePop3Sniffer
      (c.reading v (r :: rest) { s₀ with remaining := 0 }) 13 = .ok s' ∧
      c.Argued v s' := by
    cases c with
    | user => exact parse_userEnd hv hlen hkept₀
    | pass name => exact parse_passEnd hv hlen hkept₀ rfl
  obtain ⟨s', hparse, hs'⟩ := hend
  obtain ⟨s'', hlf, hs''⟩ := carries_lf c v s' hs'
  refine ⟨s'', ?_, hs''⟩
  rw [feed_seeking c s₀ line (by omega), h]
  change (c.matched s₀).feed (v ++ crlf) = _
  rw [Pop3Sniffer.feed_append, hfeed]
  change Pop3Sniffer.feed _ (13 :: [10]) = _
  rw [Pop3Sniffer.feed_cons, hparse]
  exact hlf

/-! ## Logins -/

theorem Pop3Plain.suffix {v w : List UInt8} (hv : Pop3Plain v)
    (h : w <:+ v) : Pop3Plain w where
  short := Nat.lt_of_le_of_lt h.length_le hv.short
  plain := fun b hb => hv.plain b (h.mem hb)

/-- A line with something plain in it, when the command is looked for. -/
theorem carries_line (c : Pop3Command) (head : List UInt8) {v : List UInt8}
    (hhead : seek sameLetter c.text 0 head = .inl 0) (hv : Pop3Plain v) :
    Carries (c.Sought 5) (head ++ v ++ crlf)
      (match afterKeyword sameLetter c.text v with
        | some w => c.Argued w
        | none => c.Sought 5) := by
  have hline : seek sameLetter c.text 0 (head ++ v ++ crlf) =
      match seek sameLetter c.text 0 v with
      | .inl _ => .inl 0
      | .inr w => .inr (w ++ crlf) := by
    have hstart : seek sameLetter c.text 0 (head ++ v) =
        seek sameLetter c.text 0 v := by rw [seek_append, hhead]
    rw [seek_append, hstart]
    cases seek sameLetter c.text 0 v with
    | inl j => exact seek_crlf c j
    | inr w => rfl
  cases hw : afterKeyword sameLetter c.text v with
  | none =>
      obtain ⟨j, hj⟩ := (afterKeyword_eq_none _ _).mp hw
      rw [hj] at hline
      exact carries_without c hline
  | some w =>
      have hj := (afterKeyword_eq_some _ _).mp hw
      rw [hj] at hline
      exact carries_found c (hv.suffix (afterKeyword_suffix c.text_ne_nil hw))
        hline

/-- A line of the server, when the command is looked for. -/
theorem carries_text (c : Pop3Command) (head : List UInt8) (t : Pop3Text)
    (hhead : seek sameLetter c.text 0 head = .inl 0) :
    Carries (c.Sought 5) (head ++ t.bytes ++ crlf) (c.Sought 5) := by
  obtain ⟨j, hj⟩ := t.seek c
  have hstart : seek sameLetter c.text 0 (head ++ t.bytes) = .inl j := by
    rw [seek_append, hhead]
    exact hj
  apply carries_without
  rw [seek_append, hstart]
  exact seek_crlf c j

theorem carries_reply (c : Pop3Command) (t : Pop3Text) :
    Carries (c.Sought 5) (okText ++ t.bytes ++ crlf) (c.Sought 5) := by
  refine carries_text c okText t ?_
  cases c <;> rfl

/-- The line of the command itself. -/
theorem carries_command (c : Pop3Command) (w : Pop3Word) :
    Carries (c.Sought 5) (c.text ++ w.bytes ++ crlf) (c.Argued w.bytes) := by
  refine carries_found c w.plain ?_
  have hpos : 0 < c.text.length := by
    rw [c.text_length]
    omega
  have hsame : ∀ b, sameLetter b b = true := fun b => beq_self_eq_true _
  rw [List.append_assoc]
  exact seek_keyword hsame hpos _

/-- What was accepted stays. -/
theorem carries_sniffed (user pass bytes : List UInt8) :
    Carries (Sniffed user pass) bytes (Sniffed user pass) := by
  intro s hs
  refine ⟨s, ?_, hs⟩
  induction bytes with
  | nil => rfl
  | cons b bs ih =>
      have hparse : parsePop3Sniffer s b = .ok s := by
        obtain ⟨-, -, hstate⟩ := hs
        cases s
        cases hstate
        rfl
      rw [Pop3Sniffer.feed_cons, hparse]
      exact ih

/-- The server accepts. -/
theorem carries_accepted (user pass : List UInt8) :
    Carries (Awaited user pass) okText (Sniffed user pass) := by
  rintro s ⟨huser, hpass, hstate, hread, -, -⟩
  refine ⟨{ s with state := .sniffSuccessful, read := 3 }, ?_, huser, hpass, rfl⟩
  cases s
  cases hstate
  cases hread
  rfl

/-- The server refuses: the indexes stay as the last match left them. -/
theorem carries_refused (user pass : List UInt8) :
    Carries (Awaited user pass) errText (Pop3Command.user.Sought 0) := by
  rintro s ⟨⟨huser, -⟩, ⟨hpass, -⟩, hstate, hread, hleft, hcheck⟩
  refine ⟨{ s with state := .userCommand, checkRead := 4 }, ?_,
    ⟨hpass, huser⟩, { s with checkRead := 4 }, ?_⟩
  · cases s
    cases hstate
    cases hread
    cases hcheck
    rfl
  · cases s
    cases hread
    cases hleft
    rfl

/-- With the indexes of the last match, the name that follows `USER` is not
read: its first byte only ends the match. -/
theorem carries_missed (u : Pop3Word) :
    Carries (Pop3Command.user.Sought 0) (userText ++ u.bytes ++ crlf)
      (match afterUser u.bytes.tail with
        | some name => (Pop3Command.pass name).Sought 5
        | none => Pop3Command.user.Sought 5) := by
  have hpast : ∀ b, b ≠ 0 → Carries (Pop3Command.user.Sought 0)
      (userText ++ [b]) (Pop3Command.user.Sought 5) := by
    rintro b hb s ⟨hkept, s₀, rfl⟩
    refine ⟨Pop3Command.user.seeking 5 0 s₀, ?_, hkept, s₀, rfl⟩
    have hkeyword : (Pop3Command.user.seeking 0 0 s₀).feed userText =
        .ok (Pop3Command.user.seeking 0 5 s₀) :=
      feed_staleKeyword .user s₀ (Nat.zero_add 5)
    have hdiff : tolower b ≠ tolower 0 := fun h => hb (tolower_eq_zero h)
    have hread : readUserCommand (Pop3Command.user.seeking 0 5 s₀) b =
        .ok (.userCommand, resetIndexes (Pop3Command.user.seeking 0 5 s₀) 5) := by
      change (if tolower b = tolower 0 then _ else _) = _
      rw [if_neg hdiff]
      rfl
    rw [Pop3Sniffer.feed_append, hkeyword]
    change (readUserCommand (Pop3Command.user.seeking 0 5 s₀) b >>= fun st =>
      Except.ok { st.2 with state := st.1 }) >>= _ = _
    rw [hread]
    rfl
  cases hu : u.bytes with
  | nil =>
      have hrest : Carries (Pop3Command.user.Sought 5) [10]
        (Pop3Command.user.Sought 5) := carries_without .user rfl
      exact (hpast 13 (by decide)).trans hrest
  | cons b bs =>
      have hb : b ≠ 0 := (u.plain.plain b (by simp [hu])).2.2
      have hbs : Pop3Plain bs := u.plain.suffix (by simp [hu])
      have hline := (hpast b hb).trans (carries_line .user [] rfl hbs)
      have heq : userText ++ b :: bs ++ crlf =
          userText ++ [b] ++ ([] ++ bs ++ crlf) := by simp
      rw [heq]
      exact hline

/-- A login takes the watch where it says. -/
theorem carries_login (l : Pop3Login) {w : Watch}
    (hw : ∀ user pass, w ≠ .pending user pass) :
    Carries w.Stands l.bytes
      (w.login l.user.bytes l.pass.bytes).Stands := by
  cases w with
  | ready =>
      exact ((carries_command .user l.user).trans
        (carries_reply (.pass l.user.bytes) l.reply)).trans
        (carries_command (.pass l.user.bytes) l.pass)
  | stale =>
      have hmissed := carries_missed l.user
      unfold Watch.login
      cases hu : afterUser l.user.bytes.tail with
      | some name =>
          rw [hu] at hmissed
          exact (hmissed.trans (carries_reply (.pass name) l.reply)).trans
            (carries_command (.pass name) l.pass)
      | none =>
          rw [hu] at hmissed
          have hpass := carries_line .user passText rfl l.pass.plain
          have hlogin := (hmissed.trans (carries_reply .user l.reply)).trans hpass
          cases hp : afterUser l.pass.bytes with
          | some name =>
              have hp' : afterKeyword sameLetter Pop3Command.user.text
                l.pass.bytes = some name := hp
              rw [hp'] at hlogin
              exact hlogin
          | none =>
              have hp' : afterKeyword sameLetter Pop3Command.user.text
                l.pass.bytes = none := hp
              rw [hp'] at hlogin
              exact hlogin
  | named name =>
      have huser := carries_line (.pass name) userText rfl l.user.plain
      unfold Watch.login
      cases hu : afterPass l.user.bytes with
      | some secret =>
          have hu' : afterKeyword sameLetter (Pop3Command.pass name).text
            l.user.bytes = some secret := hu
          rw [hu'] at huser
          have hrest := (carries_accepted name secret).trans
            (carries_sniffed name secret
              (l.reply.bytes ++ crlf ++ (passText ++ l.pass.bytes ++ crlf)))
          have heq : l.bytes = userText ++ l.user.bytes ++ crlf ++ (okText ++
              (l.reply.bytes ++ crlf ++ (passText ++ l.pass.bytes ++ crlf))) := by
            simp [Pop3Login.bytes]
          rw [heq]
          exact huser.trans hrest
      | none =>
          have hu' : afterKeyword sameLetter (Pop3Command.pass name).text
            l.user.bytes = none := hu
          rw [hu'] at huser
          exact (huser.trans (carries_reply (.pass name) l.reply)).trans
            (carries_command (.pass name) l.pass)
  | pending user pass => exact absurd rfl (hw user pass)
  | sniffed user pass => exact carries_sniffed user pass l.bytes

/-- The reason of a refusal, when the indexes are those of the last match. -/
theorem carries_reason {head : List UInt8} (t : Pop3Text)
    (hhead : head = [] ∨ head = errText) :
    Carries (Pop3Command.user.Sought 0) (head ++ t.bytes ++ crlf)
      (Watch.refuse t.bytes .stale).Stands := by
  obtain ⟨j, hj⟩ := t.seek .user
  have hstart : seek sameLetter userText 0 (head ++ t.bytes) = .inl j := by
    rcases hhead with rfl | rfl
    · exact hj
    · rw [seek_append]
      exact hj
  have hline : seek sameLetter userText 0 (head ++ t.bytes ++ crlf) =
      .inl 0 := by
    rw [seek_append, hstart]
    exact seek_crlf .user j
  have hany : (head ++ t.bytes ++ crlf).any (sameLetter · 85) =
      t.bytes.any (sameLetter · 85) := by
    have hcrlf : crlf.any (sameLetter · 85) = false := by decide
    have hnone : head.any (sameLetter · 85) = false := by
      rcases hhead with rfl | rfl <;> decide
    rw [List.any_append, List.any_append, hcrlf, hnone, Bool.false_or,
      Bool.or_false]
  have hstale := carries_stale hline
  rw [hany] at hstale
  unfold Watch.refuse
  cases ht : t.bytes.any (sameLetter · 85) with
  | true =>
      rw [ht] at hstale
      exact hstale
  | false =>
      rw [ht] at hstale
      exact hstale

/-- A refusal takes the watch where it says. -/
theorem carries_refusal (t : Pop3Text) (w : Watch) :
    Carries w.Stands (errText ++ t.bytes ++ crlf) (w.refuse t.bytes).Stands := by
  cases w with
  | ready => exact carries_text .user errText t rfl
  | stale => exact carries_reason t (.inr rfl)
  | named name => exact carries_text (.pass name) errText t rfl
  | pending user pass =>
      have hreason := (carries_refused user pass).trans
        (carries_reason t (.inl rfl))
      rw [List.append_assoc]
      exact hreason
  | sniffed user pass => exact carries_sniffed user pass _

theorem Watch.refuse_ne_pending (reason : List UInt8) (w : Watch)
    (user pass : List UInt8) : w.refuse reason ≠ .pending user pass := by
  cases w with
  | stale | pending =>
      unfold Watch.refuse
      simp only
      split <;> exact Watch.noConfusion
  | ready | named | sniffed => exact Watch.noConfusion

/-- The attempts that are refused take the watch where they say. -/
theorem carries_refusals (refusals : List Pop3Refusal) {w : Watch}
    (hw : ∀ user pass, w ≠ .pending user pass) :
    Carries w.Stands (refusals.flatMap Pop3Refusal.bytes)
        (refusals.foldl
          (fun w r => (w.login r.login.user.bytes r.login.pass.bytes).refuse
            r.reason.bytes) w).Stands ∧
      ∀ user pass, refusals.foldl
        (fun w r => (w.login r.login.user.bytes r.login.pass.bytes).refuse
          r.reason.bytes) w ≠ .pending user pass := by
  induction refusals generalizing w with
  | nil => exact ⟨fun s hs => ⟨s, rfl, hs⟩, hw⟩
  | cons r refusals ih =>
      have hr := (carries_login r.login hw).trans (carries_refusal r.reason _)
      obtain ⟨hrest, hne⟩ := ih (Watch.refuse_ne_pending r.reason.bytes _)
      exact ⟨hr.trans hrest, hne⟩

/-- The dialogue up to the last answer takes the watch where it says. -/
theorem feed_dialogue (s : Pop3Sniffer) (greeting : Pop3Text)
    (refusals : List Pop3Refusal) (login : Pop3Login) :
    ∃ s', (pop3SnifferInit s []).feed
        (pop3Dialogue greeting refusals login) = s'.feed okText ∧
      ((watchAfter refusals).login login.user.bytes login.pass.bytes).Stands
        s' := by
  have hready : ∀ user pass, Watch.ready ≠ .pending user pass := by
    intro user pass
    exact Watch.noConfusion
  have hgreeting : Carries (fun s' => s' = pop3SnifferInit s []) okText
      Watch.ready.Stands := by
    rintro s' rfl
    have hsized : Sized (some (List.replicate 100 0)) := ⟨_, rfl, rfl⟩
    refine ⟨Pop3Command.user.seeking 5 0 (pop3SnifferInit s []), ?_,
      ⟨hsized, hsized⟩, _, rfl⟩
    with_unfolding_all rfl
  have htext : Carries Watch.ready.Stands (greeting.bytes ++ crlf)
      Watch.ready.Stands := carries_text .user [] greeting rfl
  obtain ⟨hrefusals, hne⟩ := carries_refusals refusals hready
  have hall := ((hgreeting.trans htext).trans hrefusals).trans
    (carries_login login hne)
  obtain ⟨s', hfeed, hs'⟩ := hall _ rfl
  refine ⟨s', ?_, hs'⟩
  unfold pop3Dialogue
  rw [Pop3Sniffer.feed_append, List.append_assoc okText, hfeed]
  rfl

/-! ## What is taken -/

/-- The credentials are taken when the last password is answered, or were
taken before. -/
theorem took_iff {s s' : Pop3Sniffer} {w : Watch} {user pass : List UInt8}
    (hs : w.Stands s) (h : s.feed okText = .ok s') :
    s'.Took user pass ↔ w = .pending user pass ∨ w = .sniffed user pass := by
  have hsought : ∀ c : Pop3Command, c.Sought 5 s' → ¬ s'.Took user pass := by
    rintro c ⟨-, s₀, rfl⟩ ⟨hstate, -⟩
    cases c <;> cases hstate
  have hsniffed : ∀ u p, Sniffed u p s' →
      (s'.Took user pass ↔ u = user ∧ p = pass) := by
    rintro u p ⟨⟨-, hu⟩, ⟨-, hp⟩, hstate⟩
    unfold Pop3Sniffer.Took
    rw [hu, hp, Option.some_inj, Option.some_inj]
    exact and_iff_right hstate
  have hok : ∀ c : Pop3Command,
      seek sameLetter c.text 0 okText = .inl 0 := by
    intro c
    cases c <;> rfl
  cases w with
  | ready =>
      obtain ⟨t, ht, hst⟩ := carries_without .user (hok _) s hs
      rw [h] at ht
      cases ht
      simpa using hsought _ hst
  | stale =>
      obtain ⟨t, ht, ⟨-, s₀, hst⟩⟩ := carries_stale (hok .user) s hs
      rw [h] at ht
      cases ht
      have hne : ¬ s'.Took user pass := by
        rintro ⟨hstate, -⟩
        rw [hst] at hstate
        cases hstate
      simpa using hne
  | named name =>
      obtain ⟨t, ht, hst⟩ := carries_without (.pass name) (hok _) s hs
      rw [h] at ht
      cases ht
      simpa using hsought _ hst
  | pending u p =>
      obtain ⟨t, ht, hst⟩ := carries_accepted u p s hs
      rw [h] at ht
      cases ht
      simpa using hsniffed u p hst
  | sniffed u p =>
      obtain ⟨t, ht, hst⟩ := carries_sniffed u p okText s hs
      rw [h] at ht
      cases ht
      simpa using hsniffed u p hst

/-- What a line holds after a keyword is not the line. -/
theorem afterUser_ne {u name : List UInt8} (h : afterUser u.tail = some name) :
    name ≠ u := by
  have hlt := afterKeyword_length_lt (List.cons_ne_nil _ _) h
  rw [List.length_tail] at hlt
  rintro rfl
  omega

/-- The login after which the watch holds the credentials of that login. -/
theorem Watch.takes_iff (w : Watch) (user pass : List UInt8)
    (hw : ∀ u p, w ≠ .pending u p) :
    w.Takes user pass ↔ w.login user pass = .pending user pass ∨
      w.login user pass = .sniffed user pass := by
  cases w with
  | ready => simp [Watch.Takes, Watch.login]
  | stale =>
      unfold Watch.login
      cases hname : afterUser user.tail with
      | some name => simpa [Watch.Takes] using afterUser_ne hname
      | none => cases afterUser pass <;> simp [Watch.Takes]
  | named name =>
      unfold Watch.login
      cases hsecret : afterPass user <;> simp [Watch.Takes, hsecret]
  | pending u p => exact absurd rfl (hw u p)
  | sniffed u p => simp [Watch.Takes, Watch.login]

/-- The sniffer ends with the credentials of the accepted login exactly when it
takes them from where the refused attempts left it. -/
theorem took_dialogue_iff (s : Pop3Sniffer) (greeting : Pop3Text)
    (refusals : List Pop3Refusal) (login : Pop3Login) :
    (∃ s', (pop3SnifferInit s []).feed
        (pop3Dialogue greeting refusals login) = .ok s' ∧
      s'.Took login.user.bytes login.pass.bytes) ↔
      (watchAfter refusals).Takes login.user.bytes login.pass.bytes := by
  have hready : ∀ u p, Watch.ready ≠ .pending u p := fun _ _ =>
    Watch.noConfusion
  obtain ⟨s', hfeed, hs'⟩ := feed_dialogue s greeting refusals login
  have hne : ∀ u p, watchAfter refusals ≠ .pending u p :=
    (carries_refusals refusals hready).2
  rw [Watch.takes_iff _ _ _ hne, hfeed]
  constructor
  · rintro ⟨s'', hok, htook⟩
    exact (took_iff hs' hok).mp htook
  · intro hw
    have hok : ∃ s'', s'.feed okText = .ok s'' := by
      rcases hw with hw | hw
      · rw [hw] at hs'
        obtain ⟨s'', hs'', -⟩ := carries_accepted _ _ s' hs'
        exact ⟨s'', hs''⟩
      · rw [hw] at hs'
        obtain ⟨s'', hs'', -⟩ := carries_sniffed _ _ okText s' hs'
        exact ⟨s'', hs''⟩
    obtain ⟨s'', hok⟩ := hok
    exact ⟨s'', hok, (took_iff hs' hok).mpr hw⟩

/-- `a` -/
def pop3WordA : Pop3Word := ⟨[97], by decide, by simp⟩

/-- A status with nothing behind it. -/
def pop3Silence : Pop3Text := ⟨[], by simp, by decide, by decide⟩

/-- A login with the name and the password `a`. -/
def pop3LoginA : Pop3Login := ⟨pop3WordA, pop3Silence, pop3WordA⟩

/-- After one attempt that was refused the next one is missed. -/
theorem not_took_second :
    ¬ ∃ s', (pop3SnifferInit {} []).feed
        (pop3Dialogue pop3Silence [⟨pop3LoginA, pop3Silence⟩] pop3LoginA) =
          .ok s' ∧ s'.Took [97] [97] := by
  have hstate : ((pop3SnifferInit {} []).feed (pop3Dialogue pop3Silence
      [⟨pop3LoginA, pop3Silence⟩] pop3LoginA)).toOption.map (·.state) =
        some .userCommand := by decide +kernel
  rintro ⟨s', hs', htook, -⟩
  rw [hs'] at hstate
  cases htook.symm.trans (Option.some.inj hstate)

end Socksv5
