import Socksv5.Admin.RequestParser

/-!
# The lines of the administration commands

A command is a line.  `Position` says how far into a line a reader is, and
`Position.next` what the next byte makes of it; the parser goes through the same
positions, with the arguments in the blocks that it has allocated.
-/

namespace Socksv5

open Support

/-- A command, with its arguments. -/
inductive Command
  | metrics
  | addUser (name pass : List UInt8)
  | listUsers
  | changeBufferSize (digits : List UInt8)
deriving DecidableEq, Repr

/-- A byte of a name or a password. -/
def isWordByte (c : UInt8) : Bool := decide (c ≠ 32 ∧ c ≠ 10)

/-- A digit. -/
def isDigit (c : UInt8) : Bool := decide (48 ≤ c ∧ c ≤ 57)

/-- The line of a command. -/
def Command.line : Command → List UInt8
  | .metrics => [49, 10]
  | .addUser name pass => 50 :: 32 :: (name ++ 32 :: (pass ++ [10]))
  | .listUsers => [51, 10]
  | .changeBufferSize digits => 52 :: 32 :: (digits ++ [10])

/-- The arguments are of the kind that the command takes. -/
def Command.WellFormed : Command → Prop
  | .addUser name pass =>
      name.all isWordByte = true ∧ pass.all isWordByte = true
  | .changeBufferSize digits => digits.all isDigit = true
  | .metrics | .listUsers => True

/-- The command of a line, given without its end. -/
def commandOf : List UInt8 → Option Command
  | [49] => some .metrics
  | [51] => some .listUsers
  | 50 :: 32 :: args =>
      let name := args.takeWhile isWordByte
      match args.drop name.length with
      | 32 :: pass =>
          if pass.all isWordByte then some (.addUser name pass) else none
      | _ => none
  | 52 :: 32 :: digits =>
      if digits.all isDigit then some (.changeBufferSize digits) else none
  | _ => none

/-- A command that has a line is of this line. -/
theorem Command.line_of_commandOf {line : List UInt8} {q : Command}
    (h : commandOf line = some q) : q.WellFormed ∧ q.line = line ++ [10] := by
  unfold commandOf at h
  split at h
  · cases h
    exact ⟨trivial, rfl⟩
  · cases h
    exact ⟨trivial, rfl⟩
  · rename_i args
    have hargs := (List.prefix_iff_eq_append.mp (args.takeWhile_prefix isWordByte)).symm
    dsimp only at h
    split at h
    · rename_i pass hdrop
      by_cases hpass : pass.all isWordByte = true
      · rw [if_pos hpass] at h
        cases h
        rw [hdrop] at hargs
        refine ⟨⟨List.all_takeWhile, hpass⟩, ?_⟩
        have hline : Command.line (.addUser (args.takeWhile isWordByte) pass) =
            50 :: 32 :: (args.takeWhile isWordByte ++ 32 :: pass) ++ [10] := by
          simp [Command.line]
        rwa [← hargs] at hline
      · rw [if_neg hpass] at h
        cases h
    · cases h
  · rename_i digits
    by_cases hdigits : digits.all isDigit = true
    · rw [if_pos hdigits] at h
      cases h
      exact ⟨hdigits, rfl⟩
    · rw [if_neg hdigits] at h
      cases h
  · cases h

theorem commandOf_line {line : List UInt8} {q : Command} (hq : q.WellFormed)
    (h : q.line = line ++ [10]) : commandOf line = some q := by
  cases q with
  | metrics =>
      have hline : [49] ++ [10] = line ++ [10] := h
      rw [← List.append_cancel_right hline]
      rfl
  | addUser name pass =>
      obtain ⟨hname, hpass⟩ := hq
      have hline : (50 :: 32 :: (name ++ 32 :: pass)) ++ [10] = line ++ [10] := by
        rw [← h, Command.line]
        simp
      rw [← List.append_cancel_right hline, commandOf]
      have htake : (name ++ 32 :: pass).takeWhile isWordByte = name := by
        rw [List.takeWhile_append_of_pos (List.all_eq_true.mp hname),
          List.takeWhile_cons_of_neg (by decide), List.append_nil]
      rw [htake, List.drop_left]
      exact if_pos hpass
  | listUsers =>
      have hline : [51] ++ [10] = line ++ [10] := h
      rw [← List.append_cancel_right hline]
      rfl
  | changeBufferSize digits =>
      have hline : (52 :: 32 :: digits) ++ [10] = line ++ [10] := h
      rw [← List.append_cancel_right hline, commandOf]
      exact if_pos hq

/-- The commands of the lines that end in a stream, the first of which goes on
with what has been read of it. -/
def commandsFrom (read : List UInt8) : List UInt8 → List Command
  | [] => []
  | c :: cs =>
      if c = 10 then (commandOf read).toList ++ commandsFrom [] cs
      else commandsFrom (read ++ [c]) cs

/-- The well-formed lines of a stream. -/
def commandsIn (stream : List UInt8) : List Command := commandsFrom [] stream

/-- Where a reader is in a line. -/
inductive Position
  | start
  | metrics
  | addUser
  | user (read : List UInt8)
  | pass (user read : List UInt8)
  | listUsers
  | changeBufferSize
  | digits (read : List UInt8)
  | complete (command : Command)
  | rejected
  | overflowed
deriving DecidableEq, Repr

/-- The next byte of a line.  An argument and its terminator fit in the block
that is allocated first; the block never grows. -/
def Position.next : Position → UInt8 → Position
  | .start, c =>
      if c = 49 then .metrics else if c = 50 then .addUser
      else if c = 51 then .listUsers else if c = 52 then .changeBufferSize
      else .rejected
  | .metrics, c => if c = 10 then .complete .metrics else .rejected
  | .addUser, c => if c = 32 then .user [] else .rejected
  | .user read, c =>
      if c = 10 then .rejected
      else if read.length < userLen then
        if c = 32 then .pass read [] else .user (read ++ [c])
      else .overflowed
  | .pass u read, c =>
      if c = 32 then .rejected
      else if read.length < passLen then
        if c = 10 then .complete (.addUser u read)
        else .pass u (read ++ [c])
      else .overflowed
  | .listUsers, c => if c = 10 then .complete .listUsers else .rejected
  | .changeBufferSize, c => if c = 32 then .digits [] else .rejected
  | .digits read, c =>
      if c = 10 ∨ 48 ≤ c ∧ c ≤ 57 then
        if read.length < newBuffSize then
          if c = 10 then .complete (.changeBufferSize read)
          else .digits (read ++ [c])
        else .overflowed
      else .rejected
  | pos, _ => pos

/-- A line is complete. -/
def Position.isComplete : Position → Bool
  | .complete _ => true
  | _ => false

/-- Read up to the end of a command; the rest is returned with the position. -/
def Position.scan : Position → List UInt8 → Position × List UInt8
  | pos, [] => (pos, [])
  | pos, c :: cs =>
      if (pos.next c).isComplete then (pos.next c, cs) else (pos.next c).scan cs

/-- What has been read at a position. -/
def Position.Spells (xs : List UInt8) : Position → Prop
  | .start => xs = []
  | .metrics => xs = [49]
  | .addUser => xs = [50]
  | .user read => xs = 50 :: 32 :: read ∧ read.all isWordByte = true
  | .pass u read => xs = 50 :: 32 :: (u ++ 32 :: read) ∧
      u.all isWordByte = true ∧ read.all isWordByte = true
  | .listUsers => xs = [51]
  | .changeBufferSize => xs = [52]
  | .digits read => xs = 52 :: 32 :: read ∧ read.all isDigit = true
  | .complete command => xs = command.line ∧ command.WellFormed
  | .rejected | .overflowed => True

theorem isWordByte_iff {c : UInt8} : isWordByte c = true ↔ c ≠ 32 ∧ c ≠ 10 :=
  decide_eq_true_iff

/-- A byte that a predicate refuses is not in a word of bytes that it accepts. -/
theorem not_mem_of_all {p : UInt8 → Bool} {c : UInt8} {xs : List UInt8}
    (h : xs.all p = true) (hc : p c = false) : c ∉ xs := by
  intro hmem
  have hp := List.all_eq_true.mp h c hmem
  rw [hc] at hp
  cases hp

theorem isDigit_iff {c : UInt8} : isDigit c = true ↔ 48 ≤ c ∧ c ≤ 57 :=
  decide_eq_true_iff

/-- The positions before the end of a line follow what has been read. -/
theorem Position.Spells.next {pos : Position} {xs : List UInt8}
    (h : pos.Spells xs) (hgoes : pos.isComplete = false) (c : UInt8) :
    (pos.next c).Spells (xs ++ [c]) := by
  cases pos with
  | start =>
      have hxs : xs = [] := h
      subst hxs
      rw [Position.next]
      by_cases h49 : c = 49
      · rw [if_pos h49, h49]
        rfl
      · by_cases h50 : c = 50
        · rw [if_neg h49, if_pos h50, h50]
          rfl
        · by_cases h51 : c = 51
          · rw [if_neg h49, if_neg h50, if_pos h51, h51]
            rfl
          · by_cases h52 : c = 52
            · rw [if_neg h49, if_neg h50, if_neg h51, if_pos h52, h52]
              rfl
            · rw [if_neg h49, if_neg h50, if_neg h51, if_neg h52]
              trivial
  | metrics | listUsers =>
      have hxs := h
      rw [Position.Spells] at hxs
      subst hxs
      rw [Position.next]
      by_cases hc : c = 10
      · rw [if_pos hc, hc]
        exact ⟨rfl, trivial⟩
      · rw [if_neg hc]
        trivial
  | addUser | changeBufferSize =>
      have hxs := h
      rw [Position.Spells] at hxs
      subst hxs
      rw [Position.next]
      by_cases hc : c = 32
      · rw [if_pos hc, hc]
        exact ⟨rfl, rfl⟩
      · rw [if_neg hc]
        trivial
  | user read =>
      obtain ⟨rfl, hread⟩ := h
      rw [Position.next]
      by_cases hend : c = 10
      · rw [if_pos hend]
        trivial
      · rw [if_neg hend]
        split
        · by_cases hspace : c = 32
          · rw [if_pos hspace, hspace]
            exact ⟨rfl, hread, rfl⟩
          · rw [if_neg hspace]
            have hword := isWordByte_iff.mpr ⟨hspace, hend⟩
            exact ⟨rfl, by simp [hread, hword]⟩
        · trivial
  | pass u read =>
      obtain ⟨rfl, hu, hread⟩ := h
      rw [Position.next]
      by_cases hspace : c = 32
      · rw [if_pos hspace]
        trivial
      · rw [if_neg hspace]
        split
        · by_cases hend : c = 10
          · rw [if_pos hend, hend]
            exact ⟨by simp [Command.line], hu, hread⟩
          · rw [if_neg hend]
            have hword := isWordByte_iff.mpr ⟨hspace, hend⟩
            exact ⟨by simp, hu, by simp [hread, hword]⟩
        · trivial
  | digits read =>
      obtain ⟨rfl, hread⟩ := h
      rw [Position.next]
      split
      case isFalse => trivial
      case isTrue hgoes =>
        split
        · by_cases hend : c = 10
          · rw [if_pos hend, hend]
            exact ⟨rfl, hread⟩
          · rw [if_neg hend]
            have hdigit := isDigit_iff.mpr (hgoes.resolve_left hend)
            exact ⟨rfl, by simp [hread, hdigit]⟩
        · trivial
  | complete command => cases hgoes
  | rejected | overflowed => trivial

/-- What has been read when the reader has come to the end of a command or of
the bytes. -/
theorem Position.Spells.scan {pos : Position} {xs : List UInt8}
    (h : pos.Spells xs) (hgoes : pos.isComplete = false) (ys : List UInt8) :
    ∃ used, ys = used ++ (pos.scan ys).2 ∧
      (pos.scan ys).1.Spells (xs ++ used) ∧
      ((pos.scan ys).1.isComplete = false → (pos.scan ys).2 = []) := by
  induction ys generalizing pos xs with
  | nil => exact ⟨[], rfl, by simpa [Position.scan] using h, fun _ => rfl⟩
  | cons c cs ih =>
      have hnext := h.next hgoes c
      rw [Position.scan]
      by_cases hdone : (pos.next c).isComplete = true
      · rw [if_pos hdone]
        exact ⟨[c], rfl, hnext, fun hnot => by rw [hdone] at hnot; cases hnot⟩
      · rw [if_neg hdone]
        rw [Bool.not_eq_true] at hdone
        obtain ⟨used, hused, hspells, hrest⟩ := ih hnext hdone
        refine ⟨c :: used, by rw [List.cons_append, ← hused], ?_, hrest⟩
        rw [← List.append_cons] at hspells
        exact hspells

/-! ## Blocks that hold an argument -/

/-- A block of `n` bytes that begins with `xs`. -/
def ArgHeld (n : ℕ) (block : Option Block) (xs : List UInt8) : Prop :=
  ∃ b, block = some b ∧ b.length = n ∧ xs <+: b

/-- The block of an argument that has been read as far as `xs`, if it was
allocated. -/
def Storing (n : ℕ) (block : Option Block) (xs : List UInt8) : Prop :=
  block = none ∨ ArgHeld n block xs

/-- No allocation fails. -/
def Available (m : Mallocs) : Prop := none ∉ m

theorem ArgHeld.length_le {n : ℕ} {block : Option Block} {xs : List UInt8}
    (h : ArgHeld n block xs) : xs.length ≤ n := by
  obtain ⟨b, -, hlen, hpre⟩ := h
  rw [← hlen]
  exact hpre.length_le

theorem ArgHeld.ne_none {n : ℕ} {block : Option Block} {xs : List UInt8}
    (h : ArgHeld n block xs) : block ≠ none := by
  obtain ⟨b, rfl, -⟩ := h
  exact Option.some_ne_none b

/-- The next byte is stored after the others, if there is room for it. -/
theorem ArgHeld.put {n : ℕ} {block : Option Block} {xs : List UInt8}
    (h : ArgHeld n block xs) (hroom : xs.length < n) (c : UInt8) :
    ∃ block', putByte block xs.length c = .ok block' ∧
      ArgHeld n block' (xs ++ [c]) := by
  obtain ⟨b, rfl, hlen, rest, rfl⟩ := h
  have hne : rest ≠ [] := by
    rintro rfl
    rw [List.append_nil] at hlen
    omega
  obtain ⟨d, rest, rfl⟩ := List.exists_cons_of_ne_nil hne
  refine ⟨some (xs ++ c :: rest), ?_, ?_⟩
  · rw [putByte, if_pos (by rw [hlen]; exact hroom)]
    simp
  · exact ⟨_, rfl, by simpa using hlen, rest, by simp⟩

/-- A byte that has been stored was one for which there was room. -/
theorem Storing.put {n : ℕ} {block block' : Option Block} {xs : List UInt8}
    {c : UInt8} (h : Storing n block xs)
    (hput : putByte block xs.length c = .ok block') :
    xs.length < n ∧ ArgHeld n block' (xs ++ [c]) := by
  rcases h with rfl | hheld
  · cases hput
  · have hroom : xs.length < n := by
      obtain ⟨b, rfl, hlen, -⟩ := hheld
      rw [putByte] at hput
      split at hput
      · omega
      · cases hput
    obtain ⟨block₁, hput₁, hheld₁⟩ := hheld.put hroom c
    rw [hput] at hput₁
    cases hput₁
    exact ⟨hroom, hheld₁⟩

theorem malloc_storing (n : ℕ) (m : Mallocs) : Storing n (malloc n m).1 [] := by
  rcases malloc_eq n m with ⟨b, hb, hlen⟩ | hnone
  · exact .inr ⟨b, hb, hlen, List.nil_prefix⟩
  · exact .inl hnone

theorem Available.malloc {m : Mallocs} (h : Available m) (n : ℕ) :
    Available (Socksv5.malloc n m).2 ∧
      ArgHeld n (Socksv5.malloc n m).1 [] := by
  rcases m with - | ⟨contents | contents, m⟩
  · exact ⟨h, _, rfl, List.length_replicate, List.nil_prefix⟩
  · exact absurd List.mem_cons_self h
  · refine ⟨fun hmem => h (List.mem_cons_of_mem _ hmem), _, rfl, ?_,
      List.nil_prefix⟩
    rw [List.length_map, List.length_range]

/-- Storing a byte while the block need not grow. -/
theorem putGrowing_of_lt {block : Option Block} {size index : ℕ}
    (h : index < size) (chunks : ℕ) (c : UInt8) (m : Mallocs) :
    putGrowing block size index chunks c m =
      putByte block index c >>= fun block => .ok (block, chunks, m) := by
  have hne : index ≠ size + chunks * chunkSize := by omega
  simp only [putGrowing, if_neg hne]

theorem length_realloc {p : Option Block} {n : ℕ} {m : Mallocs} {b : Block}
    (h : (realloc p n m).1 = some b) : b.length = n := by
  simp only [realloc] at h
  rcases malloc_eq n m with ⟨block, hblock, hlen⟩ | hnone
  · rw [hblock] at h
    cases h
    have hle : ((p.getD []).take n).length ≤ n := List.length_take_le _ _
    rw [List.length_append, List.length_drop, hlen]
    omega
  · rw [hnone] at h
    cases h

/-- A byte for which there is no room is stored outside the block, also when the
block has been allocated again. -/
theorem putGrowing_of_full {block : Option Block} {n : ℕ} {xs : List UInt8}
    (h : Storing n block xs) (hfull : ¬ xs.length < n) (chunks : ℕ)
    (c : UInt8) (m : Mallocs) :
    ∃ e, putGrowing block n xs.length chunks c m = .error e := by
  have herror : ∀ block : Option Block,
      (∀ b, block = some b → b.length ≤ xs.length) →
        ∃ e, putByte block xs.length c = .error e := by
    intro block hlen
    cases block with
    | none => exact ⟨_, rfl⟩
    | some b =>
        have hnot : ¬ xs.length < b.length := Nat.not_lt.mpr (hlen b rfl)
        exact ⟨_, if_neg hnot⟩
  by_cases heq : xs.length = n + chunks * chunkSize
  · obtain ⟨e, he⟩ := herror (realloc block (n + chunks * chunkSize) m).1 (by
      intro b hb
      rw [length_realloc hb, heq])
    refine ⟨e, ?_⟩
    simp only [putGrowing, if_pos heq, he]
    rfl
  · obtain ⟨e, he⟩ := herror block (by
      intro b hb
      rcases h with hnone | ⟨b', hb', hlen, -⟩
      · rw [hnone] at hb
        cases hb
      · rw [hb] at hb'
        cases hb'
        rw [hlen]
        exact Nat.not_lt.mp hfull)
    refine ⟨e, ?_⟩
    simp only [putGrowing, if_neg heq, he]
    rfl

/-- What storing a byte of an argument does. -/
theorem Storing.putGrowing {block block' : Option Block} {n chunks chunks' : ℕ}
    {xs : List UInt8} {c : UInt8} {m m' : Mallocs} (h : Storing n block xs)
    (hput : Socksv5.putGrowing block n xs.length chunks c m =
      .ok (block', chunks', m')) :
    xs.length < n ∧ ArgHeld n block' (xs ++ [c]) := by
  by_cases hroom : xs.length < n
  · rw [putGrowing_of_lt hroom] at hput
    obtain ⟨block₁, hbyte, heq⟩ := bind_eq_ok.mp hput
    cases heq
    exact h.put hbyte
  · obtain ⟨e, he⟩ := putGrowing_of_full h hroom chunks c m
    rw [he] at hput
    cases hput

/-! ## The parser goes through the positions of the line -/

/-- The parser has stored no argument. -/
structure ReqParser.Blank (p : ReqParser) : Prop where
  index : p.index = 0
  user : p.user = none
  password : p.password = none
  newBuffSize : p.newBuffSize = none

/-- The parser carries the command with its arguments. -/
def ReqParser.Carries (p : ReqParser) : Command → Prop
  | .metrics => p.cmdSelected = 49
  | .addUser name pass => p.cmdSelected = 50 ∧
      ArgHeld userLen p.user (name ++ [0]) ∧
      ArgHeld passLen p.password (pass ++ [0])
  | .listUsers => p.cmdSelected = 51
  | .changeBufferSize digits => p.cmdSelected = 52 ∧
      ArgHeld Socksv5.newBuffSize p.newBuffSize (digits ++ [0])

/-- The parser is at a position of the line. -/
def ReqParser.At (p : ReqParser) : Position → Prop
  | .start => p.state = .readingCmd ∧ p.Blank
  | .metrics => p.state = .readingMetricsCmd ∧ p.cmdSelected = 49 ∧ p.Blank
  | .addUser => p.state = .readingAddUserCmd ∧ p.cmdSelected = 50 ∧ p.Blank
  | .user read => p.state = .readingUser ∧ p.cmdSelected = 50 ∧
      p.index = read.length ∧ Storing userLen p.user read ∧ p.password = none
  | .pass user read => p.state = .readingPass ∧ p.cmdSelected = 50 ∧
      p.index = read.length ∧ ArgHeld userLen p.user (user ++ [0]) ∧
      Storing passLen p.password read
  | .listUsers => p.state = .readingListUserCmd ∧ p.cmdSelected = 51 ∧ p.Blank
  | .changeBufferSize =>
      p.state = .readingChangeBuffSizeCmd ∧ p.cmdSelected = 52 ∧ p.Blank
  | .digits read => p.state = .readingBuffSize ∧ p.cmdSelected = 52 ∧
      p.index = read.length ∧ Storing Socksv5.newBuffSize p.newBuffSize read
  | .complete command => p.state = .done ∧ p.Carries command
  | .rejected => p.state = .invalidCmd
  | .overflowed => False

theorem adminReqParserInit_at (p : ReqParser) :
    (adminReqParserInit p).At .start :=
  ⟨rfl, rfl, rfl, rfl, rfl⟩

/-- A byte takes the parser to the next position. -/
theorem ReqParser.At.next {p p' : ReqParser} {pos : Position} {c : UInt8}
    {m m' : Mallocs} (h : p.At pos)
    (hfeed : adminReqParserFeed c (p, m) = .ok (p', m')) :
    p'.At (pos.next c) := by
  cases pos with
  | start =>
      obtain ⟨hstate, hblank⟩ := h
      simp only [adminReqParserFeed, hstate] at hfeed
      cases hfeed
      have hblank' : ∀ state : AdminReqState, ReqParser.Blank
          { p with state := state, cmdSelected := c } :=
        fun _ => ⟨hblank.index, hblank.user, hblank.password, hblank.newBuffSize⟩
      rw [Position.next]
      by_cases h49 : c = 49
      · simp only [if_pos h49]
        exact ⟨rfl, h49, hblank' _⟩
      · by_cases h50 : c = 50
        · simp only [if_neg h49, if_pos h50]
          exact ⟨rfl, h50, hblank' _⟩
        · by_cases h51 : c = 51
          · simp only [if_neg h49, if_neg h50, if_pos h51]
            exact ⟨rfl, h51, hblank' _⟩
          · by_cases h52 : c = 52
            · simp only [if_neg h49, if_neg h50, if_neg h51, if_pos h52]
              exact ⟨rfl, h52, hblank' _⟩
            · simp only [if_neg h49, if_neg h50, if_neg h51, if_neg h52]
              exact rfl
  | metrics =>
      obtain ⟨hstate, hcmd, hblank⟩ := h
      simp only [adminReqParserFeed, hstate] at hfeed
      rw [Position.next]
      by_cases hc : c = 10
      · rw [if_pos hc] at hfeed ⊢
        cases hfeed
        exact ⟨rfl, hcmd⟩
      · rw [if_neg hc] at hfeed ⊢
        cases hfeed
        rfl
  | addUser =>
      obtain ⟨hstate, hcmd, hblank⟩ := h
      simp only [adminReqParserFeed, hstate] at hfeed
      rw [Position.next]
      by_cases hc : c = 32
      · rw [if_pos hc] at hfeed ⊢
        cases hfeed
        exact ⟨rfl, hcmd, hblank.index, malloc_storing _ _, hblank.password⟩
      · rw [if_neg hc] at hfeed ⊢
        cases hfeed
        rfl
  | user read =>
      obtain ⟨hstate, hcmd, hindex, huser, hpassword⟩ := h
      simp only [adminReqParserFeed, hstate] at hfeed
      rw [Position.next]
      by_cases hspace : c = 32
      · have hend : c ≠ 10 := by
          rw [hspace]
          decide
        rw [if_pos hspace] at hfeed
        obtain ⟨user, hput, hfeed⟩ := bind_eq_ok.mp hfeed
        cases hfeed
        rw [hindex] at hput
        obtain ⟨hroom, hheld⟩ := huser.put hput
        simp only [if_neg hend, if_pos hroom, if_pos hspace]
        exact ⟨rfl, hcmd, rfl, hheld, malloc_storing _ _⟩
      · rw [if_neg hspace] at hfeed
        by_cases hend : c = 10
        · simp only [hend, ne_eq, not_true_eq_false, if_false] at hfeed
          cases hfeed
          simp only [if_pos hend]
          rfl
        · simp only [ne_eq, hend, not_false_eq_true, if_true] at hfeed
          obtain ⟨⟨user, chunks, m₁⟩, hput, hfeed⟩ := bind_eq_ok.mp hfeed
          cases hfeed
          rw [hindex] at hput
          obtain ⟨hroom, hheld⟩ := huser.putGrowing hput
          simp only [if_neg hend, if_pos hroom, if_neg hspace]
          exact ⟨rfl, hcmd, by simp [hindex], .inr hheld, hpassword⟩
  | pass user read =>
      obtain ⟨hstate, hcmd, hindex, huser, hpassword⟩ := h
      simp only [adminReqParserFeed, hstate] at hfeed
      rw [Position.next]
      by_cases hspace : c = 32
      · rw [if_pos hspace] at hfeed ⊢
        cases hfeed
        rfl
      · rw [if_neg hspace] at hfeed ⊢
        by_cases hend : c = 10
        · rw [if_pos hend] at hfeed
          obtain ⟨password, hput, hfeed⟩ := bind_eq_ok.mp hfeed
          cases hfeed
          rw [hindex] at hput
          obtain ⟨hroom, hheld⟩ := hpassword.put hput
          rw [if_pos hroom, if_pos hend]
          exact ⟨rfl, hcmd, huser, hheld⟩
        · rw [if_neg hend] at hfeed
          obtain ⟨⟨password, chunks, m₁⟩, hput, hfeed⟩ := bind_eq_ok.mp hfeed
          cases hfeed
          rw [hindex] at hput
          obtain ⟨hroom, hheld⟩ := hpassword.putGrowing hput
          rw [if_pos hroom, if_neg hend]
          exact ⟨rfl, hcmd, by simp [hindex], huser, .inr hheld⟩
  | listUsers =>
      obtain ⟨hstate, hcmd, hblank⟩ := h
      simp only [adminReqParserFeed, hstate] at hfeed
      rw [Position.next]
      by_cases hc : c = 10
      · rw [if_pos hc] at hfeed ⊢
        cases hfeed
        exact ⟨rfl, hcmd⟩
      · rw [if_neg hc] at hfeed ⊢
        cases hfeed
        rfl
  | changeBufferSize =>
      obtain ⟨hstate, hcmd, hblank⟩ := h
      simp only [adminReqParserFeed, hstate] at hfeed
      rw [Position.next]
      by_cases hc : c = 32
      · rw [if_pos hc] at hfeed ⊢
        cases hfeed
        exact ⟨rfl, hcmd, hblank.index, malloc_storing _ _⟩
      · rw [if_neg hc] at hfeed ⊢
        cases hfeed
        rfl
  | digits read =>
      obtain ⟨hstate, hcmd, hindex, hsize⟩ := h
      simp only [adminReqParserFeed, hstate] at hfeed
      rw [Position.next]
      by_cases hend : c = 10
      · rw [if_pos hend] at hfeed
        obtain ⟨size, hput, hfeed⟩ := bind_eq_ok.mp hfeed
        cases hfeed
        rw [hindex] at hput
        obtain ⟨hroom, hheld⟩ := hsize.put hput
        rw [if_pos (.inl hend), if_pos hroom, if_pos hend]
        exact ⟨rfl, hcmd, hheld⟩
      · rw [if_neg hend] at hfeed
        by_cases hdigit : 48 ≤ c ∧ c ≤ 57
        · rw [if_pos hdigit] at hfeed
          obtain ⟨⟨size, chunks, m₁⟩, hput, hfeed⟩ := bind_eq_ok.mp hfeed
          cases hfeed
          rw [hindex] at hput
          obtain ⟨hroom, hheld⟩ := hsize.putGrowing hput
          rw [if_pos (.inr hdigit), if_pos hroom, if_neg hend]
          exact ⟨rfl, hcmd, by simp [hindex], .inr hheld⟩
        · rw [if_neg hdigit] at hfeed
          cases hfeed
          rw [if_neg (by
            rintro (h | h)
            · exact hend h
            · exact hdigit h)]
          rfl
  | complete command =>
      obtain ⟨hstate, hcarries⟩ := h
      simp only [adminReqParserFeed, hstate] at hfeed
      cases hfeed
      exact ⟨hstate, hcarries⟩
  | rejected =>
      have hstate : p.state = .invalidCmd := h
      simp only [adminReqParserFeed, hstate] at hfeed
      cases hfeed
      exact hstate
  | overflowed => exact h.elim

/-- The block of the argument that is being read has been allocated. -/
def ReqParser.Ready (p : ReqParser) : Position → Prop
  | .user _ => p.user ≠ none
  | .pass _ _ => p.password ≠ none
  | .digits _ => p.newBuffSize ≠ none
  | _ => True

theorem Storing.held {n : ℕ} {block : Option Block} {xs : List UInt8}
    (h : Storing n block xs) (hne : block ≠ none) : ArgHeld n block xs :=
  h.resolve_left hne

/-- The parser goes on as long as the arguments fit and no allocation fails. -/
theorem ReqParser.At.exists_feed {p : ReqParser} {pos : Position} {c : UInt8}
    {m : Mallocs} (h : p.At pos) (hready : p.Ready pos) (hm : Available m)
    (hfits : pos.next c ≠ .overflowed) :
    ∃ p' m', adminReqParserFeed c (p, m) = .ok (p', m') ∧
      p'.Ready (pos.next c) ∧ Available m' := by
  cases pos with
  | start =>
      obtain ⟨hstate, -⟩ := h
      simp only [adminReqParserFeed, hstate]
      refine ⟨_, _, rfl, ?_, hm⟩
      rw [Position.next]
      split_ifs <;> trivial
  | metrics | listUsers =>
      obtain ⟨hstate, -⟩ := h
      simp only [adminReqParserFeed, hstate]
      rw [Position.next]
      by_cases hc : c = 10
      · rw [if_pos hc, if_pos hc]
        exact ⟨_, _, rfl, trivial, hm⟩
      · rw [if_neg hc, if_neg hc]
        exact ⟨_, _, rfl, trivial, hm⟩
  | addUser =>
      obtain ⟨hstate, -⟩ := h
      obtain ⟨hm', hheld⟩ := hm.malloc userLen
      simp only [adminReqParserFeed, hstate]
      rw [Position.next]
      by_cases hc : c = 32
      · rw [if_pos hc, if_pos hc]
        exact ⟨_, _, rfl, hheld.ne_none, hm'⟩
      · rw [if_neg hc, if_neg hc]
        exact ⟨_, _, rfl, trivial, hm⟩
  | user read =>
      obtain ⟨hstate, -, hindex, huser, -⟩ := h
      have hheld := huser.held hready
      simp only [adminReqParserFeed, hstate, hindex]
      rw [Position.next] at hfits ⊢
      by_cases hend : c = 10
      · simp only [hend]
        exact ⟨_, _, rfl, trivial, hm⟩
      · rw [if_neg hend] at hfits ⊢
        have hroom : read.length < userLen := by
          by_contra hfull
          exact hfits (if_neg hfull)
        rw [if_pos hroom]
        by_cases hspace : c = 32
        · obtain ⟨user, hput, -⟩ := hheld.put hroom 0
          obtain ⟨hm', hnew⟩ := hm.malloc passLen
          rw [if_pos hspace, if_pos hspace, hput]
          exact ⟨_, _, rfl, hnew.ne_none, hm'⟩
        · obtain ⟨user, hput, huser'⟩ := hheld.put hroom c
          rw [if_neg hspace, if_neg hspace, putGrowing_of_lt hroom, hput]
          simp only [ne_eq, hend, not_false_eq_true, if_true]
          exact ⟨_, _, rfl, huser'.ne_none, hm⟩
  | pass user read =>
      obtain ⟨hstate, -, hindex, -, hpassword⟩ := h
      have hheld := hpassword.held hready
      simp only [adminReqParserFeed, hstate, hindex]
      rw [Position.next] at hfits ⊢
      by_cases hspace : c = 32
      · rw [if_pos hspace, if_pos hspace]
        exact ⟨_, _, rfl, trivial, hm⟩
      · rw [if_neg hspace] at hfits
        have hroom : read.length < passLen := by
          by_contra hfull
          exact hfits (if_neg hfull)
        rw [if_neg hspace, if_neg hspace, if_pos hroom]
        by_cases hend : c = 10
        · obtain ⟨password, hput, -⟩ := hheld.put hroom 0
          rw [if_pos hend, if_pos hend, hput]
          exact ⟨_, _, rfl, trivial, hm⟩
        · obtain ⟨password, hput, hpassword'⟩ := hheld.put hroom c
          rw [if_neg hend, if_neg hend, putGrowing_of_lt hroom, hput]
          exact ⟨_, _, rfl, hpassword'.ne_none, hm⟩
  | changeBufferSize =>
      obtain ⟨hstate, -⟩ := h
      obtain ⟨hm', hheld⟩ := hm.malloc Socksv5.newBuffSize
      simp only [adminReqParserFeed, hstate]
      rw [Position.next]
      by_cases hc : c = 32
      · rw [if_pos hc, if_pos hc]
        exact ⟨_, _, rfl, hheld.ne_none, hm'⟩
      · rw [if_neg hc, if_neg hc]
        exact ⟨_, _, rfl, trivial, hm⟩
  | digits read =>
      obtain ⟨hstate, -, hindex, hsize⟩ := h
      have hheld := hsize.held hready
      simp only [adminReqParserFeed, hstate, hindex]
      rw [Position.next] at hfits ⊢
      by_cases hgoes : c = 10 ∨ 48 ≤ c ∧ c ≤ 57
      · rw [if_pos hgoes] at hfits
        have hroom : read.length < Socksv5.newBuffSize := by
          by_contra hfull
          exact hfits (if_neg hfull)
        rw [if_pos hgoes, if_pos hroom]
        by_cases hend : c = 10
        · obtain ⟨size, hput, -⟩ := hheld.put hroom 0
          rw [if_pos hend, if_pos hend, hput]
          exact ⟨_, _, rfl, trivial, hm⟩
        · obtain ⟨size, hput, hsize'⟩ := hheld.put hroom c
          rw [if_neg hend, if_pos (hgoes.resolve_left hend), if_neg hend,
            putGrowing_of_lt hroom, hput]
          exact ⟨_, _, rfl, hsize'.ne_none, hm⟩
      · rw [not_or] at hgoes
        rw [if_neg hgoes.1, if_neg hgoes.2, if_neg (by
          rintro (h | h)
          · exact hgoes.1 h
          · exact hgoes.2 h)]
        exact ⟨_, _, rfl, trivial, hm⟩
  | complete command =>
      obtain ⟨hstate, -⟩ := h
      simp only [adminReqParserFeed, hstate]
      exact ⟨_, _, rfl, trivial, hm⟩
  | rejected =>
      have hstate : p.state = .invalidCmd := h
      simp only [adminReqParserFeed, hstate]
      exact ⟨_, _, rfl, trivial, hm⟩
  | overflowed => exact h.elim

theorem ReqParser.At.reqDone_iff {p : ReqParser} {pos : Position}
    (h : p.At pos) (m : Mallocs) : reqDone (p, m) = pos.isComplete := by
  cases pos with
  | complete command =>
      rw [reqDone, h.1]
      rfl
  | rejected =>
      have hstate : p.state = .invalidCmd := h
      rw [reqDone, hstate]
      rfl
  | overflowed => exact h.elim
  | _ =>
      rw [reqDone, h.1]
      rfl

/-- What has been read up to the end of a command, or all there was. -/
theorem ReqParser.At.decode {p p' : ReqParser} {pos : Position}
    {xs rest : List UInt8} {m m' : Mallocs} (h : p.At pos)
    (hdecode : Support.decode adminReqParserFeed reqDone xs (p, m) =
      .ok ((p', m'), rest)) :
    p'.At (pos.scan xs).1 ∧ rest = (pos.scan xs).2 := by
  induction xs generalizing p pos m with
  | nil =>
      cases hdecode
      exact ⟨h, rfl⟩
  | cons c cs ih =>
      obtain ⟨⟨p₁, m₁⟩, hfeed, hrest⟩ := bind_eq_ok.mp hdecode
      have hnext := h.next hfeed
      rw [Position.scan]
      rw [hnext.reqDone_iff] at hrest
      by_cases hdone : (pos.next c).isComplete = true
      · rw [if_pos hdone] at hrest ⊢
        cases hrest
        exact ⟨hnext, rfl⟩
      · rw [if_neg hdone] at hrest ⊢
        exact ih hnext hrest

theorem Position.scan_overflowed (xs : List UInt8) :
    (Position.scan .overflowed xs).1 = .overflowed := by
  induction xs with
  | nil => rfl
  | cons c cs ih => exact ih

/-- A line whose arguments fit can be read. -/
theorem ReqParser.At.exists_decode {p : ReqParser} {pos : Position}
    {xs : List UInt8} {m : Mallocs} (h : p.At pos) (hready : p.Ready pos)
    (hm : Available m) (hfits : (pos.scan xs).1 ≠ .overflowed) :
    ∃ p' m', Support.decode adminReqParserFeed reqDone xs (p, m) =
      .ok ((p', m'), (pos.scan xs).2) := by
  induction xs generalizing p pos m with
  | nil => exact ⟨p, m, rfl⟩
  | cons c cs ih =>
      rw [Position.scan] at hfits ⊢
      have hstep : pos.next c ≠ .overflowed := by
        intro hover
        rw [hover] at hfits
        exact hfits (Position.scan_overflowed cs)
      obtain ⟨p₁, m₁, hfeed, hready₁, hm₁⟩ := h.exists_feed hready hm hstep
      have hnext := h.next hfeed
      rw [Support.decode, hfeed, ok_bind, hnext.reqDone_iff]
      by_cases hdone : (pos.next c).isComplete = true
      · rw [if_pos hdone, if_pos hdone]
        exact ⟨p₁, m₁, rfl⟩
      · rw [if_neg hdone] at hfits
        rw [if_neg hdone, if_neg hdone]
        exact ih hnext hready₁ hm₁ hfits

/-- The parser has parsed a command completely only if it has read its line,
and then it carries the command. -/
theorem adminReq_reads_carries {p₀ p : ReqParser} {m₀ m : Mallocs}
    {line : List UInt8}
    (h : Reads adminReqParserFeed reqDone (adminReqParserInit p₀, m₀) line
      (p, m)) (hdone : p.state = .done) :
    ∃ q : Command, q.WellFormed ∧ q.line = line ∧ p.Carries q := by
  have hat : ∃ pos : Position, p.At pos ∧ pos.Spells line := by
    refine h.invariant (I := fun xs s => ∃ pos : Position, s.1.At pos ∧
      pos.Spells xs) ?_ ?_
    · exact ⟨.start, adminReqParserInit_at p₀, rfl⟩
    · rintro xs c ⟨p₁, m₁⟩ ⟨p₂, m₂⟩ ⟨pos, hpos, hspells⟩ hgoes hfeed
      rw [hpos.reqDone_iff] at hgoes
      exact ⟨pos.next c, hpos.next hfeed, hspells.next hgoes c⟩
  obtain ⟨pos, hpos, hspells⟩ := hat
  have hcomplete := hpos.reqDone_iff m
  rw [reqDone, hdone] at hcomplete
  cases pos with
  | complete q => exact ⟨q, hspells.2, hspells.1.symm, hpos.2⟩
  | _ => cases hcomplete

end Socksv5
