import Socksv5.Admin.CommandLine

/-!
# The grammar of the administration commands

A stream takes the parser to the end of a command exactly when it begins with
the line of one, provided that the arguments fit in the blocks that are
allocated first.  These blocks are allocated again when the index has got to
their presumed end, but never with more room than for the index, and the user's
not before it is 50 bytes beyond: so an argument that does not fit is stored
outside its block.
-/

namespace Socksv5

open Support

/-! ## The arguments of a stream -/

/-- An argument at the beginning of a stream, and whether it is terminated. -/
def argumentOf (isArg : UInt8 → Bool) (stop : UInt8) (xs : List UInt8) :
    List UInt8 × Bool :=
  let arg := xs.takeWhile isArg
  (arg, decide ((xs.drop arg.length).head? = some stop))

/-- The arguments of the command that a stream begins with, as far as it
goes. -/
def argumentsOf : List UInt8 → List (List UInt8 × Bool)
  | 50 :: 32 :: args =>
      let name := argumentOf isWordByte 32 args
      if name.2 then
        [name, argumentOf isWordByte 10 (args.drop (name.1.length + 1))]
      else [name]
  | 52 :: 32 :: digits => [argumentOf isDigit 10 digits]
  | _ => []

/-- How many bytes are stored for an argument, its terminator included. -/
def storedFor (a : List UInt8 × Bool) : ℕ := a.1.length + a.2.toNat

/-- Every argument fits in the block of 255 bytes that is allocated for it,
with its terminator if it has come. -/
def ArgumentsFit (xs : List UInt8) : Prop :=
  ∀ a ∈ argumentsOf xs, storedFor a ≤ 255

instance (xs : List UInt8) : Decidable (ArgumentsFit xs) :=
  inferInstanceAs (Decidable (∀ a ∈ argumentsOf xs, _))

/-- No argument has more than 254 bytes. -/
def TokensFit (xs : List UInt8) : Prop :=
  ∀ a ∈ argumentsOf xs, a.1.length ≤ 254

instance (xs : List UInt8) : Decidable (TokensFit xs) :=
  inferInstanceAs (Decidable (∀ a ∈ argumentsOf xs, _))

theorem TokensFit.argumentsFit {xs : List UInt8} (h : TokensFit xs) :
    ArgumentsFit xs := by
  intro a ha
  have hlen := h a ha
  have hstop : a.2.toNat ≤ 1 := Bool.toNat_le a.2
  rw [storedFor]
  omega

theorem argumentOf_cons_of_arg {isArg : UInt8 → Bool} {c : UInt8}
    (stop : UInt8) (hc : isArg c = true) (cs : List UInt8) :
    argumentOf isArg stop (c :: cs) =
      (c :: (argumentOf isArg stop cs).1, (argumentOf isArg stop cs).2) := by
  simp [argumentOf, hc]

theorem argumentOf_cons_of_not {isArg : UInt8 → Bool} {c stop : UInt8}
    (hc : ¬ isArg c = true) (cs : List UInt8) :
    argumentOf isArg stop (c :: cs) = ([], decide (c = stop)) := by
  simp [argumentOf, hc]

/-- An argument and its terminator. -/
theorem argumentOf_append {isArg : UInt8 → Bool} {stop : UInt8}
    {arg : List UInt8} (harg : arg.all isArg = true)
    (hstop : ¬ isArg stop = true) (rest : List UInt8) :
    argumentOf isArg stop (arg ++ stop :: rest) = (arg, true) := by
  induction arg with
  | nil => simp [argumentOf_cons_of_not hstop]
  | cons c cs ih =>
      rw [List.all_cons, Bool.and_eq_true] at harg
      rw [List.cons_append, argumentOf_cons_of_arg stop harg.1, ih harg.2]

/-! ## Reading on from a position -/

/-- The position that a stream takes a reader to. -/
def Position.run (pos : Position) (xs : List UInt8) : Position :=
  xs.foldl Position.next pos

theorem Position.run_complete (command : Command) (xs : List UInt8) :
    (Position.complete command).run xs = .complete command := by
  induction xs with
  | nil => rfl
  | cons c cs ih => exact ih

theorem Position.run_rejected (xs : List UInt8) :
    Position.rejected.run xs = .rejected := by
  induction xs with
  | nil => rfl
  | cons c cs ih => exact ih

theorem Position.run_overflowed (xs : List UInt8) :
    Position.overflowed.run xs = .overflowed := by
  induction xs with
  | nil => rfl
  | cons c cs ih => exact ih

theorem Position.scan_fst (pos : Position) (xs : List UInt8) :
    (pos.scan xs).1 = pos.run xs := by
  induction xs generalizing pos with
  | nil => rfl
  | cons c cs ih =>
      rw [Position.scan, Position.run, List.foldl_cons]
      by_cases hdone : (pos.next c).isComplete = true
      · rw [if_pos hdone]
        cases hnext : pos.next c with
        | complete command => exact (run_complete command cs).symm
        | _ => simp [hnext, Position.isComplete] at hdone
      · rw [if_neg hdone]
        exact ih _

/-- `S read` are the positions in an argument, which ends with `stop` and after
which the reader is at `after`. -/
structure Position.Argument (S : List UInt8 → Position) (isArg : UInt8 → Bool)
    (stop : UInt8) (after : List UInt8 → Position) : Prop where
  stop_not : ¬ isArg stop = true
  next_eq : ∀ read c, (S read).next c =
    if isArg c = true ∨ c = stop then
      if read.length < 255 then
        if c = stop then after read else S (read ++ [c])
      else .overflowed
    else .rejected

theorem Position.argument_user :
    Position.Argument .user isWordByte 32 fun u => .pass u [] where
  stop_not := by decide
  next_eq := by
    intro read c
    rw [Position.next]
    by_cases hend : c = 10
    · have hnot : ¬ (isWordByte c = true ∨ c = 32) := by
        rw [hend]
        decide
      rw [if_pos hend, if_neg hnot]
    · have hor : isWordByte c = true ∨ c = 32 := by
        by_cases hspace : c = 32
        · exact Or.inr hspace
        · exact Or.inl (isWordByte_iff.mpr ⟨hspace, hend⟩)
      rw [if_neg hend, if_pos hor]
      rfl

theorem Position.argument_pass (u : List UInt8) :
    Position.Argument (.pass u) isWordByte 10
      fun w => .complete (.addUser u w) where
  stop_not := by decide
  next_eq := by
    intro read c
    rw [Position.next]
    by_cases hspace : c = 32
    · have hnot : ¬ (isWordByte c = true ∨ c = 10) := by
        rw [hspace]
        decide
      rw [if_pos hspace, if_neg hnot]
    · have hor : isWordByte c = true ∨ c = 10 := by
        by_cases hend : c = 10
        · exact Or.inr hend
        · exact Or.inl (isWordByte_iff.mpr ⟨hspace, hend⟩)
      rw [if_neg hspace, if_pos hor]
      rfl

theorem Position.argument_digits :
    Position.Argument .digits isDigit 10
      fun d => .complete (.changeBufferSize d) where
  stop_not := by decide
  next_eq := by
    intro read c
    have hor : (isDigit c = true ∨ c = 10) ↔ (c = 10 ∨ 48 ≤ c ∧ c ≤ 57) := by
      rw [isDigit_iff, or_comm]
    simp only [hor]
    rfl

/-- Where an argument leads: nowhere if it does not fit; to what comes after it
if it is terminated; further into it if the stream ends before. -/
theorem Position.Argument.run_eq {S after : List UInt8 → Position}
    {isArg : UInt8 → Bool} {stop : UInt8}
    (h : Position.Argument S isArg stop after) {read : List UInt8}
    (hread : read.length ≤ 255) (xs : List UInt8) :
    (S read).run xs =
      if 255 < read.length + storedFor (argumentOf isArg stop xs) then
        .overflowed
      else if (argumentOf isArg stop xs).2 then
        (after (read ++ (argumentOf isArg stop xs).1)).run
          (xs.drop ((argumentOf isArg stop xs).1.length + 1))
      else if xs.drop (argumentOf isArg stop xs).1.length = [] then
        S (read ++ (argumentOf isArg stop xs).1)
      else .rejected := by
  induction xs generalizing read with
  | nil =>
      have hnil : argumentOf isArg stop [] = ([], false) := rfl
      have hle : ¬ 255 < read.length + storedFor ([], false) := by
        simp only [storedFor, List.length_nil, Bool.toNat_false]
        omega
      rw [hnil, if_neg hle]
      simp [Position.run]
  | cons c cs ih =>
      have hnext : (S read).run (c :: cs) = ((S read).next c).run cs := rfl
      rw [hnext, h.next_eq]
      by_cases hc : isArg c = true
      · have hne : c ≠ stop := fun heq => h.stop_not (heq ▸ hc)
        have hstored : storedFor (argumentOf isArg stop (c :: cs)) =
            storedFor (argumentOf isArg stop cs) + 1 := by
          rw [argumentOf_cons_of_arg stop hc]
          simp only [storedFor, List.length_cons]
          omega
        rw [if_pos (Or.inl hc), hstored, argumentOf_cons_of_arg stop hc]
        by_cases hroom : read.length < 255
        · have hlen : (read ++ [c]).length = read.length + 1 := by simp
          have hcount : read.length + (storedFor (argumentOf isArg stop cs) + 1) =
              (read ++ [c]).length + storedFor (argumentOf isArg stop cs) := by
            omega
          rw [if_pos hroom, if_neg hne, ih (by omega), hcount]
          simp
        · rw [if_neg hroom, if_pos (by omega), Position.run_overflowed]
      · rw [argumentOf_cons_of_not hc]
        by_cases hstop : c = stop
        · rw [if_pos (Or.inr hstop), if_pos hstop]
          have hstored : storedFor ([], decide (c = stop)) = 1 := by
            simp [storedFor, hstop]
          rw [hstored]
          by_cases hroom : read.length < 255
          · rw [if_pos hroom, if_neg (by omega)]
            simp [hstop]
          · rw [if_neg hroom, if_pos (by omega), Position.run_overflowed]
        · have hstored : storedFor ([], decide (c = stop)) = 0 := by
            simp [storedFor, hstop]
          rw [if_neg (by simp [hc, hstop]), hstored, if_neg (by omega),
            Position.run_rejected]
          simp [hstop]

/-- A stream that has no argument takes no reader beyond its block. -/
theorem Position.run_start_cases (xs : List UInt8) :
    (∃ args, xs = 50 :: 32 :: args) ∨ (∃ args, xs = 52 :: 32 :: args) ∨
      (argumentsOf xs = [] ∧ Position.start.run xs ≠ .overflowed) := by
  rcases xs with - | ⟨c, - | ⟨d, rest⟩⟩
  · exact Or.inr (Or.inr ⟨rfl, by simp [Position.run]⟩)
  · refine Or.inr (Or.inr ⟨?_, ?_⟩)
    · unfold argumentsOf
      split <;> simp_all
    · change Position.start.next c ≠ .overflowed
      rw [Position.next]
      split_ifs <;> simp
  · have hrun : Position.start.run (c :: d :: rest) =
        ((Position.start.next c).next d).run rest := rfl
    by_cases hargs : (c = 50 ∨ c = 52) ∧ d = 32
    · obtain ⟨rfl | rfl, rfl⟩ := hargs
      · exact Or.inl ⟨rest, rfl⟩
      · exact Or.inr (Or.inl ⟨rest, rfl⟩)
    · refine Or.inr (Or.inr ⟨?_, ?_⟩)
      · unfold argumentsOf
        split <;> simp_all
      · rw [hrun, Position.next]
        split_ifs with h49 h50 h51 h52
        · rw [Position.next]
          split_ifs
          · rw [run_complete]
            simp
          · rw [run_rejected]
            simp
        · rw [Position.next, if_neg fun hd => hargs ⟨Or.inl h50, hd⟩,
            run_rejected]
          simp
        · rw [Position.next]
          split_ifs
          · rw [run_complete]
            simp
          · rw [run_rejected]
            simp
        · rw [Position.next, if_neg fun hd => hargs ⟨Or.inr h52, hd⟩,
            run_rejected]
          simp
        · rw [Position.next, run_rejected]
          · simp
          all_goals simp

/-- The last argument of a command is the only one that can take the reader
beyond its block. -/
theorem Position.Argument.overflowed_iff {S : List UInt8 → Position}
    {isArg : UInt8 → Bool} {stop : UInt8} {command : List UInt8 → Command}
    (h : Position.Argument S isArg stop fun w => .complete (command w))
    (hS : ∀ read, S read ≠ .overflowed) (xs : List UInt8) :
    (S []).run xs = .overflowed ↔
      ¬ storedFor (argumentOf isArg stop xs) ≤ 255 := by
  rw [h.run_eq (Nat.zero_le _), List.length_nil, Nat.zero_add, Nat.not_le]
  by_cases hlong : 255 < storedFor (argumentOf isArg stop xs)
  · rw [if_pos hlong]
    exact ⟨fun _ => hlong, fun _ => rfl⟩
  · rw [if_neg hlong]
    refine ⟨fun hover => ?_, fun hnot => absurd hnot hlong⟩
    split_ifs at hover
    · rw [run_complete] at hover
      cases hover
    · exact absurd hover (hS _)

/-- Exactly the streams whose arguments fit take no reader beyond a block. -/
theorem Position.run_start_overflowed_iff (xs : List UInt8) :
    Position.start.run xs = .overflowed ↔ ¬ ArgumentsFit xs := by
  rcases run_start_cases xs with ⟨args, rfl⟩ | ⟨digits, rfl⟩ | ⟨hnone, hnot⟩
  · have hrun : Position.start.run (50 :: 32 :: args) =
        (Position.user []).run args := rfl
    rw [hrun, argument_user.run_eq (Nat.zero_le _), List.length_nil,
      Nat.zero_add, ArgumentsFit, argumentsOf]
    by_cases hlong : 255 < storedFor (argumentOf isWordByte 32 args)
    · rw [if_pos hlong]
      refine ⟨fun _ hfit => ?_, fun _ => rfl⟩
      have hle := hfit (argumentOf isWordByte 32 args) (by
        split_ifs <;> simp)
      omega
    · rw [if_neg hlong]
      by_cases hend : (argumentOf isWordByte 32 args).2 = true
      · rw [if_pos hend, if_pos hend,
          (argument_pass _).overflowed_iff (by simp)]
        simp only [List.forall_mem_cons, List.not_mem_nil, false_implies,
          implies_true, and_true]
        rw [and_iff_right (Nat.not_lt.mp hlong)]
      · rw [if_neg hend, if_neg hend]
        refine ⟨fun hover => ?_, fun hnot => absurd ?_ hnot⟩
        · split_ifs at hover
        · simpa using hlong
  · have hrun : Position.start.run (52 :: 32 :: digits) =
        (Position.digits []).run digits := rfl
    rw [hrun, argument_digits.overflowed_iff (by simp)]
    simp [ArgumentsFit, argumentsOf]
  · rw [ArgumentsFit, hnone]
    simpa using hnot

/-! ## Stores outside the blocks -/

/-- What feeding all the bytes of a stream does. -/
def adminReqParserFeedAll (xs : List UInt8) (s : ReqParser × Mallocs) :
    Except Fault (ReqParser × Mallocs) :=
  xs.foldlM (fun s c => adminReqParserFeed c s) s

/-- A byte for which there is no room is stored outside its block. -/
theorem ArgHeld.put_full {n : ℕ} {block : Option Block} {xs : List UInt8}
    (h : ArgHeld n block xs) (hfull : ¬ xs.length < n) (c : UInt8) :
    putByte block xs.length c = .error .outOfBounds := by
  obtain ⟨b, rfl, hlen, -⟩ := h
  rw [putByte, hlen, if_neg hfull]

/-- So it is when the block is allocated again. -/
theorem ArgHeld.putGrowing_full {n : ℕ} {block : Option Block}
    {xs : List UInt8} {m : Mallocs} (h : ArgHeld n block xs)
    (hfull : ¬ xs.length < n) (hm : Available m) (chunks : ℕ) (c : UInt8) :
    putGrowing block n xs.length chunks c m = .error .outOfBounds := by
  by_cases heq : xs.length = n + chunks * chunkSize
  · obtain ⟨-, b, hb, -⟩ := hm.malloc (n + chunks * chunkSize)
    have hput : putByte (realloc block (n + chunks * chunkSize) m).1 xs.length c =
        .error .outOfBounds := by
      cases hrealloc : (realloc block (n + chunks * chunkSize) m).1 with
      | none =>
          simp only [realloc, hb] at hrealloc
          cases hrealloc
      | some b' =>
          rw [putByte, length_realloc hrealloc, heq, if_neg (Nat.lt_irrefl _)]
    simp only [putGrowing, if_pos heq, hput]
    rfl
  · simp only [putGrowing, if_neg heq, h.put_full hfull]
    rfl

/-- The byte that takes the reader beyond a block is stored outside it. -/
theorem ReqParser.At.feed_overflows {p : ReqParser} {pos : Position} {c : UInt8}
    {m : Mallocs} (h : p.At pos) (hready : p.Ready pos) (hm : Available m)
    (hover : pos.next c = .overflowed) :
    adminReqParserFeed c (p, m) = .error .outOfBounds := by
  cases pos with
  | user read =>
      obtain ⟨hstate, -, hindex, huser, -⟩ := h
      have hheld := huser.held hready
      rw [Position.argument_user.next_eq] at hover
      split_ifs at hover with hgoes hroom hspace
      have hend : c ≠ 10 := by
        rintro rfl
        revert hgoes
        decide
      simp only [adminReqParserFeed, hstate, hindex]
      by_cases hspace : c = 32
      · rw [if_pos hspace, hheld.put_full hroom]
        rfl
      · rw [if_neg hspace, if_pos hend, hheld.putGrowing_full hroom hm]
        rfl
  | pass user read =>
      obtain ⟨hstate, -, hindex, -, hpassword⟩ := h
      have hheld := hpassword.held hready
      rw [(Position.argument_pass user).next_eq] at hover
      split_ifs at hover with hgoes hroom hend
      have hspace : c ≠ 32 := by
        rintro rfl
        revert hgoes
        decide
      simp only [adminReqParserFeed, hstate, hindex]
      rw [if_neg hspace]
      by_cases hend : c = 10
      · rw [if_pos hend, hheld.put_full hroom]
        rfl
      · rw [if_neg hend, hheld.putGrowing_full hroom hm]
        rfl
  | digits read =>
      obtain ⟨hstate, -, hindex, hsize⟩ := h
      have hheld := hsize.held hready
      rw [Position.argument_digits.next_eq] at hover
      split_ifs at hover with hgoes hroom hend
      simp only [adminReqParserFeed, hstate, hindex]
      by_cases hend : c = 10
      · rw [if_pos hend, hheld.put_full hroom]
        rfl
      · have hdigit := isDigit_iff.mp (hgoes.resolve_right hend)
        rw [if_neg hend, if_pos hdigit, hheld.putGrowing_full hroom hm]
        rfl
  | start =>
      rw [Position.next] at hover
      split_ifs at hover
  | metrics | listUsers | addUser | changeBufferSize =>
      rw [Position.next] at hover
      split_ifs at hover
  | complete command => cases hover
  | rejected => cases hover
  | overflowed => exact h.elim

theorem ReqParser.At.feedAll {p : ReqParser} {pos : Position} {m : Mallocs}
    (h : p.At pos) (hready : p.Ready pos) (hm : Available m)
    (xs : List UInt8) :
    (pos.run xs ≠ .overflowed →
      ∃ s, adminReqParserFeedAll xs (p, m) = .ok s) ∧
    (pos.run xs = .overflowed →
      adminReqParserFeedAll xs (p, m) = .error .outOfBounds) := by
  induction xs generalizing p pos m with
  | nil =>
      refine ⟨fun _ => ⟨_, rfl⟩, fun hover => ?_⟩
      have hpos : pos = .overflowed := hover
      rw [hpos] at h
      exact h.elim
  | cons c cs ih =>
      have hrun : pos.run (c :: cs) = (pos.next c).run cs := rfl
      rw [hrun, adminReqParserFeedAll, List.foldlM_cons]
      by_cases hover : pos.next c = .overflowed
      · rw [hover, Position.run_overflowed, h.feed_overflows hready hm hover]
        exact ⟨fun hnot => absurd rfl hnot, fun _ => rfl⟩
      · obtain ⟨p₁, m₁, hfeed, hready₁, hm₁⟩ := h.exists_feed hready hm hover
        rw [hfeed, ok_bind]
        exact ih (h.next hfeed) hready₁ hm₁

/-- No byte of the stream is stored outside the block of its argument. -/
def StoresInBounds (p : ReqParser) (m : Mallocs) (xs : List UInt8) : Prop :=
  adminReqParserFeedAll xs (adminReqParserInit p, m) ≠ .error .outOfBounds

/-- The parser stores inside its blocks exactly when every argument fits in the
255 bytes that are allocated first. -/
theorem storesInBounds_iff (p : ReqParser) {m : Mallocs} (hm : Available m)
    (xs : List UInt8) : StoresInBounds p m xs ↔ ArgumentsFit xs := by
  obtain ⟨hgoes, hover⟩ :=
    (adminReqParserInit_at p).feedAll trivial hm xs
  by_cases hfit : Position.start.run xs = .overflowed
  · have hnot := (Position.run_start_overflowed_iff xs).mp hfit
    exact ⟨fun hstores => absurd (hover hfit) hstores,
      fun hfits => absurd hfits hnot⟩
  · have hfits : ArgumentsFit xs := by
      by_contra hnot
      exact hfit ((Position.run_start_overflowed_iff xs).mpr hnot)
    obtain ⟨s, hs⟩ := hgoes hfit
    refine ⟨fun _ => hfits, fun _ => ?_⟩
    rw [StoresInBounds, hs]
    simp

/-- A user of three bytes fits. -/
theorem storesInBounds_of_short_user :
    StoresInBounds {} [] [50, 32, 97, 110, 97, 32, 112, 10] :=
  (storesInBounds_iff {} (by simp [Available]) _).mpr (by decide)

set_option maxRecDepth 4000 in
/-- The 256th byte of a user is stored outside its block. -/
theorem not_storesInBounds_of_long_user :
    ¬ StoresInBounds {} [] (50 :: 32 :: List.replicate 256 97) := by
  have hlong : ¬ ArgumentsFit (50 :: 32 :: List.replicate 256 97) := by decide
  have hover := (Position.run_start_overflowed_iff _).mpr hlong
  have herror := ((adminReqParserInit_at {}).feedAll trivial
    (by simp [Available] : Available []) _).2 hover
  exact fun hstores => hstores herror

/-! ## The language of the commands -/

/-- An argument that fits is read to its terminator. -/
theorem Position.Argument.run_terminated {S after : List UInt8 → Position}
    {isArg : UInt8 → Bool} {stop : UInt8} {arg rest : List UInt8}
    (h : Position.Argument S isArg stop after) (harg : arg.all isArg = true)
    (hfits : (S []).run (arg ++ stop :: rest) ≠ .overflowed) :
    (S []).run (arg ++ stop :: rest) = (after arg).run rest := by
  have hdrop : (arg ++ stop :: rest).drop (arg.length + 1) = rest := by
    simp [List.drop_append]
  rw [h.run_eq (Nat.zero_le _), argumentOf_append harg h.stop_not] at hfits ⊢
  by_cases hlong : 255 < ([] : List UInt8).length + storedFor (arg, true)
  · rw [if_pos hlong] at hfits
    exact absurd rfl hfits
  · rw [if_neg hlong, if_pos rfl, hdrop, List.nil_append]

/-- The line of a command is read to its end. -/
theorem Position.run_line {q : Command} (hq : q.WellFormed) (tail : List UInt8)
    (hfits : Position.start.run (q.line ++ tail) ≠ .overflowed) :
    Position.start.run (q.line ++ tail) = .complete q := by
  cases q with
  | metrics => exact run_complete .metrics tail
  | listUsers => exact run_complete .listUsers tail
  | addUser name pass =>
      obtain ⟨hname, hpass⟩ := hq
      have hrun : Position.start.run ((Command.addUser name pass).line ++ tail) =
          (Position.user []).run (name ++ 32 :: (pass ++ 10 :: tail)) := by
        simp [Command.line, Position.run, Position.next]
      rw [hrun] at hfits ⊢
      have huser := argument_user.run_terminated hname hfits
      rw [huser] at hfits ⊢
      rw [(argument_pass name).run_terminated hpass hfits]
      exact run_complete _ _
  | changeBufferSize digits =>
      have hrun : Position.start.run
          ((Command.changeBufferSize digits).line ++ tail) =
            (Position.digits []).run (digits ++ 10 :: tail) := by
        simp [Command.line, Position.run, Position.next]
      rw [hrun] at hfits ⊢
      rw [argument_digits.run_terminated hq hfits]
      exact run_complete _ _

/-- A line that has not ended, and has not been rejected, is the beginning of
the line of a command. -/
theorem Position.Spells.extends {pos : Position} {xs : List UInt8}
    (h : pos.Spells xs) (hrejected : pos ≠ .rejected)
    (hover : pos ≠ .overflowed) :
    ∃ q : Command, q.WellFormed ∧ xs <+: q.line := by
  cases pos with
  | start =>
      have hxs : xs = [] := h
      exact ⟨.metrics, trivial, hxs ▸ List.nil_prefix⟩
  | metrics =>
      have hxs : xs = [49] := h
      exact ⟨.metrics, trivial, [10], by rw [hxs]; rfl⟩
  | listUsers =>
      have hxs : xs = [51] := h
      exact ⟨.listUsers, trivial, [10], by rw [hxs]; rfl⟩
  | addUser =>
      have hxs : xs = [50] := h
      exact ⟨.addUser [] [], ⟨rfl, rfl⟩, [32, 32, 10], by rw [hxs]; rfl⟩
  | changeBufferSize =>
      have hxs : xs = [52] := h
      exact ⟨.changeBufferSize [], rfl, [32, 10], by rw [hxs]; rfl⟩
  | user read =>
      obtain ⟨rfl, hread⟩ := h
      exact ⟨.addUser read [], ⟨hread, rfl⟩, [32, 10], by simp [Command.line]⟩
  | pass u read =>
      obtain ⟨rfl, hu, hread⟩ := h
      exact ⟨.addUser u read, ⟨hu, hread⟩, [10], by simp [Command.line]⟩
  | digits read =>
      obtain ⟨rfl, hread⟩ := h
      exact ⟨.changeBufferSize read, hread, [10], rfl⟩
  | complete q =>
      obtain ⟨rfl, hq⟩ := h
      exact ⟨q, hq, List.prefix_rfl⟩
  | rejected => exact absurd rfl hrejected
  | overflowed => exact absurd rfl hover

/-- What the parser `p` has made of a stream, of which it has left `unread`. -/
structure CommandParsed (stream unread : List UInt8) (p : ReqParser) :
    Prop where
  done_iff : p.state = .done ↔
    ∃ q : Command, q.WellFormed ∧ q.line <+: stream
  carries : ∀ (q : Command) tail, q.WellFormed → stream = q.line ++ tail →
    p.Carries q ∧ unread = tail
  invalid : (∀ q : Command, q.WellFormed →
      ¬ q.line <+: stream ∧ ¬ stream <+: q.line) →
    p.state = .invalidCmd ∧ unread = []
  absorbing : p.state = .invalidCmd → ∀ c m,
    adminReqParserFeed c (p, m) = .ok (p, m)

/-- What the parser makes of a stream whose arguments fit. -/
theorem exists_commandParsed (p₀ : ReqParser) {m : Mallocs} (hm : Available m)
    {stream : List UInt8} (hfits : ArgumentsFit stream) :
    ∃ p m' unread,
      decode adminReqParserFeed reqDone stream (adminReqParserInit p₀, m) =
        .ok ((p, m'), unread) ∧ CommandParsed stream unread p := by
  have hrun : Position.start.run stream ≠ .overflowed := fun hover =>
    (Position.run_start_overflowed_iff stream).mp hover hfits
  obtain ⟨p, m', hdecode⟩ := (adminReqParserInit_at p₀).exists_decode trivial hm
    (by rw [Position.scan_fst]; exact hrun)
  obtain ⟨hat, -⟩ := (adminReqParserInit_at p₀).decode hdecode
  have hstart : Position.start.Spells [] := rfl
  obtain ⟨used, hused, hspells, hrest⟩ := hstart.scan rfl stream
  rw [Position.scan_fst] at hat hspells hrest
  rw [List.nil_append] at hspells
  have hdone := hat.reqDone_iff m'
  refine ⟨p, m', _, hdecode, ⟨fun hstate => ?_, ?_⟩, ?_, ?_, ?_⟩
  · rw [reqDone, hstate] at hdone
    cases hpos : Position.start.run stream with
    | complete q =>
        rw [hpos] at hspells
        refine ⟨q, hspells.2, (Position.start.scan stream).2, ?_⟩
        rw [← hspells.1, ← hused]
    | _ => simp [hpos, Position.isComplete] at hdone
  · rintro ⟨q, hq, tail, rfl⟩
    rw [Position.run_line hq tail hrun] at hat
    exact hat.1
  · rintro q tail hq rfl
    rw [Position.run_line hq tail hrun] at hat hspells
    rw [hspells.1] at hused
    exact ⟨hat.2, (List.append_cancel_left hused).symm⟩
  · intro hnone
    have hlive : (Position.start.run stream).isComplete = false := by
      cases hpos : Position.start.run stream with
      | complete q =>
          rw [hpos] at hspells
          refine absurd ?_ (hnone q hspells.2).1
          exact ⟨(Position.start.scan stream).2, by rw [← hspells.1, ← hused]⟩
      | _ => rfl
    have hnil := hrest hlive
    rw [hnil, List.append_nil] at hused
    have hrejected : Position.start.run stream = .rejected := by
      by_contra hnot
      obtain ⟨q, hq, hpre⟩ := hspells.extends hnot hrun
      exact (hnone q hq).2 (hused ▸ hpre)
    rw [hrejected] at hat
    exact ⟨hat, hnil⟩
  · intro hstate c m
    simp only [adminReqParserFeed, hstate]

/-- The parser accepts exactly the commands of the grammar, from whatever was
pending in the buffer and the chunks that are received after it, whatever it
has parsed before. -/
theorem command_grammar {chunks : List (List UInt8)} {b : Buffer} {m : Mallocs}
    (p₀ : ReqParser) (hrecv : Receivable b chunks)
    (hstart : b.pending = [] ∨ chunks ≠ []) (hm : Available m)
    (hfits : TokensFit (b.pending ++ chunks.flatten)) :
    ∃ b' p m' later,
      consumeChunks adminReqParserFeed reqDone chunks b
          (adminReqParserInit p₀, m) = .ok (b', (p, m'), later) ∧
      CommandParsed (b.pending ++ chunks.flatten)
        (b'.pending ++ later.flatten) p := by
  obtain ⟨p, m', unread, hdecode, hparsed⟩ :=
    exists_commandParsed p₀ hm hfits.argumentsFit
  obtain ⟨b', later, hconsume, rfl⟩ :=
    exists_consumeChunks hrecv hstart rfl hdecode
  exact ⟨b', p, m', later, hconsume, hparsed⟩

/-- A user is added with two reads, the second of which brings the beginning of
the next command. -/
theorem command_grammar_add_user :
    ∃ b' p m' later,
      consumeChunks adminReqParserFeed reqDone
          [[50, 32, 97], [110, 97, 32, 112, 10, 49]] (Buffer.init 10 fun _ => 0)
          (adminReqParserInit {}, []) = .ok (b', (p, m'), later) ∧
      CommandParsed [50, 32, 97, 110, 97, 32, 112, 10, 49]
        (b'.pending ++ later.flatten) p :=
  command_grammar (b := Buffer.init 10 fun _ => 0) {}
    (by simp [Receivable, Buffer.init, Buffer.room]) (Or.inr (by simp))
    (by simp [Available]) (by decide)

end Socksv5
