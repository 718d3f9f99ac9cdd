import Socksv5.Admin.CommandLine
import Socksv5.Admin.Response

/-!
# The answers, as texts

What `admin_req_fill_msg` performs and answers for a command that has been
parsed completely, when the tables are as the server keeps them and no
allocation fails.
-/

namespace Socksv5

open Support

/-! ## What the commands perform and answer -/

/-- A name or a password of the table of users: a string, of at most
`MAX_CREDENTIALS_LEN` characters. -/
def IsCredential (block : Block) : Prop :=
  0 ∈ block ∧ (cString block).length ≤ maxCredentialsLen

/-- The global variables, as the server keeps them: the counters are of their C
types, and there are at most `MAX_USERS` users. -/
structure Globals.Valid (g : Globals) : Prop where
  historical_ge : -9223372036854775808 ≤ g.metrics.historicalConnections
  historical_lt : g.metrics.historicalConnections < 9223372036854775808
  total_lt : g.metrics.totalBytesTransferred < 18446744073709551616
  users_le : g.parameters.users.length ≤ maxUsers
  credentials : ∀ u ∈ g.parameters.users,
    IsCredential u.name ∧ IsCredential u.pass

/-- What `add_user` returns for two strings. -/
def addUserResult (name pass : List UInt8) (users : List User) : ℤ :=
  if maxCredentialsLen < pass.length ∨ maxCredentialsLen < name.length then -2
  else if users.length < maxUsers then 0
  else -1

/-- What a command performs. -/
def Command.outcome (g : Globals) : Command → Performed
  | .metrics => .metrics
  | .addUser name pass => .addUser (cString name) (cString pass)
      (addUserResult (cString name) (cString pass) g.parameters.users)
  | .listUsers => .listUsers
  | .changeBufferSize digits => .changeBufferSize (cString digits)
      (setBuffSize ((cString digits).foldl nextSize 0) g.bufferSize).1

/-- The text that answers a command. -/
def Performed.answer (g : Globals) : Performed → List UInt8
  | .metrics => metricsText g.metrics
  | .addUser _ _ ret => createUserText ret
  | .listUsers => g.parameters.users.flatMap userLine
  | .changeBufferSize _ ret => changeBufferSizeText ret

/-- The command that has been performed. -/
def Performed.command : Performed → Command
  | .metrics => .metrics
  | .addUser name pass _ => .addUser name pass
  | .listUsers => .listUsers
  | .changeBufferSize digits _ => .changeBufferSize digits

/-- A command whose arguments are cut at the first NUL. -/
def Command.asStrings : Command → Command
  | .addUser name pass => .addUser (cString name) (cString pass)
  | .changeBufferSize digits => .changeBufferSize (cString digits)
  | command => command

theorem Command.outcome_command (q : Command) (g : Globals) :
    (q.outcome g).command = q.asStrings := by
  cases q <;> rfl

/-! ## Numbers -/

theorem length_decimal_le {n : ℤ} (h : n.natAbs < 10 ^ 19) :
    (decimal n).length ≤ 20 := by
  have hdigits : (Nat.toDigits 10 n.natAbs).length ≤ 19 :=
    (Nat.length_toDigits_le_iff (by omega) (by omega)).mpr h
  rw [decimal, List.length_append, List.length_map]
  split
  · rw [List.length_singleton]
    omega
  · rw [List.length_nil]
    omega

theorem zero_not_mem_decimal (n : ℤ) : 0 ∉ decimal n := by
  rw [decimal, List.mem_append, not_or]
  constructor
  · split <;> simp
  · rw [List.mem_map]
    rintro ⟨c, hc, hzero⟩
    have hdigit := Nat.isDigit_of_mem_toDigits (by omega) (by omega) hc
    have hrange : 48 ≤ c.toNat ∧ c.toNat ≤ 57 := by
      simp only [Char.isDigit, ge_iff_le, Bool.and_eq_true,
        decide_eq_true_eq] at hdigit
      exact ⟨UInt32.le_iff_toNat_le.mp hdigit.1,
        UInt32.le_iff_toNat_le.mp hdigit.2⟩
    have hval : (UInt8.ofNat c.toNat).toNat = c.toNat := by
      rw [UInt8.toNat_ofNat']
      omega
    rw [hzero] at hval
    have hnat : (0 : UInt8).toNat = 0 := rfl
    omega

/-! ## Texts in blocks -/

/-- A block that holds a text and its terminator. -/
def HoldsText (aux : Option Block) (text : List UInt8) : Prop :=
  ∃ b, aux = some b ∧ text ++ [0] <+: b

theorem HoldsText.strlen {aux : Option Block} {text : List UInt8}
    (h : HoldsText aux text) (hzero : 0 ∉ text) :
    Socksv5.strlen aux = .ok text.length := by
  obtain ⟨b, rfl, hpre⟩ := h
  rw [strlen_of_mem (hpre.subset (by simp)), cString_of_terminated hpre,
    cString_eq_self hzero]

/-- The text is copied with its terminator. -/
theorem HoldsText.copyAnswer {aux : Option Block} {text : List UInt8}
    (h : HoldsText aux text) (hzero : 0 ∉ text) (b : Buffer) :
    Socksv5.copyAnswer b aux = b.store (text ++ [0]) := by
  have hlen := h.strlen hzero
  obtain ⟨block, rfl, hpre⟩ := h
  rw [Socksv5.copyAnswer, hlen, ok_bind, Option.getD_some]
  have htake := List.prefix_iff_eq_take.mp hpre
  rw [List.length_append, List.length_singleton] at htake
  rw [← htake]

/-- A text is printed at the end of another one. -/
theorem HoldsText.sprintf {block : Block} {text more : List UInt8}
    (h : text <+: block) (hroom : text.length + more.length < block.length) :
    ∃ aux, Socksv5.sprintf (some block) text.length more = .ok aux ∧
      HoldsText aux (text ++ more) := by
  refine ⟨_, if_pos hroom, _, rfl, ?_⟩
  rw [← List.prefix_iff_eq_take.mp h]
  refine ⟨block.drop (text.length + more.length + 1), ?_⟩
  simp

theorem exists_store {b : Buffer} {bs : List UInt8} (h : bs.length ≤ b.room) :
    ∃ b', b.store bs = .ok b' :=
  ⟨_, if_pos h⟩

/-- A text that is printed into a block and copied from it. -/
theorem exists_printed {block : Block} {text : List UInt8} (b : Buffer)
    (hzero : 0 ∉ text) (hblock : text.length < block.length) :
    ∃ aux, sprintf (some block) 0 text = .ok aux ∧
      copyAnswer b aux = b.store (text ++ [0]) ∧ HoldsText aux text := by
  have hlen : ([] : List UInt8).length + text.length < block.length := by
    rw [List.length_nil]
    omega
  obtain ⟨aux, hprint, hholds⟩ := HoldsText.sprintf List.nil_prefix hlen
  rw [List.nil_append] at hholds
  exact ⟨aux, hprint, hholds.copyAnswer hzero b, hholds⟩

/-- The same, where the text fits. -/
theorem exists_textAnswer {block : Block} {text : List UInt8} {b : Buffer}
    (hzero : 0 ∉ text) (hblock : text.length < block.length)
    (hroom : text.length < b.room) :
    ∃ aux b', sprintf (some block) 0 text = .ok aux ∧
      copyAnswer b aux = .ok b' ∧ b.store (text ++ [0]) = .ok b' ∧
      HoldsText aux text := by
  obtain ⟨aux, hprint, hcopy, hholds⟩ := exists_printed b hzero hblock
  have hfits : (text ++ [0]).length ≤ b.room := by
    rw [List.length_append, List.length_singleton]
    omega
  obtain ⟨b', hstore⟩ := exists_store hfits
  exact ⟨aux, b', hprint, hcopy.trans hstore, hstore, hholds⟩

theorem zero_not_mem_userLine (u : User) : 0 ∉ userLine u := by
  simp only [userLine, List.mem_append, not_or]
  refine ⟨⟨⟨⟨?_, zero_not_mem_cString _⟩, ?_⟩, zero_not_mem_cString _⟩, ?_⟩ <;>
    decide

theorem length_userLine (u : User) : (userLine u).length =
    24 + (cString u.name).length + (cString u.pass).length := by
  have h₁ : (ascii "username: ").length = 10 := by decide
  have h₂ : (ascii " - password: ").length = 13 := by decide
  have h₃ : (ascii "\n").length = 1 := by decide
  simp only [userLine, List.length_append, h₁, h₂, h₃]
  omega

/-- The first of the coming calls of `malloc` succeeds. -/
theorem malloc_of_not_mem {m : Mallocs} {k : ℕ} (h : none ∉ m.take (k + 1))
    (n : ℕ) : none ∉ (malloc n m).2.take k ∧
      ∃ block, (malloc n m).1 = some block ∧ block.length = n := by
  rcases m with - | ⟨contents | contents, m⟩
  · rw [List.take_nil] at h
    refine ⟨?_, _, rfl, List.length_replicate⟩
    rw [malloc, List.take_nil]
    exact h
  · exact absurd List.mem_cons_self h
  · refine ⟨fun hmem => h (List.mem_cons_of_mem _ hmem), _, rfl, ?_⟩
    rw [List.length_map, List.length_range]

/-- A block that is allocated again holds the text that it held, when it is
long enough. -/
theorem HoldsText.realloc {aux : Option Block} {text : List UInt8}
    (h : HoldsText aux text) {n : ℕ} (hn : text.length < n) {m : Mallocs}
    {k : ℕ} (hm : none ∉ m.take (k + 1)) :
    ∃ block, (Socksv5.realloc aux n m).1 = some block ∧ block.length = n ∧
      text ++ [0] <+: block ∧
      none ∉ (Socksv5.realloc aux n m).2.take k := by
  obtain ⟨old, rfl, rest, rfl⟩ := h
  obtain ⟨hm', fresh, hfresh, hlen⟩ := malloc_of_not_mem hm n
  have hsome : (Socksv5.realloc (some (text ++ [0] ++ rest)) n m).1 =
      some ((text ++ [0] ++ rest).take n ++
        fresh.drop ((text ++ [0] ++ rest).take n).length) := by
    simp only [Socksv5.realloc, hfresh, Option.getD_some, Option.map_some]
  refine ⟨_, hsome, length_realloc hsome, ?_, hm'⟩
  have hpre : text ++ [0] <+: (text ++ [0] ++ rest).take n := by
    rw [List.prefix_take_iff]
    refine ⟨List.prefix_append _ _, ?_⟩
    rw [List.length_append, List.length_singleton]
    omega
  exact hpre.trans (List.prefix_append _ _)

/-- The users are listed line by line. -/
theorem loadUsersLoop_spec {us : List User} {aux : Option Block}
    {text : List UInt8} {m : Mallocs} (h : HoldsText aux text)
    (hzero : 0 ∉ text) (hm : none ∉ m.take us.length)
    (hus : ∀ u ∈ us, 0 ∈ u.name ∧ 0 ∈ u.pass) :
    ∃ aux', loadUsersLoop us aux m = .ok aux' ∧
      HoldsText aux' (text ++ us.flatMap userLine) := by
  induction us generalizing aux text m with
  | nil => exact ⟨aux, rfl, by simpa using h⟩
  | cons u us ih =>
      obtain ⟨hname, hpass⟩ := hus u List.mem_cons_self
      have hline := length_userLine u
      have hroom : text.length < text.length +
          (25 + (cString u.name).length + (cString u.pass).length) := by
        omega
      obtain ⟨block, hblock, hlen, hpre, hm'⟩ := h.realloc hroom hm
      have hstrlen := HoldsText.strlen ⟨block, rfl, hpre⟩ hzero
      have hfits : text.length + (userLine u).length < block.length := by
        omega
      obtain ⟨aux₁, hprint, hholds⟩ :=
        HoldsText.sprintf ((List.prefix_append _ _).trans hpre) hfits
      have hzero₁ : 0 ∉ text ++ userLine u := by
        rw [List.mem_append, not_or]
        exact ⟨hzero, zero_not_mem_userLine u⟩
      obtain ⟨aux', hloop, hholds'⟩ := ih hholds hzero₁ hm' fun v hv =>
        hus v (List.mem_cons_of_mem _ hv)
      refine ⟨aux', ?_, ?_⟩
      · simp only [loadUsersLoop, strlen_of_mem hname, strlen_of_mem hpass,
          ok_bind, h.strlen hzero, hblock, hstrlen, hprint]
        exact hloop
      · rw [List.flatMap_cons, ← List.append_assoc]
        exact hholds'

/-- `load_users` prints the list and stores it as far as the buffer has room for
it. -/
theorem exists_loadUsers {parameters : Parameters} {block : Block}
    {m : Mallocs} (b : Buffer) (hblock : 0 < block.length)
    (hm : none ∉ m.take parameters.users.length)
    (hus : ∀ u ∈ parameters.users, 0 ∈ u.name ∧ 0 ∈ u.pass) :
    ∃ aux, loadUsers parameters b (some block) m =
        (b.store (parameters.users.flatMap userLine ++ [0]) >>= fun b' =>
          .ok (b', aux)) ∧
      HoldsText aux (parameters.users.flatMap userLine) := by
  have hput : putByte (some block) 0 0 = .ok (some (block.set 0 0)) :=
    if_pos hblock
  have hempty : HoldsText (some (block.set 0 0)) [] := by
    cases block with
    | nil => cases hblock
    | cons c cs => exact ⟨_, rfl, cs, rfl⟩
  obtain ⟨aux, hloop, hholds⟩ :=
    loadUsersLoop_spec hempty List.not_mem_nil hm hus
  rw [List.nil_append] at hholds
  have hzero : 0 ∉ parameters.users.flatMap userLine := by
    rw [List.mem_flatMap]
    rintro ⟨u, -, hu⟩
    exact zero_not_mem_userLine u hu
  refine ⟨aux, ?_, hholds⟩
  rw [loadUsers, hput, ok_bind, hloop, ok_bind, hholds.copyAnswer hzero]

/-! ## The answers fit -/

theorem asSigned_natAbs_lt {n : ℕ} (h : n < 18446744073709551616) :
    (asSigned n).natAbs < 10 ^ 19 := by
  unfold asSigned
  split <;> omega

theorem zero_not_mem_metricsText (m : Metrics) : 0 ∉ metricsText m := by
  simp only [metricsText, List.mem_append, not_or]
  refine ⟨⟨⟨⟨⟨⟨?_, zero_not_mem_decimal _⟩, ?_⟩, zero_not_mem_decimal _⟩, ?_⟩,
    zero_not_mem_decimal _⟩, ?_⟩ <;> decide

theorem Globals.Valid.length_metricsText {g : Globals} (h : g.Valid) :
    (metricsText g.metrics).length < answerLen := by
  have hhistorical : g.metrics.historicalConnections.natAbs < 10 ^ 19 := by
    have hge := h.historical_ge
    have hlt := h.historical_lt
    omega
  have hconcurrent : g.metrics.getConcurrentConnections.natAbs < 10 ^ 19 := by
    unfold Metrics.getConcurrentConnections
    omega
  have h₁ := length_decimal_le hhistorical
  have h₂ := length_decimal_le hconcurrent
  have h₃ := length_decimal_le (asSigned_natAbs_lt h.total_lt)
  have hs₁ : (ascii "\nHistorical connections: ").length = 25 := by decide
  have hs₂ : (ascii "\nConcurrent connections: ").length = 25 := by decide
  have hs₃ : (ascii "\nTotal bytes transfered: ").length = 25 := by decide
  have hs₄ : (ascii "\n").length = 1 := by decide
  simp only [metricsText, List.length_append, hs₁, hs₂, hs₃, hs₄, answerLen]
  omega

theorem createUserText_spec (ret : ℤ) :
    0 ∉ createUserText ret ∧ (createUserText ret).length < answerLen := by
  unfold createUserText
  split_ifs <;> decide

theorem changeBufferSizeText_spec (ret : ℤ) :
    0 ∉ changeBufferSizeText ret ∧
      (changeBufferSizeText ret).length < answerLen := by
  unfold changeBufferSizeText
  split_ifs <;> decide

theorem invalidText_spec : 0 ∉ invalidText ∧ invalidText.length < answerLen := by
  decide

/-- The list of the users is never longer than this. -/
theorem Globals.Valid.length_users {g : Globals} (h : g.Valid) :
    (g.parameters.users.flatMap userLine).length ≤ 1240 := by
  have hline : ∀ us : List User,
      (∀ u ∈ us, IsCredential u.name ∧ IsCredential u.pass) →
        (us.flatMap userLine).length ≤ us.length * 124 := by
    intro us
    induction us with
    | nil =>
        intro _
        exact Nat.zero_le _
    | cons u us ih =>
        intro hus
        have hrest := ih fun v hv => hus v (List.mem_cons_of_mem _ hv)
        obtain ⟨⟨-, hname⟩, -, hpass⟩ := hus u List.mem_cons_self
        have hlen := length_userLine u
        rw [List.flatMap_cons, List.length_append, List.length_cons]
        unfold maxCredentialsLen at hname hpass
        omega
  have hlen := hline _ h.credentials
  have hmax := h.users_le
  unfold maxUsers at hmax
  omega

theorem Globals.Valid.zero_not_mem_answer {g : Globals} (q : Performed) :
    0 ∉ q.answer g := by
  cases q with
  | metrics => exact zero_not_mem_metricsText _
  | addUser name pass ret => exact (createUserText_spec ret).1
  | listUsers =>
      rw [Performed.answer, List.mem_flatMap]
      rintro ⟨u, -, hu⟩
      exact zero_not_mem_userLine u hu
  | changeBufferSize digits ret => exact (changeBufferSizeText_spec ret).1

theorem Globals.Valid.length_answer {g : Globals} (h : g.Valid)
    (q : Performed) : (q.answer g).length ≤ 1240 := by
  cases q with
  | metrics =>
      have hlen := h.length_metricsText
      unfold answerLen at hlen
      exact hlen.le.trans (by omega)
  | addUser name pass ret =>
      have hlen := (createUserText_spec ret).2
      unfold answerLen at hlen
      exact hlen.le.trans (by omega)
  | listUsers => exact h.length_users
  | changeBufferSize digits ret =>
      have hlen := (changeBufferSizeText_spec ret).2
      unfold answerLen at hlen
      exact hlen.le.trans (by omega)

/-! ## Performing a command -/

theorem ArgHeld.string {n : ℕ} {block : Option Block} {xs : List UInt8}
    (h : ArgHeld n block (xs ++ [0])) :
    ∃ b, block = some b ∧ 0 ∈ b ∧ cString b = cString xs := by
  obtain ⟨b, rfl, -, hpre⟩ := h
  exact ⟨b, rfl, hpre.subset (by simp), cString_of_terminated hpre⟩

/-- `add_user` for two strings. -/
theorem addUser_spec {name pass : Block} {parameters : Parameters}
    (hname : 0 ∈ name) (hpass : 0 ∈ pass) :
    addUser (some name) (some pass) parameters =
      .ok (addUserResult (cString name) (cString pass) parameters.users,
        if addUserResult (cString name) (cString pass) parameters.users = 0 then
          { parameters with users := parameters.users ++ [⟨name, pass⟩] }
        else parameters) := by
  unfold addUser addUserResult
  rw [strlen_of_mem hname, strlen_of_mem hpass, ok_bind]
  by_cases hlongPass : maxCredentialsLen < (cString pass).length
  · rw [if_pos hlongPass, if_pos (.inl hlongPass), if_neg (by decide)]
  · rw [if_neg hlongPass, ok_bind]
    by_cases hlongName : maxCredentialsLen < (cString name).length
    · rw [if_pos hlongName, if_pos (.inr hlongName), if_neg (by decide)]
    · rw [if_neg hlongName, if_neg (not_or.mpr ⟨hlongPass, hlongName⟩)]
      by_cases hroom : parameters.users.length < maxUsers
      · rw [if_pos hroom, if_pos hroom, if_pos rfl]
      · rw [if_neg hroom, if_neg hroom, if_neg (by decide)]

theorem addUserResult_eq_zero {name pass : List UInt8} {users : List User}
    (h : addUserResult name pass users = 0) :
    name.length ≤ maxCredentialsLen ∧ pass.length ≤ maxCredentialsLen ∧
      users.length < maxUsers := by
  unfold addUserResult at h
  split_ifs at h with hlong hroom
  · rw [not_or, Nat.not_lt, Nat.not_lt] at hlong
    exact ⟨hlong.2, hlong.1, hroom⟩

/-- The table stays as the server keeps it. -/
theorem Globals.Valid.addUser {g : Globals} {name pass : Block}
    {parameters : Parameters} {ret : ℤ} (h : g.Valid) (hname : 0 ∈ name)
    (hpass : 0 ∈ pass) (hadd : Socksv5.addUser (some name) (some pass)
      g.parameters = .ok (ret, parameters)) :
    Globals.Valid { g with parameters := parameters } := by
  rw [addUser_spec hname hpass] at hadd
  cases hadd
  split
  case isTrue hzero =>
    obtain ⟨hn, hp, hroom⟩ := addUserResult_eq_zero hzero
    refine ⟨h.historical_ge, h.historical_lt, h.total_lt, ?_, ?_⟩
    · simpa [Nat.succ_le_iff] using hroom
    · intro u hu
      rcases List.mem_append.mp hu with hu | hu
      · exact h.credentials u hu
      · rw [List.mem_singleton] at hu
        rw [hu]
        exact ⟨⟨hname, hn⟩, hpass, hp⟩
  case isFalse => exact h

variable {b : Buffer} {p : ReqParser} {g : Globals} {m : Mallocs}

/-- The command that the parser carries is performed, and answered. -/
theorem ReqParser.Carries.exists_performCommand {q : Command}
    {block : Block} (hp : p.Carries q) (hstate : p.state ≠ .invalidCmd)
    (hg : g.Valid) (hm : Available m) (hblock : block.length = answerLen)
    (hroom : ((q.outcome g).answer g).length < b.room) :
    ∃ b' aux g', performCommand b p g (some block) m =
        .ok (b', aux, g', some (q.outcome g)) ∧
      b.store ((q.outcome g).answer g ++ [0]) = .ok b' ∧
      HoldsText aux ((q.outcome g).answer g) ∧ g'.Valid ∧
      g'.metrics = g.metrics := by
  unfold performCommand
  rw [if_neg hstate]
  cases q with
  | metrics =>
      have hcmd : p.cmdSelected = 49 := hp
      have hlen : (metricsText g.metrics).length < block.length := by
        rw [hblock]
        exact hg.length_metricsText
      obtain ⟨aux, b', hprint, hcopy, hstore, hholds⟩ :=
        exists_textAnswer (zero_not_mem_metricsText g.metrics) hlen hroom
      refine ⟨b', aux, g, ?_, hstore, hholds, hg, rfl⟩
      rw [if_pos hcmd, loadMetrics, hprint, ok_bind, hcopy]
      rfl
  | addUser name pass =>
      obtain ⟨hcmd, huser, hpassword⟩ := hp
      obtain ⟨n, hn, hn₀, hnstr⟩ := huser.string
      obtain ⟨w, hw, hw₀, hwstr⟩ := hpassword.string
      have hadd : Socksv5.addUser (some n) (some w) g.parameters = _ :=
        addUser_spec hn₀ hw₀
      obtain ⟨hzero, hlen⟩ := createUserText_spec
        (addUserResult (cString n) (cString w) g.parameters.users)
      rw [← hblock] at hlen
      have hroom' : (createUserText (addUserResult (cString n) (cString w)
          g.parameters.users)).length < b.room := by
        rw [hnstr, hwstr]
        exact hroom
      obtain ⟨aux, b', hprint, hcopy, hstore, hholds⟩ :=
        exists_textAnswer hzero hlen hroom'
      have h49 : p.cmdSelected ≠ 49 := by
        rw [hcmd]
        decide
      rw [if_neg h49, if_pos hcmd, createUser, hn, hw, hadd, ok_bind]
      dsimp only
      rw [hprint, ok_bind, hcopy]
      rw [hnstr, hwstr] at hstore hholds
      refine ⟨b', aux, _, ?_, hstore, hholds, hg.addUser hn₀ hw₀ hadd, rfl⟩
      rw [Command.outcome, ← hnstr, ← hwstr]
      rfl
  | listUsers =>
      have hcmd : p.cmdSelected = 51 := hp
      have hpos : 0 < block.length := by
        rw [hblock]
        decide
      obtain ⟨aux, hload, hholds⟩ := exists_loadUsers b hpos
        (fun hmem => hm (List.mem_of_mem_take hmem))
        fun u hu => ⟨(hg.credentials u hu).1.1, (hg.credentials u hu).2.1⟩
      have hfits : (g.parameters.users.flatMap userLine ++ [0]).length ≤
          b.room := by
        rw [List.length_append, List.length_singleton]
        exact hroom
      obtain ⟨b', hstore⟩ := exists_store hfits
      refine ⟨b', aux, g, ?_, hstore, hholds, hg, rfl⟩
      have h49 : p.cmdSelected ≠ 49 := by
        rw [hcmd]
        decide
      have h50 : p.cmdSelected ≠ 50 := by
        rw [hcmd]
        decide
      rw [if_neg h49, if_neg h50, if_pos hcmd, hload, hstore]
      rfl
  | changeBufferSize digits =>
      obtain ⟨hcmd, hsize⟩ := hp
      obtain ⟨d, hd, hd₀, hdstr⟩ := hsize.string
      have hchange : changeBufferSize (some d) g.bufferSize =
          .ok (setBuffSize ((cString d).foldl nextSize 0) g.bufferSize) := by
        have htake : d.take (cString d).length = cString d :=
          (List.prefix_iff_eq_take.mp (List.takeWhile_prefix _)).symm
        rw [changeBufferSize, strlen_of_mem hd₀, ok_bind, Option.getD_some, htake]
      obtain ⟨hzero, hlen⟩ := changeBufferSizeText_spec
        (setBuffSize ((cString d).foldl nextSize 0) g.bufferSize).1
      rw [← hblock] at hlen
      have hroom' : (changeBufferSizeText (setBuffSize
          ((cString d).foldl nextSize 0) g.bufferSize).1).length < b.room := by
        rw [hdstr]
        exact hroom
      obtain ⟨aux, b', hprint, hcopy, hstore, hholds⟩ :=
        exists_textAnswer hzero hlen hroom'
      have hcmd' : p.cmdSelected ≠ 49 ∧ p.cmdSelected ≠ 50 ∧
          p.cmdSelected ≠ 51 := by
        rw [hcmd]
        decide
      rw [if_neg hcmd'.1, if_neg hcmd'.2.1, if_neg hcmd'.2.2, if_pos hcmd, hd,
        hchange, ok_bind]
      dsimp only
      rw [hprint, ok_bind, hcopy]
      rw [hdstr] at hstore hholds
      have hg' : Globals.Valid { g with bufferSize :=
          (setBuffSize ((cString d).foldl nextSize 0) g.bufferSize).2 } :=
        ⟨hg.historical_ge, hg.historical_lt, hg.total_lt, hg.users_le,
          hg.credentials⟩
      refine ⟨b', aux, _, ?_, hstore, hholds, hg', rfl⟩
      rw [Command.outcome, ← hdstr]
      rfl

/-- Storing an answer and advancing over it. -/
theorem store_writeAdv {b b' : Buffer} {text : List UInt8}
    (h : b.store (text ++ [0]) = .ok b') :
    b'.writeAdv (text.length + 1) = b.put (text ++ [0]) := by
  rw [Buffer.put, h, ok_bind, List.length_append, List.length_singleton]
  rfl

/-- An answer that has been stored is in the write buffer afterwards, and the
parser is reset. -/
theorem adminReqFillMsg_of_performed {b₁ : Buffer} {aux block : Option Block}
    {m' : Mallocs} {text : List UInt8} {performed : Option Performed}
    {g' : Globals} (hmalloc : malloc answerLen m = (block, m'))
    (hperform : performCommand b p g block m' = .ok (b₁, aux, g', performed))
    (hstore : b.store (text ++ [0]) = .ok b₁) (hholds : HoldsText aux text)
    (hzero : 0 ∉ text) (hroom : text.length < b.room) :
    ∃ b', adminReqFillMsg b p g m =
        .ok (b', adminReqParserInit p, g', performed) ∧
      b.put (text ++ [0]) = .ok b' := by
  have hfits : (text ++ [0]).length ≤ b.room := by
    rw [List.length_append, List.length_singleton]
    exact hroom
  obtain ⟨b', hput⟩ := Buffer.exists_put hfits
  refine ⟨b', ?_, hput⟩
  unfold adminReqFillMsg
  rw [if_neg (by omega), hmalloc]
  dsimp only
  rw [hperform, ok_bind]
  dsimp only
  rw [hholds.strlen hzero, ok_bind, store_writeAdv hstore, hput]
  rfl

/-- A command that has been parsed completely is performed and answered. -/
theorem ReqParser.Carries.exists_fill {q : Command} (hp : p.Carries q)
    (hstate : p.state ≠ .invalidCmd) (hg : g.Valid) (hm : Available m)
    (hroom : ((q.outcome g).answer g).length < b.room) :
    ∃ b' g', adminReqFillMsg b p g m =
        .ok (b', adminReqParserInit p, g', some (q.outcome g)) ∧
      b.put ((q.outcome g).answer g ++ [0]) = .ok b' ∧ g'.Valid ∧
      g'.metrics = g.metrics := by
  obtain ⟨hm', block, hblock, hlen, -⟩ := hm.malloc answerLen
  obtain ⟨b₁, aux, g', hperform, hstore, hholds, hg', hmetrics⟩ :=
    hp.exists_performCommand hstate hg hm' hlen hroom
  have hmalloc : malloc answerLen m = (some block, (malloc answerLen m).2) := by
    rw [← hblock]
  obtain ⟨b', hfill, hput⟩ := adminReqFillMsg_of_performed hmalloc hperform hstore
    hholds (Globals.Valid.zero_not_mem_answer _) hroom
  exact ⟨b', g', hfill, hput, hg', hmetrics⟩

/-- An invalid command is answered, and nothing is performed. -/
theorem exists_fill_of_invalid (hstate : p.state = .invalidCmd)
    (hm : Available m) (hroom : invalidText.length < b.room) :
    ∃ b', adminReqFillMsg b p g m =
        .ok (b', adminReqParserInit p, g, none) ∧
      b.put (invalidText ++ [0]) = .ok b' := by
  obtain ⟨hm', block, hblock, hlen, -⟩ := hm.malloc answerLen
  have hmalloc : malloc answerLen m = (some block, (malloc answerLen m).2) := by
    rw [← hblock]
  obtain ⟨hzero, hshort⟩ := invalidText_spec
  rw [← hlen] at hshort
  obtain ⟨aux, b₁, hprint, hcopy, hstore, hholds⟩ :=
    exists_textAnswer hzero hshort hroom
  have hperform : performCommand b p g (some block) (malloc answerLen m).2 =
      .ok (b₁, aux, g, none) := by
    rw [performCommand, if_pos hstate, hprint, ok_bind, hcopy]
    rfl
  exact adminReqFillMsg_of_performed hmalloc hperform hstore hholds hzero hroom

/-- Whatever the state of the parser, if it is not that of an invalid command:
the command that has been selected is performed. -/
theorem performed_ne_none {b' : Buffer} {p' : ReqParser} {g' : Globals}
    {performed : Option Performed} (hroom : 0 < b.room)
    (hstate : p.state ≠ .invalidCmd)
    (hcmd : p.cmdSelected = 49 ∨ p.cmdSelected = 50 ∨ p.cmdSelected = 51 ∨
      p.cmdSelected = 52)
    (h : adminReqFillMsg b p g m = .ok (b', p', g', performed)) :
    p' = adminReqParserInit p ∧ performed ≠ none := by
  unfold adminReqFillMsg at h
  rw [if_neg (by omega)] at h
  obtain ⟨⟨b₁, aux, g₁, performed₁⟩, hperform, h⟩ := bind_eq_ok.mp h
  obtain ⟨n, -, h⟩ := bind_eq_ok.mp h
  obtain ⟨b₂, -, h⟩ := bind_eq_ok.mp h
  cases h
  refine ⟨rfl, ?_⟩
  rw [performCommand, if_neg hstate] at hperform
  rcases hcmd with hcmd | hcmd | hcmd | hcmd
  · rw [hcmd, if_pos rfl] at hperform
    obtain ⟨r, -, heq⟩ := bind_eq_ok.mp hperform
    cases heq
    exact Option.some_ne_none _
  · rw [hcmd, if_neg (by decide), if_pos rfl] at hperform
    obtain ⟨r, -, hperform⟩ := bind_eq_ok.mp hperform
    obtain ⟨aux₁, -, hperform⟩ := bind_eq_ok.mp hperform
    obtain ⟨b₃, -, heq⟩ := bind_eq_ok.mp hperform
    cases heq
    exact Option.some_ne_none _
  · rw [hcmd, if_neg (by decide), if_neg (by decide), if_pos rfl] at hperform
    obtain ⟨r, -, heq⟩ := bind_eq_ok.mp hperform
    cases heq
    exact Option.some_ne_none _
  · rw [hcmd, if_neg (by decide), if_neg (by decide), if_neg (by decide),
      if_pos rfl] at hperform
    obtain ⟨r, -, hperform⟩ := bind_eq_ok.mp hperform
    obtain ⟨aux₁, -, hperform⟩ := bind_eq_ok.mp hperform
    obtain ⟨b₃, -, heq⟩ := bind_eq_ok.mp hperform
    cases heq
    exact Option.some_ne_none _

end Socksv5
