import Socksv5.Client.Credentials

/-!
# The stores of the client's login

What `main` of `client.c` does with the line that is typed, with every store into
its array: the line is read into `auth_input`, split into `usr` and `pwd`, and
encoded in `credentials`.  The bound on the line is that of the first array, and
leaves out what the last one holds besides: two lengths and the newline.
-/

namespace Socksv5

open Support

/-- The loop of `main` that reads the line, from what is typed.  When nothing more
is, `getchar` gives the character 255 for ever, until the line is too long. -/
def readLineLoop (authInput : Option Block) (authIndex : ℕ) :
    List UInt8 → Except Fault (Option Block × ℕ)
  | [] => do
      if authIndex < credentialsLen then
        let _ ← putByte authInput authIndex 255
        .error .exit
      else .error .exit
  | cc :: typed =>
      if cc = 10 then .ok (authInput, authIndex)
      else if credentialsLen ≤ authIndex then .error .exit
      else do
        let authInput ← putByte authInput authIndex cc
        readLineLoop authInput (authIndex + 1) typed

/-- The line in `auth_input`, with its newline and a terminator. -/
def readLine (typed : List UInt8) (authInput : Option Block) :
    Except Fault (Option Block) := do
  let (authInput, authIndex) ← readLineLoop authInput 0 typed
  let authInput ← putByte authInput authIndex 10
  putByte authInput (authIndex + 1) 0

/-- `strlen`, where it may go on after an array that is full, to find a terminator
`past` characters after its end. -/
def strlenPast (past : ℕ) : Option Block → Except Fault ℕ
  | none => .error .nullDereference
  | some block =>
      if 0 ∈ block then .ok (cString block).length
      else .ok (block.length + past)

/-- The encoding of `usr` and `pwd` in `credentials`: the bytes that are sent. -/
def encodeCredentials (usr pwd credentials : Option Block) (past : ℕ) :
    Except Fault (List UInt8) := do
  let usrLen ← strlenPast past usr
  let credentials ← putByte credentials 0 (UInt8.ofNat usrLen)
  if usrLen = 0 then .error .exit
  else do
    let pwdLen ← strlenPast past pwd
    if pwdLen = 0 then .error .exit
    else do
      let credentials ← copyBytes credentials 1 ((usr.getD []).take usrLen)
      let toSendIndex := 1 + usrLen
      let credentials ←
        putByte credentials toSendIndex (UInt8.ofInt ((pwdLen : ℤ) - 1))
      let toSendIndex := toSendIndex + 1
      let credentials ←
        copyBytes credentials toSendIndex ((pwd.getD []).take pwdLen)
      .ok ((credentials.getD []).take (toSendIndex + pwdLen))

/-- The login of `main`, from what is typed to the bytes that are sent. -/
def clientLogin (typed : List UInt8) (past : ℕ) (m : Mallocs) :
    Except Fault (List UInt8) := do
  let (authInput, m) := malloc (credentialsLen + 2) m
  let authInput ← readLine typed authInput
  let (_, usr, pwd) ←
    splitstr (cString (authInput.getD [])) 58 clearCredentials clearCredentials
  let (credentials, _) := malloc credentialsLen m
  encodeCredentials usr pwd credentials past

/-- No store was outside its array. -/
def StoresWithin (r : Except Fault (List UInt8)) : Prop :=
  r ≠ .error .outOfBounds ∧ r ≠ .error .nullDereference

/-- The login does not store outside the array for the credentials: something ends
it before, or what is to be sent fits. -/
def LoginFits (line : List UInt8) : Prop :=
  0 ∈ line ∨ line.length ≤ 98 ∨ line.head? = some 58 ∨
    58 ∉ line ∧ line.length = 99

instance (line : List UInt8) : Decidable (LoginFits line) :=
  inferInstanceAs (Decidable (_ ∨ _))

/-! ## Reading the line -/

theorem readLineLoop_line {line rest junk : List UInt8} (pre : List UInt8)
    (hline : 10 ∉ line) (hlen : pre.length + line.length ≤ credentialsLen)
    (hjunk : line.length ≤ junk.length) :
    readLineLoop (some (pre ++ junk)) pre.length (line ++ 10 :: rest) =
      .ok (some (pre ++ line ++ junk.drop line.length), (pre ++ line).length) := by
  induction line generalizing pre junk with
  | nil => simp [readLineLoop]
  | cons c cs ih =>
      rw [List.mem_cons, not_or] at hline
      cases junk with
      | nil => simp at hjunk
      | cons d junk =>
          have hindex : ¬ credentialsLen ≤ pre.length := by
            rw [List.length_cons] at hlen
            omega
          have hcount : (pre ++ [c]).length = pre.length + 1 := by simp
          rw [List.cons_append, readLineLoop, if_neg (Ne.symm hline.1),
            if_neg hindex, putByte_append, ok_bind, ← hcount, List.append_cons,
            ih (pre ++ [c]) hline.2 ?_ (by simpa using hjunk)]
          · simp
          · rw [hcount]
            rw [List.length_cons] at hlen
            omega

/-- A line that is too long ends the program. -/
theorem readLineLoop_long {line rest junk : List UInt8} (pre : List UInt8)
    (hline : 10 ∉ line) (hpre : pre.length ≤ credentialsLen)
    (hlen : credentialsLen < pre.length + line.length)
    (hjunk : credentialsLen ≤ pre.length + junk.length) :
    readLineLoop (some (pre ++ junk)) pre.length (line ++ 10 :: rest) =
      .error .exit := by
  induction line generalizing pre junk with
  | nil =>
      rw [List.length_nil] at hlen
      omega
  | cons c cs ih =>
      rw [List.mem_cons, not_or] at hline
      rw [List.cons_append, readLineLoop, if_neg (Ne.symm hline.1)]
      by_cases hindex : credentialsLen ≤ pre.length
      · rw [if_pos hindex]
      · cases junk with
        | nil =>
            rw [List.length_nil] at hjunk
            omega
        | cons d junk =>
            have hcount : (pre ++ [c]).length = pre.length + 1 := by simp
            rw [List.length_cons] at hlen hjunk
            rw [if_neg hindex, putByte_append, ok_bind, ← hcount,
              List.append_cons]
            exact ih (pre ++ [c]) hline.2 (by omega) (by omega) (by omega)

/-- The line is stored with its newline and its terminator. -/
theorem readLine_line {line rest block : List UInt8} (hline : 10 ∉ line)
    (hlen : line.length ≤ credentialsLen)
    (hblock : block.length = credentialsLen + 2) :
    ∃ tail, readLine (line ++ 10 :: rest) (some block) =
      .ok (some (line ++ [10] ++ [0] ++ tail)) := by
  have hloop : readLineLoop (some ([] ++ block)) ([] : List UInt8).length
      (line ++ 10 :: rest) = _ :=
    readLineLoop_line [] hline (by simpa using hlen) (by omega)
  obtain ⟨a, b, tail, htail⟩ : ∃ a b tail,
      block.drop line.length = a :: b :: tail := by
    have hdrop := List.length_drop (i := line.length) (l := block)
    match h : block.drop line.length with
    | [] | [_] =>
        rw [h] at hdrop
        simp only [List.length_nil, List.length_cons] at hdrop
        omega
    | a :: b :: tail => exact ⟨a, b, tail, rfl⟩
  refine ⟨tail, ?_⟩
  rw [List.length_nil, List.nil_append, List.nil_append, htail] at hloop
  have hcount : (line ++ [10]).length = line.length + 1 := by simp
  rw [readLine, hloop]
  dsimp only [ok_bind]
  rw [putByte_append, ok_bind, ← hcount, List.append_cons, putByte_append,
    List.append_cons]

/-- Without memory for the line there is no store for its first character. -/
theorem readLine_null {line rest : List UInt8} (hline : 10 ∉ line) :
    readLine (line ++ 10 :: rest) none = .error .nullDereference := by
  cases line with
  | nil => rfl
  | cons c cs =>
      rw [List.mem_cons, not_or] at hline
      rw [readLine, List.cons_append, readLineLoop, if_neg (Ne.symm hline.1),
        if_neg (by decide)]
      rfl

theorem readLine_long {line rest block : List UInt8} (hline : 10 ∉ line)
    (hlen : credentialsLen < line.length)
    (hblock : block.length = credentialsLen + 2) :
    readLine (line ++ 10 :: rest) (some block) = .error .exit := by
  have hloop : readLineLoop (some ([] ++ block)) ([] : List UInt8).length
      (line ++ 10 :: rest) = _ :=
    readLineLoop_long [] hline (Nat.zero_le _) (by simpa using hlen)
      (by rw [List.length_nil]; omega)
  rw [List.length_nil, List.nil_append] at hloop
  rw [readLine, hloop]
  rfl

/-- The string that has been read ends at a NUL of the line or with its
newline. -/
theorem lineString_cases (line : List UInt8) :
    (0 ∈ line ∧ (cString (line ++ [10])).length < line.length) ∨
      (0 ∉ line ∧ cString (line ++ [10]) = line ++ [10]) := by
  by_cases hzero : 0 ∈ line
  · left
    refine ⟨hzero, ?_⟩
    obtain ⟨xs, ys, rfl, hnot⟩ := List.eq_append_cons_of_mem hzero
    have hpre : xs ++ [0] <+: xs ++ 0 :: ys ++ [10] := ⟨ys ++ [10], by simp⟩
    rw [cString_of_terminated hpre, cString_eq_self hnot]
    simp
  · right
    refine ⟨hzero, cString_eq_self ?_⟩
    simp [hzero]

/-! ## Splitting it -/

/-- A string that is longer than the first array is stored past its end. -/
theorem splitstrLoop_overflow {delim : UInt8} {xs : List UInt8} {i : ℕ}
    {block : Block} (str2 : Option Block) (hnot : delim ∉ xs)
    (hi : i ≤ block.length) (hlen : block.length < i + xs.length) :
    splitstrLoop delim xs i none (some block) str2 = .error .outOfBounds := by
  induction xs generalizing i block with
  | nil =>
      rw [List.length_nil] at hlen
      omega
  | cons c cs ih =>
      rw [List.mem_cons, not_or] at hnot
      rw [List.length_cons] at hlen
      rw [splitstrLoop, if_neg (Ne.symm hnot.1), putByte]
      by_cases hroom : i < block.length
      · rw [if_pos hroom, ok_bind]
        exact ih hnot.2 (by rw [List.length_set]; omega)
          (by rw [List.length_set]; omega)
      · rw [if_neg hroom]
        rfl

theorem exists_clearCredentials {n : ℕ} (h : n ≤ credentialsLen) :
    ∃ k, clearCredentials = some (List.replicate (n + k) 0) ∧
      n + k = credentialsLen :=
  ⟨credentialsLen - n, by rw [Nat.add_sub_cancel' h]; rfl, Nat.add_sub_cancel' h⟩

/-- A text without a delimiter that `usr` has room for. -/
theorem splitstr_clear_absent {text : List UInt8} (hnot : 58 ∉ text)
    (hlen : text.length ≤ credentialsLen) :
    ∃ k, splitstr text 58 clearCredentials clearCredentials =
      .ok (false, some (text ++ List.replicate k 0), clearCredentials) := by
  obtain ⟨k, hclear, -⟩ := exists_clearCredentials hlen
  refine ⟨k, ?_⟩
  rw [← splitstr_absent clearCredentials k hnot, ← hclear]

/-- A text without a delimiter that is too long for `usr`. -/
theorem splitstr_clear_overflow {text : List UInt8} (hnot : 58 ∉ text)
    (hlen : ¬ text.length ≤ credentialsLen) :
    splitstr text 58 clearCredentials clearCredentials = .error .outOfBounds :=
  splitstrLoop_overflow _ hnot (Nat.zero_le _)
    (by rw [List.length_replicate]; omega)

/-- The two parts of a text with a delimiter, and what is left clear after
them. -/
theorem splitstr_clear_delimited {xs ys : List UInt8} (hnot : 58 ∉ xs)
    (hlen : xs.length + ys.length ≤ credentialsLen) :
    ∃ k₁ k₂, splitstr (xs ++ 58 :: ys) 58 clearCredentials clearCredentials =
        .ok (true, some (xs ++ List.replicate k₁ 0),
          some (ys ++ List.replicate k₂ 0)) ∧
      xs.length + k₁ = credentialsLen ∧ ys.length + k₂ = credentialsLen := by
  have hxlen : xs.length ≤ credentialsLen := by omega
  have hylen : ys.length ≤ credentialsLen := by omega
  obtain ⟨k₁, hclear₁, hk₁⟩ := exists_clearCredentials hxlen
  obtain ⟨k₂, hclear₂, hk₂⟩ := exists_clearCredentials hylen
  refine ⟨k₁, k₂, ?_, hk₁, hk₂⟩
  rw [← splitstr_spec k₁ k₂ hnot, ← hclear₁, ← hclear₂]

/-! ## Encoding it -/

theorem copyBytes_fits {block bs : List UInt8} {i : ℕ}
    (h : i + bs.length ≤ block.length) :
    ∃ block', copyBytes (some block) i bs = .ok (some block') ∧
      block'.length = block.length := by
  induction bs generalizing block i with
  | nil => exact ⟨block, rfl, rfl⟩
  | cons c cs ih =>
      rw [List.length_cons] at h
      have hroom : i < block.length := by omega
      have hrest : i + 1 + cs.length ≤ (block.set i c).length := by
        rw [List.length_set]
        omega
      obtain ⟨block', hcopy, hlen⟩ := ih hrest
      refine ⟨block', ?_, by rw [hlen, List.length_set]⟩
      rw [copyBytes, putByte, if_pos hroom, ok_bind, hcopy]

theorem copyBytes_overflow {block bs : List UInt8} {i : ℕ}
    (hi : i ≤ block.length) (h : block.length < i + bs.length) :
    copyBytes (some block) i bs = .error .outOfBounds := by
  induction bs generalizing block i with
  | nil =>
      rw [List.length_nil] at h
      omega
  | cons c cs ih =>
      rw [List.length_cons] at h
      rw [copyBytes, putByte]
      by_cases hroom : i < block.length
      · rw [if_pos hroom, ok_bind]
        exact ih (by rw [List.length_set]; omega) (by rw [List.length_set]; omega)
      · rw [if_neg hroom]
        rfl

theorem strlenPast_eq {p : Option Block} {n : ℕ} (past : ℕ)
    (h : strlen p = .ok n) : strlenPast past p = .ok n := by
  cases p with
  | none => cases h
  | some block =>
      rw [strlen] at h
      rw [strlenPast]
      split_ifs at h ⊢
      exact h

theorem exists_strlenPast (past : ℕ) (block : Block) :
    ∃ n, strlenPast past (some block) = .ok n := by
  rw [strlenPast]
  split_ifs
  · exact ⟨_, rfl⟩
  · exact ⟨_, rfl⟩

theorem encode_null (usr : Block) (pwd : Option Block) (past : ℕ) :
    encodeCredentials (some usr) pwd none past = .error .nullDereference := by
  obtain ⟨n, hn⟩ := exists_strlenPast past usr
  rw [encodeCredentials, hn]
  rfl

/-- A part that is empty ends the program, with one byte stored. -/
theorem encode_empty {usr pwd : Option Block} {credentials : Block} {past n : ℕ}
    (hroom : 0 < credentials.length) (husr : strlenPast past usr = .ok n)
    (h : n = 0 ∨ strlenPast past pwd = .ok 0) :
    encodeCredentials usr pwd (some credentials) past = .error .exit := by
  rw [encodeCredentials, husr]
  dsimp only [ok_bind]
  rw [putByte, if_pos hroom, ok_bind]
  by_cases hn : n = 0
  · rw [if_pos hn]
  · rw [if_neg hn, h.resolve_left hn]
    rfl

/-- Two parts are encoded with their lengths, as far as there is room. -/
theorem encode_strings {xs ys credentials : List UInt8} (k₁ k₂ past : ℕ)
    (hxs : 0 ∉ xs) (hys : 0 ∉ ys) (hxne : xs ≠ []) (hyne : ys ≠ [])
    (hroom : xs.length < credentials.length) :
    if xs.length + ys.length + 2 ≤ credentials.length then
      ∃ bytes, encodeCredentials (some (xs ++ List.replicate (k₁ + 1) 0))
        (some (ys ++ List.replicate (k₂ + 1) 0)) (some credentials) past =
          .ok bytes
    else
      encodeCredentials (some (xs ++ List.replicate (k₁ + 1) 0))
        (some (ys ++ List.replicate (k₂ + 1) 0)) (some credentials) past =
          .error .outOfBounds := by
  have husr := strlenPast_eq past (strlen_padded k₁ hxs)
  have hpwd := strlenPast_eq past (strlen_padded k₂ hys)
  have hx0 : xs.length ≠ 0 := List.length_eq_zero_iff.not.mpr hxne
  have hy0 : ys.length ≠ 0 := List.length_eq_zero_iff.not.mpr hyne
  have hfirst : putByte (some credentials) 0 (UInt8.ofNat xs.length) =
      .ok (some (credentials.set 0 (UInt8.ofNat xs.length))) :=
    if_pos (by omega)
  obtain ⟨b₁, hb₁, hlen₁⟩ : ∃ b₁,
      copyBytes (some (credentials.set 0 (UInt8.ofNat xs.length))) 1 xs =
        .ok (some b₁) ∧ b₁.length = credentials.length := by
    have hcopy : 1 + xs.length ≤
        (credentials.set 0 (UInt8.ofNat xs.length)).length := by
      rw [List.length_set]
      omega
    obtain ⟨b₁, hb₁, hlen₁⟩ := copyBytes_fits hcopy
    rw [List.length_set] at hlen₁
    exact ⟨b₁, hb₁, hlen₁⟩
  have hcall : encodeCredentials (some (xs ++ List.replicate (k₁ + 1) 0))
      (some (ys ++ List.replicate (k₂ + 1) 0)) (some credentials) past = (do
        let credentials ← putByte (some b₁) (1 + xs.length)
          (UInt8.ofInt ((ys.length : ℤ) - 1))
        let credentials ← copyBytes credentials (1 + xs.length + 1) ys
        .ok ((credentials.getD []).take (1 + xs.length + 1 + ys.length))) := by
    rw [encodeCredentials, husr, hpwd]
    dsimp only [ok_bind]
    rw [hfirst, ok_bind, if_neg hx0, if_neg hy0, Option.getD_some,
      List.take_left, hb₁, ok_bind, Option.getD_some, List.take_left]
  rw [hcall, putByte, hlen₁]
  by_cases hlast : 1 + xs.length < credentials.length
  · rw [if_pos hlast, ok_bind]
    generalize hset : b₁.set (1 + xs.length)
      (UInt8.ofInt ((ys.length : ℤ) - 1)) = b₂
    have hlen₂ : b₂.length = credentials.length := by
      rw [← hset, List.length_set, hlen₁]
    by_cases hfits : xs.length + ys.length + 2 ≤ credentials.length
    · have hcopy : 1 + xs.length + 1 + ys.length ≤ b₂.length := by omega
      obtain ⟨b₃, hb₃, -⟩ := copyBytes_fits hcopy
      rw [if_pos hfits, hb₃]
      exact ⟨_, rfl⟩
    · rw [if_neg hfits, copyBytes_overflow (by omega) (by omega)]
      rfl
  · have hfits : ¬ xs.length + ys.length + 2 ≤ credentials.length := by omega
    rw [if_neg hlast, if_neg hfits]
    rfl

/-! ## The login -/

theorem storesWithin_exit : StoresWithin (.error .exit) :=
  ⟨by decide, by decide⟩

theorem storesWithin_ok (bytes : List UInt8) : StoresWithin (.ok bytes) :=
  ⟨by simp, by simp⟩

theorem not_storesWithin_overflow : ¬ StoresWithin (.error .outOfBounds) :=
  fun h => h.1 rfl

theorem not_storesWithin_null : ¬ StoresWithin (.error .nullDereference) :=
  fun h => h.2 rfl

/-- What is done with a string that has been read. -/
def loginOf (text : List UInt8) (credentials : Option Block) (past : ℕ) :
    Except Fault (List UInt8) := do
  let (_, usr, pwd) ← splitstr text 58 clearCredentials clearCredentials
  encodeCredentials usr pwd credentials past

/-- Without a delimiter the login ends with the empty `pwd`, if the text fits
`usr`. -/
theorem loginOf_absent {text : List UInt8} {credentials : Block} (past : ℕ)
    (hnot : 58 ∉ text) (hroom : 0 < credentials.length) :
    loginOf text (some credentials) past =
      if text.length ≤ credentialsLen then .error .exit
      else .error .outOfBounds := by
  by_cases hlen : text.length ≤ credentialsLen
  · obtain ⟨k, hsplit⟩ := splitstr_clear_absent hnot hlen
    obtain ⟨n, hn⟩ := exists_strlenPast past (text ++ List.replicate k 0)
    rw [if_pos hlen, loginOf, hsplit]
    exact encode_empty hroom hn (.inr rfl)
  · rw [if_neg hlen, loginOf, splitstr_clear_overflow hnot hlen]
    rfl

/-- With a delimiter there is room for both parts, but not always for what is
encoded of them. -/
theorem loginOf_delimited {xs ys : List UInt8} {credentials : Block} (past : ℕ)
    (hnot : 58 ∉ xs) (hzero : 0 ∉ xs ++ 58 :: ys)
    (hlen : xs.length + ys.length ≤ credentialsLen)
    (hroom : credentials.length = credentialsLen) :
    StoresWithin (loginOf (xs ++ 58 :: ys) (some credentials) past) ↔
      xs = [] ∨ ys = [] ∨ xs.length + ys.length + 2 ≤ credentialsLen := by
  have hpos : 0 < credentials.length := by
    rw [hroom]
    decide
  have hxs : 0 ∉ xs := fun h => hzero (List.mem_append_left _ h)
  have hys : 0 ∉ ys := fun h =>
    hzero (List.mem_append_right _ (List.mem_cons_of_mem 58 h))
  obtain ⟨k₁, k₂, hsplit, hk₁, hk₂⟩ := splitstr_clear_delimited hnot hlen
  have hlogin : loginOf (xs ++ 58 :: ys) (some credentials) past =
      encodeCredentials (some (xs ++ List.replicate k₁ 0))
        (some (ys ++ List.replicate k₂ 0)) (some credentials) past := by
    rw [loginOf, hsplit]
    rfl
  obtain ⟨n, hn⟩ := exists_strlenPast past (xs ++ List.replicate k₁ 0)
  by_cases hx : xs = []
  · subst hx
    have hn0 : n = 0 := by
      rw [List.length_nil, Nat.zero_add] at hk₁
      rw [hk₁] at hn
      exact (Except.ok.inj hn).symm
    rw [hlogin, encode_empty hpos hn (.inl hn0)]
    exact iff_of_true storesWithin_exit (.inl rfl)
  · by_cases hy : ys = []
    · subst hy
      rw [List.length_nil, Nat.zero_add] at hk₂
      rw [hk₂] at hlogin
      rw [hlogin, encode_empty hpos hn (.inr rfl)]
      exact iff_of_true storesWithin_exit (.inr (.inl rfl))
    · have hxpos := List.length_pos_of_ne_nil hx
      have hypos := List.length_pos_of_ne_nil hy
      obtain ⟨j₁, rfl⟩ := Nat.exists_eq_add_of_le' (show 1 ≤ k₁ by omega)
      obtain ⟨j₂, rfl⟩ := Nat.exists_eq_add_of_le' (show 1 ≤ k₂ by omega)
      have hencode := encode_strings j₁ j₂ past hxs hys hx hy
        (show xs.length < credentials.length by omega)
      rw [hlogin, or_iff_right hx, or_iff_right hy]
      rw [hroom] at hencode
      by_cases hfits : xs.length + ys.length + 2 ≤ credentialsLen
      · rw [if_pos hfits] at hencode
        obtain ⟨bytes, hbytes⟩ := hencode
        rw [hbytes]
        exact iff_of_true (storesWithin_ok bytes) hfits
      · rw [if_neg hfits] at hencode
        rw [hencode]
        exact iff_of_false not_storesWithin_overflow hfits

/-- The login of a string without NUL that ends with the newline. -/
theorem loginOf_line_iff {line : List UInt8} {credentials : Block} (past : ℕ)
    (hzero : 0 ∉ line) (hlen : line.length ≤ credentialsLen)
    (hroom : credentials.length = credentialsLen) :
    StoresWithin (loginOf (line ++ [10]) (some credentials) past) ↔
      LoginFits line := by
  rw [LoginFits, or_iff_right hzero]
  rcases split_cases 58 line with hnot | ⟨xs, ys, hnot, rfl⟩
  · have hnot' : 58 ∉ line ++ [10] := by simp [hnot]
    have hhead : line.head? ≠ some 58 := fun h =>
      hnot (List.mem_of_mem_head? h)
    rw [loginOf_absent past hnot' (by rw [hroom]; decide), List.length_append,
      List.length_singleton, or_iff_right hhead, and_iff_right hnot]
    by_cases hfits : line.length + 1 ≤ credentialsLen
    · rw [if_pos hfits]
      rw [credentialsLen] at hfits
      exact iff_of_true storesWithin_exit (by omega)
    · rw [if_neg hfits]
      rw [credentialsLen] at hfits
      exact iff_of_false not_storesWithin_overflow (by omega)
  · have hsplit : xs ++ 58 :: ys ++ [10] = xs ++ 58 :: (ys ++ [10]) := by simp
    have hzero' : 0 ∉ xs ++ 58 :: (ys ++ [10]) := by
      rw [← hsplit, List.mem_append, not_or]
      exact ⟨hzero, by decide⟩
    have hmem : (58 : UInt8) ∈ xs ++ 58 :: ys := by simp
    have hhead : (xs ++ 58 :: ys).head? = some 58 ↔ xs = [] := by
      cases xs with
      | nil => simp
      | cons c cs =>
          rw [List.mem_cons, not_or] at hnot
          simpa using Ne.symm hnot.1
    rw [List.length_append, List.length_cons] at hlen ⊢
    have hys : ys ++ [10] ≠ [] := by simp
    have hcount : (ys ++ [10]).length = ys.length + 1 := by simp
    rw [hsplit, loginOf_delimited past hnot hzero' (by omega) hroom, hhead,
      or_iff_right hys, hcount]
    simp only [hmem, not_true_eq_false, false_and, or_false]
    by_cases hx : xs = []
    · exact iff_of_true (.inl hx) (.inr hx)
    · rw [or_iff_right hx, or_iff_left hx, credentialsLen]
      omega

/-- A string that ends at a NUL of the line is short enough. -/
theorem loginOf_short {text : List UInt8} {credentials : Block} (past : ℕ)
    (hzero : 0 ∉ text) (hlen : text.length < credentialsLen)
    (hroom : credentials.length = credentialsLen) :
    StoresWithin (loginOf text (some credentials) past) := by
  rcases split_cases 58 text with hnot | ⟨xs, ys, hnot, rfl⟩
  · rw [loginOf_absent past hnot (by rw [hroom]; decide), if_pos (Nat.le_of_lt hlen)]
    exact storesWithin_exit
  · rw [List.length_append, List.length_cons] at hlen
    rw [loginOf_delimited past hnot hzero (by omega) hroom]
    right
    right
    omega

/-- The login of a line that is not too long. -/
theorem clientLogin_eq_loginOf {line rest : List UInt8} {block : Block} {past : ℕ}
    {m : Mallocs} (hline : 10 ∉ line) (hlen : line.length ≤ credentialsLen)
    (hblock : (malloc (credentialsLen + 2) m).1 = some block)
    (hsize : block.length = credentialsLen + 2) :
    clientLogin (line ++ 10 :: rest) past m =
      loginOf (cString (line ++ [10]))
        (malloc credentialsLen (malloc (credentialsLen + 2) m).2).1 past := by
  obtain ⟨tail, hread⟩ : ∃ tail, readLine (line ++ 10 :: rest) (some block) = _ :=
    readLine_line hline hlen hsize
  have htext : cString (line ++ [10] ++ [0] ++ tail) = cString (line ++ [10]) :=
    cString_of_terminated (List.prefix_append _ _)
  rw [clientLogin]
  dsimp only
  rw [hblock, hread]
  dsimp only [ok_bind]
  rw [Option.getD_some, htext]
  rfl

/-- What `clientCredentials` sends is sent. -/
theorem clientLogin_of_clientCredentials {line rest bytes : List UInt8}
    {past : ℕ} {contents fresh : ℕ → UInt8} (hline : 10 ∉ line)
    (h : clientCredentials line fresh = .ok bytes) :
    clientLogin (line ++ 10 :: rest) past [some contents, some fresh] =
      .ok bytes := by
  have htext : cString (line ++ [10, 0]) = cString (line ++ [10]) :=
    cString_of_terminated ⟨[], by simp⟩
  unfold clientCredentials at h
  split_ifs at h with hlen
  rw [htext] at h
  rw [clientLogin_eq_loginOf hline (Nat.not_lt.mp hlen) rfl (by simp), loginOf]
  obtain ⟨⟨flag, usr, pwd⟩, hsplit, h⟩ := bind_eq_ok.mp h
  obtain ⟨n, husr, h⟩ := bind_eq_ok.mp h
  obtain ⟨credentials, hfirst, h⟩ := bind_eq_ok.mp h
  obtain ⟨k, hpwd, h⟩ := bind_eq_ok.mp h
  split_ifs at h with hempty
  rw [not_or] at hempty
  rw [hsplit]
  dsimp only [ok_bind]
  have hcred : (malloc credentialsLen (malloc (credentialsLen + 2)
      [some contents, some fresh]).2).1 =
        some ((List.range credentialsLen).map fresh) := rfl
  rw [encodeCredentials, strlenPast_eq past husr, ok_bind, hcred, hfirst, ok_bind,
    if_neg hempty.1, strlenPast_eq past hpwd, ok_bind, if_neg hempty.2]
  exact h

/-- Without memory for what is encoded there is no store for its first byte. -/
theorem loginOf_null {text : List UInt8} (past : ℕ)
    (hlen : text.length ≤ credentialsLen + 1) :
    ¬ StoresWithin (loginOf text none past) := by
  have hsplit : splitstr text 58 clearCredentials clearCredentials =
        .error .outOfBounds ∨ ∃ flag usr pwd,
      splitstr text 58 clearCredentials clearCredentials =
        .ok (flag, some usr, pwd) := by
    rcases split_cases 58 text with hnot | ⟨xs, ys, hnot, rfl⟩
    · by_cases hfits : text.length ≤ credentialsLen
      · obtain ⟨k, hsplit⟩ := splitstr_clear_absent hnot hfits
        exact .inr ⟨_, _, _, hsplit⟩
      · exact .inl (splitstr_clear_overflow hnot hfits)
    · rw [List.length_append, List.length_cons] at hlen
      have hparts : xs.length + ys.length ≤ credentialsLen := by omega
      obtain ⟨k₁, k₂, hsplit, -, -⟩ := splitstr_clear_delimited hnot hparts
      exact .inr ⟨_, _, _, hsplit⟩
  rcases hsplit with hsplit | ⟨flag, usr, pwd, hsplit⟩
  · rw [loginOf, hsplit]
    exact not_storesWithin_overflow
  · have hnull := encode_null usr pwd past
    rw [loginOf, hsplit]
    dsimp only [ok_bind]
    rw [hnull]
    exact not_storesWithin_null

/-- The login stays in its arrays exactly when there is memory for them, and
the line is refused for its length, or fits, or something ends the login before
all of it is encoded. -/
theorem clientLogin_storesWithin_iff {line : List UInt8} (hline : 10 ∉ line)
    (rest : List UInt8) (past : ℕ) (m : Mallocs) :
    StoresWithin (clientLogin (line ++ 10 :: rest) past m) ↔
      (malloc (credentialsLen + 2) m).1 ≠ none ∧
        (credentialsLen < line.length ∨
          (malloc credentialsLen (malloc (credentialsLen + 2) m).2).1 ≠ none ∧
            LoginFits line) := by
  rcases malloc_eq (credentialsLen + 2) m with ⟨block, hblock, hlen⟩ | hnull
  · have hsome : (malloc (credentialsLen + 2) m).1 ≠ none := by simp [hblock]
    rw [and_iff_right hsome]
    by_cases hlong : credentialsLen < line.length
    · have hexit : clientLogin (line ++ 10 :: rest) past m = .error .exit := by
        rw [clientLogin]
        dsimp only
        rw [hblock, readLine_long hline hlong hlen]
        rfl
      rw [hexit]
      exact iff_of_true storesWithin_exit (.inl hlong)
    · rw [clientLogin_eq_loginOf hline (Nat.not_lt.mp hlong) hblock hlen,
        or_iff_right hlong]
      have hshort := Nat.not_lt.mp hlong
      rcases malloc_eq credentialsLen (malloc (credentialsLen + 2) m).2 with
        ⟨credentials, hcred, hroom⟩ | hcred
      · rw [hcred, and_iff_right (Option.some_ne_none credentials)]
        rcases lineString_cases line with ⟨hzero, hlt⟩ | ⟨hzero, htext⟩
        · exact iff_of_true
            (loginOf_short past (zero_not_mem_cString _) (by omega) hroom)
            (.inl hzero)
        · rw [htext]
          exact loginOf_line_iff past hzero hshort hroom
      · rw [hcred]
        refine iff_of_false (loginOf_null past ?_) fun h => h.1 rfl
        have hle : (cString (line ++ [10])).length ≤ (line ++ [10]).length :=
          (List.takeWhile_prefix _).length_le
        rw [List.length_append, List.length_singleton] at hle
        omega
  · have hnot : clientLogin (line ++ 10 :: rest) past m =
        .error .nullDereference := by
      rw [clientLogin]
      dsimp only
      rw [hnull, readLine_null hline]
      rfl
    rw [hnot]
    exact iff_of_false not_storesWithin_null fun h => h.1 hnull

/-- A line of 98 characters. -/
theorem clientLogin_storesWithin_longest :
    StoresWithin (clientLogin ((List.replicate 49 97 ++ 58 :: List.replicate 48 98) ++
      10 :: []) 0 []) := by
  have hline : 10 ∉ List.replicate 49 (97 : UInt8) ++ 58 :: List.replicate 48 98 := by
    decide
  refine (clientLogin_storesWithin_iff hline [] 0 []).mpr ⟨?_, .inr ⟨?_, ?_⟩⟩
  · exact Option.some_ne_none _
  · exact Option.some_ne_none _
  · decide

/-- A line of 100 characters without a delimiter: the newline is stored after the
end of `usr`. -/
theorem not_storesWithin_undelimited :
    ¬ StoresWithin (clientLogin (List.replicate 100 97 ++ 10 :: []) 0 []) := by
  have hfault : clientLogin (List.replicate 100 97 ++ 10 :: []) 0 [] =
      .error .outOfBounds := by decide +kernel
  rw [hfault]
  exact not_storesWithin_overflow

end Socksv5
