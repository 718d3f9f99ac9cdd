import Socksv5.Heap
import Socksv5.Support.Partial
import Mathlib.Data.List.TakeWhile

/-!
# Parameters

The part of `parameters.c` that the connections use: the tables of users and
of administrators, and the switch of the POP3 sniffer.
-/

namespace Socksv5

open Support

/-- `MAX_USERS` -/
def maxUsers : ℕ := 10

/-- `MAX_ADMINS` -/
def maxAdmins : ℕ := 1

/-- `MAX_CREDENTIALS_LEN` -/
def maxCredentialsLen : ℕ := 50

/-- `struct user`; both fields are strings. -/
structure User where
  name : Block
  pass : Block
deriving DecidableEq, Repr

/-- `struct params`; `users` are the first `user_count` entries, and `admin` the
first `admin_count`. -/
structure Parameters where
  users : List User := []
  disectorsEnabled : Bool := false
  admin : List User := []
deriving DecidableEq, Repr

/-- `strcmp(p, q) == 0` -/
def sameString (p q : Block) : Bool := cString p = cString q

/-- `authenticate_user` -/
def authenticateUser (parameters : Parameters) (usr password : Block) : Bool :=
  parameters.users.any fun u =>
    sameString usr u.name && sameString password u.pass

/-- `authenticate_admin` -/
def authenticateAdmin (parameters : Parameters) (usr password : Block) : Bool :=
  parameters.admin.any fun u =>
    sameString usr u.name && sameString password u.pass

/-- The loop of `splitstr` at `str[i]`; `j` is the index into `str2`, once the
delimiter has been seen. -/
def splitstrLoop (delim : UInt8) : List UInt8 → ℕ → Option ℕ → Option Block →
    Option Block → Except Fault (Bool × Option Block × Option Block)
  | [], _, j, str1, str2 => .ok (j.isSome, str1, str2)
  | c :: cs, i, none, str1, str2 =>
      if c = delim then splitstrLoop delim cs (i + 1) (some 0) str1 str2
      else do
        let str1 ← putByte str1 i c
        splitstrLoop delim cs (i + 1) none str1 str2
  | c :: cs, i, some j, str1, str2 => do
      let str2 ← putByte str2 j c
      splitstrLoop delim cs (i + 1) (some (j + 1)) str1 str2

/-- `splitstr` -/
def splitstr (str : List UInt8) (delim : UInt8) (str1 str2 : Option Block) :
    Except Fault (Bool × Option Block × Option Block) :=
  splitstrLoop delim str 0 none str1 str2

/-- `user`, for the argument `s` -/
def user (s : List UInt8) (a : Allocs) : Except Fault User := do
  let len := s.length
  let (name, a) := calloc len a
  let (pass, _) := calloc len a
  let (_, name, pass) ← splitstr s 58 name pass
  if (← strlen pass) = 0 then .error .exit
  else if (← strlen name) = 0 then .error .exit
  else if maxCredentialsLen < (← strlen pass) then .error .exit
  else if maxCredentialsLen < (← strlen name) then .error .exit
  else
    match name, pass with
    | some name, some pass => .ok ⟨name, pass⟩
    | _, _ => .error .nullDereference

/-- `add_user` -/
def addUser (name pass : Option Block) (parameters : Parameters) :
    Except Fault (ℤ × Parameters) := do
  if maxCredentialsLen < (← strlen pass) then .ok (-2, parameters)
  else if maxCredentialsLen < (← strlen name) then .ok (-2, parameters)
  else if parameters.users.length < maxUsers then
    match name, pass with
    | some name, some pass =>
        .ok (0, { parameters with users := parameters.users ++ [⟨name, pass⟩] })
    | _, _ => .error .nullDereference
  else .ok (-1, parameters)

/-- An argument of the program, as `getopt` returns it.  `other` is one of
those that set an address or a port. -/
inductive Argument
  | a (optarg : List UInt8)
  | u (optarg : List UInt8)
  | N
  | other
deriving DecidableEq, Repr

/-- One turn of the loop of `parse_args`. -/
def parseArg (parameters : Parameters) (x : Argument × Allocs) :
    Except Fault Parameters :=
  match x.1 with
  | .a optarg =>
      if maxAdmins ≤ parameters.admin.length then .error .exit
      else do
        let admin ← user optarg x.2
        .ok { parameters with admin := parameters.admin ++ [admin] }
  | .u optarg =>
      if maxUsers ≤ parameters.users.length then .error .exit
      else do
        let u ← user optarg x.2
        .ok { parameters with users := parameters.users ++ [u] }
  | .N => .ok { parameters with disectorsEnabled := false }
  | .other => .ok parameters

/-- `parse_args`, when it returns: with `-h`, `-v` and what is not an option
the program ends. -/
def parseArgs (args : List (Argument × Allocs)) : Except Fault Parameters :=
  args.foldlM parseArg { disectorsEnabled := true }

/-! ## Comparing strings and comparing bytes -/

/-- An entry of the table has this name and this password, as byte strings. -/
def Listed (table : List User) (name pass : List UInt8) : Prop :=
  ∃ u ∈ table, cString u.name = name ∧ cString u.pass = pass

theorem cString_append_zero (xs : List UInt8) :
    cString (xs ++ [0]) = cString xs := by
  induction xs with
  | nil => rfl
  | cons c xs ih =>
      by_cases hc : c = 0
      · simp [cString, hc]
      · simpa [cString, List.takeWhile_cons, hc] using ih

/-- What follows the terminator is not part of a string. -/
theorem cString_of_terminated {xs : List UInt8} {block : Block}
    (h : xs ++ [0] <+: block) : cString block = cString xs := by
  obtain ⟨rest, rfl⟩ := h
  induction xs with
  | nil => rfl
  | cons c xs ih =>
      by_cases hc : c = 0
      · simp [cString, hc]
      · simpa [cString, List.takeWhile_cons, hc] using ih

theorem strlen_of_mem {block : Block} (h : 0 ∈ block) :
    strlen (some block) = .ok (cString block).length :=
  if_pos h

theorem cString_eq_self {xs : List UInt8} (h : 0 ∉ xs) : cString xs = xs := by
  rw [cString, List.takeWhile_eq_self_iff]
  intro c hc
  rw [bne_iff_ne]
  rintro rfl
  exact h hc

theorem zero_not_mem_cString (block : Block) : 0 ∉ cString block := by
  intro h
  simpa using List.mem_takeWhile_imp h

theorem any_sameString_iff {table : List User} {name pass : List UInt8} :
    (table.any fun u => sameString (name ++ [0]) u.name &&
        sameString (pass ++ [0]) u.pass) = true ↔
      Listed table (cString name) (cString pass) := by
  rw [List.any_eq_true, Listed]
  apply exists_congr
  intro u
  rw [Bool.and_eq_true, sameString, sameString, decide_eq_true_iff,
    decide_eq_true_iff, cString_append_zero, cString_append_zero,
    eq_comm (a := cString name), eq_comm (a := cString pass)]

/-- The strings of the table are compared with the bytes up to the first NUL of
each field. -/
theorem authenticateUser_iff {parameters : Parameters}
    {name pass : List UInt8} :
    authenticateUser parameters (name ++ [0]) (pass ++ [0]) = true ↔
      Listed parameters.users (cString name) (cString pass) :=
  any_sameString_iff

theorem authenticateAdmin_iff {parameters : Parameters}
    {name pass : List UInt8} :
    authenticateAdmin parameters (name ++ [0]) (pass ++ [0]) = true ↔
      Listed parameters.admin (cString name) (cString pass) :=
  any_sameString_iff

/-! ## Splitting a string -/

/-- The loop of `splitstr` before the delimiter. -/
theorem splitstrLoop_before {delim : UInt8} {xs rest : List UInt8} {k : ℕ}
    (str2 : Option Block) (us : List UInt8) (hnot : delim ∉ xs) :
    splitstrLoop delim (xs ++ delim :: rest) us.length none
        (some (us ++ List.replicate (xs.length + k) 0)) str2 =
      splitstrLoop delim rest ((us ++ xs).length + 1) (some 0)
        (some (us ++ xs ++ List.replicate k 0)) str2 := by
  induction xs generalizing us with
  | nil => simp [splitstrLoop]
  | cons c cs ih =>
      rw [List.mem_cons, not_or] at hnot
      have hlen : (us ++ [c]).length = us.length + 1 := by simp
      have hsize : (c :: cs).length + k = cs.length + k + 1 := by
        rw [List.length_cons]
        omega
      rw [List.cons_append, splitstrLoop, if_neg (Ne.symm hnot.1), hsize,
        putByte_zeros, ok_bind, ← hlen, ih _ hnot.2]
      simp

/-- The loop of `splitstr` after the delimiter. -/
theorem splitstrLoop_after {delim : UInt8} {ys : List UInt8} {k i : ℕ}
    (str1 : Option Block) (ws : List UInt8) :
    splitstrLoop delim ys i (some ws.length) str1
        (some (ws ++ List.replicate (ys.length + k) 0)) =
      .ok (true, str1, some (ws ++ ys ++ List.replicate k 0)) := by
  induction ys generalizing ws i with
  | nil => simp [splitstrLoop]
  | cons c cs ih =>
      have hlen : (ws ++ [c]).length = ws.length + 1 := by simp
      have hsize : (c :: cs).length + k = cs.length + k + 1 := by
        rw [List.length_cons]
        omega
      rw [splitstrLoop, hsize, putByte_zeros, ok_bind, ← hlen, ih]
      simp

/-- A string is split at the first delimiter. -/
theorem splitstr_spec {delim : UInt8} {xs ys : List UInt8} (k₁ k₂ : ℕ)
    (hnot : delim ∉ xs) :
    splitstr (xs ++ delim :: ys) delim
        (some (List.replicate (xs.length + k₁) 0))
        (some (List.replicate (ys.length + k₂) 0)) =
      .ok (true, some (xs ++ List.replicate k₁ 0),
        some (ys ++ List.replicate k₂ 0)) := by
  have hbefore : splitstrLoop delim (xs ++ delim :: ys) ([] : List UInt8).length
      none (some ([] ++ List.replicate (xs.length + k₁) 0))
      (some (List.replicate (ys.length + k₂) 0)) = _ :=
    splitstrLoop_before _ [] hnot
  have hafter : splitstrLoop delim ys (xs.length + 1)
      (some ([] : List UInt8).length) (some (xs ++ List.replicate k₁ 0))
      (some ([] ++ List.replicate (ys.length + k₂) 0)) = _ :=
    splitstrLoop_after _ []
  rw [List.length_nil, List.nil_append, List.nil_append] at hbefore hafter
  rw [splitstr, hbefore, hafter]

/-- A string has no delimiter, or it is split at the first. -/
theorem split_cases (delim : UInt8) (s : List UInt8) :
    delim ∉ s ∨ ∃ xs ys, delim ∉ xs ∧ s = xs ++ delim :: ys := by
  by_cases h : delim ∈ s
  · right
    obtain ⟨xs, ys, hs, hnot⟩ := List.eq_append_cons_of_mem h
    exact ⟨xs, ys, hnot, hs⟩
  · left
    exact h

/-- The loop of `splitstr` where there is no delimiter. -/
theorem splitstrLoop_absent {delim : UInt8} {xs : List UInt8} (k : ℕ)
    (str2 : Option Block) (us : List UInt8) (hnot : delim ∉ xs) :
    splitstrLoop delim xs us.length none
        (some (us ++ List.replicate (xs.length + k) 0)) str2 =
      .ok (false, some (us ++ xs ++ List.replicate k 0), str2) := by
  induction xs generalizing us with
  | nil => simp [splitstrLoop]
  | cons c cs ih =>
      rw [List.mem_cons, not_or] at hnot
      have hlen : (us ++ [c]).length = us.length + 1 := by simp
      have hsize : (c :: cs).length + k = cs.length + k + 1 := by
        rw [List.length_cons]
        omega
      rw [splitstrLoop, if_neg (Ne.symm hnot.1), hsize, putByte_zeros, ok_bind,
        ← hlen, ih _ hnot.2]
      simp

/-- A string without a delimiter is stored whole in the first of the two. -/
theorem splitstr_absent {delim : UInt8} {s : List UInt8} (str2 : Option Block)
    (k : ℕ) (hnot : delim ∉ s) :
    splitstr s delim (some (List.replicate (s.length + k) 0)) str2 =
      .ok (false, some (s ++ List.replicate k 0), str2) :=
  splitstrLoop_absent k str2 [] hnot

/-- A block that was clear and holds a string. -/
theorem strlen_padded {xs : List UInt8} (k : ℕ) (hzero : 0 ∉ xs) :
    strlen (some (xs ++ List.replicate (k + 1) 0)) = .ok xs.length := by
  have hpre : xs ++ [0] <+: xs ++ List.replicate (k + 1) 0 :=
    ⟨List.replicate k 0, by simp [List.replicate_succ]⟩
  rw [strlen_of_mem (hpre.subset (by simp)), cString_of_terminated hpre,
    cString_eq_self hzero]

end Socksv5
