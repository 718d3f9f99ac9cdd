import Socksv5.Parameters

/-!
# The users of the command line

The argument of `-u` and of `-a` declares a user as `name:pass`.  `user` gives
each of the two strings the length of the whole argument, which leaves room for a
terminator only when there is a delimiter to take its place.  Without one it is
the empty `pass` that ends the program before the name is looked at; the empty
argument has no byte for either terminator.
-/

namespace Socksv5

open Support

/-- What stands before the first `:`. -/
def declaredName (s : List UInt8) : List UInt8 := s.takeWhile fun c => c != 58

/-- What stands after the first `:`. -/
def declaredPass (s : List UInt8) : List UInt8 :=
  (s.dropWhile fun c => c != 58).drop 1

/-- A name or a password has between one and `MAX_CREDENTIALS_LEN`
characters. -/
def AcceptedLength (n : ℕ) : Prop := 1 ≤ n ∧ n ≤ maxCredentialsLen

/-- The two parts of a declaration are of accepted lengths. -/
def Acceptable (s : List UInt8) : Prop :=
  AcceptedLength (declaredName s).length ∧ AcceptedLength (declaredPass s).length

/-- `user` records the two parts of an acceptable declaration, and ends the
program at any other. -/
def Declares (s : List UInt8) (a : Allocs) : Prop :=
  (Acceptable s ∧ ∃ u, user s a = .ok u ∧ cString u.name = declaredName s ∧
      cString u.pass = declaredPass s) ∨
    (¬ Acceptable s ∧ user s a = .error .exit)

/-! ## The two parts -/

theorem declared_of_not_mem {s : List UInt8} (h : 58 ∉ s) :
    declaredName s = s ∧ declaredPass s = [] := by
  have hall : ∀ c ∈ s, (c != 58) = true := by
    intro c hc
    rw [bne_iff_ne]
    rintro rfl
    exact h hc
  refine ⟨List.takeWhile_eq_self_iff.mpr hall, ?_⟩
  rw [declaredPass, List.dropWhile_eq_nil_iff.mpr hall, List.drop_nil]

theorem declared_append {xs ys : List UInt8} (h : 58 ∉ xs) :
    declaredName (xs ++ 58 :: ys) = xs ∧
      declaredPass (xs ++ 58 :: ys) = ys := by
  induction xs with
  | nil => simp [declaredName, declaredPass]
  | cons c xs ih =>
      rw [List.mem_cons, not_or] at h
      have hc : (c != 58) = true := bne_iff_ne.mpr (Ne.symm h.1)
      obtain ⟨hname, hpass⟩ := ih h.2
      refine ⟨?_, ?_⟩
      · rw [declaredName, List.cons_append, List.takeWhile_cons, if_pos hc]
        exact congrArg (c :: ·) hname
      · rw [declaredPass, List.cons_append, List.dropWhile_cons, if_pos hc]
        exact hpass

/-! ## What `user` does -/

/-- A string of `n` characters that is asked of `calloc`. -/
def callocResult (n : ℕ) (succeeds : Bool) : Option Block :=
  if succeeds then some (List.replicate n 0) else none

theorem calloc_pair (n : ℕ) (a : Allocs) :
    calloc n a = (callocResult n (a.headD true), a.tail) := by
  rcases a with - | ⟨_ | _, a⟩ <;> rfl

/-- The tests that `user` makes of the two strings. -/
def judgeUser (name pass : Option Block) : Except Fault User := do
  if (← strlen pass) = 0 then .error .exit
  else if (← strlen name) = 0 then .error .exit
  else if maxCredentialsLen < (← strlen pass) then .error .exit
  else if maxCredentialsLen < (← strlen name) then .error .exit
  else
    match name, pass with
    | some name, some pass => .ok ⟨name, pass⟩
    | _, _ => .error .nullDereference

theorem user_eq_judge (s : List UInt8) (a : Allocs) :
    user s a =
      splitstr s 58 (callocResult s.length (a.headD true))
          (callocResult s.length (a.tail.headD true)) >>=
        fun r => judgeUser r.2.1 r.2.2 := by
  unfold user
  dsimp only
  rw [calloc_pair, calloc_pair]
  rfl

theorem judgeUser_empty_pass {pass : Option Block} (name : Option Block)
    (h : strlen pass = .ok 0) : judgeUser name pass = .error .exit := by
  unfold judgeUser
  rw [h, ok_bind, if_pos rfl]

/-- Two strings whose lengths can be told are recorded, if these are accepted. -/
theorem judgeUser_strings {name pass : Block} {n m : ℕ}
    (hname : strlen (some name) = .ok n) (hpass : strlen (some pass) = .ok m) :
    judgeUser (some name) (some pass) =
      if 1 ≤ n ∧ n ≤ maxCredentialsLen ∧ 1 ≤ m ∧ m ≤ maxCredentialsLen then
        .ok ⟨name, pass⟩
      else .error .exit := by
  rw [judgeUser, hname, hpass]
  simp only [ok_bind]
  split_ifs <;> first | rfl | omega

theorem putByte_ne_exit (p : Option Block) (i : ℕ) (c : UInt8) :
    putByte p i c ≠ .error .exit := by
  cases p with
  | none => simp [putByte]
  | some block =>
      rw [putByte]
      split_ifs <;> simp

/-- `splitstr` never ends the program, and a null pointer stays one. -/
theorem splitstrLoop_null (delim : UInt8) (cs : List UInt8) (i : ℕ)
    (j : Option ℕ) (str1 : Option Block) :
    (∃ f, splitstrLoop delim cs i j str1 none = .error f ∧ f ≠ .exit) ∨
      ∃ flag p, splitstrLoop delim cs i j str1 none = .ok (flag, p, none) := by
  induction cs generalizing i j str1 with
  | nil => exact .inr ⟨_, _, rfl⟩
  | cons c cs ih =>
      cases j with
      | some j => exact .inl ⟨.nullDereference, rfl, by decide⟩
      | none =>
          rw [splitstrLoop]
          by_cases hc : c = delim
          · rw [if_pos hc]
            exact ih _ _ _
          · rw [if_neg hc]
            cases hput : putByte str1 i c with
            | ok str1' => exact ih _ _ _
            | error f =>
                left
                refine ⟨f, rfl, ?_⟩
                rintro rfl
                exact putByte_ne_exit str1 i c hput

theorem not_declares {s : List UInt8} {a : Allocs} {f : Fault}
    (h : user s a = .error f) (hf : f ≠ .exit) : ¬ Declares s a := by
  rintro (⟨-, u, hu, -⟩ | ⟨-, hexit⟩)
  · rw [h] at hu
    cases hu
  · rw [h] at hexit
    cases hexit
    exact hf rfl

theorem declares_exit {s : List UInt8} {a : Allocs}
    (h : user s a = .error .exit) (hnot : ¬ Acceptable s) : Declares s a :=
  .inr ⟨hnot, h⟩

theorem not_acceptable_of_pass {s : List UInt8} (h : declaredPass s = []) :
    ¬ Acceptable s := by
  rintro ⟨-, hpass, -⟩
  rw [h] at hpass
  cases hpass

/-! ## When an allocation fails -/

theorem not_declares_of_pass_null {s : List UInt8} {a : Allocs}
    (h : a.tail.headD true = false) : ¬ Declares s a := by
  have hcalloc : callocResult s.length (a.tail.headD true) = none := by
    rw [h]
    rfl
  rcases splitstrLoop_null 58 s 0 none (callocResult s.length (a.headD true))
    with ⟨f, hsplit, hf⟩ | ⟨flag, p, hsplit⟩
  · refine not_declares (f := f) ?_ hf
    rw [user_eq_judge, hcalloc, splitstr, hsplit]
    rfl
  · refine not_declares (f := .nullDereference) ?_ (by decide)
    rw [user_eq_judge, hcalloc, splitstr, hsplit]
    rfl

/-- Without a name to fill, only `:` does not touch it. -/
theorem declares_of_name_null {s : List UInt8} {a : Allocs} (hzero : 0 ∉ s)
    (hname : a.headD true = false) (hpass : a.tail.headD true = true) :
    Declares s a ↔ s = [58] := by
  have huser : user s a = splitstr s 58 none (some (List.replicate s.length 0)) >>=
      fun r => judgeUser r.2.1 r.2.2 := by
    rw [user_eq_judge, hname, hpass]
    rfl
  cases s with
  | nil =>
      refine iff_of_false (not_declares (f := .outOfBounds) huser (by decide)) ?_
      simp
  | cons c cs =>
      by_cases hc : c = 58
      · subst hc
        have hafter : splitstrLoop 58 cs 1 (some ([] : List UInt8).length) none
            (some ([] ++ List.replicate (cs.length + 1) 0)) = _ :=
          splitstrLoop_after none []
        have hsplit : splitstr (58 :: cs) 58 none
            (some (List.replicate (58 :: cs).length 0)) = _ := hafter
        rw [hsplit, ok_bind] at huser
        have hlen : strlen (some ([] ++ cs ++ List.replicate 1 0)) =
            .ok cs.length :=
          strlen_padded 0 fun h => hzero (List.mem_cons_of_mem 58 h)
        cases cs with
        | nil =>
            refine iff_of_true (declares_exit ?_ (not_acceptable_of_pass rfl)) rfl
            rw [huser]
            exact judgeUser_empty_pass none hlen
        | cons d ds =>
            refine iff_of_false (not_declares (f := .nullDereference) ?_ (by decide))
              (by simp)
            rw [huser]
            unfold judgeUser
            dsimp only
            rw [hlen, ok_bind, if_neg (by simp)]
            rfl
      · refine iff_of_false (not_declares (f := .nullDereference) ?_ (by decide)) ?_
        · rw [huser, splitstr, splitstrLoop, if_neg hc]
          rfl
        · intro h
          cases h
          exact hc rfl

/-! ## When both succeed -/

/-- Where the separator stood, each of the strings has its terminator. -/
theorem declares_of_delimited {xs ys : List UInt8} {a : Allocs} (hnot : 58 ∉ xs)
    (hzero : 0 ∉ xs ++ 58 :: ys) (hname : a.headD true = true)
    (hpass : a.tail.headD true = true) : Declares (xs ++ 58 :: ys) a := by
  have hdeclared : declaredName (xs ++ 58 :: ys) = xs ∧
      declaredPass (xs ++ 58 :: ys) = ys := declared_append hnot
  obtain ⟨hdname, hdpass⟩ := hdeclared
  have hlen₁ : (xs ++ 58 :: ys).length = xs.length + (ys.length + 1) := by simp
  have hlen₂ : (xs ++ 58 :: ys).length = ys.length + (xs.length + 1) := by
    rw [hlen₁]
    omega
  have hxs : 0 ∉ xs := fun h => hzero (List.mem_append_left _ h)
  have hys : 0 ∉ ys := fun h =>
    hzero (List.mem_append_right _ (List.mem_cons_of_mem 58 h))
  have hsplit : splitstr (xs ++ 58 :: ys) 58
      (callocResult (xs ++ 58 :: ys).length (a.headD true))
      (callocResult (xs ++ 58 :: ys).length (a.tail.headD true)) =
        .ok (true, some (xs ++ List.replicate (ys.length + 1) 0),
          some (ys ++ List.replicate (xs.length + 1) 0)) := by
    rw [hname, hpass, ← splitstr_spec _ _ hnot, ← hlen₁, ← hlen₂]
    rfl
  have huser : user (xs ++ 58 :: ys) a = _ :=
    (user_eq_judge _ a).trans (by
      rw [hsplit, ok_bind,
        judgeUser_strings (strlen_padded _ hxs) (strlen_padded _ hys)])
  have hstring : ∀ {us : List UInt8} (k : ℕ), 0 ∉ us →
      cString (us ++ List.replicate (k + 1) 0) = us := by
    intro us k hus
    have hpre : us ++ [0] <+: us ++ List.replicate (k + 1) 0 :=
      ⟨List.replicate k 0, by simp [List.replicate_succ]⟩
    rw [cString_of_terminated hpre, cString_eq_self hus]
  by_cases hacc : Acceptable (xs ++ 58 :: ys)
  · left
    refine ⟨hacc, _, huser.trans (if_pos ?_), ?_, ?_⟩
    · rw [Acceptable, hdname, hdpass] at hacc
      exact ⟨hacc.1.1, hacc.1.2, hacc.2⟩
    · rw [hdname]
      exact hstring _ hxs
    · rw [hdpass]
      exact hstring _ hys
  · right
    refine ⟨hacc, huser.trans (if_neg ?_)⟩
    rintro ⟨h₁, h₂, h₃⟩
    apply hacc
    rw [Acceptable, hdname, hdpass]
    exact ⟨⟨h₁, h₂⟩, h₃⟩

/-- Without a separator the name has no terminator, but it is not asked for:
the empty `pass` ends the program. -/
theorem declares_of_undelimited {s : List UInt8} {a : Allocs} (hnot : 58 ∉ s)
    (hne : s ≠ []) (hname : a.headD true = true)
    (hpass : a.tail.headD true = true) : Declares s a := by
  obtain ⟨n, hn⟩ : ∃ n, s.length = n + 1 :=
    Nat.exists_eq_succ_of_ne_zero (List.length_eq_zero_iff.not.mpr hne)
  have hsplit : splitstr s 58 (callocResult s.length (a.headD true))
      (callocResult s.length (a.tail.headD true)) =
        .ok (false, some (s ++ []), some (List.replicate s.length 0)) := by
    rw [hname, hpass]
    exact splitstr_absent _ 0 hnot
  apply declares_exit
  · rw [user_eq_judge, hsplit, ok_bind]
    apply judgeUser_empty_pass
    rw [hn]
    exact (strlen_padded n List.not_mem_nil : strlen (some ([] ++ _)) = _)
  · exact not_acceptable_of_pass (declared_of_not_mem hnot).2

/-- The bytes of the empty argument leave no room for a terminator. -/
theorem not_declares_empty {a : Allocs} (h : a.tail.headD true = true) :
    ¬ Declares [] a := by
  refine not_declares (f := .outOfBounds) ?_ (by decide)
  rw [user_eq_judge, h]
  rfl

/-- An argument declares a user, or is refused, as it should, unless it is empty
or a string that is needed for it has not been allocated. -/
theorem declares_iff {s : List UInt8} (hzero : 0 ∉ s) (a : Allocs) :
    Declares s a ↔
      s ≠ [] ∧ a.tail.headD true = true ∧ (a.headD true = true ∨ s = [58]) := by
  by_cases hpass : a.tail.headD true = true
  · by_cases hname : a.headD true = true
    · by_cases hs : s = []
      · subst hs
        exact iff_of_false (not_declares_empty hpass) fun h => h.1 rfl
      · refine iff_of_true ?_ ⟨hs, hpass, .inl hname⟩
        rcases split_cases 58 s with hnot | ⟨xs, ys, hnot, rfl⟩
        · exact declares_of_undelimited hnot hs hname hpass
        · exact declares_of_delimited hnot hzero hname hpass
    · rw [Bool.not_eq_true] at hname
      rw [declares_of_name_null hzero hname hpass]
      refine ⟨?_, ?_⟩
      · rintro rfl
        exact ⟨by simp, hpass, .inr rfl⟩
      · rintro ⟨-, -, h | h⟩
        · rw [hname] at h
          cases h
        · exact h
  · rw [Bool.not_eq_true] at hpass
    refine iff_of_false (not_declares_of_pass_null hpass) ?_
    rintro ⟨-, h, -⟩
    rw [hpass] at h
    cases h

/-- `-u a:b` -/
theorem declares_pair : Declares [97, 58, 98] [] :=
  (declares_iff (s := [97, 58, 98]) (by decide) []).mpr
    ⟨by decide, rfl, .inl rfl⟩

/-- `-u ""` is neither refused nor recorded: there is no byte where `strlen` could
find a terminator. -/
theorem empty_declaration_not_refused : ¬ Declares [] [] :=
  not_declares (f := .outOfBounds) rfl (by decide)

end Socksv5
