import Socksv5.Admin.AuthParser
import Socksv5.Parameters

/-!
# The credentials that the client sends

The part of `client.c` that reads a line `name:password` and encodes it for the
server.  The newline that ends the line is stored with it, and so becomes part
of the password: it is sent, but not counted.
-/

namespace Socksv5

open Support

/-- `CREDENTIALS_LEN` -/
def credentialsLen : ℕ := 100

/-- A variable of `CREDENTIALS_LEN` characters that is initialised with
zeros. -/
def clearCredentials : Option Block := some (List.replicate credentialsLen 0)

/-- The loops that copy a string into `credentials`, from `to_send_index`
on. -/
def copyBytes (credentials : Option Block) (toSendIndex : ℕ) :
    List UInt8 → Except Fault (Option Block)
  | [] => .ok credentials
  | c :: cs => do
      let credentials ← putByte credentials toSendIndex c
      copyBytes credentials (toSendIndex + 1) cs

/-- The encoding of the credentials: the bytes that are written to the server
for the line `input`, which is given without its newline.  `fresh` is what the
memory of `credentials` holds. -/
def clientCredentials (input : List UInt8) (fresh : ℕ → UInt8) :
    Except Fault (List UInt8) := do
  if credentialsLen < input.length then .error .exit
  else do
    let authInput := cString (input ++ [10, 0])
    let (_, usr, pwd) ← splitstr authInput 58 clearCredentials clearCredentials
    let credentials := some ((List.range credentialsLen).map fresh)
    let usrLen ← strlen usr
    let credentials ← putByte credentials 0 (UInt8.ofNat usrLen)
    let pwdLen ← strlen pwd
    if usrLen = 0 ∨ pwdLen = 0 then .error .exit
    else do
      let credentials ← copyBytes credentials 1 ((usr.getD []).take usrLen)
      let toSendIndex := 1 + usrLen
      let credentials ←
        putByte credentials toSendIndex (UInt8.ofInt ((pwdLen : ℤ) - 1))
      let toSendIndex := toSendIndex + 1
      let credentials ←
        copyBytes credentials toSendIndex ((pwd.getD []).take pwdLen)
      .ok ((credentials.getD []).take (toSendIndex + pwdLen))

/-! ## What is sent -/

theorem copyBytes_append (pre : List UInt8) {bs junk : List UInt8}
    (h : bs.length ≤ junk.length) :
    copyBytes (some (pre ++ junk)) pre.length bs =
      .ok (some (pre ++ bs ++ junk.drop bs.length)) := by
  induction bs generalizing pre junk with
  | nil => simp [copyBytes]
  | cons c cs ih =>
      cases junk with
      | nil => simp at h
      | cons d junk =>
          have hlen : (pre ++ [c]).length = pre.length + 1 := by simp
          rw [copyBytes, putByte_append, ok_bind, ← hlen, List.append_cons,
            ih _ (by simpa using h)]
          simp

/-- Two fields, each after its length, are stored in a block that has room for
them. -/
theorem exists_layout {junk xs ys : List UInt8} (c d : UInt8)
    (h : 1 + xs.length + 1 + ys.length ≤ junk.length) :
    ∃ b₁ b₂ b₃ rest, putByte (some junk) 0 c = .ok b₁ ∧
      copyBytes b₁ 1 xs = .ok b₂ ∧ putByte b₂ (1 + xs.length) d = .ok b₃ ∧
      copyBytes b₃ (1 + xs.length + 1) ys =
        .ok (some ((c :: xs ++ d :: ys) ++ rest)) := by
  obtain ⟨j, junk₁, rfl⟩ : ∃ j junk₁, junk = j :: junk₁ := by
    apply List.exists_cons_of_ne_nil
    rintro rfl
    simp at h
  rw [List.length_cons] at h
  have hfirst : putByte (some (j :: junk₁)) 0 c = .ok (some ([c] ++ junk₁)) :=
    putByte_append [] j c junk₁
  have hxs : xs.length ≤ junk₁.length := by omega
  obtain ⟨l, junk₂, hjunk₂⟩ : ∃ l junk₂, junk₁.drop xs.length = l :: junk₂ := by
    apply List.exists_cons_of_ne_nil
    rw [ne_eq, List.drop_eq_nil_iff]
    omega
  have hsize := congrArg List.length hjunk₂
  rw [List.length_drop, List.length_cons] at hsize
  have hys : ys.length ≤ junk₂.length := by omega
  have hlen : ([c] ++ xs).length = 1 + xs.length := by simp [Nat.add_comm]
  have hlen' : ([c] ++ xs ++ [d]).length = 1 + xs.length + 1 := by
    rw [List.length_append, hlen, List.length_singleton]
  refine ⟨_, _, some ([c] ++ xs ++ d :: junk₂), junk₂.drop ys.length, hfirst,
    copyBytes_append [c] hxs, ?_, ?_⟩
  · rw [hjunk₂, ← hlen]
    exact putByte_append _ _ _ _
  · rw [List.append_cons, ← hlen', copyBytes_append _ hys]
    simp

/-- A name and a password, as they are typed. -/
structure TypedCredentials (name pass : List UInt8) : Prop where
  name_ne : name ≠ []
  pass_ne : pass ≠ []
  no_colon : 58 ∉ name
  name_no_newline : 10 ∉ name
  pass_no_newline : 10 ∉ pass
  name_no_nul : 0 ∉ name
  pass_no_nul : 0 ∉ pass
  length_le : name.length + 1 + pass.length ≤ 97

theorem ofInt_natCast_eq (n : ℕ) : UInt8.ofInt (n : ℤ) = UInt8.ofNat n := by
  rw [← UInt8.toNat_inj, UInt8.toNat_ofNat', UInt8.ofInt, UInt8.toNat_ofNat']
  omega

/-- The fields are sent with their lengths, and the newline after them. -/
theorem clientCredentials_spec {name pass : List UInt8}
    (h : TypedCredentials name pass) (fresh : ℕ → UInt8) :
    clientCredentials (name ++ 58 :: pass) fresh =
      .ok (adminCredentialsMessage name pass ++ [10]) := by
  have hlen := h.length_le
  have hauth : cString (name ++ 58 :: pass ++ [10, 0]) =
      name ++ 58 :: (pass ++ [10]) := by
    have hpre : (name ++ 58 :: (pass ++ [10])) ++ [0] <+:
        name ++ 58 :: pass ++ [10, 0] := ⟨[], by simp⟩
    have hzero : 0 ∉ name ++ 58 :: (pass ++ [10]) := by
      simp [h.name_no_nul, h.pass_no_nul]
    rw [cString_of_terminated hpre, cString_eq_self hzero]
  obtain ⟨k₁, hk₁⟩ : ∃ k₁, credentialsLen = name.length + (k₁ + 1) :=
    ⟨credentialsLen - name.length - 1, by unfold credentialsLen; omega⟩
  obtain ⟨k₂, hk₂⟩ : ∃ k₂, credentialsLen = (pass ++ [10]).length + (k₂ + 1) := by
    rw [List.length_append, List.length_singleton]
    exact ⟨credentialsLen - pass.length - 2, by unfold credentialsLen; omega⟩
  have hsplit : splitstr (name ++ 58 :: (pass ++ [10])) 58 clearCredentials
      clearCredentials = .ok (true, some (name ++ List.replicate (k₁ + 1) 0),
        some (pass ++ [10] ++ List.replicate (k₂ + 1) 0)) := by
    rw [← splitstr_spec (k₁ + 1) (k₂ + 1) h.no_colon, ← hk₁, ← hk₂]
    rfl
  have husr := strlen_padded k₁ h.name_no_nul
  have hpwd : strlen (some (pass ++ [10] ++ List.replicate (k₂ + 1) 0)) =
      .ok (pass ++ [10]).length :=
    strlen_padded k₂ (by simp [h.pass_no_nul])
  obtain ⟨junk, hjunk, hsize⟩ : ∃ junk : List UInt8,
      (List.range credentialsLen).map fresh = junk ∧ junk.length = 100 :=
    ⟨_, rfl, by rw [List.length_map, List.length_range]; rfl⟩
  have hroom : 1 + name.length + 1 + (pass ++ [10]).length ≤ junk.length := by
    rw [hsize, List.length_append, List.length_singleton]
    omega
  obtain ⟨b₁, b₂, b₃, rest, h₁, h₂, h₃, h₄⟩ := exists_layout
    (UInt8.ofNat name.length)
    (UInt8.ofInt (((pass ++ [10]).length : ℤ) - 1)) hroom
  have hname : name.length ≠ 0 := List.length_eq_zero_iff.not.mpr h.name_ne
  have hinput : ¬ credentialsLen < (name ++ 58 :: pass).length := by
    rw [List.length_append, List.length_cons, Nat.not_lt]
    unfold credentialsLen
    omega
  unfold clientCredentials
  rw [if_neg hinput, hauth]
  dsimp only
  rw [hsplit, ok_bind]
  dsimp only
  rw [hjunk, husr, ok_bind, h₁, ok_bind, hpwd, ok_bind, if_neg (by simp [hname]),
    Option.getD_some, List.take_left, h₂, ok_bind, h₃, ok_bind,
    Option.getD_some, List.take_left, h₄, ok_bind, Option.getD_some]
  have hcount : 1 + name.length + 1 + (pass ++ [10]).length =
      (UInt8.ofNat name.length :: name ++
        UInt8.ofInt (((pass ++ [10]).length : ℤ) - 1) :: (pass ++ [10])).length := by
    simp only [List.length_append, List.length_cons]
    omega
  have hdeclared : (((pass ++ [10]).length : ℤ) - 1) = (pass.length : ℤ) := by
    rw [List.length_append, List.length_singleton]
    omega
  rw [hcount, List.take_left, hdeclared, ofInt_natCast_eq]
  simp [adminCredentialsMessage, lengthByte]

end Socksv5
