import Socksv5.Admin.AuthParser
import Socksv5.Session.Effects

/-!
# Comparing credentials

The fields of an authentication message may hold any bytes, and are compared
with `strcmp`, that is, as far as their first NUL.  What follows says for which
messages and which tables this is the comparison of the whole fields, in
`auth_read` and in `admin_auth_read`.
-/

namespace Socksv5

open Support

/-- The reply of `auth_read` for a verdict; `auth_init` has set it to
`AUTH_FAIL`. -/
def authReply (parameters : Parameters) (p : AuthParser) : Except Fault UInt8 :=
  if p.state = .done then
    match p.user, p.password with
    | some user, some password =>
        .ok (if authenticateUser parameters user password then authSuccess
          else authFail)
    | _, _ => .error .nullDereference
  else .ok authFail

/-- What `auth_read` does with the chunks it receives, as long as the parser
gives no verdict, and the reply. -/
def receiveAuth (parameters : Parameters) (chunks : List (List UInt8))
    (b : Buffer) (a : Allocs) : Except Fault UInt8 := do
  let (_, (p, _), _) ←
    consumeChunks authParserFeed authFinal chunks b (authParserInit, a)
  authReply parameters p

/-- The branches of `admin_auth_read` for a verdict. -/
def adminAuthenticate (parameters : Parameters) (p : AdminAuthParser) :
    Except Fault AdminAuthParser :=
  if p.state = .done then
    match p.user, p.password with
    | some user, some password =>
        .ok { p with ret :=
          if authenticateAdmin parameters user password then adminAuthSuccess
          else adminAuthBadCredentials }
    | _, _ => .error .nullDereference
  else if p.state = .badSyntax then .ok { p with ret := adminAuthBadSyntax }
  else .ok p

/-- What `admin_auth_read` does with the chunks it receives, as long as the
parser gives no verdict, and the answer. -/
def receiveAdminAuth (parameters : Parameters) (chunks : List (List UInt8))
    (b : Buffer) (p : AdminAuthParser) (a : Allocs) : Except Fault ℤ := do
  let (_, (p, _), _) ← consumeChunks adminAuthParserFeed adminAuthFinal chunks b
    (adminAuthParserInit p, a)
  let p ← adminAuthenticate parameters p
  .ok p.ret

/-- The reply of `auth_read` is the one of the session. -/
theorem authenticate_reply {sys : Sys} {w w' : World}
    (h : authenticate sys w = .ok w') (hreply : w.session.auth.reply = authFail) :
    authReply sys.parameters w.session.auth.parser =
      .ok w'.session.auth.reply := by
  unfold authenticate at h
  unfold authReply
  dsimp only at h
  by_cases hdone : w.session.auth.parser.state = .done
  · rw [if_pos hdone] at h ⊢
    cases huser : w.session.auth.parser.user with
    | none => simp [huser] at h
    | some user =>
        cases hpass : w.session.auth.parser.password with
        | none => simp [huser, hpass] at h
        | some password =>
            simp only [huser, hpass] at h ⊢
            by_cases hok :
                authenticateUser sys.parameters user password = true
            · rw [if_pos hok] at h
              cases h
              rw [if_pos hok]
            · rw [if_neg hok] at h
              cases h
              rw [if_neg hok]
  · rw [if_neg hdone] at h ⊢
    cases h
    rw [hreply]

/-- The event of `auth_read` that answers has set the reply that the verdict of
the parser gets. -/
theorem authRead_reply {sys : Sys} {fd : ℤ} {w w' : World}
    (hreply : w.session.auth.reply = authFail)
    (h : authRead sys fd w = .ok (.authWrite, w')) :
    authReply sys.parameters w'.session.auth.parser =
      .ok w'.session.auth.reply := by
  obtain ⟨⟨received, w₁⟩, hrecv, h⟩ := bind_eq_ok.mp h
  obtain ⟨-, rfl⟩ := World.recvInto_spec hrecv
  rcases received with ⟨bs, rb⟩ | - | - | -
  · obtain ⟨⟨rb', parser, a⟩, -, h⟩ := bind_eq_ok.mp h
    dsimp only at h
    by_cases hfinal : parser.state.final = true
    · rw [if_pos hfinal] at h
      obtain ⟨w₂, hauth, h⟩ := bind_eq_ok.mp h
      have hanswer := authenticate_reply hauth hreply
      obtain ⟨reply, user, calls, -, rfl⟩ := authenticate_spec hauth
      obtain ⟨⟨status, w₃⟩, hset, h⟩ := bind_eq_ok.mp h
      obtain ⟨s, -, rfl⟩ := World.setInterestKey_spec hset
      dsimp only at h
      by_cases hstatus : status = .success
      · rw [if_neg (by simpa using hstatus)] at h
        obtain ⟨wb, -, h⟩ := bind_eq_ok.mp h
        cases h
        exact hanswer
      · rw [if_pos hstatus] at h
        cases h
    · rw [if_neg hfinal] at h
      cases h
  all_goals cases h

/-! ## When the comparison is complete -/

/-- An answer that is given exactly for the fields that are listed, as byte
strings. -/
def AnswersInFull {α : Type} (success : α) (table : List User)
    (name pass : List UInt8) (r : Except Fault α) : Prop :=
  ∃ answer, r = .ok answer ∧ (answer = success ↔ Listed table name pass)

/-- With memory, the fields have no NUL byte unless no entry of the table is
what comes before it; and without, they are not listed. -/
def ComparedInFull (table : List User) (name pass : List UInt8) (a : Allocs) :
    Prop :=
  if OutOfMemory a then ¬ Listed table name pass
  else Listed table (cString name) (cString pass) → 0 ∉ name ∧ 0 ∉ pass

/-- Listed fields have no NUL byte. -/
theorem Listed.no_nul {table : List User} {name pass : List UInt8}
    (h : Listed table name pass) : 0 ∉ name ∧ 0 ∉ pass := by
  obtain ⟨u, -, rfl, rfl⟩ := h
  exact ⟨zero_not_mem_cString _, zero_not_mem_cString _⟩

theorem answersInFull_iff {α : Type} {success answer : α} {table : List User}
    {name pass : List UInt8} {a : Allocs}
    (h : answer = success ↔
      ¬ OutOfMemory a ∧ Listed table (cString name) (cString pass)) :
    AnswersInFull success table name pass (.ok answer) ↔
      ComparedInFull table name pass a := by
  have hanswers : AnswersInFull success table name pass (.ok answer) ↔
      (answer = success ↔ Listed table name pass) := by
    constructor
    · rintro ⟨answer', heq, hiff⟩
      cases heq
      exact hiff
    · intro hiff
      exact ⟨answer, rfl, hiff⟩
  rw [hanswers, h, ComparedInFull]
  by_cases hmem : OutOfMemory a
  · simp [hmem]
  · rw [if_neg hmem]
    constructor
    · intro hiff hlisted
      exact (hiff.mp ⟨hmem, hlisted⟩).no_nul
    · intro hfull
      constructor
      · rintro ⟨-, hlisted⟩
        obtain ⟨hname, hpass⟩ := hfull hlisted
        rwa [cString_eq_self hname, cString_eq_self hpass] at hlisted
      · intro hlisted
        obtain ⟨hname, hpass⟩ := hlisted.no_nul
        rw [cString_eq_self hname, cString_eq_self hpass]
        exact ⟨hmem, hlisted⟩

/-- The reply for a message. -/
theorem receiveAuth_eq (parameters : Parameters) {u w tail : List UInt8}
    {chunks : List (List UInt8)} {b : Buffer} (a : Allocs)
    (hu : FieldLength u) (hw : FieldLength w) (hrecv : Receivable b chunks)
    (hstart : b.pending = [] ∨ chunks ≠ [])
    (hstream : b.pending ++ chunks.flatten = credentialsMessage u w ++ tail) :
    ∃ reply, receiveAuth parameters chunks b a = .ok reply ∧
      (reply = authSuccess ↔
        ¬ OutOfMemory a ∧ Listed parameters.users (cString u) (cString w)) := by
  obtain ⟨s, rest, hdecode, hs⟩ := decode_credentials hu hw tail a
  rw [← hstream, ← consumeChunks_decode hrecv rfl hstart] at hdecode
  obtain ⟨⟨b', ⟨p, a'⟩, later⟩, hchunks, heq⟩ := bind_eq_ok.mp hdecode
  cases heq
  rw [receiveAuth, hchunks, ok_bind]
  rcases hs with ⟨hmem, hbad⟩ | ⟨hmem, hdone, -⟩
  · dsimp only at hbad ⊢
    rw [authReply, if_neg (by simp [hbad])]
    exact ⟨_, rfl, by simp [hmem, authFail, authSuccess]⟩
  · dsimp only at hdone ⊢
    rw [hdone, authReply, credentialsRead, if_pos rfl]
    refine ⟨_, rfl, ?_⟩
    rw [← authenticateUser_iff]
    split
    · rename_i hok
      simp [hmem, hok]
    · rename_i hok
      simp [hok, authFail, authSuccess]

theorem receiveAdminAuth_eq (parameters : Parameters) {u w tail : List UInt8}
    {chunks : List (List UInt8)} {b : Buffer} (p : AdminAuthParser) (a : Allocs)
    (hu : FieldLength u) (hw : FieldLength w) (hrecv : Receivable b chunks)
    (hstart : b.pending = [] ∨ chunks ≠ [])
    (hstream : b.pending ++ chunks.flatten =
      adminCredentialsMessage u w ++ tail) :
    ∃ ret, receiveAdminAuth parameters chunks b p a = .ok ret ∧
      (ret = adminAuthSuccess ↔
        ¬ OutOfMemory a ∧ Listed parameters.admin (cString u) (cString w)) := by
  obtain ⟨s, rest, hdecode, hs⟩ := decode_adminCredentials p hu hw tail a
  rw [← hstream, ← consumeChunks_decode hrecv rfl hstart] at hdecode
  obtain ⟨⟨b', ⟨p', a'⟩, later⟩, hchunks, heq⟩ := bind_eq_ok.mp hdecode
  cases heq
  rw [receiveAdminAuth, hchunks, ok_bind]
  rcases hs with ⟨hmem, hbad⟩ | ⟨hmem, hdone, huser, hpass, -⟩
  · dsimp only at hbad ⊢
    rw [adminAuthenticate, if_neg (by simp [hbad]), if_pos hbad, ok_bind]
    exact ⟨_, rfl, by simp [hmem, adminAuthBadSyntax, adminAuthSuccess]⟩
  · dsimp only at hdone huser hpass ⊢
    rw [adminAuthenticate, if_pos hdone, huser, hpass]
    dsimp only
    rw [ok_bind]
    refine ⟨_, rfl, ?_⟩
    rw [← authenticateAdmin_iff]
    dsimp only
    split
    · rename_i hok
      simp [hmem, hok]
    · rename_i hok
      simp [hok, adminAuthBadCredentials, adminAuthSuccess]

/-- The fields are compared in full exactly when what `strcmp` ignores of them
makes no difference. -/
theorem comparedInFull_iff (parameters : Parameters) {u w : List UInt8}
    (a : Allocs) (hu : FieldLength u) (hw : FieldLength w) :
    (∀ chunks b tail, Receivable b chunks → (b.pending = [] ∨ chunks ≠ []) →
      b.pending ++ chunks.flatten = credentialsMessage u w ++ tail →
        (AnswersInFull authSuccess parameters.users u w
            (receiveAuth parameters chunks b a) ↔
          ComparedInFull parameters.users u w a)) ∧
    (∀ chunks b p tail, Receivable b chunks →
      (b.pending = [] ∨ chunks ≠ []) →
      b.pending ++ chunks.flatten = adminCredentialsMessage u w ++ tail →
        (AnswersInFull adminAuthSuccess parameters.admin u w
            (receiveAdminAuth parameters chunks b p a) ↔
          ComparedInFull parameters.admin u w a)) := by
  constructor
  · intro chunks b tail hrecv hstart hstream
    obtain ⟨reply, hresult, hreply⟩ :=
      receiveAuth_eq parameters a hu hw hrecv hstart hstream
    rw [hresult]
    exact answersInFull_iff hreply
  · intro chunks b p tail hrecv hstart hstream
    obtain ⟨ret, hresult, hret⟩ :=
      receiveAdminAuth_eq parameters p a hu hw hrecv hstart hstream
    rw [hresult]
    exact answersInFull_iff hret

/-- The user `ab` with the password `cd`. -/
def oneUser : Parameters := { users := [⟨[97, 98, 0], [99, 100, 0]⟩] }

theorem comparedInFull_of_oneUser :
    AnswersInFull authSuccess oneUser.users [97, 98] [99, 100]
      (receiveAuth oneUser [[1, 2, 97], [98, 2, 99, 100]]
        (.init maxBuffSize fun _ => 0) []) := by
  apply ((comparedInFull_iff oneUser [] (u := [97, 98]) (w := [99, 100])
    (by simp [FieldLength]) (by simp [FieldLength])).1 _ _ []
      (by simp [Receivable, maxBuffSize, Buffer.init, Buffer.room])
      (Or.inl rfl) rfl).mpr
  rw [ComparedInFull, if_neg (by decide)]
  intro _
  decide

/-- What follows a NUL byte in the user's name is ignored. -/
theorem not_comparedInFull_past_nul :
    ¬ AnswersInFull authSuccess oneUser.users [97, 98, 0, 120] [99, 100]
      (receiveAuth oneUser [[1, 4, 97, 98, 0, 120, 2, 99, 100]]
        (.init maxBuffSize fun _ => 0) []) := by
  have hrecv : Receivable (.init maxBuffSize fun _ => 0)
      [[1, 4, 97, 98, 0, 120, 2, 99, 100]] := by
    simp [Receivable, maxBuffSize, Buffer.init, Buffer.room]
  obtain ⟨reply, hresult, hreply⟩ := @receiveAuth_eq oneUser
    [97, 98, 0, 120] [99, 100] [] _ _ [] (by simp [FieldLength])
    (by simp [FieldLength]) hrecv (Or.inl rfl) rfl
  rw [hresult, answersInFull_iff hreply, ComparedInFull, if_neg (by decide)]
  intro h
  have hlisted : Listed oneUser.users (cString [97, 98, 0, 120])
      (cString [99, 100]) := ⟨⟨[97, 98, 0], [99, 100, 0]⟩, by decide⟩
  exact absurd (h hlisted) (by decide)

end Socksv5
