import Socksv5.Admin.Appending

/-!
# The scratch string of the user listing

`load_users` reallocates `*aux` for each user: to the length of the text so far
and 25 more than the lengths of the name and of the password.  That is what the
line of the user and the terminator take, so the text fills the string exactly
after every turn.
-/

namespace Socksv5

open Support

/-- The size that `*aux` has been given last, when so many of the users have
been listed. -/
def listingSize (us : List User) : ℕ :=
  if us = [] then answerLen else (us.flatMap userLine).length + 1

/-- The string has the size that it has been given, and holds the lines of the
users and their terminator. -/
def ListsUsers (us : List User) (aux : Option Block) : Prop :=
  ∃ block, aux = some block ∧ us.flatMap userLine ++ [0] <+: block ∧
    block.length = listingSize us

theorem zero_not_mem_listing (us : List User) : 0 ∉ us.flatMap userLine := by
  rw [List.mem_flatMap]
  rintro ⟨u, -, hu⟩
  exact zero_not_mem_userLine u hu

/-- The allocation that `realloc` makes is taken from those to come. -/
theorem realloc_snd (p : Option Block) (n : ℕ) (m : Mallocs) :
    (realloc p n m).2 = m.tail := by
  rcases m with - | ⟨- | contents, m⟩ <;> rfl

/-- Printing does not change the size. -/
theorem length_sprintf {block : Block} {i : ℕ} {text : List UInt8}
    {aux : Option Block} (h : sprintf (some block) i text = .ok aux) :
    ∃ block', aux = some block' ∧ block'.length = block.length := by
  unfold sprintf at h
  dsimp only at h
  split at h
  case isTrue hfits =>
    cases h
    refine ⟨_, rfl, ?_⟩
    simp only [List.length_append, List.length_take, List.length_cons,
      List.length_drop]
    omega
  case isFalse => cases h

/-- The loop does not get past a user for whom there is no memory. -/
theorem loadUsersLoop_null {u : User} {us : List User} {block : Block}
    {m : Mallocs} (hname : 0 ∈ u.name) (hpass : 0 ∈ u.pass)
    (hblock : 0 ∈ block) :
    loadUsersLoop (u :: us) (some block) (none :: m) =
      .error .nullDereference := by
  rw [loadUsersLoop, strlen_of_mem hname, ok_bind, strlen_of_mem hpass, ok_bind,
    strlen_of_mem hblock, ok_bind]
  rfl

/-- One turn of the loop. -/
theorem loadUsersLoop_cons {u : User} {listed : List User}
    {aux : Option Block} {m : Mallocs} (haux : ListsUsers listed aux)
    (hname : 0 ∈ u.name) (hpass : 0 ∈ u.pass) (hm : m.head? ≠ some none) :
    ∃ aux', ListsUsers (listed ++ [u]) aux' ∧
      ∀ us, loadUsersLoop (u :: us) aux m = loadUsersLoop us aux' m.tail := by
  obtain ⟨block, rfl, hpre, -⟩ := haux
  have hholds : HoldsText (some block) (listed.flatMap userLine) :=
    ⟨block, rfl, hpre⟩
  have hzero := zero_not_mem_listing listed
  have hline := length_userLine u
  have hroom : (listed.flatMap userLine).length <
      (listed.flatMap userLine).length +
        (25 + (cString u.name).length + (cString u.pass).length) := by
    omega
  have hm₁ : none ∉ m.take (0 + 1) := by
    cases m with
    | nil => simp
    | cons contents m =>
        rw [List.take_succ_cons, List.take_zero, List.mem_singleton]
        rintro rfl
        exact hm rfl
  obtain ⟨block₁, hblock, hlen, hpre₁, -⟩ := hholds.realloc hroom hm₁
  have hstrlen := HoldsText.strlen ⟨block₁, rfl, hpre₁⟩ hzero
  have hfits : (listed.flatMap userLine).length + (userLine u).length <
      block₁.length := by
    omega
  obtain ⟨aux', hprint, hholds'⟩ :=
    HoldsText.sprintf ((List.prefix_append _ _).trans hpre₁) hfits
  obtain ⟨block', rfl, hlen'⟩ := length_sprintf hprint
  obtain ⟨b, heq, hpre'⟩ := hholds'
  cases heq
  have htext : (listed ++ [u]).flatMap userLine =
      listed.flatMap userLine ++ userLine u := by
    rw [List.flatMap_append, List.flatMap_singleton]
  refine ⟨some block', ⟨block', rfl, ?_, ?_⟩, fun us => ?_⟩
  · rw [htext]
    exact hpre'
  · rw [listingSize, if_neg (by simp), htext, List.length_append]
    omega
  · rw [loadUsersLoop, strlen_of_mem hname, ok_bind, strlen_of_mem hpass, ok_bind,
      hholds.strlen hzero, ok_bind]
    dsimp only
    rw [hblock, hstrlen, ok_bind, hprint, ok_bind, realloc_snd]

/-- The loop after any number of users: the text and its terminator are within
the size that the string has been given last, or there was no memory for it. -/
theorem loadUsersLoop_lists {us listed : List User} {aux : Option Block}
    {m : Mallocs} (haux : ListsUsers listed aux)
    (hus : ∀ u ∈ us, 0 ∈ u.name ∧ 0 ∈ u.pass) :
    (none ∉ m.take us.length ∧ ∃ aux', ListsUsers (listed ++ us) aux' ∧
      loadUsersLoop us aux m = .ok aux') ∨
    (none ∈ m.take us.length ∧
      loadUsersLoop us aux m = .error .nullDereference) := by
  induction us generalizing listed aux m with
  | nil =>
      left
      refine ⟨by simp, aux, ?_, rfl⟩
      rw [List.append_nil]
      exact haux
  | cons u us ih =>
      obtain ⟨hname, hpass⟩ := hus u List.mem_cons_self
      by_cases hm : m.head? = some none
      · right
        obtain ⟨m, rfl⟩ : ∃ m', m = none :: m' := by
          cases m with
          | nil => cases hm
          | cons contents m =>
              cases hm
              exact ⟨m, rfl⟩
        obtain ⟨block, rfl, hpre, -⟩ := haux
        exact ⟨List.mem_cons_self,
          loadUsersLoop_null hname hpass (hpre.subset (by simp))⟩
      · obtain ⟨aux₁, haux₁, hturn⟩ := loadUsersLoop_cons haux hname hpass hm
        have hrest := ih (m := m.tail) haux₁ fun v hv =>
          hus v (List.mem_cons_of_mem _ hv)
        have hmem : none ∈ m.take (us.length + 1) ↔ none ∈ m.tail.take us.length := by
          cases m with
          | nil => simp
          | cons contents m =>
              rw [List.take_succ_cons, List.mem_cons, List.tail_cons]
              refine or_iff_right fun heq => hm ?_
              rw [← heq]
              rfl
        rw [hturn, List.length_cons, hmem]
        rw [List.append_assoc] at hrest
        exact hrest

/-- What `malloc` returns is emptied. -/
theorem listsUsers_nil {aux : Block} (haux : aux.length = answerLen) :
    ∃ start, putByte (some aux) 0 0 = .ok start ∧ ListsUsers [] start := by
  cases aux with
  | nil => cases haux
  | cons c cs =>
      refine ⟨some (0 :: cs), rfl, 0 :: cs, rfl, ⟨cs, rfl⟩, ?_⟩
      rw [listingSize, if_pos rfl, ← haux, List.length_cons, List.length_cons]

theorem length_listing_le {us : List User} (hcount : us.length ≤ maxUsers)
    (hus : ∀ u ∈ us, IsCredential u.name ∧ IsCredential u.pass) :
    (us.flatMap userLine).length ≤ 1240 := by
  have htyped : Metrics.Typed {} := ⟨by decide, by decide, by decide⟩
  have hvalid : Globals.Valid { parameters := { users := us } } :=
    ⟨htyped.historical_ge, htyped.historical_lt, htyped.total_lt, hcount, hus⟩
  exact hvalid.length_users

/-- The answer to the command that lists the users. -/
theorem adminReqFillMsg_listUsers {b : Buffer} {p : ReqParser} {g : Globals}
    {contents : ℕ → UInt8} {m : Mallocs} (hroom : 0 < b.room)
    (hstate : p.state ≠ .invalidCmd) (hcmd : p.cmdSelected = 51)
    (hus : ∀ u ∈ g.parameters.users, 0 ∈ u.name ∧ 0 ∈ u.pass)
    (hm : none ∉ m.take g.parameters.users.length) :
    adminReqFillMsg b p g (some contents :: m) =
      (b.put (g.parameters.users.flatMap userLine ++ [0]) >>= fun b' =>
        .ok (b', adminReqParserInit p, g, some .listUsers)) := by
  have hpos : 0 < ((List.range answerLen).map contents).length := by
    rw [List.length_map, List.length_range]
    decide
  obtain ⟨aux, hload, hholds⟩ := exists_loadUsers b hpos hm hus
  have hzero := zero_not_mem_listing g.parameters.users
  unfold adminReqFillMsg performCommand
  rw [if_neg (by omega), malloc]
  dsimp only
  rw [if_neg hstate, if_neg (by rw [hcmd]; decide), if_neg (by rw [hcmd]; decide),
    if_pos hcmd, hload]
  cases hstore : b.store (g.parameters.users.flatMap userLine ++ [0]) with
  | error e =>
      rw [Buffer.put, hstore]
      rfl
  | ok b₁ =>
      rw [ok_bind, ok_bind, ok_bind]
      dsimp only
      rw [hholds.strlen hzero, ok_bind, store_writeAdv hstore]

/-- For every table of users that the server can have: after each turn of the
loop of `load_users` the lines of the users so far and their terminator are
within the size that `*aux` has been given last (or `realloc` has failed, and
the loop stops at the null pointer), and the answer is stored in an empty write
buffer. -/
theorem user_listing_fits {parameters : Parameters}
    (hcount : parameters.users.length ≤ maxUsers)
    (hcredentials : ∀ u ∈ parameters.users,
      IsCredential u.name ∧ IsCredential u.pass)
    (contents : ℕ → UInt8) (m : Mallocs) :
    (∃ start, putByte (some ((List.range answerLen).map contents)) 0 0 =
        .ok start ∧
      ∀ us, us <+: parameters.users →
        (none ∉ m.take us.length ∧ ∃ aux, ListsUsers us aux ∧
          loadUsersLoop us start m = .ok aux) ∨
        (none ∈ m.take us.length ∧
          loadUsersLoop us start m = .error .nullDereference)) ∧
    ∀ (b : Buffer) (p : ReqParser) (g : Globals), g.parameters = parameters →
      b.pending = [] → b.room = maxBuffSize → p.state ≠ .invalidCmd →
      p.cmdSelected = 51 → none ∉ m.take parameters.users.length →
      ∃ b', adminReqFillMsg b p g (some contents :: m) =
          .ok (b', adminReqParserInit p, g, some .listUsers) ∧
        b'.pending = parameters.users.flatMap userLine ++ [0] := by
  have hstrings : ∀ u ∈ parameters.users, 0 ∈ u.name ∧ 0 ∈ u.pass :=
    fun u hu => ⟨(hcredentials u hu).1.1, (hcredentials u hu).2.1⟩
  constructor
  · have hlen : ((List.range answerLen).map contents).length = answerLen := by
      rw [List.length_map, List.length_range]
    obtain ⟨start, hstart, hempty⟩ := listsUsers_nil hlen
    refine ⟨start, hstart, fun us hus => ?_⟩
    exact loadUsersLoop_lists hempty fun u hu => hstrings u (hus.subset hu)
  · rintro b p g rfl hpending hroom hstate hcmd hm
    have hle := length_listing_le hcount hcredentials
    have hfits : (g.parameters.users.flatMap userLine ++ [0]).length ≤ b.room := by
      rw [hroom, List.length_append, List.length_singleton, maxBuffSize]
      omega
    obtain ⟨b', hput⟩ := Buffer.exists_put hfits
    have hpos : 0 < b.room := by
      rw [hroom]
      decide
    refine ⟨b', ?_, ?_⟩
    · rw [adminReqFillMsg_listUsers hpos hstate hcmd hstrings hm, hput]
      rfl
    · rw [(Buffer.put_spec hput).1, hpending, List.nil_append]

/-- Ten users with the longest names and passwords. -/
theorem user_listing_fits_crowded : ∃ b',
    adminReqFillMsg (.init maxBuffSize fun _ => 0)
        { state := .done, cmdSelected := 51 }
        { parameters := crowdedParameters } [some fun _ => 0] =
      .ok (b', adminReqParserInit { state := .done, cmdSelected := 51 },
        { parameters := crowdedParameters }, some .listUsers) ∧
    b'.pending = crowdedParameters.users.flatMap userLine ++ [0] := by
  have hcredentials : ∀ u ∈ crowdedParameters.users,
      IsCredential u.name ∧ IsCredential u.pass := by
    intro u hu
    obtain rfl := List.eq_of_mem_replicate hu
    exact ⟨⟨by decide, by decide⟩, by decide, by decide⟩
  exact (user_listing_fits (by decide) hcredentials (fun _ => 0) []).2 _ _ _ rfl
    rfl rfl (by decide) rfl (by rw [List.take_nil]; exact List.not_mem_nil)

end Socksv5
