import Socksv5.Admin.BufferSize
import Socksv5.Admin.PartialSend
import Socksv5.Admin.UserTable
import Socksv5.Support.Refinement

/-!
# The accounts

What the server decides about its users, in the abstract: who is let in as an
administrator or as a client, and what the commands make of the tables.  The
second half says that a connection of an administrator decides as the accounts
allow, given that they allow it to give commands.
-/

namespace Socksv5

open Support

/-! ## The abstract accounts -/

/-- Something that the server decides: it accepts a new administrator on a
descriptor, judges the credentials that one sends, performs a command for one,
or authenticates a client. -/
inductive Decision
  | accepts (fd : ℤ)
  | judges (fd : ℤ) (name pass : List UInt8) (ok : Bool)
  | performs (fd : ℤ) (command : Performed)
  | authenticates (client : ℕ) (name pass : List UInt8) (ok : Bool)

/-- The names and passwords of the users and of the administrators, the size of
the buffers, and the descriptors on which administrators have been let in. -/
structure Accounts where
  users : List (List UInt8 × List UInt8)
  admins : List (List UInt8 × List UInt8)
  bufferSize : ℕ
  admitted : Set ℤ

namespace Accounts

/-- `acc.Performs command acc'`: the command, with the result that it has, makes
`acc'` of the accounts. -/
inductive Performs (acc : Accounts) : Performed → Accounts → Prop
  | metrics : acc.Performs .metrics acc
  | listUsers : acc.Performs .listUsers acc
  | adds {name pass : List UInt8} : name.length ≤ maxCredentialsLen →
      pass.length ≤ maxCredentialsLen → acc.users.length < maxUsers →
      acc.Performs (.addUser name pass 0)
        { acc with users := acc.users ++ [(name, pass)] }
  | full {name pass : List UInt8} : name.length ≤ maxCredentialsLen →
      pass.length ≤ maxCredentialsLen → maxUsers ≤ acc.users.length →
      acc.Performs (.addUser name pass (-1)) acc
  | tooLong {name pass : List UInt8} :
      maxCredentialsLen < name.length ∨ maxCredentialsLen < pass.length →
      acc.Performs (.addUser name pass (-2)) acc
  | resizes {digits : List UInt8} : IsBufferSize (digits.foldl nextSize 0) →
      acc.Performs (.changeBufferSize digits 0)
        { acc with bufferSize := digits.foldl nextSize 0 }
  | keepsSize {digits : List UInt8} :
      ¬ IsBufferSize (digits.foldl nextSize 0) →
      acc.Performs (.changeBufferSize digits (-1)) acc

/-- `Allows acc d acc'`: the decision is right, and makes `acc'` of the
accounts. -/
inductive Allows : Accounts → Decision → Accounts → Prop
  | accepts {acc : Accounts} {fd : ℤ} :
      Allows acc (.accepts fd) { acc with admitted := acc.admitted \ {fd} }
  | admits {acc : Accounts} {fd : ℤ} {name pass : List UInt8} :
      (name, pass) ∈ acc.admins → Allows acc (.judges fd name pass true)
        { acc with admitted := insert fd acc.admitted }
  | rejects {acc : Accounts} {fd : ℤ} {name pass : List UInt8} :
      (name, pass) ∉ acc.admins → Allows acc (.judges fd name pass false) acc
  | performs {acc acc' : Accounts} {fd : ℤ} {command : Performed} :
      fd ∈ acc.admitted → acc.Performs command acc' →
      Allows acc (.performs fd command) acc'
  | authenticates {acc : Accounts} {client : ℕ} {name pass : List UInt8}
      {ok : Bool} : (ok = true ↔ (name, pass) ∈ acc.users) →
      Allows acc (.authenticates client name pass ok) acc

end Accounts

namespace Accounts

variable {acc acc' : Accounts} {ds : List Decision}

theorem Performs.admins_eq {command : Performed} (h : acc.Performs command acc') :
    acc'.admins = acc.admins ∧ acc'.admitted = acc.admitted := by
  cases h <;> exact ⟨rfl, rfl⟩

theorem Allows.admins_eq {d : Decision} (h : Allows acc d acc') :
    acc'.admins = acc.admins := by
  cases h with
  | performs _ h => exact h.admins_eq.1
  | accepts | admits | rejects | authenticates => rfl

end Accounts

/-! ## What the commands do -/

/-- The names and passwords of a table. -/
def credentialsOf (table : List User) : List (List UInt8 × List UInt8) :=
  table.map fun u => (cString u.name, cString u.pass)

theorem any_sameString_eq_true_iff {table : List User} {user password : Block} :
    (table.any fun u => sameString user u.name && sameString password u.pass) = true ↔
      (cString user, cString password) ∈ credentialsOf table := by
  rw [List.any_eq_true, credentialsOf, List.mem_map]
  apply exists_congr
  intro u
  rw [Bool.and_eq_true, sameString, sameString, decide_eq_true_iff,
    decide_eq_true_iff, Prod.mk.injEq, eq_comm, eq_comm (a := cString password)]

/-- The accounts are those of the global variables. -/
structure Accounts.Of (acc : Accounts) (g : Globals) : Prop where
  users : acc.users = credentialsOf g.parameters.users
  admins : acc.admins = credentialsOf g.parameters.admin
  bufferSize : acc.bufferSize = g.bufferSize

/-- `add_user` registers a user, or says why not. -/
theorem addUser_performs {acc : Accounts} {g : Globals} (hacc : acc.Of g)
    {name pass : Option Block} {p : Parameters} {ret : ℤ}
    (h : addUser name pass g.parameters = .ok (ret, p)) :
    ∃ acc', acc.Performs
        (.addUser (cString (name.getD [])) (cString (pass.getD [])) ret) acc' ∧
      acc'.Of { g with parameters := p } := by
  have hlength : acc.users.length = g.parameters.users.length := by
    rw [hacc.users, credentialsOf, List.length_map]
  unfold addUser at h
  obtain ⟨k, hk, h⟩ := bind_eq_ok.mp h
  obtain ⟨w, rfl, hw, rfl⟩ := strlen_eq_ok hk
  by_cases hlong : maxCredentialsLen < (cString w).length
  · rw [if_pos hlong] at h
    cases h
    exact ⟨acc, .tooLong (.inr hlong), hacc⟩
  · rw [if_neg hlong] at h
    obtain ⟨j, hj, h⟩ := bind_eq_ok.mp h
    obtain ⟨n, rfl, hn, rfl⟩ := strlen_eq_ok hj
    by_cases hlong' : maxCredentialsLen < (cString n).length
    · rw [if_pos hlong'] at h
      cases h
      exact ⟨acc, .tooLong (.inl hlong'), hacc⟩
    · rw [if_neg hlong'] at h
      by_cases hroom : g.parameters.users.length < maxUsers
      · rw [if_pos hroom] at h
        cases h
        refine ⟨_, .adds (by simpa using hlong') (by simpa using hlong)
          (by rwa [hlength]), ?_, hacc.admins, hacc.bufferSize⟩
        simp [hacc.users, credentialsOf]
      · rw [if_neg hroom] at h
        cases h
        exact ⟨acc, .full (by simpa using hlong') (by simpa using hlong)
          (by omega), hacc⟩

/-- `change_buffer_size` sets the size, or refuses it. -/
theorem changeBufferSize_performs {acc : Accounts} {g : Globals} (hacc : acc.Of g)
    {newBuffSize : Option Block} {size : ℕ} {ret : ℤ}
    (h : changeBufferSize newBuffSize g.bufferSize = .ok (ret, size)) :
    ∃ acc', acc.Performs
        (.changeBufferSize (cString (newBuffSize.getD [])) ret) acc' ∧
      acc'.Of { g with bufferSize := size } := by
  obtain ⟨n, hn, h⟩ := bind_eq_ok.mp h
  obtain ⟨block, rfl, hblock, rfl⟩ := strlen_eq_ok hn
  have htake : block.take (cString block).length = cString block :=
    (List.prefix_iff_eq_take.mp (List.takeWhile_prefix _)).symm
  simp only [Option.getD_some, htake] at h
  by_cases hsize : IsBufferSize ((cString block).foldl nextSize 0)
  · rw [setBuffSize_of_isBufferSize hsize] at h
    cases h
    exact ⟨_, .resizes hsize, hacc.users, hacc.admins, rfl⟩
  · rw [setBuffSize_of_not_isBufferSize hsize] at h
    cases h
    exact ⟨acc, .keepsSize hsize, hacc⟩

/-- What `admin_req_fill_msg` performs, and what that makes of the accounts. -/
inductive Fills (acc : Accounts) (g : Globals) : Option Performed → Globals → Prop
  | nothing : Fills acc g none g
  | performs {command : Performed} {acc' : Accounts} {g' : Globals} :
      acc.Performs command acc' → acc'.Of g' → Fills acc g (some command) g'

theorem performCommand_fills {acc : Accounts} {g g' : Globals} (hacc : acc.Of g)
    {b b' : Buffer} {p : ReqParser} {aux aux' : Option Block} {m : Mallocs}
    {q : Option Performed}
    (h : performCommand b p g aux m = .ok (b', aux', g', q)) : Fills acc g q g' := by
  unfold performCommand at h
  by_cases hinvalid : p.state = .invalidCmd
  · rw [if_pos hinvalid] at h
    obtain ⟨aux₁, -, h⟩ := bind_eq_ok.mp h
    obtain ⟨b₁, -, h⟩ := bind_eq_ok.mp h
    cases h
    exact .nothing
  rw [if_neg hinvalid] at h
  by_cases hmetrics : p.cmdSelected = 49
  · rw [if_pos hmetrics] at h
    obtain ⟨⟨b₁, aux₁⟩, -, h⟩ := bind_eq_ok.mp h
    cases h
    exact .performs .metrics hacc
  rw [if_neg hmetrics] at h
  by_cases hadd : p.cmdSelected = 50
  · rw [if_pos hadd] at h
    obtain ⟨⟨ret, parameters⟩, hcreate, h⟩ := bind_eq_ok.mp h
    obtain ⟨aux₁, -, h⟩ := bind_eq_ok.mp h
    obtain ⟨b₁, -, h⟩ := bind_eq_ok.mp h
    cases h
    obtain ⟨acc', hperforms, hacc'⟩ := addUser_performs hacc hcreate
    exact .performs hperforms hacc'
  rw [if_neg hadd] at h
  by_cases hlist : p.cmdSelected = 51
  · rw [if_pos hlist] at h
    obtain ⟨⟨b₁, aux₁⟩, -, h⟩ := bind_eq_ok.mp h
    cases h
    exact .performs .listUsers hacc
  rw [if_neg hlist] at h
  by_cases hsize : p.cmdSelected = 52
  · rw [if_pos hsize] at h
    obtain ⟨⟨ret, size⟩, hchange, h⟩ := bind_eq_ok.mp h
    obtain ⟨aux₁, -, h⟩ := bind_eq_ok.mp h
    obtain ⟨b₁, -, h⟩ := bind_eq_ok.mp h
    cases h
    obtain ⟨acc', hperforms, hacc'⟩ := changeBufferSize_performs hacc hchange
    exact .performs hperforms hacc'
  · rw [if_neg hsize] at h
    cases h
    exact .nothing

theorem adminReqFillMsg_fills {acc : Accounts} {g g' : Globals} (hacc : acc.Of g)
    {b b' : Buffer} {p p' : ReqParser} {m : Mallocs} {q : Option Performed}
    (h : adminReqFillMsg b p g m = .ok (b', p', g', q)) : Fills acc g q g' := by
  unfold adminReqFillMsg at h
  by_cases hroom : b.room < 1
  · rw [if_pos hroom] at h
    cases h
    exact .nothing
  · rw [if_neg hroom] at h
    obtain ⟨⟨b₁, aux, g₁, q₁⟩, hperform, h⟩ := bind_eq_ok.mp h
    obtain ⟨n, -, h⟩ := bind_eq_ok.mp h
    obtain ⟨b₂, -, h⟩ := bind_eq_ok.mp h
    cases h
    exact performCommand_fills hacc hperform

/-! ## What a connection decides -/

/-- What a call of the connection on `fd` decides. -/
def AdminCall.decision (fd : ℤ) : AdminCall → Option Decision
  | .authenticate user password ok =>
      some (.judges fd (cString user) (cString password) ok)
  | .perform command => some (.performs fd command)
  | .recv _ _ | .send _ _ => none

/-- What a callback of state `s` decides in its calls, and what it makes of the
global variables `g`. -/
inductive AdminDecides (s : AdminState) (fd : ℤ) (g : Globals) :
    List AdminCall → Globals → Prop
  | nothing {calls : List AdminCall} : calls.filterMap (AdminCall.decision fd) = [] →
      AdminDecides s fd g calls g
  | judges {calls : List AdminCall} {user password : Block} {ok : Bool} :
      ok = authenticateAdmin g.parameters user password →
      .authenticate user password ok ∈ calls →
      calls.filterMap (AdminCall.decision fd) =
        [.judges fd (cString user) (cString password) ok] →
      AdminDecides s fd g calls g
  | fills {calls : List AdminCall} {b b' : Buffer} {p p' : ReqParser} {m : Mallocs}
      {g' : Globals} {q : Option Performed} : s = .request →
      adminReqFillMsg b p g m = .ok (b', p', g', q) →
      calls.filterMap (AdminCall.decision fd) = (q.map (.performs fd)).toList →
      AdminDecides s fd g calls g'

/-- The interests in the other descriptors are the same. -/
def SameElsewhere (fd : ℤ) (sel sel' : FdSelector) : Prop :=
  ∀ d, d ≠ fd → sel'.interest? d = sel.interest? d

theorem ChangesInterest.elsewhere {sel sel' : FdSelector} {fd : ℤ}
    {change : FdInterest → Option FdInterest} {ret : SelectorStatus}
    (h : ChangesInterest sel fd change ret sel') : SameElsewhere fd sel sel' := by
  intro d hd
  cases h with
  | refused => rfl
  | changed i _ hsel =>
      rw [hsel]
      exact Function.update_of_ne hd _ _

/-- The callback leads from `w` to `w'`. -/
structure AdminDecided (s : AdminState) (w w' : AdminWorld) : Prop where
  fd : w'.fd = w.fd
  elsewhere : SameElsewhere w.fd w.selector w'.selector
  calls : ∃ calls, w'.log = w.log ++ calls ∧
    AdminDecides s w.fd w.globals calls w'.globals

theorem AdminWorld.setInterestKey_eq {w w' : AdminWorld} {i : FdInterest}
    {status : SelectorStatus} (h : w.setInterestKey i = .ok (status, w')) :
    ∃ sel, SameElsewhere w.fd w.selector sel ∧ w' = { w with selector := sel } := by
  obtain ⟨⟨status', sel⟩, hsel, h⟩ := bind_eq_ok.mp h
  cases h
  rw [selectorSetInterestKey_eq] at hsel
  exact ⟨sel, (updateInterest_spec hsel).elsewhere, rfl⟩

/-- A callback that decides nothing. -/
theorem AdminDecided.of_nothing {s : AdminState} {w w' : AdminWorld}
    {calls : List AdminCall} (hfd : w'.fd = w.fd)
    (hsel : SameElsewhere w.fd w.selector w'.selector)
    (hlog : w'.log = w.log ++ calls) (hglobals : w'.globals = w.globals)
    (hnone : calls.filterMap (AdminCall.decision w.fd) = []) :
    AdminDecided s w w' :=
  ⟨hfd, hsel, calls, hlog, hglobals ▸ .nothing hnone⟩

theorem adminAuthRead_decided {sys : AdminSys} {w w' : AdminWorld} {ret : AdminState}
    (h : adminAuthRead sys w = .ok (ret, w')) : AdminDecided .auth w w' := by
  obtain ⟨⟨received, w₁⟩, hrecv, h⟩ := bind_eq_ok.mp h
  obtain ⟨bs, -, rfl⟩ := AdminWorld.recvInto_spec hrecv
  cases received with
  | none =>
      cases h
      exact .of_nothing rfl (fun _ _ => rfl) rfl rfl rfl
  | some rb =>
      obtain ⟨⟨rb', parser, a⟩, -, h⟩ := bind_eq_ok.mp h
      dsimp only at h
      by_cases hfinal : parser.state.final = true
      · rw [if_pos hfinal] at h
        obtain ⟨w₂, hjudge, h⟩ := bind_eq_ok.mp h
        obtain ⟨⟨status, w₃⟩, hset, h⟩ := bind_eq_ok.mp h
        obtain ⟨sel, hsel, rfl⟩ := AdminWorld.setInterestKey_eq hset
        have hw' : w' = { w₂ with selector := sel } := by
          dsimp only at h
          split at h <;> cases h <;> rfl
        rw [hw']
        rcases judge_cases hjudge with ⟨-, user, password, -, -, ok, hok, rfl⟩ |
          ⟨-, rfl⟩
        · exact ⟨rfl, hsel, [.recv .auth bs, .authenticate user password ok],
            List.append_assoc .., .judges hok (by simp) rfl⟩
        · exact .of_nothing rfl hsel rfl rfl rfl
      · rw [if_neg hfinal] at h
        cases h
        exact .of_nothing rfl (fun _ _ => rfl) rfl rfl rfl

/-- The interest may be set in the end. -/
theorem AdminDecided.setInterestKey {s : AdminState} {w w₁ w' : AdminWorld}
    {i : FdInterest} {status : SelectorStatus} (h : AdminDecided s w w₁)
    (hset : w₁.setInterestKey i = .ok (status, w')) : AdminDecided s w w' := by
  obtain ⟨sel, hsel, rfl⟩ := AdminWorld.setInterestKey_eq hset
  refine ⟨h.fd, fun d hd => ?_, h.calls⟩
  rw [← h.elsewhere d hd]
  apply hsel
  rwa [h.fd]

theorem adminAuthWrite_decided {sys : AdminSys} {w w' : AdminWorld} {ret : AdminState}
    (h : adminAuthWrite sys w = .ok (ret, w')) : AdminDecided .auth w w' := by
  obtain ⟨filled, -, h⟩ := bind_eq_ok.mp h
  obtain ⟨⟨sent, w₁⟩, hsend, h⟩ := bind_eq_ok.mp h
  obtain ⟨bs, -, rfl⟩ := AdminWorld.sendFrom_spec hsend
  have hsent : ∀ wb, AdminDecided .auth w
      ((w.record (.send .auth bs)).setWriteBuffer wb) := fun wb =>
    .of_nothing rfl (fun _ _ => rfl) rfl rfl rfl
  cases sent with
  | none =>
      cases h
      exact hsent _
  | some wb =>
      dsimp only at h
      split at h
      · cases h
        exact hsent wb
      · obtain ⟨⟨status, w₂⟩, hset, h⟩ := bind_eq_ok.mp h
        have hset := (hsent wb).setInterestKey hset
        dsimp only at h
        split at h
        · cases h
          exact hset
        · split at h <;> cases h <;> exact hset

theorem adminRequestRead_decided {sys : AdminSys} {w w' : AdminWorld}
    {ret : AdminState} (h : adminRequestRead sys w = .ok (ret, w')) :
    AdminDecided .request w w' := by
  obtain ⟨⟨received, w₁⟩, hrecv, h⟩ := bind_eq_ok.mp h
  obtain ⟨bs, -, rfl⟩ := AdminWorld.recvInto_spec hrecv
  cases received with
  | none =>
      cases h
      exact .of_nothing rfl (fun _ _ => rfl) rfl rfl rfl
  | some rb =>
      obtain ⟨⟨rb', parser, m⟩, -, h⟩ := bind_eq_ok.mp h
      obtain ⟨⟨status, w₂⟩, hset, h⟩ := bind_eq_ok.mp h
      have hread : AdminDecided .request w { w.record (.recv .request bs) with
          admin := { w.admin with readBuffer := rb', reqParser := parser } } :=
        .of_nothing rfl (fun _ _ => rfl) rfl rfl rfl
      have hset := hread.setInterestKey hset
      dsimp only at h
      split at h <;> cases h <;> exact hset

/-- `admin_request_write` performs what `admin_req_fill_msg` does. -/
theorem adminRequestWrite_decided {sys : AdminSys} {w w' : AdminWorld}
    {ret : AdminState} (h : adminRequestWrite sys w = .ok (ret, w')) :
    AdminDecided .request w w' := by
  obtain ⟨⟨wb, p, g, q⟩, hfill, h⟩ := bind_eq_ok.mp h
  obtain ⟨⟨sent, w₁⟩, hsend, h⟩ := bind_eq_ok.mp h
  obtain ⟨bs, -, rfl⟩ := AdminWorld.sendFrom_spec hsend
  have hsent : ∀ wb', AdminDecided .request w
      (((w.filled wb p g q).record (.send .request bs)).setWriteBuffer wb') := by
    intro wb'
    cases q with
    | none => exact ⟨rfl, fun _ _ => rfl, _, rfl, .fills rfl hfill rfl⟩
    | some command =>
        exact ⟨rfl, fun _ _ => rfl, [.perform command, .send .request bs],
          List.append_assoc .., .fills rfl hfill rfl⟩
  cases sent with
  | none =>
      cases h
      have hsame := hsent wb
      cases q <;> exact hsame
  | some wb' =>
      dsimp only at h
      split at h
      · cases h
        exact hsent wb'
      · obtain ⟨⟨status, w₂⟩, hset, h⟩ := bind_eq_ok.mp h
        have hset := (hsent wb').setInterestKey hset
        dsimp only at h
        split at h <;> cases h <;> exact hset

theorem adminOnReady_decided {sys : AdminSys} {s ret : AdminState} {r : Ready}
    {f : AdminCallback} {w w' : AdminWorld} (hf : adminOnReady sys s r = some f)
    (h : f w = .ok (ret, w')) : AdminDecided s w w' := by
  cases s <;> cases r <;> cases hf
  case auth.read => exact adminAuthRead_decided h
  case auth.write => exact adminAuthWrite_decided h
  case request.read => exact adminRequestRead_decided h
  case request.write => exact adminRequestWrite_decided h

/-- A dispatch decides what its callback does. -/
theorem adminDispatch_decided {r : Ready} {sys : AdminSys} {c c' : AdminConfig}
    (h : adminDispatch r sys c = .ok c') :
    AdminDecided c.state c.world c'.world := by
  obtain ⟨f, ret, w, hf, hcall, hout, -, -⟩ := adminDispatch_cases h
  have hdecided := adminOnReady_decided hf hcall
  obtain ⟨hfd, hselector, hglobals, hlog⟩ := c.found_eq
  refine ⟨?_, ?_, ?_⟩
  · rw [← hfd, ← hdecided.fd]
    generalize c'.world = w' at hout
    cases hout with
    | stays => rfl
    | arrives => cases ret <;> rfl
    | ends _ hend =>
        obtain ⟨sel, heq⟩ := endAdmin_eq hend
        rw [heq]
  · intro d hd
    rw [← hselector, ← hdecided.elsewhere d (by rwa [hfd])]
    generalize c'.world = w' at hout
    cases hout with
    | stays => rfl
    | arrives => cases ret <;> rfl
    | ends _ hend =>
        obtain ⟨⟨status, sel⟩, hunregister, hend⟩ := bind_eq_ok.mp hend
        dsimp only at hend
        split at hend
        · cases hend
        · cases hend
          rcases selectorUnregisterFd_cases hunregister with ⟨-, -, rfl⟩ |
            ⟨-, -, hsel, -⟩
          · rfl
          · change sel.interest? d = _
            rw [hsel]
            refine Function.update_of_ne ?_ _ _
            rwa [hdecided.fd, hfd]
  · obtain ⟨calls, hcalls, hdecides⟩ := hdecided.calls
    refine ⟨calls, ?_, ?_⟩
    · rw [hout.log_eq, hcalls, hlog]
    · rw [hout.globals_eq, ← hfd, ← hglobals]
      exact hdecides

/-- The calls of a callback decide as the accounts allow, if commands are given by
an administrator who has been let in; and who is let in by them has been. -/
theorem AdminDecides.leadsTo {acc : Accounts} {g g' : Globals} (hacc : acc.Of g)
    {s : AdminState} {fd : ℤ} {calls : List AdminCall}
    (h : AdminDecides s fd g calls g') (hfd : s = .request → fd ∈ acc.admitted) :
    ∃ acc', LeadsTo Accounts.Allows acc
        (calls.filterMap (AdminCall.decision fd)) acc' ∧ acc'.Of g' ∧
      acc.admitted ⊆ acc'.admitted ∧
      ((∃ u w, .authenticate u w true ∈ calls) → fd ∈ acc'.admitted) := by
  have hjudged : (∃ u w, .authenticate u w true ∈ calls) →
      ∃ name pass, .judges fd name pass true ∈
        calls.filterMap (AdminCall.decision fd) := by
    rintro ⟨u, w, hmem⟩
    exact ⟨_, _, List.mem_filterMap.mpr ⟨_, hmem, rfl⟩⟩
  cases h with
  | nothing hnone =>
      rw [hnone] at hjudged ⊢
      refine ⟨acc, .nil acc, hacc, subset_rfl, fun hlet => ?_⟩
      obtain ⟨name, pass, hmem⟩ := hjudged hlet
      cases hmem
  | @judges user password ok hok _ hone =>
      rw [hone] at hjudged ⊢
      have hverdict : ok = true ↔ (cString user, cString password) ∈ acc.admins := by
        rw [hok, hacc.admins]
        exact any_sameString_eq_true_iff
      cases ok with
      | true =>
          exact ⟨_, .single (.admits (hverdict.mp rfl)),
            ⟨hacc.users, hacc.admins, hacc.bufferSize⟩, Set.subset_insert _ _,
            fun _ => Set.mem_insert _ _⟩
      | false =>
          refine ⟨acc, .single (.rejects fun hmem => ?_), hacc, subset_rfl,
            fun hlet => ?_⟩
          · cases hverdict.mpr hmem
          · obtain ⟨name, pass, hmem⟩ := hjudged hlet
            simp at hmem
  | @fills b b' p p' m _ q hs hfill hone =>
      rw [hone] at hjudged ⊢
      have hnot : ¬ ∃ u w, AdminCall.authenticate u w true ∈ calls := by
        intro hlet
        obtain ⟨name, pass, hmem⟩ := hjudged hlet
        cases q <;> simp at hmem
      cases adminReqFillMsg_fills hacc hfill with
      | nothing => exact ⟨acc, .nil acc, hacc, subset_rfl, fun hlet => absurd hlet hnot⟩
      | performs hperforms hacc' =>
          refine ⟨_, .single (.performs (hfd hs) hperforms), hacc', ?_,
            fun hlet => absurd hlet hnot⟩
          rw [hperforms.admins_eq.2]

end Socksv5
