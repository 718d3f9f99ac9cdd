import Socksv5.Session.Quiet

/-!
# What the callbacks do

One relation and one lemma for each callback of the handshake.  The relation
lists the ways in which the callback can return, and the world it leaves in
each; `ERROR` alone is left open.
-/

namespace Socksv5

open Support

/-! ## Greeting -/

/-- What `greeting_read` does. -/
inductive GreetingReads (sys : Sys) (fd : ℤ) (w : World) :
    GlobalState → World → Prop
  | failed {w' : World} : GreetingReads sys fd w .error w'
  | waits {bs : List UInt8} {rb rb' : Buffer} {parser : GreetingParser}
      {a : Allocs} : Receives sys w.session.readBuffer (.data bs rb) →
      consumeGreetingBuffer rb w.session.greeting.parser sys.allocs =
        .ok (rb', parser, a) →
      parser.state.final = false →
      GreetingReads sys fd w .greetingRead { w with
        session := { w.session with
          readBuffer := rb'
          greeting := { w.session.greeting with parser := parser } }
        log := w.log ++
          [.recv .greetingRead fd w.session.readBuffer.room (.received bs)] }
  | answers {bs : List UInt8} {rb rb' wb : Buffer} {parser : GreetingParser}
      {a : Allocs} {m : UInt8} {s : FdSelector} :
      Receives sys w.session.readBuffer (.data bs rb) →
      consumeGreetingBuffer rb w.session.greeting.parser sys.allocs =
        .ok (rb', parser, a) →
      parser.state.final = true →
      selectMethod parser.methods parser.methodsRemaining = .ok m →
      ChangesInterest w.selector fd (fun _ => some .write) .success s →
      greetingFillMsg w.session.writeBuffer m = .ok (some wb) →
      GreetingReads sys fd w .greetingWrite { w with
        session := { w.session with
          readBuffer := rb'
          writeBuffer := wb
          greeting := { parser := parser, methodSelected := m.toNat } }
        selector := s
        log := w.log ++
          [.recv .greetingRead fd w.session.readBuffer.room (.received bs)] ++
          [.setInterest fd .write] }

theorem greetingRead_spec {sys : Sys} {fd : ℤ} {w w' : World}
    {ret : GlobalState} (h : greetingRead sys fd w = .ok (ret, w')) :
    GreetingReads sys fd w ret w' := by
  obtain ⟨⟨received, w₁⟩, hrecv, h⟩ := bind_eq_ok.mp h
  obtain ⟨hreceives, rfl⟩ := World.recvInto_spec hrecv
  cases received with
  | eof | reset | failed =>
      cases h
      exact .failed
  | data bs rb =>
      have hdata := hreceives.data_eq
      simp only [hdata] at h
      obtain ⟨⟨rb', parser, a⟩, hconsume, h⟩ := bind_eq_ok.mp h
      simp only at h
      by_cases hfinal : parser.state.final = true
      · rw [if_pos hfinal] at h
        obtain ⟨m, hselect, h⟩ := bind_eq_ok.mp h
        obtain ⟨⟨status, w₂⟩, hset, h⟩ := bind_eq_ok.mp h
        obtain ⟨s, hsel, rfl⟩ := World.setInterestKey_spec hset
        dsimp only at h
        by_cases hstatus : status = .success
        · subst hstatus
          rw [if_neg (by simp)] at h
          obtain ⟨filled, hfill, h⟩ := bind_eq_ok.mp h
          cases filled with
          | none =>
              cases h
              exact .failed
          | some wb =>
              cases h
              exact .answers hreceives hconsume hfinal hselect hsel hfill
        · rw [if_pos hstatus] at h
          cases h
          exact .failed
      · rw [if_neg hfinal] at h
        cases h
        exact .waits hreceives hconsume (by simpa using hfinal)

/-- What `greeting_write` does. -/
inductive GreetingWrites (sys : Sys) (fd : ℤ) (w : World) :
    GlobalState → World → Prop
  | failed {w' : World} : GreetingWrites sys fd w .error w'
  | partly {bs : List UInt8} {wb : Buffer} :
      Sends sys w.session.writeBuffer (some (bs, wb)) → wb.pending ≠ [] →
      GreetingWrites sys fd w .greetingWrite { w with
        session := { w.session with writeBuffer := wb }
        log := w.log ++ [.send .greetingWrite fd bs] }
  | wholly {bs : List UInt8} {wb : Buffer} {s : FdSelector}
      {ret : GlobalState} :
      Sends sys w.session.writeBuffer (some (bs, wb)) → wb.pending = [] →
      ChangesInterest w.selector fd (fun _ => some .read) .success s →
      (ret = .requestRead ∧ w.session.greeting.methodSelected = 0) ∨
        (ret = .authRead ∧ w.session.greeting.methodSelected = 2) →
      GreetingWrites sys fd w ret { w with
        session := { w.session with writeBuffer := wb }
        selector := s
        log := w.log ++ [.send .greetingWrite fd bs] ++
          [.setInterest fd .read] }

theorem greetingWrite_spec {sys : Sys} {fd : ℤ} {w w' : World}
    {ret : GlobalState} (h : greetingWrite sys fd w = .ok (ret, w')) :
    GreetingWrites sys fd w ret w' := by
  obtain ⟨⟨sent, w₁⟩, hsend, h⟩ := bind_eq_ok.mp h
  obtain ⟨hsends, rfl⟩ := World.sendFrom_spec hsend
  rcases sent with - | ⟨bs, wb⟩
  · cases h
    exact .failed
  · simp only at h
    by_cases hread : wb.canRead = true
    · rw [if_pos hread] at h
      cases h
      exact .partly hsends ((Buffer.canRead_iff wb).mp hread)
    · rw [if_neg hread] at h
      obtain ⟨⟨status, w₂⟩, hset, h⟩ := bind_eq_ok.mp h
      obtain ⟨s, hsel, rfl⟩ := World.setInterestKey_spec hset
      dsimp only [World.setWriteBuffer] at h
      by_cases hstatus : status = .success
      · subst hstatus
        rw [if_neg (by simp)] at h
        change (if w.session.greeting.methodSelected = 0 then _
          else if w.session.greeting.methodSelected = 2 then _
          else _) = _ at h
        by_cases hnone : w.session.greeting.methodSelected = 0
        · rw [if_pos hnone] at h
          cases h
          exact .wholly hsends (Buffer.pending_eq_nil hread) hsel
            (Or.inl ⟨rfl, hnone⟩)
        · rw [if_neg hnone] at h
          by_cases hauth : w.session.greeting.methodSelected = 2
          · rw [if_pos hauth] at h
            cases h
            exact .wholly hsends (Buffer.pending_eq_nil hread) hsel
              (Or.inr ⟨rfl, hauth⟩)
          · rw [if_neg hauth] at h
            cases h
            exact .failed
      · rw [if_pos hstatus] at h
        cases h
        exact .failed

/-! ## Authentication -/

/-- What `auth_read` does once a verdict is there: it authenticates the user of
a complete message, and leaves the reply of the others as it is. -/
inductive Authenticates (sys : Sys) (auth : AuthStm) :
    UInt8 → List Call → Prop
  | incomplete : auth.parser.state ≠ .done →
      Authenticates sys auth auth.reply []
  | accepted {user password : Block} : auth.parser.state = .done →
      auth.parser.user = some user → auth.parser.password = some password →
      authenticateUser sys.parameters user password = true →
      Authenticates sys auth authSuccess [.authenticate user password true]
  | rejected {user password : Block} : auth.parser.state = .done →
      authenticateUser sys.parameters user password = false →
      Authenticates sys auth authFail [.authenticate user password false]

theorem authenticate_spec {sys : Sys} {w w' : World}
    (h : authenticate sys w = .ok w') :
    ∃ reply user calls, Authenticates sys w.session.auth reply calls ∧
      w' = { w with
        session := { w.session with
          auth := { w.session.auth with reply := reply }
          connectedUser := user }
        log := w.log ++ calls } := by
  unfold authenticate at h
  dsimp only at h
  by_cases hdone : w.session.auth.parser.state = .done
  · rw [if_pos hdone] at h
    cases huser : w.session.auth.parser.user with
    | none => simp [huser] at h
    | some user =>
        cases hpassword : w.session.auth.parser.password with
        | none => simp [huser, hpassword] at h
        | some password =>
            simp only [huser, hpassword] at h
            cases hok : authenticateUser sys.parameters user password with
            | true =>
                simp only [hok, if_true] at h
                cases h
                exact ⟨_, _, _, .accepted hdone huser hpassword hok, rfl⟩
            | false =>
                simp only [hok, Bool.false_eq_true, if_false] at h
                cases h
                exact ⟨_, _, _, .rejected hdone hok, rfl⟩
  · rw [if_neg hdone] at h
    cases h
    refine ⟨_, w.session.connectedUser, [], .incomplete hdone, ?_⟩
    rw [List.append_nil]

/-- What `auth_read` does. -/
inductive AuthReads (sys : Sys) (fd : ℤ) (w : World) :
    GlobalState → World → Prop
  | failed {w' : World} : AuthReads sys fd w .error w'
  | waits {bs : List UInt8} {rb rb' : Buffer} {parser : AuthParser}
      {a : Allocs} : Receives sys w.session.readBuffer (.data bs rb) →
      consumeAuthBuffer rb w.session.auth.parser sys.allocs =
        .ok (rb', parser, a) →
      parser.state.final = false →
      AuthReads sys fd w .authRead { w with
        session := { w.session with
          readBuffer := rb'
          auth := { w.session.auth with parser := parser } }
        log := w.log ++
          [.recv .authRead fd w.session.readBuffer.room (.received bs)] }
  | answers {bs : List UInt8} {rb rb' wb : Buffer} {parser : AuthParser}
      {a : Allocs} {s : FdSelector} {reply : UInt8} {user : Option User}
      {calls : List Call} :
      Receives sys w.session.readBuffer (.data bs rb) →
      consumeAuthBuffer rb w.session.auth.parser sys.allocs =
        .ok (rb', parser, a) →
      parser.state.final = true →
      Authenticates sys ⟨parser, w.session.auth.reply⟩ reply calls →
      ChangesInterest w.selector fd (fun _ => some .write) .success s →
      authFillMsg w.session.writeBuffer reply = .ok wb →
      AuthReads sys fd w .authWrite { w with
        session := { w.session with
          readBuffer := rb'
          writeBuffer := wb
          auth := { parser := parser, reply := reply }
          connectedUser := user }
        selector := s
        log := w.log ++
          [.recv .authRead fd w.session.readBuffer.room (.received bs)] ++
          calls ++ [.setInterest fd .write] }

theorem authRead_spec {sys : Sys} {fd : ℤ} {w w' : World}
    {ret : GlobalState} (h : authRead sys fd w = .ok (ret, w')) :
    AuthReads sys fd w ret w' := by
  obtain ⟨⟨received, w₁⟩, hrecv, h⟩ := bind_eq_ok.mp h
  obtain ⟨hreceives, rfl⟩ := World.recvInto_spec hrecv
  cases received with
  | eof | reset | failed =>
      cases h
      exact .failed
  | data bs rb =>
      have hdata := hreceives.data_eq
      simp only [hdata] at h
      obtain ⟨⟨rb', parser, a⟩, hconsume, h⟩ := bind_eq_ok.mp h
      simp only at h
      by_cases hfinal : parser.state.final = true
      · rw [if_pos hfinal] at h
        obtain ⟨w₂, hauth, h⟩ := bind_eq_ok.mp h
        obtain ⟨reply, user, calls, hauths, rfl⟩ := authenticate_spec hauth
        obtain ⟨⟨status, w₃⟩, hset, h⟩ := bind_eq_ok.mp h
        obtain ⟨s, hsel, rfl⟩ := World.setInterestKey_spec hset
        dsimp only at h
        by_cases hstatus : status = .success
        · subst hstatus
          rw [if_neg (by simp)] at h
          obtain ⟨wb, hfill, h⟩ := bind_eq_ok.mp h
          cases h
          exact .answers hreceives hconsume hfinal hauths hsel hfill
        · rw [if_pos hstatus] at h
          cases h
          exact .failed
      · rw [if_neg hfinal] at h
        cases h
        exact .waits hreceives hconsume (by simpa using hfinal)

/-- What `auth_write` does. -/
inductive AuthWrites (sys : Sys) (fd : ℤ) (w : World) :
    GlobalState → World → Prop
  | failed {w' : World} : AuthWrites sys fd w .error w'
  | partly {bs : List UInt8} {wb : Buffer} :
      Sends sys w.session.writeBuffer (some (bs, wb)) → wb.pending ≠ [] →
      AuthWrites sys fd w .authWrite { w with
        session := { w.session with writeBuffer := wb }
        log := w.log ++ [.send .authWrite fd bs] }
  | wholly {bs : List UInt8} {wb : Buffer} {s : FdSelector}
      {ret : GlobalState} :
      Sends sys w.session.writeBuffer (some (bs, wb)) → wb.pending = [] →
      ChangesInterest w.selector fd (fun _ => some .read) .success s →
      (ret = .requestRead ∧ w.session.auth.reply = authSuccess) ∨
        ret = .done →
      AuthWrites sys fd w ret { w with
        session := { w.session with writeBuffer := wb }
        selector := s
        log := w.log ++ [.send .authWrite fd bs] ++ [.setInterest fd .read] }

theorem authWrite_spec {sys : Sys} {fd : ℤ} {w w' : World}
    {ret : GlobalState} (h : authWrite sys fd w = .ok (ret, w')) :
    AuthWrites sys fd w ret w' := by
  obtain ⟨⟨sent, w₁⟩, hsend, h⟩ := bind_eq_ok.mp h
  obtain ⟨hsends, rfl⟩ := World.sendFrom_spec hsend
  rcases sent with - | ⟨bs, wb⟩
  · cases h
    exact .failed
  · simp only at h
    by_cases hread : wb.canRead = true
    · rw [if_pos hread] at h
      cases h
      exact .partly hsends ((Buffer.canRead_iff wb).mp hread)
    · rw [if_neg hread] at h
      obtain ⟨⟨status, w₂⟩, hset, h⟩ := bind_eq_ok.mp h
      obtain ⟨s, hsel, rfl⟩ := World.setInterestKey_spec hset
      dsimp only [World.setWriteBuffer] at h
      by_cases hstatus : status = .success
      · subst hstatus
        rw [if_neg (by simp)] at h
        change (if w.session.auth.reply = authSuccess then _ else _) = _ at h
        by_cases hreply : w.session.auth.reply = authSuccess
        · rw [if_pos hreply] at h
          cases h
          exact .wholly hsends (Buffer.pending_eq_nil hread) hsel
            (Or.inl ⟨rfl, hreply⟩)
        · rw [if_neg hreply] at h
          cases h
          exact .wholly hsends (Buffer.pending_eq_nil hread) hsel (Or.inr rfl)
      · rw [if_pos hstatus] at h
        cases h
        exact .failed

/-! ## Request -/

/-- What `request_read` does. -/
inductive RequestReads (sys : Sys) (fd : ℤ) (w : World) :
    GlobalState → World → Prop
  | failed {w' : World} : RequestReads sys fd w .error w'
  | waits {bs : List UInt8} {rb rb' : Buffer} {parser : RequestParser}
      {a : Allocs} : Receives sys w.session.readBuffer (.data bs rb) →
      consumeRequestBuffer rb w.session.request.parser sys.allocs =
        .ok (rb', parser, a) →
      parser.state.final = false →
      RequestReads sys fd w .requestRead { w with
        session := { w.session with
          readBuffer := rb'
          request := { w.session.request with parser := parser } }
        log := w.log ++
          [.recv .requestRead fd w.session.readBuffer.room (.received bs)] }
  | decides {bs : List UInt8} {rb rb' : Buffer} {parser : RequestParser}
      {a : Allocs} {s : FdSelector} {ret : GlobalState} {i : FdInterest} :
      Receives sys w.session.readBuffer (.data bs rb) →
      consumeRequestBuffer rb w.session.request.parser sys.allocs =
        .ok (rb', parser, a) →
      (parser.state = .done ∧ ret = .originConnect ∧ i = .noop) ∨
        (parser.state = .error ∧ ret = .requestWrite ∧ i = .write) →
      ChangesInterest w.selector fd (fun _ => some i) .success s →
      RequestReads sys fd w ret { w with
        session := { w.session with
          readBuffer := rb'
          request := { w.session.request with parser := parser } }
        selector := s
        log := w.log ++
          [.recv .requestRead fd w.session.readBuffer.room (.received bs)] ++
          [.setInterest fd i] }

theorem requestRead_spec {sys : Sys} {fd : ℤ} {w w' : World}
    {ret : GlobalState} (h : requestRead sys fd w = .ok (ret, w')) :
    RequestReads sys fd w ret w' := by
  obtain ⟨⟨received, w₁⟩, hrecv, h⟩ := bind_eq_ok.mp h
  obtain ⟨hreceives, rfl⟩ := World.recvInto_spec hrecv
  cases received with
  | eof | reset | failed =>
      cases h
      exact .failed
  | data bs rb =>
      have hdata := hreceives.data_eq
      simp only [hdata] at h
      obtain ⟨⟨rb', parser, a⟩, hconsume, h⟩ := bind_eq_ok.mp h
      simp only at h
      by_cases hdone : parser.state = .done
      · rw [if_pos hdone] at h
        obtain ⟨⟨status, w₂⟩, hset, h⟩ := bind_eq_ok.mp h
        obtain ⟨s, hsel, rfl⟩ := World.setInterestKey_spec hset
        dsimp only at h
        by_cases hstatus : status = .success
        · subst hstatus
          cases h
          exact .decides hreceives hconsume (Or.inl ⟨hdone, rfl, rfl⟩) hsel
        · rw [if_pos hstatus] at h
          cases h
          exact .failed
      · rw [if_neg hdone] at h
        by_cases herror : parser.state = .error
        · rw [if_pos herror] at h
          obtain ⟨⟨status, w₂⟩, hset, h⟩ := bind_eq_ok.mp h
          obtain ⟨s, hsel, rfl⟩ := World.setInterestKey_spec hset
          dsimp only at h
          by_cases hstatus : status = .success
          · subst hstatus
            cases h
            exact .decides hreceives hconsume (Or.inr ⟨herror, rfl, rfl⟩) hsel
          · rw [if_pos hstatus] at h
            cases h
            exact .failed
        · rw [if_neg herror] at h
          cases h
          refine .waits hreceives hconsume ?_
          cases hstate : parser.state with
          | done => exact absurd hstate hdone
          | error => exact absurd hstate herror
          | _ => rfl

/-- What `request_write` does. -/
inductive RequestWrites (sys : Sys) (fd : ℤ) (w : World) :
    GlobalState → World → Prop
  | failed {w' : World} : RequestWrites sys fd w .error w'
  | partly {bs : List UInt8} {wb wb' : Buffer} :
      requestFillMsg w.session.writeBuffer w.session.request.parser = .ok wb →
      Sends sys wb (some (bs, wb')) → wb'.pending ≠ [] →
      RequestWrites sys fd w .requestWrite { w with
        session := { w.session with writeBuffer := wb' }
        log := w.log ++ [.send .requestWrite fd bs] }
  | refuses {bs : List UInt8} {wb wb' : Buffer} :
      requestFillMsg w.session.writeBuffer w.session.request.parser = .ok wb →
      Sends sys wb (some (bs, wb')) → wb'.pending = [] →
      w.session.request.parser.reply ≠ .succeded →
      RequestWrites sys fd w .done { w with
        session := { w.session with writeBuffer := wb' }
        log := w.log ++ [.send .requestWrite fd bs] }
  | grants {bs : List UInt8} {wb wb' : Buffer} {s s' : FdSelector} :
      requestFillMsg w.session.writeBuffer w.session.request.parser = .ok wb →
      Sends sys wb (some (bs, wb')) → wb'.pending = [] →
      w.session.request.parser.reply = .succeded →
      ChangesInterest w.selector fd (fun _ => some .read) .success s →
      ChangesInterest s w.session.originFd (fun _ => some .read) .success s' →
      RequestWrites sys fd w .copy { w with
        session := { w.session with writeBuffer := wb' }
        selector := s'
        log := w.log ++ [.send .requestWrite fd bs] ++
          [.setInterest fd .read] ++ [.setInterest w.session.originFd .read] }

theorem requestWrite_spec {sys : Sys} {fd : ℤ} {w w' : World}
    {ret : GlobalState} (h : requestWrite sys fd w = .ok (ret, w')) :
    RequestWrites sys fd w ret w' := by
  obtain ⟨wb, hfill, h⟩ := bind_eq_ok.mp h
  obtain ⟨⟨sent, w₁⟩, hsend, h⟩ := bind_eq_ok.mp h
  obtain ⟨hsends, rfl⟩ := World.sendFrom_spec hsend
  rcases sent with - | ⟨bs, wb'⟩
  · cases h
    exact .failed
  · dsimp only [World.setWriteBuffer] at h
    by_cases hread : wb'.canRead = true
    · rw [if_pos hread] at h
      cases h
      exact .partly hfill hsends ((Buffer.canRead_iff wb').mp hread)
    · rw [if_neg hread] at h
      have hempty := Buffer.pending_eq_nil hread
      change (if w.session.request.parser.reply = .succeded then _ else _) = _
        at h
      by_cases hreply : w.session.request.parser.reply = .succeded
      · rw [if_pos hreply] at h
        obtain ⟨⟨status, w₂⟩, hset, h⟩ := bind_eq_ok.mp h
        obtain ⟨s, hsel, rfl⟩ := World.setInterestKey_spec hset
        dsimp only at h
        by_cases hstatus : status = .success
        · subst hstatus
          rw [if_neg (by simp)] at h
          obtain ⟨⟨status', w₃⟩, hset', h⟩ := bind_eq_ok.mp h
          obtain ⟨s', hsel', rfl⟩ := World.setInterest_spec hset'
          dsimp only at h
          by_cases hstatus' : status' = .success
          · subst hstatus'
            cases h
            exact .grants hfill hsends hempty hreply hsel hsel'
          · rw [if_pos hstatus'] at h
            cases h
            exact .failed
        · rw [if_pos hstatus] at h
          cases h
          exact .failed
      · rw [if_neg hreply] at h
        cases h
        exact .refuses hfill hsends hempty hreply

end Socksv5
