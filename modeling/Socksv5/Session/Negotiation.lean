import Socksv5.CredentialDecoding
import Socksv5.Session.Forecast
import Socksv5.Session.Teardown

/-!
# The negotiation of the method

A stream is the beginning of a greeting until one of its bytes settles which
method is offered.  The session answers nothing before that byte, and reads
nothing after it until the offer has been sent; then it goes where the method
leads.
-/

namespace Socksv5

open Support

/-! ## What is offered -/

/-- `Offers xs m`: the last byte of `xs` settles that `m` is offered. -/
inductive Offers : List UInt8 → UInt8 → Prop
  | greeting {ms : List UInt8} {m : UInt8} : FieldLength ms → Selects ms m →
      Offers (greetingMessage ms) m
  | version {v : UInt8} : v ≠ 5 → Offers [v] noAcceptableMethods
  | noMethods : Offers [5, 0] noAcceptableMethods

/-- A proper beginning of a greeting. -/
def IncompleteGreeting (xs : List UInt8) : Prop :=
  ∃ ms more, FieldLength ms ∧ more ≠ [] ∧ xs ++ more = greetingMessage ms

/-- The state that a method leads to. -/
def methodState (m : UInt8) : GlobalState :=
  if m = usernamePasswordAuth then .authRead
  else if m = noAuthenticationRequired then .requestRead
  else .error

theorem Offers.not_incomplete {xs later : List UInt8} {m : UInt8}
    (h : Offers xs m) : ¬ IncompleteGreeting (xs ++ later) := by
  rintro ⟨ms, more, hms, hmore, heq⟩
  rw [List.append_assoc] at heq
  cases h with
  | greeting hms' =>
      rw [← List.append_nil (greetingMessage ms)] at heq
      obtain ⟨-, hnil⟩ := greetingMessage_append_inj hms' hms heq
      exact hmore (List.append_eq_nil_iff.mp hnil).2
  | version hv => exact hv (List.cons.inj heq).1
  | noMethods =>
      have hlen := (List.cons.inj (List.cons.inj heq).2).1
      exact lengthByte_ne_zero hms hlen.symm

theorem Offers.unique {xs xs' later later' : List UInt8} {m m' : UInt8}
    (h : Offers xs m) (h' : Offers xs' m') (heq : xs ++ later = xs' ++ later') :
    xs = xs' ∧ m = m' ∧ later = later' := by
  cases h with
  | greeting hms hm =>
      cases h' with
      | greeting hms' hm' =>
          obtain ⟨rfl, rfl⟩ := greetingMessage_append_inj hms hms' heq
          exact ⟨rfl, hm.trans hm'.symm, rfl⟩
      | version hv => exact absurd (List.cons.inj heq).1.symm hv
      | noMethods =>
          have hlen := (List.cons.inj (List.cons.inj heq).2).1
          exact absurd hlen (lengthByte_ne_zero hms)
  | version hv =>
      cases h' with
      | greeting => exact absurd (List.cons.inj heq).1 hv
      | version =>
          obtain ⟨rfl, rfl⟩ := List.cons.inj heq
          exact ⟨rfl, rfl, rfl⟩
      | noMethods => exact absurd (List.cons.inj heq).1 hv
  | noMethods =>
      cases h' with
      | greeting hms =>
          have hlen := (List.cons.inj (List.cons.inj heq).2).1
          exact absurd hlen.symm (lengthByte_ne_zero hms)
      | version hv => exact absurd (List.cons.inj heq).1.symm hv
      | noMethods => exact ⟨rfl, rfl, (List.cons.inj (List.cons.inj heq).2).2⟩

/-! ## The parser -/

/-- While it waits for more, what the parser has read is a proper beginning of
a greeting. -/
theorem GreetingParser.After.incomplete {xs : List UInt8} {p : GreetingParser}
    (h : p.After xs) (hlive : p.state.final = false) :
    IncompleteGreeting xs := by
  have hzero : FieldLength [0] := ⟨by simp, by simp⟩
  unfold GreetingParser.After at h
  cases hs : p.state with
  | readingVersion =>
      simp only [hs] at h
      obtain ⟨rfl, -⟩ := h
      exact ⟨[0], greetingMessage [0], hzero, by simp [greetingMessage], rfl⟩
  | readingNmethods =>
      simp only [hs] at h
      obtain ⟨rfl, -⟩ := h
      exact ⟨[0], [1, 0], hzero, by simp, rfl⟩
  | readingMethods =>
      simp only [hs] at h
      obtain ⟨ms, k, rfl, hlen, -, -⟩ := h
      have hlen' : (ms ++ List.replicate (k + 1) 0).length =
          p.methodsRemaining.toNat := by
        simp [hlen]
      have hne : p.methodsRemaining ≠ 0 := by
        intro h0
        rw [h0] at hlen
        simp at hlen
      refine ⟨_, List.replicate (k + 1) 0, fieldLength_of_toNat hne hlen',
        by simp, ?_⟩
      rw [greetingMessage, lengthByte_eq_of_toNat hlen']
      rfl
  | done | unsupportedVersion | badSyntax => simp [hs, GreetingState.final] at hlive

/-- A byte is always accepted, and refused for want of memory only if there is
none. -/
theorem exists_greetingParserFeed {xs : List UInt8} {p : GreetingParser}
    {a : Allocs} (c : UInt8) (hp : p.After xs) (hlive : p.state.final = false)
    (hmem : p.methods = none → a.head? ≠ some false) :
    ∃ p' a', greetingParserFeed c (p, a) = .ok (p', a') ∧
      (p'.state = .badSyntax → xs ++ [c] = [5, 0]) ∧
        (p'.methods = none → a'.head? ≠ some false) := by
  unfold GreetingParser.After at hp
  cases hs : p.state with
  | readingVersion =>
      simp only [hs] at hp
      simp only [greetingParserFeed, hs]
      split
      · exact ⟨_, _, rfl, by simp, hmem⟩
      · exact ⟨_, _, rfl, by simp, hmem⟩
  | readingNmethods =>
      simp only [hs] at hp
      obtain ⟨rfl, hnone, -⟩ := hp
      simp only [greetingParserFeed, hs]
      split
      · rename_i hc
        exact ⟨_, _, rfl, fun _ => by rw [hc]; rfl, hmem⟩
      · rcases calloc_cases c.toNat a with ⟨hfail, -⟩ | ⟨-, hcalloc⟩
        · exact absurd hfail (hmem hnone)
        · simp only [hcalloc, reduceCtorEq, if_false]
          exact ⟨_, _, rfl, by simp, by simp⟩
  | readingMethods =>
      simp only [hs] at hp
      obtain ⟨ms, k, -, -, hi, hm⟩ := hp
      simp only [greetingParserFeed, hs]
      rw [hm, hi, putByte_zeros, ok_bind]
      split
      · exact ⟨_, _, rfl, by simp, by simp⟩
      · exact ⟨_, _, rfl, by simp, by simp⟩
  | done | unsupportedVersion | badSyntax => simp [hs, GreetingState.final] at hlive

/-- The loop over the buffer reads as far as the byte that settles the offer,
or everything. -/
theorem exists_consumeGreetingBuffer {b : Buffer} {p : GreetingParser}
    {a : Allocs} {ys : List UInt8} (hp : p.After ys)
    (hlive : p.state.final = false) (hmem : a.head? ≠ some false) :
    ∃ b' p' a' used, consumeGreetingBuffer b p a = .ok (b', p', a') ∧
      b.pending = used ++ b'.pending ∧ p'.After (ys ++ used) ∧
      (p'.state = .badSyntax → ys ++ used = [5, 0]) ∧
      (p'.state.final = false → b'.pending = []) := by
  have hbad : p.state = .badSyntax → ys = [5, 0] := by
    intro hs
    simp [hs, GreetingState.final] at hlive
  obtain ⟨⟨p', a'⟩, used, rest, hdecode, hused, ⟨hafter, hbad', -⟩, hrest⟩ :=
    exists_decode greetingParserFeed (fun s => s.1.state.final)
      (fun xs s => s.1.After (ys ++ xs) ∧
        (s.1.state = .badSyntax → ys ++ xs = [5, 0]) ∧
          (s.1.methods = none → s.2.head? ≠ some false))
      b.pending (p, a) ⟨by simpa using hp, by simpa using hbad, fun _ => hmem⟩
      hlive (by
        rintro xs c ⟨p₁, a₁⟩ - ⟨hafter, -, hmem⟩ hstop
        obtain ⟨p₂, a₂, hfeed, hbad₂, hmem₂⟩ :=
          exists_greetingParserFeed c hafter hstop hmem
        refine ⟨_, hfeed, ?_⟩
        rw [← List.append_assoc]
        exact ⟨greetingParserFeed_after hafter hstop hfeed, hbad₂, hmem₂⟩)
  rw [← consumeLoop_decode (p, a) (le_refl b.count)] at hdecode
  obtain ⟨⟨b', p₁, a₁⟩, hconsume, heq⟩ := bind_eq_ok.mp hdecode
  cases heq
  exact ⟨b', p', a', used, hconsume, hused, hafter, hbad', hrest⟩

theorem exists_selectMethodLoop {methods : Block} {n i : ℕ} (ret : UInt8)
    (hlen : i + n ≤ methods.length) :
    ∃ m, selectMethodLoop methods n i ret = .ok m := by
  induction n generalizing i ret with
  | zero => exact ⟨ret, rfl⟩
  | succ n ih =>
      have hi : i < methods.length := by omega
      rw [selectMethodLoop, List.getElem?_eq_getElem hi]
      dsimp only
      split
      · exact ⟨_, rfl⟩
      · exact ih _ (by omega)

/-- Once the parser has stopped, `select_method` finds what is offered. -/
theorem GreetingParser.After.offers {xs : List UInt8} {p : GreetingParser}
    (h : p.After xs) (hfinal : p.state.final = true)
    (hbad : p.state = .badSyntax → xs = [5, 0]) :
    ∃ m, selectMethod p.methods p.methodsRemaining = .ok m ∧ Offers xs m := by
  unfold GreetingParser.After at h
  cases hs : p.state with
  | readingVersion | readingNmethods | readingMethods =>
      simp [hs, GreetingState.final] at hfinal
  | unsupportedVersion =>
      simp only [hs] at h
      obtain ⟨hnone, v, hv, rfl⟩ := h
      rw [hnone]
      exact ⟨noAcceptableMethods, rfl, .version hv⟩
  | badSyntax =>
      simp only [hs] at h
      rw [h.1, hbad hs]
      exact ⟨noAcceptableMethods, rfl, .noMethods⟩
  | done =>
      simp only [hs] at h
      obtain ⟨ms, rfl, hms, hmethods, hremaining⟩ := h
      have hlen : p.methodsRemaining.toNat = ms.length := by
        rw [hremaining, length_eq_lengthByte hms]
      have hbound : 0 + p.methodsRemaining.toNat ≤ ms.length := by
        rw [Nat.zero_add, hlen]
      obtain ⟨m, hm⟩ := exists_selectMethodLoop noAcceptableMethods hbound
      rw [hmethods]
      exact ⟨m, hm, .greeting hms (selectMethod_spec hlen hm)⟩

/-! ## The callbacks -/

theorem World.exists_recvInto {sys : Sys} {b : Buffer} (w : World)
    (state : GlobalState) (fd : ℤ) (hdata : sys.hasData b = true) :
    ∃ bs b', w.recvInto state sys fd b =
      .ok (.data bs b', w.record (.recv state fd b.room (.received bs))) := by
  unfold Sys.hasData at hdata
  unfold World.recvInto
  cases hresult : sys.recv.upTo b.room with
  | connReset | failed => simp [hresult] at hdata
  | received bs =>
      simp only [hresult, decide_eq_true_iff] at hdata
      obtain ⟨c, cs, rfl⟩ := List.exists_cons_of_ne_nil hdata
      have hfits : (c :: cs).length ≤ b.room := by
        cases hrecv : sys.recv with
        | connReset | failed => simp [hrecv, RecvResult.upTo] at hresult
        | received xs =>
            rw [hrecv, RecvResult.upTo, RecvResult.received.injEq] at hresult
            rw [← hresult]
            exact List.length_take_le _ _
      obtain ⟨b', hput⟩ := Buffer.exists_put hfits
      refine ⟨c :: cs, b', ?_⟩
      simp only [hresult]
      rw [hput]
      rfl

/-- What can be sent is sent, if only in part. -/
theorem World.exists_sendFrom_of_accepted {sys : Sys} {b : Buffer} (w : World)
    (state : GlobalState) (fd : ℤ) (hsend : sys.send ≠ .failed)
    (hne : b.pending ≠ []) :
    ∃ bs b', w.sendFrom state sys fd b =
      .ok (some (bs, b'), w.record (.send state fd bs)) := by
  unfold World.sendFrom
  cases hk : sys.send with
  | failed => exact absurd hk hsend
  | accepted k =>
      obtain ⟨c, cs, hpending⟩ := List.exists_cons_of_ne_nil hne
      have hcount : ((c :: cs).take (k + 1)).length ≤ b.count := by
        rw [← b.length_pending, hpending]
        exact List.length_take_le' _ _
      obtain ⟨b', hadv⟩ := Buffer.exists_readAdv hcount
      refine ⟨(c :: cs).take (k + 1), b', ?_⟩
      rw [hpending]
      dsimp only
      rw [hadv]
      rfl

theorem exists_greetingRead {sys : Sys} {fd : ℤ} {w : World} {ys : List UInt8}
    (hreg : w.selector.Registered fd)
    (hdata : sys.hasData w.session.readBuffer = true)
    (hmem : sys.allocs.head? ≠ some false)
    (hafter : w.session.greeting.parser.After ys)
    (hlive : w.session.greeting.parser.state.final = false) :
    ∃ ret w', greetingRead sys fd w = .ok (ret, w') := by
  obtain ⟨bs, rb, hrecv⟩ := w.exists_recvInto .greetingRead fd hdata
  obtain ⟨rb', p, a, used, hconsume, -, hafter', hbad, -⟩ :=
    exists_consumeGreetingBuffer (b := rb) hafter hlive hmem
  unfold greetingRead
  rw [hrecv, ok_bind]
  simp only [World.record]
  rw [hconsume, ok_bind]
  dsimp only
  by_cases hfinal : p.state.final = true
  · obtain ⟨m, hselect, -⟩ := hafter'.offers hfinal hbad
    rw [if_pos hfinal, hselect, ok_bind, World.setInterestKey_eq]
    obtain ⟨s, hset, -⟩ := World.exists_setInterest .write (w := { w with
      session := { w.session with
        readBuffer := rb'
        greeting := { parser := p, methodSelected := m.toNat } }
      log := w.log ++ [.recv .greetingRead fd w.session.readBuffer.room
        (.received bs)] }) hreg
    rw [hset, ok_bind]
    dsimp only
    rw [if_neg (by simp), greetingFillMsg]
    split
    · exact ⟨_, _, rfl⟩
    · have hfits : [5, m].length ≤ w.session.writeBuffer.room := by
        simp only [List.length_cons, List.length_nil]
        omega
      obtain ⟨wb, hput⟩ := Buffer.exists_put hfits
      rw [hput]
      exact ⟨_, _, rfl⟩
  · rw [if_neg hfinal]
    exact ⟨_, _, rfl⟩

/-- What a call of `greeting_write` does to which a part of the answer is
accepted. -/
structure GreetingSent (sys : Sys) (m : UInt8) (w : World) (ret : GlobalState)
    (w' : World) : Prop where
  sends : ∃ bs, Sends sys w.session.writeBuffer
      (some (bs, w'.session.writeBuffer)) ∧
    Mute (w.record (.send .greetingWrite w.session.clientFd bs)) w'
  goes : (w'.session.writeBuffer.pending ≠ [] ∧ ret = .greetingWrite ∧
      w'.selector = w.selector) ∨
    (w'.session.writeBuffer.pending = [] ∧ ret = methodState m)
  input : w'.input = w.input
  readBuffer : w'.session.readBuffer = w.session.readBuffer
  greeting : w'.session.greeting = w.session.greeting
  alive : w'.destroyed = w.destroyed

theorem exists_greetingWrite {sys : Sys} {w : World} {m : UInt8}
    (hreg : w.selector.Registered w.session.clientFd)
    (hsend : sys.send ≠ .failed) (hne : w.session.writeBuffer.pending ≠ [])
    (hm : w.session.greeting.methodSelected = m.toNat) :
    ∃ ret w', greetingWrite sys w.session.clientFd w = .ok (ret, w') ∧
      GreetingSent sys m w ret w' := by
  obtain ⟨bs, wb, hsent⟩ := w.exists_sendFrom_of_accepted .greetingWrite
    w.session.clientFd hsend hne
  have hsends := (World.sendFrom_spec hsent).1
  unfold greetingWrite
  rw [hsent, ok_bind]
  dsimp only
  by_cases hrest : wb.pending = []
  · rw [if_neg (not_canRead hrest), World.setInterestKey_eq]
    obtain ⟨s, hset, -⟩ := World.exists_setInterest .read (w :=
      (w.record (.send .greetingWrite w.session.clientFd bs)).setWriteBuffer wb)
      hreg
    rw [hset, ok_bind]
    dsimp only
    rw [if_neg (by simp)]
    have hlast (ret : GlobalState) (hret : ret = methodState m) :
        GreetingSent sys m w ret { w with
          session := { w.session with writeBuffer := wb }
          selector := s
          log := w.log ++ [.send .greetingWrite w.session.clientFd bs] ++
            [.setInterest w.session.clientFd .read] } :=
      ⟨⟨bs, hsends, .of_call rfl rfl rfl⟩, Or.inr ⟨hrest, hret⟩,
        (received_append_eq_left _ rfl).trans (received_append_eq_left _ rfl),
        rfl, rfl, rfl⟩
    change ∃ ret w', (if w.session.greeting.methodSelected = 0 then _
      else if w.session.greeting.methodSelected = 2 then _ else _) = _ ∧ _
    rw [hm]
    by_cases hzero : m = 0
    · rw [if_pos (by rw [hzero]; rfl)]
      exact ⟨_, _, rfl, hlast _ (by rw [hzero]; rfl)⟩
    · have hzero' : (m.toNat : ℤ) ≠ 0 := by
        intro heq
        exact hzero (UInt8.toNat_inj.mp (Int.ofNat.inj heq))
      rw [if_neg hzero']
      by_cases htwo : m = 2
      · rw [if_pos (by rw [htwo]; rfl)]
        exact ⟨_, _, rfl, hlast _ (by rw [htwo]; rfl)⟩
      · have htwo' : (m.toNat : ℤ) ≠ 2 := by
          intro heq
          exact htwo (UInt8.toNat_inj.mp (Int.ofNat.inj heq))
        rw [if_neg htwo']
        exact ⟨_, _, rfl, hlast _ ((if_neg htwo).trans (if_neg hzero)).symm⟩
  · rw [if_pos ((Buffer.canRead_iff wb).mpr hrest)]
    exact ⟨_, _, rfl, ⟨bs, hsends, .of_log_eq rfl rfl⟩, Or.inl ⟨hrest, rfl, rfl⟩,
      received_append_eq_left _ rfl, rfl, rfl, rfl⟩

/-! ## How far the negotiation is -/

/-- The greeting is not complete. -/
structure AwaitsGreeting (company : Company) (w : World) : Prop where
  alive : w.destroyed = false
  parser : w.session.greeting.parser.After w.input
  live : w.session.greeting.parser.state.final = false
  unread : w.session.readBuffer.pending = []
  unanswered : w.answers = []
  empty : w.session.writeBuffer.pending = []
  room : 2 ≤ w.session.writeBuffer.room
  interest : company = .alone →
    w.selector.interest? w.session.clientFd = some .read

/-- The bytes `xs` have settled that `m` is offered, and not all of the answer
has been sent. -/
structure Replying (company : Company) (xs : List UInt8) (m : UInt8)
    (w : World) : Prop where
  alive : w.destroyed = false
  offers : Offers xs m
  method : w.session.greeting.methodSelected = m.toNat
  input : w.input = xs ++ w.session.readBuffer.pending
  unsent : w.session.writeBuffer.pending ≠ []
  answer : w.answers ++ w.session.writeBuffer.pending = [5, m]
  interest : company = .alone →
    w.selector.interest? w.session.clientFd = some .write

/-- The answer has been sent. -/
structure Replied (xs : List UInt8) (m : UInt8) (w : World) : Prop where
  offers : Offers xs m
  input : xs <+: w.input
  answer : [5, m] <+: w.answers

theorem AwaitsGreeting.read {company : Company} {sys : Sys} {w w' : World}
    {ret : GlobalState} (hw : AwaitsGreeting company w)
    (hreg : w.selector.Registered w.session.clientFd)
    (hdata : sys.hasData w.session.readBuffer = true)
    (hmem : sys.allocs.head? ≠ some false)
    (h : greetingRead sys w.session.clientFd w = .ok (ret, w')) :
    (ret = .greetingRead ∧ AwaitsGreeting company w') ∨
      (ret = .greetingWrite ∧ ∃ xs m, Replying company xs m w') := by
  have hne := greetingRead_ne_error hreg hdata hw.room h
  have hmute := greetingRead_mute h
  have hinput : w.input = w.input ++ w.session.readBuffer.pending := by
    rw [hw.unread, List.append_nil]
  cases greetingRead_spec h with
  | failed => exact absurd rfl hne
  | @waits bs rb rb' parser a hrecv hconsume hfinal =>
      obtain ⟨rb₁, p₁, a₁, used, hconsume₁, -, hafter, -, hrest⟩ :=
        exists_consumeGreetingBuffer (b := rb) hw.parser hw.live hmem
      obtain ⟨used', hused', hreads⟩ := consume_reads hrecv hconsume hw.live
      rw [hconsume] at hconsume₁
      cases hconsume₁
      have hread : received w.session.clientFd (w.log ++
          [.recv .greetingRead w.session.clientFd w.session.readBuffer.room
            (.received bs)]) = w.input ++ used' := by
        rw [received_divides hinput hused', hrest hfinal, List.append_nil]
      refine Or.inl ⟨rfl, hw.alive, ?_, hfinal, hrest hfinal,
        hmute.answers_eq.trans hw.unanswered, hw.empty, hw.room, hw.interest⟩
      have hafter' := greeting_reads_after hw.parser hreads
      rw [← hread] at hafter'
      exact hafter'
  | @answers bs rb rb' wb parser a m s hrecv hconsume hfinal hselect hset hfill =>
      obtain ⟨rb₁, p₁, a₁, used, hconsume₁, hused, hafter, hbad, -⟩ :=
        exists_consumeGreetingBuffer (b := rb) hw.parser hw.live hmem
      rw [hconsume] at hconsume₁
      cases hconsume₁
      obtain ⟨m', hselect', hoffers⟩ := hafter.offers hfinal hbad
      rw [hselect] at hselect'
      cases hselect'
      have hused' : w.session.readBuffer.pending ++ bs = used ++ rb'.pending := by
        cases hrecv with
        | data _ _ hpending => rw [← hpending, hused]
      have hpending : wb.pending = [5, m] := by
        unfold greetingFillMsg at hfill
        split at hfill
        · cases hfill
        · obtain ⟨b, hput, hfill⟩ := bind_eq_ok.mp hfill
          cases hfill
          rw [(Buffer.put_spec hput).1, hw.empty]
          rfl
      obtain ⟨i, -, hinterest⟩ := hset.interest_eq
      refine Or.inr ⟨rfl, _, m, hw.alive, hoffers, rfl, ?_, ?_, ?_,
        fun _ => ?_⟩
      · exact (received_append_eq_left _ rfl).trans
          (received_divides hinput hused')
      · change wb.pending ≠ []
        rw [hpending]
        simp
      · rw [hmute.answers_eq, hw.unanswered]
        exact hpending
      · change s.interest? w.session.clientFd = some .write
        rw [hinterest, Function.update_self]
        rfl

theorem Replying.sent {company : Company} {sys : Sys} {w w' : World}
    {ret : GlobalState} {xs : List UInt8} {m : UInt8}
    (hw : Replying company xs m w) (h : GreetingSent sys m w ret w') :
    (ret = .greetingWrite ∧ Replying company xs m w' ∧
      w'.session.writeBuffer.count < w.session.writeBuffer.count) ∨
    (ret = methodState m ∧ Replied xs m w' ∧ w'.answers = [5, m]) := by
  obtain ⟨bs, hsends, hmute⟩ := h.sends
  have hanswer := (hsends.conserved (by decide) hmute).trans hw.answer
  rcases h.goes with ⟨hrest, hret, hsel⟩ | ⟨hnone, hret⟩
  · refine Or.inl ⟨hret, ⟨h.alive.trans hw.alive, hw.offers, ?_, ?_, hrest,
      hanswer, ?_⟩, ?_⟩
    · rw [h.greeting]
      exact hw.method
    · rw [h.input, h.readBuffer]
      exact hw.input
    · rw [hsel, hmute.clientFd]
      exact hw.interest
    · cases hsends with
      | sent _ _ hne hpending =>
          rw [← Buffer.length_pending, ← Buffer.length_pending, hpending,
            List.length_append]
          have := List.length_pos_iff.mpr hne
          omega
  · rw [hnone, List.append_nil] at hanswer
    refine Or.inr ⟨hret, ⟨hw.offers, ?_, ?_⟩, hanswer⟩
    · rw [h.input, hw.input]
      exact List.prefix_append _ _
    · rw [hanswer]

theorem Replied.mono {xs : List UInt8} {m : UInt8} {w w' : World}
    (hw : Replied xs m w) (hclient : w'.session.clientFd = w.session.clientFd)
    (hlog : w.log <+: w'.log) : Replied xs m w' where
  offers := hw.offers
  input := by
    refine hw.input.trans ?_
    rw [World.input, World.input, hclient]
    exact received_mono hlog
  answer := by
    obtain ⟨calls, hcalls⟩ := hlog
    refine hw.answer.trans ?_
    rw [World.answers, World.answers, hclient, ← hcalls, answeredTo_append]
    exact List.prefix_append _ _

/-- How far the negotiation is in a session that has visited the states `vs`
and is in the state `s`. -/
inductive Negotiating (company : Company) :
    List GlobalState → GlobalState → World → Prop
  | reading {vs : List GlobalState} {w : World} :
      vs = [] ∨ vs = [.greetingRead] → AwaitsGreeting company w →
      Negotiating company vs .greetingRead w
  | replying {xs : List UInt8} {m : UInt8} {w : World} :
      Replying company xs m w →
      Negotiating company [.greetingRead, .greetingWrite] .greetingWrite w
  | replied {vs : List GlobalState} {s : GlobalState} {xs : List UInt8}
      {m : UInt8} {w : World} : Replied xs m w →
      Negotiating company
        ([.greetingRead, .greetingWrite, methodState m] ++ vs) s w

/-- What the client sends arrives, and what it is sent is accepted, if only in
part; there is memory for the methods. -/
def NegotiationEvent (s : GlobalState) (w : World) : Event → Prop
  | .dispatch _ _ sys =>
      (s = .greetingRead → sys.hasData w.session.readBuffer = true ∧
        sys.allocs.head? ≠ some false) ∧
      (s = .greetingWrite → sys.send ≠ .failed)
  | _ => True

instance (s : GlobalState) (w : World) (e : Event) :
    Decidable (NegotiationEvent s w e) :=
  match e with
  | .dispatch _ _ _ => inferInstanceAs (Decidable (_ ∧ _))
  | .connectionEnds _ | .resolved _ _ _ | .others _ _ =>
      inferInstanceAs (Decidable True)

theorem methodState_cases (m : UInt8) : methodState m = .authRead ∨
    methodState m = .requestRead ∨ methodState m = .error := by
  unfold methodState
  split
  · exact Or.inl rfl
  · split
    · exact Or.inr (Or.inl rfl)
    · exact Or.inr (Or.inr rfl)

/-- The state of the method is the one entered. -/
theorem Outcome.via_methodState {sys : Sys} {fd : ℤ} {m : UInt8}
    {via : List GlobalState} {w w' : World}
    (h : Outcome sys fd .greetingWrite (methodState m) w via w') :
    via = [methodState m] := by
  generalize hret : methodState m = ret at h
  have hcases := methodState_cases m
  rw [hret] at hcases
  cases h with
  | stays => simp at hcases
  | enters => rfl
  | connects => simp at hcases
  | redirected => simp at hcases
  | ends => rfl

theorem Negotiating.dispatched {company : Company} {sys : Sys} {fd : ℤ}
    {s ret : GlobalState} {r : Ready} {f : Callback}
    {vs via : List GlobalState} {w w₁ w₂ : World}
    (hw : Negotiating company vs s w) (hbasics : Basics vs s w)
    (hs : vs.getLast? = some s) (hhands : w.Hands company r fd)
    (he : NegotiationEvent s w (.dispatch r fd sys))
    (hf : onReady sys fd s r = some f)
    (h : f (w.delivered r fd) = .ok (ret, w₁))
    (hout : Outcome sys fd s ret w₁ via w₂) :
    Negotiating company (vs ++ via) (via.getLastD s) w₂ := by
  cases hw with
  | reading hvs hw =>
      obtain rfl : vs = [.greetingRead] := by
        rcases hvs with rfl | rfl
        · cases hs
        · rfl
      obtain rfl := hhands.1.eq_clientFd hbasics.1.understood.1
      obtain ⟨hdata, hmem⟩ := he.1 rfl
      cases r <;> cases hf
      rcases hw.read hhands.2.1 hdata hmem h with ⟨rfl, hw₁⟩ | ⟨rfl, xs, m, hw₁⟩
      · cases hout with
        | stays => exact .reading (Or.inr rfl) hw₁
        | enters hne => exact absurd rfl hne
        | ends hend => simp at hend
      · cases hout with
        | enters => exact .replying hw₁
        | ends hend => simp at hend
  | @replying xs m _ hw =>
      obtain rfl := hhands.1.eq_clientFd hbasics.1.understood.1
      cases r <;> cases hf
      obtain ⟨ret', w', hwrite, hsent⟩ :=
        exists_greetingWrite hhands.2.1 (he.2 rfl) hw.unsent hw.method
      have hsame : greetingWrite sys w.session.clientFd w = .ok (ret, w₁) := h
      rw [hsame] at hwrite
      cases hwrite
      rcases hw.sent hsent with ⟨rfl, hw₁, -⟩ | ⟨rfl, hw₁, -⟩
      · cases hout with
        | stays => exact .replying hw₁
        | enters hne => exact absurd rfl hne
        | ends hend => simp at hend
      · have hsilent := hout.silent
        rw [hout.via_methodState]
        have hreplied := hw₁.mono hsilent.clientFd hsilent.log_prefix
        have hreached : Negotiating company
            ([.greetingRead, .greetingWrite, methodState m] ++ [])
            (methodState m) w₂ := .replied hreplied
        exact hreached
  | @replied vs _ xs m _ hw =>
      have hdelivered := delivered_silent w r fd
      have hgrows := onReady_grows hf h
      have hsilent := hout.silent
      rw [List.append_assoc]
      refine .replied (hw.mono ?_ ?_)
      · exact hsilent.clientFd.trans (hgrows.1.trans hdelivered.clientFd)
      · exact hdelivered.log_prefix.trans (hgrows.2.trans hsilent.log_prefix)

theorem AwaitsGreeting.started {company : Company} {w : World}
    (hw : AwaitsGreeting company w) (hlog : w.log = []) :
    AwaitsGreeting company (greetingInit w) where
  alive := hw.alive
  parser := by
    change greetingParserInit.After w.input
    rw [World.input, hlog]
    exact greetingParserInit_after
  live := rfl
  unread := hw.unread
  unanswered := hw.unanswered
  empty := hw.empty
  room := hw.room
  interest := hw.interest

/-- The negotiation keeps to its course. -/
theorem negotiating_inductive (company : Company) :
    Inductive company Basics NegotiationEvent (Negotiating company) where
  started := by
    intro w hbasics hw
    generalize hvs : ([] : List GlobalState) = vs at hw
    cases hw with
    | reading _ hw =>
        subst hvs
        exact .reading (Or.inr rfl) (hw.started (hbasics.1.unstarted rfl))
    | replied => cases hvs
  startedCondition := by
    intro w e he
    cases e <;> exact he
  dispatched := fun hbasics hw hs he _ hhands _ hf h hout =>
    hw.dispatched hbasics hs hhands he hf h hout
  connectionEnds := by
    intro vs s w ok _ hw _ _
    cases hw with
    | reading hvs hw => exact .reading hvs { hw with }
    | replying hw => exact .replying { hw with }
    | replied hw => exact .replied { hw with }
  resolved := by
    intro vs s w fd addrs alloc _ hw _ _
    have hsame : (connectOriginThread fd addrs alloc w).selector.interest? =
        w.selector.interest? := FdSelector.interest?_notified _ _ _
    cases hw with
    | reading hvs hw =>
        exact .reading hvs { hw with interest := hsame ▸ hw.interest }
    | replying hw => exact .replying { hw with interest := hsame ▸ hw.interest }
    | replied hw => exact .replied { hw with }
  others := by
    intro vs s w sel m hbasics hw _ hsame
    have hinterest (hlive : w.destroyed = false) (halone : company = .alone) :
        sel.interest? w.session.clientFd =
          w.selector.interest? w.session.clientFd :=
      ((hsame _ ⟨(hbasics.2 hlive).nonneg, Or.inl rfl⟩).2 halone).1
    cases hw with
    | reading hvs hw =>
        exact .reading hvs { hw with interest := fun halone =>
          (hinterest hw.alive halone).trans (hw.interest halone) }
    | replying hw =>
        exact .replying { hw with interest := fun halone =>
          (hinterest hw.alive halone).trans (hw.interest halone) }
    | replied hw => exact .replied { hw with }

theorem Initial.negotiating (company : Company) {c : Config} (h : Initial c) :
    Negotiating company [] .greetingRead c.world := by
  obtain ⟨address, clientFd, s, m, rfl, hs, -⟩ := h
  refine .reading (Or.inl rfl) ⟨rfl, greetingParserInit_after, rfl, rfl, rfl,
    rfl, ?_, fun _ => hs⟩
  change 2 ≤ maxBuffSize
  decide

/-! ## The course of the negotiation -/

/-- How the session stands once the byte that settles the offer `m` has been
read: the answer has not been sent to its end, and what follows the byte has
not been read; or it has been sent, and the state of the method entered. -/
inductive Offered (company : Company) (m : UInt8) (later : List UInt8)
    (c : Config) : Prop
  | replying : c.Visited [.greetingRead, .greetingWrite] →
      c.world.answers ++ c.world.session.writeBuffer.pending = [5, m] →
      c.world.session.writeBuffer.pending ≠ [] →
      c.world.session.readBuffer.pending = later →
      (company = .alone →
        c.world.Hands .alone .write c.world.session.clientFd) →
      Offered company m later c
  | replied {vs : List GlobalState} :
      c.Visited ([.greetingRead, .greetingWrite, methodState m] ++ vs) →
      [5, m] <+: c.world.answers → Offered company m later c

/-- What the event that a session is handed while it answers leads to: some of
the answer is left to be sent, but less; or none, and then the session is in the
state of the method, and has not read on. -/
def SendsOn (m : UInt8) (later : List UInt8) (c c' : Config) : Prop :=
  (c'.Visited [.greetingRead, .greetingWrite] ∧
    c'.world.session.writeBuffer.count <
      c.world.session.writeBuffer.count) ∨
  (c'.Visited [.greetingRead, .greetingWrite, methodState m] ∧
    c'.world.answers = [5, m] ∧
    c'.world.session.readBuffer.pending = later)

/-- The course of the negotiation.  As long as the greeting is incomplete
nothing is answered, and more of it can be read; once the offer is settled, it
is answered, and the answer can be sent to its end. -/
structure Negotiates (company : Company) (c : Config) : Prop where
  waiting : IncompleteGreeting c.world.input →
    c.state = .greetingRead ∧ c.world.answers = [] ∧
      (company = .alone →
        c.world.Hands .alone .read c.world.session.clientFd)
  reads : IncompleteGreeting c.world.input → ∀ fd sys,
    c.world.Hands company .read fd →
    sys.hasData c.world.session.readBuffer = true →
    sys.allocs.head? ≠ some false → ∃ c', dispatch .read fd sys c = .ok c'
  offered : ∀ xs m later, Offers xs m → c.world.input = xs ++ later →
    Offered company m later c
  writes : ∀ xs m later, Offers xs m → c.world.input = xs ++ later →
    c.Visited [.greetingRead, .greetingWrite] → ∀ fd sys,
    c.world.Hands company .write fd → sys.send ≠ .failed →
    ∃ c', dispatch .write fd sys c = .ok c' ∧ SendsOn m later c c'

section Course

variable {company : Company} {vs : List GlobalState} {s : GlobalState}
  {w : World} {xs later : List UInt8} {m : UInt8}

theorem Negotiating.of_incomplete (hw : Negotiating company vs s w)
    (h : IncompleteGreeting w.input) :
    s = .greetingRead ∧ AwaitsGreeting company w := by
  cases hw with
  | reading _ hw => exact ⟨rfl, hw⟩
  | replying hw =>
      rw [hw.input] at h
      exact absurd h hw.offers.not_incomplete
  | replied hw =>
      obtain ⟨rest, hrest⟩ := hw.input
      rw [← hrest] at h
      exact absurd h hw.offers.not_incomplete

theorem Negotiating.of_offers (hw : Negotiating company vs s w)
    (hoffers : Offers xs m) (hinput : w.input = xs ++ later) :
    (vs = [.greetingRead, .greetingWrite] ∧ Replying company xs m w ∧
      w.session.readBuffer.pending = later) ∨
    ∃ vs', vs = [.greetingRead, .greetingWrite, methodState m] ++ vs' ∧
      Replied xs m w := by
  cases hw with
  | reading _ hw =>
      have hincomplete := hw.parser.incomplete hw.live
      rw [hinput] at hincomplete
      exact absurd hincomplete hoffers.not_incomplete
  | replying hw =>
      obtain ⟨rfl, rfl, hlater⟩ :=
        hw.offers.unique hoffers (hw.input.symm.trans hinput)
      exact Or.inl ⟨rfl, hw, hlater⟩
  | replied hw =>
      obtain ⟨rest, hrest⟩ := hw.input
      obtain ⟨rfl, rfl, -⟩ := hw.offers.unique hoffers (hrest.trans hinput)
      exact Or.inr ⟨_, rfl, hw⟩

theorem Config.started_input (c : Config) :
    c.started.world.input = c.world.input := by
  rcases c.started_world with heq | heq <;> rw [heq]
  rfl

/-- An event that reads is dealt with. -/
theorem AwaitsGreeting.exists_dispatch {c : Config} {fd : ℤ} {sys : Sys}
    (hw : AwaitsGreeting company c.started.world)
    (hcur : c.started.stm.current = some GlobalState.greetingRead.id)
    (hfd : fd = c.started.world.session.clientFd)
    (hreg : c.started.world.selector.Registered fd)
    (hdata : sys.hasData c.started.world.session.readBuffer = true)
    (hmem : sys.allocs.head? ≠ some false) :
    ∃ c', dispatch .read fd sys c = .ok c' := by
  obtain ⟨ret, w', h⟩ := exists_greetingRead hreg hdata hmem hw.parser hw.live
  subst hfd
  have hstarted := dispatch_started .read c.started.world.session.clientFd sys c
  simp only [World.delivered] at hstarted
  change ∃ c', dispatch .read _ sys ⟨c.stm, c.world⟩ = .ok c'
  rw [hstarted]
  rcases hw.read hreg hdata hmem h with ⟨rfl, -⟩ | ⟨rfl, -⟩
  · exact ⟨_, dispatch_stays hcur rfl h⟩
  · exact ⟨_, dispatch_enters hcur rfl h (by decide) (by decide) (by decide)⟩

/-- An event that writes is dealt with. -/
theorem Replying.exists_dispatch {c : Config} {sys : Sys}
    (hw : Replying company xs m c.world) (horigin : c.world.session.originFd = -1)
    (hvs : c.Visited [.greetingRead, .greetingWrite])
    (hreg : c.world.selector.Registered c.world.session.clientFd)
    (hsend : sys.send ≠ .failed)
    (hlater : c.world.session.readBuffer.pending = later) :
    ∃ c', dispatch .write c.world.session.clientFd sys c = .ok c' ∧
      SendsOn m later c c' := by
  have hcur : c.stm.current = some GlobalState.greetingWrite.id := hvs.2
  obtain ⟨ret, w', h, hsent⟩ :=
    exists_greetingWrite hreg hsend hw.unsent hw.method
  have hquiet := greetingWrite_quiet h
  have hpending : w'.session.readBuffer.pending = later := by
    rw [hsent.readBuffer, hlater]
  have henter : c.stm.enter (methodState m).id =
      c.stm.enterAll [methodState m] := rfl
  have hentered : Config.Visited ⟨c.stm.enter (methodState m).id, w'⟩
      [.greetingRead, .greetingWrite, methodState m] :=
    Machine.enterAll_visited hvs henter
  rcases hw.sent hsent with ⟨rfl, -, hless⟩ | ⟨rfl, -, hanswers⟩
  · exact ⟨_, dispatch_stays hcur rfl h, Or.inl ⟨hvs, hless⟩⟩
  · have hne : methodState m ≠ .greetingWrite := by
      rcases methodState_cases m with hm | hm | hm <;> rw [hm] <;> decide
    have hoc : methodState m ≠ .originConnect := by
      rcases methodState_cases m with hm | hm | hm <;> rw [hm] <;> decide
    by_cases hend : methodState m = .done ∨ methodState m = .error
    · have hheld : Held w' := by
        refine ⟨(hquiet.registered _).mpr (hquiet.clientFd ▸ hreg), Or.inl ?_⟩
        rw [hquiet.originFd, horigin]
      obtain ⟨w₂, hdone⟩ := hheld.exists_socksv5Done
      have hsilent := socksv5Done_silent hdone
      refine ⟨_, dispatch_ends hcur rfl h hend hdone,
        Or.inr ⟨⟨hentered.1, hentered.2⟩, ?_, ?_⟩⟩
      · exact hsilent.mute.answers_eq.trans hanswers
      · exact (congrArg Buffer.pending hsilent.readBuffer).trans hpending
    · have hsilent := arrived_silent (methodState m) w'
      refine ⟨_, dispatch_enters hcur rfl h hne hoc hend,
        Or.inr ⟨⟨hentered.1, hentered.2⟩, ?_, ?_⟩⟩
      · exact hsilent.mute.answers_eq.trans hanswers
      · exact (congrArg Buffer.pending hsilent.readBuffer).trans hpending

end Course

/-- In every run in which what the client sends arrives, what it is sent is
accepted, and there is memory, the method is negotiated: whatever the bytes and
however they are cut into reads. -/
theorem greeting_negotiated {company : Company} {c₀ c : Config}
    {tr : List (Config × Event)} (hinit : Initial c₀)
    (hrun : Run (Step company) c₀ tr c)
    (hevents : ∀ x ∈ tr, NegotiationEvent x.1.state x.1.world x.2) :
    Negotiates company c := by
  have hinductive := (basics_inductive company).and
    (negotiating_inductive company)
  have hfound := hinductive.run hrun hevents hinit.stm_eq
    ⟨hinit.basics, hinit.negotiating company⟩
  obtain ⟨vs, hvs, hbasics, hw⟩ := id hfound
  refine ⟨fun hincomplete => ?_, ?_, ?_, ?_⟩
  · obtain ⟨hstate, hawaits⟩ := hw.of_incomplete hincomplete
    refine ⟨hstate, hawaits.unanswered, fun halone => ?_⟩
    have hseated := hbasics.2 hawaits.alive
    exact ⟨⟨hseated.nonneg, Or.inl rfl⟩, hseated.client, _,
      hawaits.interest halone, rfl⟩
  · intro hincomplete fd sys hhands hdata hmem
    obtain ⟨hstate, -⟩ := hw.of_incomplete hincomplete
    have he : NegotiationEvent c.state c.world (.dispatch .read fd sys) := by
      rw [hstate]
      exact ⟨fun _ => ⟨hdata, hmem⟩, fun h => by cases h⟩
    obtain ⟨vs', s, -, -, hcur, ⟨hbasics', hw'⟩, -⟩ :=
      hinductive.atEvent he hfound
    rw [← c.started_input] at hincomplete
    obtain ⟨rfl, hawaits⟩ := hw'.of_incomplete hincomplete
    have hhands' := c.started_hands hhands
    refine hawaits.exists_dispatch hcur
      (hhands'.1.eq_clientFd hbasics'.1.understood.1) hhands'.2.1 ?_ hmem
    rcases c.started_world with heq | heq <;> rw [heq] <;> exact hdata
  · intro xs m later hoffers hinput
    rcases hw.of_offers hoffers hinput with
      ⟨rfl, hreplying, hlater⟩ | ⟨vs', rfl, hreplied⟩
    · refine .replying hvs hreplying.answer hreplying.unsent hlater ?_
      intro halone
      have hseated := hbasics.2 hreplying.alive
      exact ⟨⟨hseated.nonneg, Or.inl rfl⟩, hseated.client, _,
        hreplying.interest halone, rfl⟩
    · exact .replied hvs hreplied.answer
  · intro xs m later hoffers hinput hwriting fd sys hhands hsend
    obtain rfl := hvs.unique hwriting
    rcases hw.of_offers hoffers hinput with
      ⟨-, hreplying, hlater⟩ | ⟨vs', hfalse, -⟩
    · have horigin : c.world.session.originFd = -1 := by
        have hunderstood := hbasics.1.understood
        rw [hvs.state_eq] at hunderstood
        exact hunderstood.1
      obtain rfl := hhands.1.eq_clientFd horigin
      exact hreplying.exists_dispatch horigin hvs hhands.2.1 hsend hlater
    · simp at hfalse

/-- A client whose greeting comes in two parts, and that has been sent one byte
of the answer. -/
theorem greeting_negotiated_unauthenticated :
    ∃ c, play .alone (accepted 5) (unauthenticatedClient.take 3) = some c ∧
      c.world.input = [5, 1, 0] ∧ c.world.answers = [5] ∧
      Negotiates .alone c := by
  have hplay : (play .alone (accepted 5) (unauthenticatedClient.take 3)).any
      (fun c => decide (c.world.input = [5, 1, 0] ∧ c.world.answers = [5])) =
        true := by decide
  have hevents : ∀ x ∈ playTrace .alone (accepted 5)
      (unauthenticatedClient.take 3),
      NegotiationEvent x.1.state x.1.world x.2 := by decide
  obtain ⟨c, hc, hchecks⟩ := (Option.any_eq_true _ _).mp hplay
  obtain ⟨hinput, hanswers⟩ := of_decide_eq_true hchecks
  exact ⟨c, hc, hinput, hanswers,
    greeting_negotiated (accepted_initial (by decide) (by decide))
      (play_run hc) hevents⟩

end Socksv5
