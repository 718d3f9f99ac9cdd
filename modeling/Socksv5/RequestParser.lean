import Socksv5.Consume
import Socksv5.Heap
import Socksv5.Messages

/-!
# The request parser

`request_parser.c`.  The parser keeps the reply the client will be sent;
`request_parser_init` does not reset it, and the loop feeds the last byte of a
complete request twice, which is what sets it to `SUCCEDED`.
`RequestParser.After` says what the parser holds after each number of bytes.
-/

namespace Socksv5

open Support

/-- The reply codes of `request_parser.h`. -/
inductive Reply
  | succeded
  | generalSocksServerFailure
  | connectionNotAllowedByRuleset
  | networkUnreachable
  | hostUnreachable
  | connectionRefused
  | ttlExpired
  | commandNotSupported
  | addressTypeNotSupported
deriving DecidableEq, Repr

/-- The code of a reply on the wire. -/
def Reply.code : Reply → UInt8
  | .succeded => 0
  | .generalSocksServerFailure => 1
  | .connectionNotAllowedByRuleset => 2
  | .networkUnreachable => 3
  | .hostUnreachable => 4
  | .connectionRefused => 5
  | .ttlExpired => 6
  | .commandNotSupported => 7
  | .addressTypeNotSupported => 8

/-- `enum request_state` -/
inductive RequestState
  | readingVersion
  | readingCommand
  | readingRsv
  | readingAtyp
  | readingAddr
  | readingPort
  | done
  | error
deriving DecidableEq, Repr

/-- `struct request_parser` -/
structure RequestParser where
  state : RequestState := .readingVersion
  atyp : ℤ := 0
  addrLen : ℤ := 0
  port : ℤ := 0
  addr : Option Block := none
  addrIndex : UInt8 := 0
  reply : Reply := .succeded
deriving DecidableEq, Repr

/-- `request_parser_init` -/
def requestParserInit (p : RequestParser) : RequestParser :=
  { p with
    state := .readingVersion
    addrIndex := 0
    atyp := -1
    port := -1
    addrLen := -1
    addr := none }

/-- The test for a verdict of `consume_request_buffer`. -/
def RequestState.final : RequestState → Bool
  | .done | .error => true
  | _ => false

/-- `req_pars->state = request_error` with a reply. -/
def RequestParser.fail (p : RequestParser) (reply : Reply) : RequestParser :=
  { p with state := .error, reply := reply }

/-- The branches of `request_reading_atyp` for an address of `n` bytes.  A
failed allocation is noted as an error and then overwritten with
`request_reading_addr`. -/
def readAtypIp (c : UInt8) (n : ℕ) (p : RequestParser) (a : Allocs) :
    RequestParser × Allocs :=
  let (addr, a) := calloc (n + 1) a
  let p := { p with addrLen := n, addr := addr }
  let p := if addr = none then p.fail .generalSocksServerFailure else p
  ({ p with atyp := c.toNat, state := .readingAddr }, a)

/-- `request_parser_feed` -/
def requestParserFeed (c : UInt8) :
    RequestParser × Allocs → Except Fault (RequestParser × Allocs)
  | (p, a) =>
    match p.state with
    | .readingVersion =>
        if c = 5 then .ok ({ p with state := .readingCommand }, a)
        else .ok (p.fail .connectionNotAllowedByRuleset, a)
    | .readingCommand =>
        if c = 1 then .ok ({ p with state := .readingRsv }, a)
        else .ok (p.fail .commandNotSupported, a)
    | .readingRsv =>
        if c = 0 then .ok ({ p with state := .readingAtyp }, a)
        else .ok (p.fail .connectionNotAllowedByRuleset, a)
    | .readingAtyp =>
        if c = 1 then .ok (readAtypIp c 4 p a)
        else if c = 4 then .ok (readAtypIp c 16 p a)
        else if c = 3 then
          .ok ({ p with addrLen := 0, atyp := c.toNat, state := .readingAddr }, a)
        else .ok (p.fail .addressTypeNotSupported, a)
    | .readingAddr =>
        if p.addrIndex = 0 ∧ p.addrLen = 0 then
          if c = 0 then do
            let addr ← putByte p.addr p.addrIndex.toNat 0
            .ok ({ p with addr := addr, state := .readingPort }, a)
          else
            let (addr, a) := calloc (c.toNat + 1) a
            let p := { p with addrLen := c.toNat, addr := addr }
            if addr = none then .ok (p.fail .generalSocksServerFailure, a)
            else .ok (p, a)
        else do
          let addr ← putByte p.addr p.addrIndex.toNat c
          let p := { p with addr := addr, addrIndex := p.addrIndex + 1 }
          if (p.addrIndex.toNat : ℤ) = p.addrLen then do
            let addr ← putByte p.addr p.addrIndex.toNat 0
            .ok ({ p with addr := addr, state := .readingPort }, a)
          else .ok (p, a)
    | .readingPort =>
        if p.port = -1 then .ok ({ p with port := c.toNat * 256 }, a)
        else .ok ({ p with port := p.port + c.toNat, state := .done }, a)
    | .done => .ok ({ p with reply := .succeded }, a)
    | .error => .ok ({ p with reply := .generalSocksServerFailure }, a)

/-- One turn of the loop of `consume_request_buffer`, which feeds the byte that
completes the request once more. -/
def requestParserTurn (c : UInt8) (s : RequestParser × Allocs) :
    Except Fault (RequestParser × Allocs) := do
  let s ← requestParserFeed c s
  if s.1.state = .done then requestParserFeed c s else .ok s

/-- `consume_request_buffer` -/
def consumeRequestBuffer (b : Buffer) (p : RequestParser) (a : Allocs) :
    Except Fault (Buffer × RequestParser × Allocs) :=
  consume requestParserTurn (fun s => s.1.state.final) b (p, a)

/-- `request_fill_msg` -/
def requestFillMsg (b : Buffer) (p : RequestParser) : Except Fault Buffer :=
  b.put [5, p.reply.code, 0, 1, 0, 0, 0, 0, 0, 0]

/-! ## What the parser holds -/

/-- `AddressHeader header n mk`: the bytes `header` announce an address of `n`
bytes, of the kind `mk`. -/
inductive AddressHeader :
    List UInt8 → UInt8 → (List UInt8 → Destination) → Prop
  | ipv4 : AddressHeader [1] 4 .ipv4
  | ipv6 : AddressHeader [4] 16 .ipv6
  | fqdn {n : UInt8} : n ≠ 0 → AddressHeader [3, n] n .fqdn

/-- No address has been allocated and no port read. -/
def RequestParser.Fresh (p : RequestParser) : Prop :=
  p.addrIndex = 0 ∧ p.port = -1 ∧ p.addr = none

/-- The address that has been read is `d`, kept as a string. -/
def RequestParser.Holds (p : RequestParser) (d : Destination) : Prop :=
  d.WellFormed ∧ p.addr = some (d.bytes ++ [0]) ∧ p.atyp = d.atyp.toNat ∧
    p.addrLen = d.bytes.length

/-- What the parser holds once it has read `xs`. -/
def RequestParser.After (xs : List UInt8) (p : RequestParser) : Prop :=
  match p.state with
  | .readingVersion => xs = [] ∧ p.Fresh
  | .readingCommand => xs = [5] ∧ p.Fresh
  | .readingRsv => xs = [5, 1] ∧ p.Fresh
  | .readingAtyp => xs = [5, 1, 0] ∧ p.Fresh
  | .readingAddr => p.port = -1 ∧
      ((p.Fresh ∧ p.addrLen = 0 ∧ p.atyp = 3 ∧ xs = [5, 1, 0, 3]) ∨
        (p.addr = none ∧ p.addrLen ≠ 0) ∨
        ∃ header n mk field, AddressHeader header n mk ∧
          xs = 5 :: 1 :: 0 :: header ++ field ∧ p.addrLen = n.toNat ∧
          p.atyp = (mk field).atyp.toNat ∧ Filling field n p.addrIndex p.addr)
  | .readingPort => ∃ d, p.Holds d ∧
      ((p.port = -1 ∧ xs = 5 :: 1 :: 0 :: d.encode) ∨
        ∃ hi : UInt8, p.port = hi.toNat * 256 ∧
          xs = 5 :: 1 :: 0 :: d.encode ++ [hi])
  | .done => ∃ d hi lo, p.Holds d ∧ p.port = hi.toNat * 256 + lo.toNat ∧
      xs = requestMessage d hi lo
  | .error => p.reply ≠ .succeded

theorem requestParserInit_after (p : RequestParser) :
    (requestParserInit p).After [] :=
  ⟨rfl, rfl, rfl, rfl⟩

theorem AddressHeader.atyp_eq {header field field' : List UInt8} {n : UInt8}
    {mk : List UInt8 → Destination} (h : AddressHeader header n mk) :
    (mk field).atyp = (mk field').atyp := by
  cases h <;> rfl

/-- An address of the announced length is a destination, encoded as it was
read. -/
theorem AddressHeader.complete {header field : List UInt8} {n : UInt8}
    {mk : List UInt8 → Destination} (h : AddressHeader header n mk)
    (hlen : field.length = n.toNat) :
    (mk field).WellFormed ∧ (mk field).bytes = field ∧
      (mk field).encode = header ++ field := by
  cases h with
  | ipv4 => exact ⟨hlen, rfl, rfl⟩
  | ipv6 => exact ⟨hlen, rfl, rfl⟩
  | fqdn hn =>
      refine ⟨fieldLength_of_toNat hn hlen, rfl, ?_⟩
      rw [Destination.encode, lengthByte_eq_of_toNat hlen]
      rfl

theorem readAtypIp_after {c n : UInt8} {mk : List UInt8 → Destination}
    {p : RequestParser} {a : Allocs} (hheader : AddressHeader [c] n mk)
    (hatyp : (mk []).atyp = c) (hn : n ≠ 0) (hp : p.Fresh) :
    (readAtypIp c n.toNat p a).1.After [5, 1, 0, c] := by
  obtain ⟨hi, hport, -⟩ := hp
  have hlen : (n.toNat : ℤ) ≠ 0 := by
    have := toNat_pos_of_ne_zero hn
    omega
  by_cases hcalloc : (calloc (n.toNat + 1) a).1 = none
  · simp only [readAtypIp, hcalloc, if_true]
    exact ⟨hport, Or.inr (Or.inl ⟨rfl, hlen⟩)⟩
  · simp only [readAtypIp, hcalloc, if_false]
    refine ⟨hport, Or.inr (Or.inr ⟨[c], n, mk, [], hheader, rfl, rfl, ?_, ?_⟩)⟩
    · rw [hatyp]
    · rw [hi]
      exact filling_nil hn hcalloc

theorem requestParserFeed_after {xs : List UInt8} {c : UInt8}
    {p p' : RequestParser} {a a' : Allocs} (hp : p.After xs)
    (hstop : p.state.final = false)
    (h : requestParserFeed c (p, a) = .ok (p', a')) :
    p'.After (xs ++ [c]) := by
  unfold requestParserFeed at h
  unfold RequestParser.After at hp
  cases hs : p.state with
  | readingVersion =>
      simp only [hs] at h hp
      obtain ⟨rfl, hfresh⟩ := hp
      by_cases hc : c = 5
      · subst hc
        simp only [if_true] at h
        cases h
        exact ⟨rfl, hfresh⟩
      · simp only [hc, if_false] at h
        cases h
        simp [RequestParser.After, RequestParser.fail]
  | readingCommand =>
      simp only [hs] at h hp
      obtain ⟨rfl, hfresh⟩ := hp
      by_cases hc : c = 1
      · subst hc
        simp only [if_true] at h
        cases h
        exact ⟨rfl, hfresh⟩
      · simp only [hc, if_false] at h
        cases h
        simp [RequestParser.After, RequestParser.fail]
  | readingRsv =>
      simp only [hs] at h hp
      obtain ⟨rfl, hfresh⟩ := hp
      by_cases hc : c = 0
      · subst hc
        simp only [if_true] at h
        cases h
        exact ⟨rfl, hfresh⟩
      · simp only [hc, if_false] at h
        cases h
        simp [RequestParser.After, RequestParser.fail]
  | readingAtyp =>
      simp only [hs] at h hp
      obtain ⟨rfl, hfresh⟩ := hp
      by_cases hipv4 : c = 1
      · subst hipv4
        simp only [if_true] at h
        cases h
        exact readAtypIp_after (n := 4) .ipv4 rfl (by decide) hfresh
      · by_cases hipv6 : c = 4
        · subst hipv6
          simp only [hipv4, if_true, if_false] at h
          cases h
          exact readAtypIp_after (n := 16) .ipv6 rfl (by decide) hfresh
        · by_cases hfqdn : c = 3
          · subst hfqdn
            simp only [hipv4, hipv6, if_true, if_false] at h
            cases h
            exact ⟨hfresh.2.1, Or.inl ⟨hfresh, rfl, rfl, rfl⟩⟩
          · simp only [hipv4, hipv6, hfqdn, if_false] at h
            cases h
            simp [RequestParser.After, RequestParser.fail]
  | readingAddr =>
      simp only [hs] at h hp
      obtain ⟨hport, hfqdn | hnull | hfill⟩ := hp
      · obtain ⟨⟨hi, -, haddr⟩, hlen, hatyp, rfl⟩ := hfqdn
        simp only [hi, hlen, and_self, if_true, haddr] at h
        by_cases hc : c = 0
        · simp [hc, putByte, Bind.bind, Except.bind] at h
        · simp only [hc, if_false] at h
          by_cases hcalloc : (calloc (c.toNat + 1) a).1 = none
          · simp only [hcalloc, if_true] at h
            cases h
            simp [RequestParser.After, RequestParser.fail]
          · simp only [hcalloc, if_false] at h
            cases h
            unfold RequestParser.After
            simp only
            exact ⟨hport, Or.inr (Or.inr ⟨[3, c], c, .fqdn, [], .fqdn hc, rfl,
              rfl, hatyp, filling_nil hc hcalloc⟩)⟩
      · obtain ⟨haddr, hlen⟩ := hnull
        simp [hlen, haddr, putByte, Bind.bind, Except.bind] at h
      · obtain ⟨header, n, mk, field, hheader, rfl, hlen, hatyp, hf⟩ := hfill
        have hpos : p.addrLen ≠ 0 := by
          obtain ⟨k, hk, -⟩ := hf
          rw [hlen, hk]
          omega
        simp only [hpos, and_false, if_false] at h
        obtain ⟨addr, hput, h⟩ := bind_eq_ok.mp h
        rcases hf.putByte hput with ⟨hne, hf'⟩ | ⟨heq, hfull, hn, hterm⟩
        · have hne' : ((p.addrIndex + 1).toNat : ℤ) ≠ p.addrLen := by
            rw [hlen]
            intro heq
            exact hne (UInt8.toNat_inj.mp (Int.ofNat_inj.mp heq))
          simp only [hne', if_false] at h
          cases h
          unfold RequestParser.After
          simp only
          refine ⟨hport, Or.inr (Or.inr ⟨header, n, mk, field ++ [c], hheader,
            by simp, hlen, ?_, hf'⟩)⟩
          rw [hatyp, hheader.atyp_eq]
        · simp only [heq, hlen, if_true] at h
          obtain ⟨addr', hput', h⟩ := bind_eq_ok.mp h
          rw [heq] at hterm
          rw [hterm] at hput'
          cases hput'
          cases h
          obtain ⟨hwf, hbytes, hencode⟩ := hheader.complete hfull
          refine ⟨mk (field ++ [c]), ⟨hwf, ?_, ?_, ?_⟩, Or.inl ⟨hport, ?_⟩⟩
          · rw [hbytes]
          · exact hatyp.trans (by rw [hheader.atyp_eq])
          · rw [hbytes, hfull]
          · rw [hencode]
            simp
  | readingPort =>
      simp only [hs] at h hp
      obtain ⟨d, hd, ⟨hport, rfl⟩ | ⟨hi, hport, rfl⟩⟩ := hp
      · simp only [hport, if_true] at h
        cases h
        unfold RequestParser.After
        simp only
        exact ⟨d, hd, Or.inr ⟨c, rfl, rfl⟩⟩
      · have hne : p.port ≠ -1 := by omega
        simp only [hne, if_false] at h
        cases h
        refine ⟨d, hi, c, hd, by rw [hport], ?_⟩
        simp [requestMessage]
  | done => simp [hs, RequestState.final] at hstop
  | error => simp [hs, RequestState.final] at hstop

/-- A turn of the loop leaves a complete request with the reply `SUCCEDED`. -/
theorem requestParserTurn_after {xs : List UInt8} {c : UInt8}
    {p p' : RequestParser} {a a' : Allocs} (hp : p.After xs)
    (hstop : p.state.final = false)
    (h : requestParserTurn c (p, a) = .ok (p', a')) :
    p'.After (xs ++ [c]) ∧ (p'.state = .done → p'.reply = .succeded) := by
  obtain ⟨⟨p₁, a₁⟩, hfeed, h⟩ := bind_eq_ok.mp h
  have hp₁ := requestParserFeed_after hp hstop hfeed
  by_cases hdone : p₁.state = .done
  · simp only [hdone, if_true, requestParserFeed] at h
    cases h
    refine ⟨?_, fun _ => rfl⟩
    unfold RequestParser.After at hp₁ ⊢
    simp only [hdone] at hp₁ ⊢
    exact hp₁
  · simp only [hdone, if_false] at h
    cases h
    exact ⟨hp₁, fun hd => absurd hd hdone⟩

/-- However the stream is cut into reads, the parser holds what the bytes it
has read prescribe. -/
theorem request_reads_after {xs ys : List UInt8} {p p' : RequestParser}
    {a a' : Allocs} (hp : p.After ys ∧ (p.state = .done → p.reply = .succeded))
    (h : Reads requestParserTurn (fun s => s.1.state.final) (p, a) xs
      (p', a')) :
    p'.After (ys ++ xs) ∧ (p'.state = .done → p'.reply = .succeded) := by
  have := h.invariant
    (I := fun xs s => s.1.After (ys ++ xs) ∧
      (s.1.state = .done → s.1.reply = .succeded)) (by simpa using hp)
    (by
      rintro xs c ⟨p₁, a₁⟩ ⟨p₂, a₂⟩ ⟨hI, -⟩ hstop hturn
      rw [← List.append_assoc]
      exact requestParserTurn_after hI hstop hturn)
  exact this

end Socksv5
