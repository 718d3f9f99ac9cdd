import Socksv5.RequestDecoding
import Socksv5.Session.Answering

/-!
# From the request to `connect`

What the parser holds at the end of a request for an IP address is what
`connect_through_ip` gives to `connect`: the bytes of the address, and the two
bytes of the port in network order.
-/

namespace Socksv5

open Support

/-- The address family of an IP address. -/
def Destination.family : Destination → Option Family
  | .ipv4 _ => some .inet
  | .ipv6 _ => some .inet6
  | .fqdn _ => none

/-- The bytes of `sin_port` and `sin6_port`, which `htons` leaves in network
order. -/
def SockAddr.portBytes (a : SockAddr) : List UInt8 :=
  [UInt8.ofNat (a.port / 256), UInt8.ofNat a.port]

/-- `connect_through_ip` returns, and calls `connect` with the bytes `bytes` of
the address and `port` of the port, and no other time. -/
def ReachesConnect (family : Family) (bytes port : List UInt8) (p : RequestParser) :
    Prop :=
  ∀ (w : World) (a : Attempt) (realloc : Bool) (fd : ℤ) (n : ℕ),
    w.session.request.parser = p → a.socket = some n → a.nio = true →
      (w.selector.Registered fd → n < w.selector.fdSize →
        ∃ ret w', connectThroughIp a realloc fd false w = .ok (ret, w')) ∧
      ∀ ret w', connectThroughIp a realloc fd false w = .ok (ret, w') →
        ∃ addr later, w'.log = w.log ++
            [.socket (some n), .connect n addr a.connect] ++ later ∧
          (later = [] ∨ later = [.setInterest fd .write]) ∧
          addr.family = family ∧ addr.addr = bytes ∧ addr.portBytes = port

theorem toNat_mul_add_div (hi lo : UInt8) :
    UInt8.ofNat ((hi.toNat * 256 + lo.toNat) / 256) = hi := by
  have := lo.toNat_lt
  rw [show (hi.toNat * 256 + lo.toNat) / 256 = hi.toNat by omega,
    UInt8.ofNat_toNat]

theorem toNat_mul_add_mod (hi lo : UInt8) :
    UInt8.ofNat (hi.toNat * 256 + lo.toNat) = lo := by
  rw [← UInt8.toNat_inj, UInt8.toNat_ofNat']
  have := lo.toNat_lt
  omega

theorem requestPort_eq {p : RequestParser} {hi lo : UInt8}
    (hport : p.port = hi.toNat * 256 + lo.toNat) :
    requestPort p = hi.toNat * 256 + lo.toNat := by
  have := hi.toNat_lt
  have := lo.toNat_lt
  rw [requestPort, hport]
  omega

/-- The address that a request holds is stored as it was read. -/
theorem fillOriginAddr_of_holds {w : World} {d : Destination} {family : Family}
    (hfamily : d.family = some family) (hd : w.session.request.parser.Holds d) :
    ∃ w', fillOriginAddr false w = .ok w' ∧
      w'.session.request.originAddr =
        ⟨family, requestPort w.session.request.parser, d.bytes⟩ ∧
      ∃ request, w' = { w with session := { w.session with
        request := request } } := by
  obtain ⟨-, haddr, hatyp, hlen⟩ := hd
  have hread : readAddr w.session.request.parser.addr
      w.session.request.parser.addrLen = .ok d.bytes := by
    rw [haddr, hlen, readAddr, if_pos (by simp)]
    simp
  rw [fillOriginAddr, if_neg (by simp)]
  dsimp only
  rw [hread, ok_bind]
  cases d with
  | ipv4 addr =>
      cases hfamily
      have hipv4 : w.session.request.parser.atyp = 1 := hatyp
      rw [if_pos hipv4]
      exact ⟨_, rfl, by simp [RequestStm.originAddr, hipv4], _, rfl⟩
  | ipv6 addr =>
      cases hfamily
      have hipv6 : w.session.request.parser.atyp = 4 := hatyp
      rw [if_neg (by rw [hipv6]; decide)]
      exact ⟨_, rfl, by simp [RequestStm.originAddr, hipv6], _, rfl⟩
  | fqdn name => cases hfamily

/-- The calls of `connect_through_ip` with a socket. -/
theorem connectThroughIp_log {a : Attempt} {realloc wasFqdn : Bool} {fd : ℤ}
    {n : ℕ} {w w₁ w' : World} {ret : GlobalState} (hsocket : a.socket = some n)
    (hnio : a.nio = true)
    (hfill : fillOriginAddr wasFqdn { w with
      session := { w.session with originFd := n }
      conn := .none
      log := w.log ++ [.socket (some n)] } = .ok w₁)
    (hlog : w₁.log = w.log ++ [.socket (some n)])
    (h : connectThroughIp a realloc fd wasFqdn w = .ok (ret, w')) :
    ∃ later, w'.log = w.log ++ [.socket (some n),
        .connect n w₁.session.request.originAddr a.connect] ++ later ∧
      (later = [] ∨ later = [.setInterest fd .write]) := by
  have hpos : ¬ (n : ℤ) < 0 := Int.not_lt.mpr (Int.natCast_nonneg n)
  rw [connectThroughIp] at h
  simp only [hsocket, socketFd, hpos, if_false, hnio, Bool.not_true,
    Bool.false_eq_true, hfill, ok_bind] at h
  cases hconnect : a.connect with
  | connected =>
      simp only [hconnect] at h
      cases h
      exact ⟨[], by simp [World.record, hlog], Or.inl rfl⟩
  | inProgress =>
      simp only [hconnect] at h
      obtain ⟨⟨status, s⟩, -, h⟩ := bind_eq_ok.mp h
      refine ⟨[], ?_, Or.inl rfl⟩
      dsimp only at h
      split at h <;> cases h <;> simp [World.record, hlog]
  | failed =>
      simp only [hconnect] at h
      obtain ⟨status, s, -, -, rfl⟩ := connectFailed_spec h
      exact ⟨[.setInterest fd .write],
        by simp [World.record, World.setReply, hlog], Or.inr rfl⟩

/-- A request for an IP address reaches `connect` unchanged. -/
theorem reachesConnect_of_holds {p : RequestParser} {d : Destination}
    {family : Family} {hi lo : UInt8} (hfamily : d.family = some family)
    (hd : p.Holds d) (hport : p.port = hi.toNat * 256 + lo.toNat) :
    ReachesConnect family d.bytes [hi, lo] p := by
  rintro w a realloc fd n rfl hsocket hnio
  constructor
  · intro hreg hlt
    apply exists_connectThroughIp_of_fill realloc hreg
    · intro m hm
      rw [hsocket, Option.mem_some_iff] at hm
      exact hm ▸ hlt
    · intro v hv
      rw [← hv] at hd
      obtain ⟨w₁, hfill, -⟩ := fillOriginAddr_of_holds hfamily hd
      exact ⟨w₁, hfill⟩
  · intro ret w' h
    obtain ⟨w₁, hfill, haddr, request, rfl⟩ := fillOriginAddr_of_holds hfamily
      (w := { w with
        session := { w.session with originFd := n }
        conn := .none
        log := w.log ++ [.socket (some n)] }) hd
    obtain ⟨later, hlog, hlater⟩ :=
      connectThroughIp_log hsocket hnio hfill rfl h
    refine ⟨_, later, hlog, hlater, ?_⟩
    rw [haddr, requestPort_eq hport]
    refine ⟨rfl, rfl, ?_⟩
    rw [SockAddr.portBytes, toNat_mul_add_div, toNat_mul_add_mod]

/-! ## The whole way -/

/-- The stream is decoded exactly: a request at its beginning is accepted and
reaches `connect` unchanged, and any other beginning is refused at the first
offending byte, or can still become a request. -/
theorem request_decoded_exactly {chunks : List (List UInt8)} {b : Buffer}
    (p : RequestParser) {a : Allocs} (hrecv : Receivable b chunks)
    (hstart : b.pending = [] ∨ chunks ≠ []) (halloc : false ∉ a)
    (hname : ¬ [5, 1, 0, 3, 0] <+: b.pending ++ chunks.flatten) :
    ∃ p' a' unread,
      receiveRequest chunks b (requestParserInit p) a = .ok (p', a', unread) ∧
      (p'.state = .done ∧ p'.reply = .succeded ↔
        ∃ d hi lo, d.WellFormed ∧
          requestMessage d hi lo <+: b.pending ++ chunks.flatten) ∧
      (∀ d hi lo tail, d.WellFormed →
        b.pending ++ chunks.flatten = requestMessage d hi lo ++ tail →
          unread = tail ∧ p'.addr = some (d.bytes ++ [0]) ∧
          p'.port = 256 * hi.toNat + lo.toNat ∧
          ∀ family, d.family = some family →
            ReachesConnect family d.bytes [hi, lo] p') ∧
      ((¬ ∃ d hi lo, d.WellFormed ∧
          requestMessage d hi lo <+: b.pending ++ chunks.flatten) →
        (p'.state = .error ∧ ∃ good c, Offending good c p'.reply.code ∧
          b.pending ++ chunks.flatten = good ++ c :: unread) ∨
        (p'.state.final = false ∧ unread = [] ∧
          ∃ d hi lo more, d.WellFormed ∧ more ≠ [] ∧
            b.pending ++ chunks.flatten ++ more = requestMessage d hi lo)) := by
  have hhead : a.head? ≠ some false := by
    intro h
    exact halloc (List.mem_of_head? h)
  obtain ⟨p', a', unread, hresult, hverdict⟩ :=
    receiveRequest_verdict p hrecv hstart hhead hname
  refine ⟨p', a', unread, hresult, ?_⟩
  generalize b.pending ++ chunks.flatten = xs at hverdict
  rcases hverdict with ⟨d, hi, lo, hd, rfl, hport, hdone, hreply⟩ |
    ⟨good, c, hoffending, rfl, herror⟩ |
    ⟨d, hi, lo, more, hwf, hmore, heq, hnil, hstop⟩
  · have hbegins : ∃ d' hi' lo', d'.WellFormed ∧
        requestMessage d' hi' lo' <+: requestMessage d hi lo ++ unread :=
      ⟨d, hi, lo, hd.1, List.prefix_append _ _⟩
    refine ⟨⟨fun _ => hbegins, fun _ => ⟨hdone, hreply⟩⟩, ?_,
      fun h => absurd hbegins h⟩
    intro d' hi' lo' tail hwf heq
    have htail : unread = tail := requestMessage_append_inj hd.1 hwf heq
    rw [htail] at heq
    obtain ⟨rfl, rfl, rfl⟩ := requestMessage_inj (List.append_cancel_right heq)
    refine ⟨htail, hd.2.1, by omega, ?_⟩
    intro family hfamily
    exact reachesConnect_of_holds hfamily hd hport
  · have hnot : ∀ d hi lo, d.WellFormed →
        ¬ requestMessage d hi lo <+: good ++ c :: unread :=
      fun d hi lo _ => hoffending.not_request
    refine ⟨⟨?_, ?_⟩, ?_, ?_⟩
    · rintro ⟨hdone, -⟩
      exact absurd (hdone.symm.trans herror) (by simp)
    · rintro ⟨d, hi, lo, hwf, hpre⟩
      exact absurd hpre (hnot d hi lo hwf)
    · intro d hi lo tail hwf heq
      exact absurd ⟨tail, heq.symm⟩ (hnot d hi lo hwf)
    · intro _
      exact Or.inl ⟨herror, good, c, hoffending, rfl⟩
  · have hnot : ∀ d' hi' lo', d'.WellFormed →
        ¬ requestMessage d' hi' lo' <+: xs := by
      rintro d' hi' lo' hwf' ⟨tail, rfl⟩
      rw [List.append_assoc] at heq
      have := requestMessage_append_inj hwf' hwf (heq.trans (List.append_nil _).symm)
      exact hmore (List.append_eq_nil_iff.mp this).2
    refine ⟨⟨?_, ?_⟩, ?_, ?_⟩
    · rintro ⟨hdone, -⟩
      rw [hdone] at hstop
      cases hstop
    · rintro ⟨d', hi', lo', hwf', hpre⟩
      exact absurd hpre (hnot d' hi' lo' hwf')
    · intro d' hi' lo' tail hwf' heq'
      exact absurd ⟨tail, heq'.symm⟩ (hnot d' hi' lo' hwf')
    · intro _
      exact Or.inr ⟨hstop, hnil, d, hi, lo, more, hwf, hmore, heq⟩

/-- A request for `10.0.0.1:80`, followed by one byte, in two chunks. -/
theorem request_decoded_in_two_chunks :
    ∃ p' a' unread,
      receiveRequest [[5, 1, 0], [1, 10, 0, 0, 1, 0, 80, 71]]
        (.init maxBuffSize fun _ => 0) (requestParserInit {}) [] =
          .ok (p', a', unread) ∧
      unread = [71] ∧ p'.addr = some [10, 0, 0, 1, 0] ∧ p'.port = 80 := by
  have hrecv : Receivable (.init maxBuffSize fun _ => 0)
      [[5, 1, 0], [1, 10, 0, 0, 1, 0, 80, 71]] := by
    simp [Receivable, maxBuffSize, Buffer.init, Buffer.room]
  obtain ⟨p', a', unread, hresult, -, hexact, -⟩ :=
    request_decoded_exactly {} hrecv (a := []) (Or.inl rfl) (by simp)
      (by decide)
  obtain ⟨hunread, haddr, hport, -⟩ :=
    hexact (.ipv4 [10, 0, 0, 1]) 0 80 [71] rfl rfl
  exact ⟨p', a', unread, hresult, hunread, haddr, hport⟩

end Socksv5
