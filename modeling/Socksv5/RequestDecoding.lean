import Socksv5.RequestParser

/-!
# Decoding requests

What `request_read` makes of the chunks it receives until
`consume_request_buffer` gives a verdict.  The parser stores through a null
pointer for a name of length 0, and for an IP address whose allocation failed:
that failure is overwritten with the next state.  Apart from these, the verdict
is the one that the format of a request prescribes.
-/

namespace Socksv5

open Support

/-- What `request_read` does with the chunks it receives, as long as the parser
gives no verdict.  The bytes that are left unread are returned. -/
def receiveRequest (chunks : List (List UInt8)) (b : Buffer)
    (p : RequestParser) (a : Allocs) :
    Except Fault (RequestParser × Allocs × List UInt8) := do
  let (b, (p, a), rest) ←
    consumeChunks requestParserTurn (fun s => s.1.state.final) chunks b (p, a)
  .ok (p, a, b.pending ++ rest.flatten)

theorem receiveRequest_eq_decode {chunks : List (List UInt8)} {b : Buffer}
    {p : RequestParser} (a : Allocs) (hrecv : Receivable b chunks)
    (hstart : b.pending = [] ∨ chunks ≠ []) :
    receiveRequest chunks b (requestParserInit p) a =
      decode requestParserTurn (fun s => s.1.state.final)
        (b.pending ++ chunks.flatten) (requestParserInit p, a) >>= fun r =>
          .ok (r.1.1, r.1.2, r.2) := by
  rw [← consumeChunks_decode hrecv rfl hstart, receiveRequest]
  rcases consumeChunks requestParserTurn (fun s => s.1.state.final) chunks b
    (requestParserInit p, a) with e | r
  · rfl
  · rfl

/-! ## Allocations -/

/-- One of the allocations asked for between `a` and `a'` has failed. -/
def AllocFailed (a a' : Allocs) : Prop :=
  ∃ used, a = used ++ a' ∧ false ∈ used

theorem not_allocFailed_self (a : Allocs) : ¬ AllocFailed a a := by
  rintro ⟨used, heq, hmem⟩
  rw [List.self_eq_append_left.mp heq] at hmem
  exact absurd hmem (List.not_mem_nil)

theorem calloc_ne_none {n : ℕ} {a : Allocs} (h : a.head? ≠ some false) :
    (calloc n a).1 ≠ none ∧ ¬ AllocFailed a (calloc n a).2 := by
  rcases a with - | ⟨_ | _, a⟩
  · exact ⟨by simp [calloc], not_allocFailed_self []⟩
  · exact absurd rfl h
  · refine ⟨by simp [calloc], ?_⟩
    rintro ⟨used, heq, hmem⟩
    have hused : [true] = used := List.append_cancel_right heq
    rw [← hused] at hmem
    simp at hmem

theorem calloc_eq_none {n : ℕ} {a : Allocs} (h : a.head? = some false) :
    (calloc n a).1 = none ∧ AllocFailed a (calloc n a).2 := by
  rcases a with - | ⟨_ | _, a⟩
  · cases h
  · exact ⟨rfl, [false], rfl, by simp⟩
  · cases h

/-! ## Stores through a null pointer -/

/-- The bytes after which the parser stores through a null pointer, or will
with the next byte: a name of length 0, or an IP address for which there is no
memory. -/
def NullStore (xs : List UInt8) (a : Allocs) : Prop :=
  [5, 1, 0, 3, 0] <+: xs ∨
    (([5, 1, 0, 1] <+: xs ∨ [5, 1, 0, 4] <+: xs) ∧ a.head? = some false)

theorem NullStore.mono {xs ys : List UInt8} {a : Allocs} (h : xs <+: ys)
    (hxs : NullStore xs a) : NullStore ys a := by
  rcases hxs with hname | ⟨hipv4 | hipv6, hfail⟩
  · exact Or.inl (hname.trans h)
  · exact Or.inr ⟨Or.inl (hipv4.trans h), hfail⟩
  · exact Or.inr ⟨Or.inr (hipv6.trans h), hfail⟩

/-- What became of the allocations `a₀` that were to come when the parser
started: none asked for yet, or the one for the address successful, or its
failure reported. -/
def RequestParser.Tracks (a₀ : Allocs) : RequestParser × Allocs → Prop
  | (p, a) =>
      (p.addr = none ∧ a = a₀ ∧ (p.state = .readingAddr → p.addrLen = 0)) ∨
      (p.addr ≠ none ∧ ¬ AllocFailed a₀ a) ∨
      (p.state = .error ∧ p.reply = .generalSocksServerFailure)

theorem RequestParser.Tracks.of_failed {a₀ : Allocs}
    {s : RequestParser × Allocs} (h : Tracks a₀ s)
    (hfail : AllocFailed a₀ s.2) :
    s.1.state = .error ∧ s.1.reply = .generalSocksServerFailure := by
  rcases h with ⟨-, heq, -⟩ | ⟨-, hnot⟩ | herror
  · rw [heq] at hfail
    exact absurd hfail (not_allocFailed_self a₀)
  · exact absurd hfail hnot
  · exact herror

/-- Before the address nothing has been asked for. -/
theorem RequestParser.Tracks.of_none {a₀ a : Allocs} {p : RequestParser}
    (h : Tracks a₀ (p, a)) (haddr : p.addr = none) (hstate : p.state ≠ .error) :
    a = a₀ ∧ (p.state = .readingAddr → p.addrLen = 0) := by
  rcases h with ⟨-, heq, hlen⟩ | ⟨hne, -⟩ | ⟨herror, -⟩
  · exact ⟨heq, hlen⟩
  · exact absurd haddr hne
  · exact absurd herror hstate

/-- Once there is an address, its allocation has not failed. -/
theorem RequestParser.Tracks.of_some {a₀ a : Allocs} {p : RequestParser}
    (h : Tracks a₀ (p, a)) (haddr : p.addr ≠ none) (hstate : p.state ≠ .error) :
    ¬ AllocFailed a₀ a := by
  rcases h with ⟨hnone, -⟩ | ⟨-, hnot⟩ | ⟨herror, -⟩
  · exact absurd hnone haddr
  · exact hnot
  · exact absurd herror hstate

theorem readAtypIp_tracks {c : UInt8} {n : ℕ} {p : RequestParser}
    {a : Allocs} (h : a.head? ≠ some false) :
    RequestParser.Tracks a (readAtypIp c n p a) := by
  obtain ⟨hne, hnot⟩ := calloc_ne_none (n := n + 1) h
  simp only [readAtypIp, hne, if_false]
  exact Or.inr (Or.inl ⟨hne, hnot⟩)

/-- A state before the one of the address. -/
theorem RequestParser.Tracks.before {a₀ a : Allocs} {p : RequestParser}
    (haddr : p.addr = none) (ha : a = a₀) (hstate : p.state ≠ .readingAddr) :
    Tracks a₀ (p, a) :=
  Or.inl ⟨haddr, ha, fun h => absurd h hstate⟩

theorem RequestParser.Tracks.fail {a₀ a : Allocs} {p : RequestParser}
    (haddr : p.addr = none) (ha : a = a₀) (reply : Reply) :
    Tracks a₀ (p.fail reply, a) :=
  .before haddr ha (by simp [RequestParser.fail])

/-- A state in which one byte is expected. -/
theorem expect_tracks {a₀ a : Allocs} {p : RequestParser}
    {next : RequestState} (haddr : p.addr = none) (ha : a = a₀)
    (hnext : next ≠ .readingAddr) (c e : UInt8) (reply : Reply) :
    ∃ s, (if c = e then .ok ({ p with state := next }, a)
        else .ok (p.fail reply, a) : Except Fault (RequestParser × Allocs)) =
          .ok s ∧ RequestParser.Tracks a₀ s := by
  by_cases hc : c = e
  · rw [if_pos hc]
    exact ⟨_, rfl, .before haddr ha hnext⟩
  · rw [if_neg hc]
    exact ⟨_, rfl, .fail haddr ha reply⟩

/-- A byte that leads to no store through a null pointer is read. -/
theorem requestParserFeed_tracks {a₀ a : Allocs} {xs : List UInt8} {c : UInt8}
    {p : RequestParser} (hp : p.After xs) (ht : RequestParser.Tracks a₀ (p, a))
    (hstop : p.state.final = false) (hsafe : ¬ NullStore (xs ++ [c]) a₀) :
    ∃ s, requestParserFeed c (p, a) = .ok s ∧ RequestParser.Tracks a₀ s := by
  have hstate : p.state ≠ .error := by
    intro h
    simp [h, RequestState.final] at hstop
  unfold requestParserFeed
  unfold RequestParser.After at hp
  cases hs : p.state with
  | readingVersion =>
      simp only [hs] at hp ⊢
      have haddr : p.addr = none := hp.2.2.2
      obtain ⟨ha, -⟩ := ht.of_none haddr hstate
      exact expect_tracks haddr ha (by simp) c 5 _
  | readingCommand =>
      simp only [hs] at hp ⊢
      have haddr : p.addr = none := hp.2.2.2
      obtain ⟨ha, -⟩ := ht.of_none haddr hstate
      exact expect_tracks haddr ha (by simp) c 1 _
  | readingRsv =>
      simp only [hs] at hp ⊢
      have haddr : p.addr = none := hp.2.2.2
      obtain ⟨ha, -⟩ := ht.of_none haddr hstate
      exact expect_tracks haddr ha (by simp) c 0 _
  | readingAtyp =>
      simp only [hs] at hp ⊢
      obtain ⟨rfl, -, -, haddr⟩ := hp
      obtain ⟨rfl, -⟩ := ht.of_none haddr hstate
      have hhead : c = 1 ∨ c = 4 → a.head? ≠ some false := by
        rintro (rfl | rfl) hfail
        · exact hsafe (Or.inr ⟨Or.inl (List.prefix_refl _), hfail⟩)
        · exact hsafe (Or.inr ⟨Or.inr (List.prefix_refl _), hfail⟩)
      by_cases hipv4 : c = 1
      · rw [if_pos hipv4]
        exact ⟨_, rfl, readAtypIp_tracks (hhead (Or.inl hipv4))⟩
      · rw [if_neg hipv4]
        by_cases hipv6 : c = 4
        · rw [if_pos hipv6]
          exact ⟨_, rfl, readAtypIp_tracks (hhead (Or.inr hipv6))⟩
        · rw [if_neg hipv6]
          by_cases hfqdn : c = 3
          · rw [if_pos hfqdn]
            exact ⟨_, rfl, Or.inl ⟨haddr, rfl, fun _ => rfl⟩⟩
          · rw [if_neg hfqdn]
            exact ⟨_, rfl, .fail haddr rfl _⟩
  | readingAddr =>
      simp only [hs] at hp ⊢
      obtain ⟨-, hfqdn | hnull | hfill⟩ := hp
      · obtain ⟨⟨hi, -, haddr⟩, hlen, -, rfl⟩ := hfqdn
        obtain ⟨rfl, -⟩ := ht.of_none haddr hstate
        rw [if_pos ⟨hi, hlen⟩]
        by_cases hc : c = 0
        · subst hc
          exact absurd (Or.inl (List.prefix_refl _)) hsafe
        · rw [if_neg hc]
          by_cases hfail : a.head? = some false
          · obtain ⟨hnone, -⟩ := calloc_eq_none (n := c.toNat + 1) hfail
            simp only [hnone, if_true]
            exact ⟨_, rfl, Or.inr (Or.inr ⟨rfl, rfl⟩)⟩
          · obtain ⟨hne, hnot⟩ := calloc_ne_none (n := c.toNat + 1) hfail
            simp only [hne, if_false]
            exact ⟨_, rfl, Or.inr (Or.inl ⟨hne, hnot⟩)⟩
      · obtain ⟨haddr, hlen⟩ := hnull
        exact absurd ((ht.of_none haddr hstate).2 hs) hlen
      · obtain ⟨header, n, mk, field, hheader, rfl, hlen, -, hf⟩ := hfill
        obtain ⟨k, hk, -, haddr⟩ := id hf
        have hpos : p.addrLen ≠ 0 := by
          rw [hlen, hk]
          omega
        have hnot := ht.of_some (by simp [haddr]) hstate
        rw [if_neg fun h => hpos h.2]
        obtain ⟨block, hput⟩ := hf.exists_putByte c
        simp only [hput, ok_bind]
        rcases hf.putByte hput with ⟨hne, -⟩ | ⟨heq, -, -, hterm⟩
        · have hne' : ((p.addrIndex + 1).toNat : ℤ) ≠ p.addrLen := by
            rw [hlen]
            intro heq
            exact hne (UInt8.toNat_inj.mp (Int.ofNat_inj.mp heq))
          rw [if_neg hne']
          exact ⟨_, rfl, Or.inr (Or.inl ⟨by simp, hnot⟩)⟩
        · rw [if_pos (by rw [heq, hlen]), hterm, ok_bind]
          exact ⟨_, rfl, Or.inr (Or.inl ⟨by simp, hnot⟩)⟩
  | readingPort =>
      simp only [hs] at hp ⊢
      obtain ⟨d, ⟨-, haddr, -⟩, -⟩ := hp
      have hne : p.addr ≠ none := by simp [haddr]
      have hnot := ht.of_some hne hstate
      by_cases hport : p.port = -1
      · rw [if_pos hport]
        exact ⟨_, rfl, Or.inr (Or.inl ⟨hne, hnot⟩)⟩
      · rw [if_neg hport]
        exact ⟨_, rfl, Or.inr (Or.inl ⟨hne, hnot⟩)⟩
  | done => simp [hs, RequestState.final] at hstop
  | error => simp [hs, RequestState.final] at hstop

theorem requestParserTurn_tracks {a₀ a : Allocs} {xs : List UInt8} {c : UInt8}
    {p : RequestParser} (hp : p.After xs) (ht : RequestParser.Tracks a₀ (p, a))
    (hstop : p.state.final = false) (hsafe : ¬ NullStore (xs ++ [c]) a₀) :
    ∃ s, requestParserTurn c (p, a) = .ok s ∧ RequestParser.Tracks a₀ s := by
  obtain ⟨⟨p₁, a₁⟩, hfeed, ht₁⟩ := requestParserFeed_tracks hp ht hstop hsafe
  rw [requestParserTurn, hfeed, ok_bind]
  by_cases hdone : p₁.state = .done
  · simp only [hdone, if_true, requestParserFeed]
    refine ⟨_, rfl, ?_⟩
    have herror : p₁.state ≠ .error := by simp [hdone]
    by_cases haddr : p₁.addr = none
    · obtain ⟨ha, -⟩ := ht₁.of_none haddr herror
      exact .before haddr ha (by simp)
    · exact Or.inr (Or.inl ⟨haddr, ht₁.of_some haddr herror⟩)
  · simp only [hdone, if_false]
    exact ⟨_, rfl, ht₁⟩

/-! ## Memory safety -/

/-- No store went through a null pointer or outside its block, and a failed
allocation has been reported. -/
def SafelyReceived (a : Allocs)
    (r : Except Fault (RequestParser × Allocs × List UInt8)) : Prop :=
  ∃ p a' unread, r = .ok (p, a', unread) ∧
    (AllocFailed a a' →
      p.state = .error ∧ p.reply = .generalSocksServerFailure)

theorem requestParserInit_tracks (p : RequestParser) (a : Allocs) :
    RequestParser.Tracks a (requestParserInit p, a) :=
  .before rfl rfl (by simp [requestParserInit])

/-- Without a store through a null pointer ahead, the bytes are parsed, and the
allocations are accounted for. -/
theorem safelyReceived_of_not_nullStore {chunks : List (List UInt8)}
    {b : Buffer} {p : RequestParser} {a : Allocs}
    (hrecv : Receivable b chunks) (hstart : b.pending = [] ∨ chunks ≠ [])
    (hsafe : ¬ NullStore (b.pending ++ chunks.flatten) a) :
    SafelyReceived a (receiveRequest chunks b (requestParserInit p) a) := by
  obtain ⟨⟨p', a'⟩, used, rest, hdecode, -, ⟨-, ht⟩, -⟩ :=
    exists_decode requestParserTurn (fun s => s.1.state.final)
      (fun xs s => (s.1.After xs ∧ (s.1.state = .done →
        s.1.reply = .succeded)) ∧ RequestParser.Tracks a s)
      (b.pending ++ chunks.flatten) (requestParserInit p, a)
      ⟨⟨requestParserInit_after p, by simp [requestParserInit]⟩,
        requestParserInit_tracks p a⟩ rfl (by
        rintro ys c ⟨p₁, a₁⟩ hpre ⟨⟨hafter, -⟩, ht⟩ hstop
        obtain ⟨⟨p₂, a₂⟩, hturn, ht₂⟩ := requestParserTurn_tracks hafter ht hstop
          fun hnull => hsafe (hnull.mono hpre)
        exact ⟨_, hturn, requestParserTurn_after hafter hstop hturn, ht₂⟩)
  rw [receiveRequest_eq_decode a hrecv hstart, hdecode, ok_bind]
  exact ⟨p', a', rest, rfl, ht.of_failed⟩

/-- The bytes of a name of length 0 are stored through a null pointer. -/
theorem decode_of_empty_name (p : RequestParser) (a : Allocs)
    (tail : List UInt8) :
    decode requestParserTurn (fun s => s.1.state.final)
      ([5, 1, 0, 3, 0] ++ tail) (requestParserInit p, a) =
        .error .nullDereference := by
  rfl

/-- The failed allocation for an IP address is forgotten, and the first byte of
the address is stored through a null pointer. -/
theorem decode_of_failed_ip {c : UInt8} (hc : c = 1 ∨ c = 4)
    (p : RequestParser) (a : Allocs) (tail : List UInt8) :
    ∃ p', p'.state = .readingAddr ∧
      decode requestParserTurn (fun s => s.1.state.final)
        ([5, 1, 0, c] ++ tail) (requestParserInit p, false :: a) =
          match tail with
          | [] => .ok ((p', a), [])
          | _ :: _ => .error .nullDereference := by
  rcases hc with rfl | rfl
  · cases tail with
    | nil => exact ⟨_, rfl, rfl⟩
    | cons d tail => exact ⟨{ state := .readingAddr }, rfl, rfl⟩
  · cases tail with
    | nil => exact ⟨_, rfl, rfl⟩
    | cons d tail => exact ⟨{ state := .readingAddr }, rfl, rfl⟩

theorem not_safelyReceived_of_nullStore {chunks : List (List UInt8)}
    {b : Buffer} {p : RequestParser} {a : Allocs}
    (hrecv : Receivable b chunks) (hstart : b.pending = [] ∨ chunks ≠ [])
    (hnull : NullStore (b.pending ++ chunks.flatten) a) :
    ¬ SafelyReceived a (receiveRequest chunks b (requestParserInit p) a) := by
  rw [receiveRequest_eq_decode a hrecv hstart]
  rintro ⟨p', a', unread, hr, hfailed⟩
  obtain ⟨⟨⟨p₁, a₁⟩, rest⟩, hdecode, heq⟩ := bind_eq_ok.mp hr
  cases heq
  rcases hnull with ⟨tail, htail⟩ | ⟨hip, hfail⟩
  · rw [← htail, decode_of_empty_name] at hdecode
    cases hdecode
  · obtain ⟨a, rfl⟩ : ∃ rest, a = false :: rest := by
      rcases a with - | ⟨_ | _, a⟩
      · cases hfail
      · exact ⟨a, rfl⟩
      · cases hfail
    obtain ⟨c, hc, tail, htail⟩ : ∃ c : UInt8, (c = 1 ∨ c = 4) ∧
        [5, 1, 0, c] <+: b.pending ++ chunks.flatten := by
      rcases hip with hipv4 | hipv6
      · exact ⟨1, Or.inl rfl, hipv4⟩
      · exact ⟨4, Or.inr rfl, hipv6⟩
    obtain ⟨p', hstate, hresult⟩ := decode_of_failed_ip hc p a tail
    rw [← htail, hresult] at hdecode
    cases tail with
    | nil =>
        cases hdecode
        obtain ⟨herror, -⟩ := hfailed ⟨[false], rfl, by simp⟩
        exact absurd (herror.symm.trans hstate) (by simp)
    | cons d tail => cases hdecode

/-- The parser is safe exactly for the streams that announce neither a name of
length 0 nor an IP address for which there is no memory. -/
theorem safelyReceived_iff {chunks : List (List UInt8)} {b : Buffer}
    (p : RequestParser) (a : Allocs) (hrecv : Receivable b chunks)
    (hstart : b.pending = [] ∨ chunks ≠ []) :
    SafelyReceived a (receiveRequest chunks b (requestParserInit p) a) ↔
      ¬ NullStore (b.pending ++ chunks.flatten) a := by
  constructor
  · intro hsafe hnull
    exact not_safelyReceived_of_nullStore hrecv hstart hnull hsafe
  · exact safelyReceived_of_not_nullStore hrecv hstart

/-- A request for `10.0.0.1:80` in two chunks. -/
theorem safelyReceived_in_two_chunks :
    SafelyReceived [] (receiveRequest [[5, 1, 0], [1, 10, 0, 0, 1, 0, 80]]
      (.init maxBuffSize fun _ => 0) (requestParserInit {}) []) := by
  apply (safelyReceived_iff {} [] ?_ (Or.inl rfl)).mpr
  · rintro (h | ⟨-, h⟩)
    · exact absurd h (by decide)
    · cases h
  · simp [Receivable, maxBuffSize, Buffer.init, Buffer.room]

theorem not_safelyReceived_of_empty_name :
    ¬ SafelyReceived [] (receiveRequest [[5, 1, 0, 3, 0]]
      (.init maxBuffSize fun _ => 0) (requestParserInit {}) []) := by
  apply not_safelyReceived_of_nullStore ?_ (Or.inl rfl)
  · exact Or.inl ⟨[], rfl⟩
  · simp [Receivable, maxBuffSize, Buffer.init, Buffer.room]

/-! ## Exactness -/

/-- `Offending xs c code`: no request goes on with `c` after `xs`, which is
answered with `code`. -/
inductive Offending : List UInt8 → UInt8 → UInt8 → Prop
  | version {c : UInt8} : c ≠ 5 → Offending [] c 2
  | command {c : UInt8} : c ≠ 1 → Offending [5] c 7
  | reserved {c : UInt8} : c ≠ 0 → Offending [5, 1] c 2
  | atyp {c : UInt8} : c ≠ 1 → c ≠ 3 → c ≠ 4 → Offending [5, 1, 0] c 8

theorem Offending.not_request {good unread : List UInt8} {c code : UInt8}
    (h : Offending good c code) {d : Destination} {hi lo : UInt8} :
    ¬ requestMessage d hi lo <+: good ++ c :: unread := by
  rintro ⟨tail, heq⟩
  cases h with
  | version hc => exact hc (List.cons.inj heq).1.symm
  | command hc =>
      exact hc (List.cons.inj (List.cons.inj heq).2).1.symm
  | reserved hc =>
      exact hc (List.cons.inj (List.cons.inj (List.cons.inj heq).2).2).1.symm
  | atyp hipv4 hfqdn hipv6 =>
      have hencode : d.encode ++ [hi, lo] ++ tail = c :: unread :=
        (List.cons.inj (List.cons.inj (List.cons.inj heq).2).2).2
      cases d with
      | ipv4 addr => exact hipv4 (List.cons.inj hencode).1.symm
      | ipv6 addr => exact hipv6 (List.cons.inj hencode).1.symm
      | fqdn name => exact hfqdn (List.cons.inj hencode).1.symm

theorem expect_refused {a a' : Allocs} {p p' : RequestParser} {c e : UInt8}
    {next : RequestState} {reply : Reply} (hnext : next ≠ .error)
    (h : (if c = e then .ok ({ p with state := next }, a)
      else .ok (p.fail reply, a) : Except Fault (RequestParser × Allocs)) =
        .ok (p', a')) (herror : p'.state = .error) :
    c ≠ e ∧ p'.reply = reply := by
  by_cases hc : c = e
  · rw [if_pos hc] at h
    cases h
    exact absurd herror hnext
  · rw [if_neg hc] at h
    cases h
    exact ⟨hc, rfl⟩

/-- With memory for the address the parser refuses only an offending byte. -/
theorem requestParserFeed_refused {a₀ a a' : Allocs} {xs : List UInt8}
    {c : UInt8} {p p' : RequestParser} (hp : p.After xs)
    (ht : RequestParser.Tracks a₀ (p, a)) (hstop : p.state.final = false)
    (halloc : a₀.head? ≠ some false)
    (h : requestParserFeed c (p, a) = .ok (p', a')) (herror : p'.state = .error) :
    Offending xs c p'.reply.code := by
  have hstate : p.state ≠ .error := by
    intro h
    simp [h, RequestState.final] at hstop
  unfold requestParserFeed at h
  unfold RequestParser.After at hp
  cases hs : p.state with
  | readingVersion =>
      simp only [hs] at h hp
      obtain ⟨rfl, -⟩ := hp
      obtain ⟨hc, hreply⟩ := expect_refused (by simp) h herror
      rw [hreply]
      exact .version hc
  | readingCommand =>
      simp only [hs] at h hp
      obtain ⟨rfl, -⟩ := hp
      obtain ⟨hc, hreply⟩ := expect_refused (by simp) h herror
      rw [hreply]
      exact .command hc
  | readingRsv =>
      simp only [hs] at h hp
      obtain ⟨rfl, -⟩ := hp
      obtain ⟨hc, hreply⟩ := expect_refused (by simp) h herror
      rw [hreply]
      exact .reserved hc
  | readingAtyp =>
      simp only [hs] at h hp
      obtain ⟨rfl, -⟩ := hp
      by_cases hipv4 : c = 1
      · rw [if_pos hipv4] at h
        cases h
        cases herror
      · rw [if_neg hipv4] at h
        by_cases hipv6 : c = 4
        · rw [if_pos hipv6] at h
          cases h
          cases herror
        · rw [if_neg hipv6] at h
          by_cases hfqdn : c = 3
          · rw [if_pos hfqdn] at h
            cases h
            cases herror
          · rw [if_neg hfqdn] at h
            cases h
            exact .atyp hipv4 hfqdn hipv6
  | readingAddr =>
      simp only [hs] at h hp
      by_cases hname : p.addrIndex = 0 ∧ p.addrLen = 0
      · rw [if_pos hname] at h
        by_cases hc : c = 0
        · rw [if_pos hc] at h
          obtain ⟨addr, -, h⟩ := bind_eq_ok.mp h
          cases h
          cases herror
        · rw [if_neg hc] at h
          obtain ⟨-, ⟨⟨-, -, haddr⟩, -⟩ | ⟨-, hlen⟩ | hfill⟩ := hp
          · obtain ⟨rfl, -⟩ := ht.of_none haddr hstate
            obtain ⟨hne, -⟩ := calloc_ne_none (n := c.toNat + 1) halloc
            simp only [hne, if_false] at h
            cases h
            cases herror
          · exact absurd hname.2 hlen
          · obtain ⟨header, n, mk, field, -, -, hlen, -, k, hk, -⟩ := hfill
            have := hname.2
            omega
      · rw [if_neg hname] at h
        obtain ⟨addr, -, h⟩ := bind_eq_ok.mp h
        split at h
        · obtain ⟨addr', -, h⟩ := bind_eq_ok.mp h
          cases h
          cases herror
        · cases h
          cases herror
  | readingPort =>
      simp only [hs] at h
      by_cases hport : p.port = -1
      · rw [if_pos hport] at h
        cases h
        cases herror
      · rw [if_neg hport] at h
        cases h
        cases herror
  | done => simp [hs, RequestState.final] at hstop
  | error => simp [hs, RequestState.final] at hstop

theorem RequestState.final_eq_false {state : RequestState}
    (hdone : state ≠ .done) (herror : state ≠ .error) : state.final = false := by
  cases state with
  | done => exact absurd rfl hdone
  | error => exact absurd rfl herror
  | _ => rfl

/-- What a parser that gives no verdict has read is a proper beginning of a
request. -/
theorem RequestParser.After.completable {xs : List UInt8} {p : RequestParser}
    (hp : p.After xs) (hstop : p.state.final = false)
    (haddr : p.addr = none → p.state = .readingAddr → p.addrLen = 0) :
    ∃ d hi lo more, d.WellFormed ∧ more ≠ [] ∧
      xs ++ more = requestMessage d hi lo := by
  unfold RequestParser.After at hp
  have hzero : (Destination.ipv4 [0, 0, 0, 0]).WellFormed := rfl
  cases hs : p.state with
  | readingVersion =>
      simp only [hs] at hp
      obtain ⟨rfl, -⟩ := hp
      exact ⟨_, 0, 0, _, hzero, by simp, rfl⟩
  | readingCommand =>
      simp only [hs] at hp
      obtain ⟨rfl, -⟩ := hp
      exact ⟨_, 0, 0, [1, 0, 1, 0, 0, 0, 0, 0, 0], hzero, by simp, rfl⟩
  | readingRsv =>
      simp only [hs] at hp
      obtain ⟨rfl, -⟩ := hp
      exact ⟨_, 0, 0, [0, 1, 0, 0, 0, 0, 0, 0], hzero, by simp, rfl⟩
  | readingAtyp =>
      simp only [hs] at hp
      obtain ⟨rfl, -⟩ := hp
      exact ⟨_, 0, 0, [1, 0, 0, 0, 0, 0, 0], hzero, by simp, rfl⟩
  | readingAddr =>
      simp only [hs] at hp
      obtain ⟨-, ⟨-, -, -, rfl⟩ | ⟨hnone, hlen⟩ | hfill⟩ := hp
      · refine ⟨.fqdn [0], 0, 0, [1, 0, 0, 0], ?_, by simp, rfl⟩
        exact ⟨le_refl 1, by simp⟩
      · exact absurd (haddr hnone hs) hlen
      · obtain ⟨header, n, mk, field, hheader, rfl, -, -, k, hk, -⟩ := hfill
        have hlen : (field ++ List.replicate (k + 1) 0).length = n.toNat := by
          simp [hk]
        obtain ⟨hwf, -, hencode⟩ := hheader.complete hlen
        refine ⟨_, 0, 0, List.replicate (k + 1) 0 ++ [0, 0], hwf, by simp, ?_⟩
        rw [requestMessage, hencode]
        simp
  | readingPort =>
      simp only [hs] at hp
      obtain ⟨d, ⟨hwf, -⟩, ⟨-, rfl⟩ | ⟨hi, -, rfl⟩⟩ := hp
      · exact ⟨d, 0, 0, [0, 0], hwf, by simp, by simp [requestMessage]⟩
      · exact ⟨d, hi, 0, [0], hwf, by simp, by simp [requestMessage]⟩
  | done => simp [hs, RequestState.final] at hstop
  | error => simp [hs, RequestState.final] at hstop

/-- What the format prescribes for the stream `xs`: `unread` is what the parser
`p` leaves of it. -/
inductive RequestVerdict (xs unread : List UInt8) (p : RequestParser) : Prop
  /-- the stream begins with a request -/
  | decoded (d : Destination) (hi lo : UInt8) :
      p.Holds d → xs = requestMessage d hi lo ++ unread →
      p.port = hi.toNat * 256 + lo.toNat → p.state = .done →
      p.reply = .succeded → RequestVerdict xs unread p
  /-- no request begins like the stream, because of the byte `c` -/
  | refused (good : List UInt8) (c : UInt8) :
      Offending good c p.reply.code → xs = good ++ c :: unread →
      p.state = .error → RequestVerdict xs unread p
  /-- the stream is a proper beginning of a request -/
  | waiting (d : Destination) (hi lo : UInt8) (more : List UInt8) :
      d.WellFormed → more ≠ [] → xs ++ more = requestMessage d hi lo →
      unread = [] → p.state.final = false → RequestVerdict xs unread p

/-- Every stream that does not ask for a name of length 0 gets its verdict,
however it is cut into chunks. -/
theorem receiveRequest_verdict {chunks : List (List UInt8)} {b : Buffer}
    (p : RequestParser) {a : Allocs} (hrecv : Receivable b chunks)
    (hstart : b.pending = [] ∨ chunks ≠ []) (halloc : a.head? ≠ some false)
    (hname : ¬ [5, 1, 0, 3, 0] <+: b.pending ++ chunks.flatten) :
    ∃ p' a' unread,
      receiveRequest chunks b (requestParserInit p) a = .ok (p', a', unread) ∧
        RequestVerdict (b.pending ++ chunks.flatten) unread p' := by
  have hsafe : ¬ NullStore (b.pending ++ chunks.flatten) a := by
    rintro (h | ⟨-, h⟩)
    · exact hname h
    · exact halloc h
  obtain ⟨⟨p', a'⟩, used, rest, hdecode, hused,
      ⟨⟨hafter, hreply⟩, ht, hrefused⟩, hrest⟩ :=
    exists_decode requestParserTurn (fun s => s.1.state.final)
      (fun xs s => (s.1.After xs ∧ (s.1.state = .done →
        s.1.reply = .succeded)) ∧ RequestParser.Tracks a s ∧
          (s.1.state = .error → ∃ good c, xs = good ++ [c] ∧
            Offending good c s.1.reply.code))
      (b.pending ++ chunks.flatten) (requestParserInit p, a)
      ⟨⟨requestParserInit_after p, by simp [requestParserInit]⟩,
        requestParserInit_tracks p a, by simp [requestParserInit]⟩ rfl (by
        rintro ys c ⟨p₁, a₁⟩ hpre ⟨⟨hafter, -⟩, ht, -⟩ hstop
        obtain ⟨⟨p₂, a₂⟩, hturn, ht₂⟩ := requestParserTurn_tracks hafter ht hstop
          fun hnull => hsafe (hnull.mono hpre)
        refine ⟨_, hturn, requestParserTurn_after hafter hstop hturn, ht₂, ?_⟩
        intro herror
        refine ⟨ys, c, rfl, ?_⟩
        obtain ⟨⟨p₃, a₃⟩, hfeed, hagain⟩ := bind_eq_ok.mp hturn
        by_cases hdone : p₃.state = .done
        · simp only [hdone, if_true, requestParserFeed] at hagain
          cases hagain
          cases herror
        · simp only [hdone, if_false] at hagain
          cases hagain
          exact requestParserFeed_refused hafter ht hstop halloc hfeed herror)
  rw [receiveRequest_eq_decode a hrecv hstart, hdecode, ok_bind]
  refine ⟨p', a', rest, rfl, ?_⟩
  by_cases hdone : p'.state = .done
  · unfold RequestParser.After at hafter
    simp only [hdone] at hafter
    obtain ⟨d, hi, lo, hd, hport, rfl⟩ := hafter
    exact .decoded d hi lo hd hused hport hdone (hreply hdone)
  · by_cases herror : p'.state = .error
    · obtain ⟨good, c, rfl, hoffending⟩ := hrefused herror
      exact .refused good c hoffending (by simpa using hused) herror
    · have hstop := RequestState.final_eq_false hdone herror
      have hnil : rest = [] := hrest hstop
      rw [hnil, List.append_nil] at hused
      obtain ⟨d, hi, lo, more, hwf, hmore, heq⟩ := hafter.completable hstop
        fun haddr => (ht.of_none haddr herror).2
      exact .waiting d hi lo more hwf hmore (hused ▸ heq) hnil hstop

end Socksv5
