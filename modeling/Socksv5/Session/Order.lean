import Socksv5.Session.Relay
import Socksv5.Session.Effects
import Mathlib.Data.List.Chain

/-!
# The order of the states

The states of a session follow one another as the protocol prescribes, and
none is entered twice.
-/

namespace Socksv5

open Support

/-- The states that the protocol lets follow a state. -/
def GlobalState.next : GlobalState → List GlobalState
  | .greetingRead => [.greetingWrite, .error]
  | .greetingWrite => [.authRead, .requestRead, .error]
  | .authRead => [.authWrite, .error]
  | .authWrite => [.requestRead, .done, .error]
  | .requestRead => [.originConnect, .requestWrite, .error]
  | .originConnect => [.requestWrite, .error]
  | .requestWrite => [.copy, .done, .error]
  | .copy => [.done, .error]
  | .done => []
  | .error => []

/-- `Follows s t`: in the protocol, `t` may come right after `s`. -/
def Follows (s t : GlobalState) : Prop := t ∈ s.next

instance (s t : GlobalState) : Decidable (Follows s t) :=
  inferInstanceAs (Decidable (t ∈ s.next))

/-- How far a state is from the beginning of the protocol. -/
def GlobalState.rank : GlobalState → ℕ
  | .greetingRead => 0
  | .greetingWrite => 1
  | .authRead => 2
  | .authWrite => 3
  | .requestRead => 4
  | .originConnect => 5
  | .requestWrite => 6
  | .copy => 7
  | .done => 8
  | .error => 8

theorem Follows.rank_lt {s t : GlobalState} (h : Follows s t) :
    s.rank < t.rank := by
  revert h
  cases s <;> cases t <;> decide

theorem Follows.eq_requestRead {s : GlobalState} (h : Follows s .originConnect) :
    s = .requestRead := by
  revert h
  cases s <;> decide

theorem Follows.eq_requestWrite {s : GlobalState} (h : Follows s .copy) :
    s = .requestWrite := by
  revert h
  cases s <;> decide

/-- States visited in protocol order, from the first on and each at most
once. -/
structure InOrder (vs : List GlobalState) : Prop where
  first : ∀ s ∈ vs.head?, s = .greetingRead
  follows : vs.IsChain Follows
  nodup : vs.Nodup

theorem rank_increases {vs : List GlobalState} (h : vs.IsChain Follows) :
    vs.Pairwise (fun s t => s.rank < t.rank) := by
  have : IsTrans GlobalState (fun s t => s.rank < t.rank) :=
    ⟨fun _ _ _ => Nat.lt_trans⟩
  exact List.isChain_iff_pairwise.mp (h.imp fun _ _ hst => hst.rank_lt)

theorem nodup_of_follows {vs : List GlobalState} (h : vs.IsChain Follows) :
    vs.Nodup := by
  refine (rank_increases h).imp fun hst heq => ?_
  rw [heq] at hst
  exact Nat.lt_irrefl _ hst

/-- A session that has entered `COPY` and has not ended is in it. -/
theorem InOrder.eq_copy {vs : List GlobalState} {s : GlobalState}
    (h : InOrder vs) (hs : vs.getLast? = some s)
    (hlive : ¬ (s = .done ∨ s = .error)) (hmem : .copy ∈ vs) : s = .copy := by
  obtain ⟨pre, rfl⟩ := List.getLast?_eq_some_iff.mp hs
  rcases List.mem_append.mp hmem with hpre | hlast
  · have hlt : GlobalState.copy.rank < s.rank :=
      (List.pairwise_append.mp (rank_increases h.follows)).2.2 _ hpre _
        (List.mem_singleton.mpr rfl)
    exfalso
    revert hlive hlt
    cases s <;> decide
  · exact (List.mem_singleton.mp hlast).symm

/-- Only `REQUEST_READ` comes before `ORIGIN_CONNECT`. -/
theorem InOrder.requestRead_mem {vs : List GlobalState} (h : InOrder vs)
    (hvs : .originConnect ∈ vs) : .requestRead ∈ vs := by
  obtain ⟨pre, post, rfl⟩ := List.append_of_mem hvs
  rcases List.eq_nil_or_concat pre with rfl | ⟨pre', s, rfl⟩
  · exact absurd (h.first .originConnect rfl) (by decide)
  · have hchain := h.follows
    rw [List.concat_eq_append, List.append_assoc,
      List.isChain_append] at hchain
    have hs : Follows s .originConnect := by
      have := hchain.2.1
      simp only [List.singleton_append, List.isChain_cons_cons] at this
      exact this.1
    obtain rfl := hs.eq_requestRead
    simp

theorem InOrder.append {vs via : List GlobalState} {s : GlobalState}
    (h : InOrder vs) (hs : vs.getLast? = some s)
    (hvia : (s :: via).IsChain Follows) : InOrder (vs ++ via) := by
  have hchain : (vs ++ via).IsChain Follows := by
    rw [List.isChain_append]
    refine ⟨h.follows, hvia.tail, ?_⟩
    intro x hx y hy
    rw [hs] at hx
    obtain rfl := Option.mem_some.mp hx
    exact hvia.rel_head? hy
  refine ⟨?_, hchain, nodup_of_follows hchain⟩
  intro x hx
  apply h.first
  rwa [List.head?_append_of_ne_nil] at hx
  rintro rfl
  cases hs

/-! ## What the callbacks return -/

theorem checkCloseConnection_state (c : CopyStm) :
    checkCloseConnection c = .copy ∨ checkCloseConnection c = .done := by
  unfold checkCloseConnection
  split
  · exact Or.inr rfl
  · exact Or.inl rfl

theorem closing_state (c : CopyStm) (status : SelectorStatus) :
    afterInterest status (checkCloseConnection c) = .copy ∨
      afterInterest status (checkCloseConnection c) = .done ∨
      afterInterest status (checkCloseConnection c) = .error := by
  rcases afterInterest_state status (checkCloseConnection c) with h | h
  · rw [h]
    exact (checkCloseConnection_state c).imp_right Or.inl
  · exact Or.inr (Or.inr h)

theorem CopyReads.state {sys : Sys} {side : Side} {fd : ℤ} {w w' : World}
    {ret : GlobalState} (h : CopyReads sys side fd w ret w') :
    ret = .copy ∨ ret = .done ∨ ret = .error := by
  cases h with
  | failed => exact Or.inr (Or.inr rfl)
  | unclosed => exact Or.inr (Or.inr rfl)
  | relays => exact closing_state _ _
  | holds => exact closing_state _ .success
  | closes => exact closing_state _ .success

theorem CopyWrites.state {sys : Sys} {side : Side} {fd : ℤ} {w w' : World}
    {ret : GlobalState} (h : CopyWrites sys side fd w ret w') :
    ret = .copy ∨ ret = .done ∨ ret = .error := by
  cases h with
  | failed => exact Or.inr (Or.inr rfl)
  | unclosed => exact Or.inr (Or.inr rfl)
  | partly => exact closing_state _ _
  | partlyLast => exact closing_state _ .success
  | wholly => exact closing_state _ _
  | closes => exact closing_state _ .success

theorem Attempted.state {a : Attempt} {realloc : Bool} {fd : ℤ} {w w' : World}
    {ret : GlobalState} (h : Attempted a realloc fd w ret w') :
    ret = .originConnect ∨ ret = .requestWrite ∨ ret = .error := by
  cases h with
  | connected => exact Or.inl rfl
  | inProgress => exact (afterInterest_state _ _).imp_right Or.inr
  | noSocket => exact Or.inr (afterInterest_state _ _)
  | noNio => exact Or.inr (afterInterest_state _ _)
  | refused => exact Or.inr (afterInterest_state _ _)

theorem Resolves.state {sys : Sys} {fd : ℤ} {k : ℕ} {addrs : List SockAddr}
    {w w' : World} {ret : GlobalState} (h : Resolves sys fd k addrs w ret w') :
    ret = .originConnect ∨ ret = .requestWrite ∨ ret = .error := by
  induction h with
  | exhausted h =>
      cases h with
      | failed => exact Or.inr (Or.inr rfl)
      | answers => exact Or.inr (Or.inl rfl)
  | settles => exact Or.inl rfl
  | breaks => exact Or.inr (Or.inr rfl)
  | goesOn _ _ ih => exact ih

/-- A callback stays in its state or returns one that follows it. -/
theorem onReady_follows {sys : Sys} {fd : ℤ} {s ret : GlobalState} {r : Ready}
    {f : Callback} {w w' : World} (hf : onReady sys fd s r = some f)
    (hreg : w.selector.Registered fd) (h : f w = .ok (ret, w')) :
    ret = s ∨ Follows s ret := by
  cases s <;> cases r <;> cases hf
  case greetingRead.read => cases greetingRead_spec h <;> decide
  case greetingWrite.write =>
      cases greetingWrite_spec h with
      | failed => decide
      | partly => decide
      | wholly _ _ _ hret =>
          rcases hret with ⟨rfl, -⟩ | ⟨rfl, -⟩ <;> decide
  case authRead.read => cases authRead_spec h <;> decide
  case authWrite.write =>
      cases authWrite_spec h with
      | failed => decide
      | partly => decide
      | wholly _ _ _ hret => rcases hret with ⟨rfl, -⟩ | rfl <;> decide
  case requestRead.read =>
      cases requestRead_spec h with
      | failed => decide
      | waits => decide
      | decides _ _ hret =>
          rcases hret with ⟨-, rfl, -⟩ | ⟨-, rfl, -⟩ <;> decide
  case requestWrite.write => cases requestWrite_spec h <;> decide
  case originConnect.write => cases verifyConnection_spec h <;> decide
  case originConnect.block =>
      rcases (connectOriginBlock_spec h).state with rfl | rfl | rfl <;> decide
  case copy.read =>
      rcases hside : w.session.side? fd with - | side
      · simp [copyRead, hside] at h
      · rcases (copyRead_spec hside hreg h).state with rfl | rfl | rfl <;>
          decide
  case copy.write =>
      rcases hside : w.session.side? fd with - | side
      · simp [copyWrite, hside] at h
      · rcases (copyWrite_spec hside hreg h).state with rfl | rfl | rfl <;>
          decide

/-- A dispatch keeps the states in order. -/
theorem InOrder.dispatched {sys : Sys} {fd : ℤ} {vs via : List GlobalState}
    {s ret : GlobalState} {w w' : World} (hvs : InOrder vs)
    (hs : vs.getLast? = some s) (hlive : ¬ (s = .done ∨ s = .error))
    (hret : ret = s ∨ Follows s ret) (h : Outcome sys fd s ret w via w') :
    InOrder (vs ++ via) := by
  cases h with
  | stays => simpa using hvs
  | enters hne =>
      exact hvs.append hs (by simpa using hret.resolve_left hne)
  | connects hne =>
      exact hvs.append hs (by simpa using hret.resolve_left (Ne.symm hne))
  | @redirected ret' _ _ hne _ hto =>
      refine hvs.append hs ?_
      have hfollows := hret.resolve_left (Ne.symm hne)
      have hfollows' : Follows .originConnect ret' := by
        rcases hto with rfl | rfl <;> decide
      simpa using ⟨hfollows, hfollows'⟩
  | ends hend =>
      have hne : ret ≠ s := by
        rintro rfl
        exact hlive hend
      exact hvs.append hs (by simpa using hret.resolve_left hne)

/-- `COPY` is only left for the end. -/
theorem Outcome.of_copy {sys : Sys} {fd : ℤ} {ret : GlobalState}
    {via : List GlobalState} {w w' : World}
    (h : Outcome sys fd .copy ret w via w')
    (hret : ret = .copy ∨ Follows .copy ret) :
    (ret = .copy ∧ via = [] ∧ w' = w) ∨
      ((ret = .done ∨ ret = .error) ∧ via = [ret] ∧
        socksv5Done w = .ok w') := by
  have hret' : ret = .copy ∨ ret = .done ∨ ret = .error := by
    simpa [Follows, GlobalState.next] using hret
  cases h with
  | stays => exact Or.inl ⟨rfl, rfl, rfl⟩
  | enters hne _ hdone herror =>
      exact absurd hret' (by simp [hne, hdone, herror])
  | connects => simp at hret'
  | redirected => simp at hret'
  | ends hend hdone => exact Or.inr ⟨hend, rfl, hdone⟩

end Socksv5
