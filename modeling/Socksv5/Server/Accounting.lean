import Socksv5.Server.Callbacks
import Mathlib.Data.List.Perm.Subperm

/-!
# The connections that the metrics count

`concurrent_connections` is the number of sessions whose clients are registered,
and `historical_connections` the number of those that have ever been: a session
joins them when its client is registered and leaves them when it ends, each
once, since the address of a session is not given out twice.
-/

namespace Socksv5

open Support

namespace Running

variable {x y : Running}

/-- The counters count the sessions in the list. -/
structure Accounted (x : Running) (xs : List ℕ) : Prop where
  nodup : xs.Nodup
  mem : ∀ a, a ∈ xs ↔ x.Connected a
  concurrent : x.server.metrics.concurrentConnections = xs.length
  room : xs.length ≤ 500
  once : x.accepted.Nodup
  historical : x.server.metrics.historicalConnections = x.accepted.length
  accepted : ∀ a ∈ xs, a ∈ x.accepted
  allocated : ∀ a ∈ x.accepted, a ∈ x.allocated

namespace Accounted

variable {xs : List ℕ}

/-- The sixteen bits are enough. -/
theorem getConcurrentConnections_eq (hx : x.Accounted xs) :
    x.server.metrics.getConcurrentConnections =
      x.server.metrics.concurrentConnections := by
  have hroom := hx.room
  rw [Metrics.getConcurrentConnections, hx.concurrent]
  omega

/-- A step that changes what is counted changes the counters. -/
theorem changes (hx : x.Accounted xs) (h : x.Changes y)
    (hallocated : ∀ a ∈ x.allocated, a ∈ y.allocated) :
    ∃ ys, y.Accounted ys := by
  cases h with
  | same hconnected hconcurrent hhistorical haccepted =>
      refine ⟨xs, hx.nodup, fun a => ?_, ?_, hx.room, ?_, ?_, ?_, ?_⟩
      · rw [hconnected]
        exact hx.mem a
      · rw [hconcurrent]
        exact hx.concurrent
      · rw [haccepted]
        exact hx.once
      · rw [hhistorical, haccepted]
        exact hx.historical
      · rw [haccepted]
        exact hx.accepted
      · rw [haccepted]
        exact fun a ha => hallocated a (hx.allocated a ha)
  | @joins a hnot ha hconnected hroom hmetrics haccepted =>
      have hfresh : a ∉ x.accepted := fun hmem => hnot (hx.allocated a hmem)
      have hlt : xs.length < 500 := by
        rw [hx.getConcurrentConnections_eq, hx.concurrent,
          maxConcurrentConnections] at hroom
        omega
      refine ⟨a :: xs, ?_, fun b => ?_, ?_, hlt, ?_, ?_, ?_, ?_⟩
      · exact List.nodup_cons.mpr ⟨fun hmem => hfresh (hx.accepted a hmem), hx.nodup⟩
      · rw [hconnected, List.mem_cons, hx.mem]
      · rw [hmetrics, Metrics.addConnection, hx.concurrent, List.length_cons,
          Int.natCast_succ]
      · rw [haccepted]
        exact List.nodup_cons.mpr ⟨hfresh, hx.once⟩
      · rw [hmetrics, haccepted, Metrics.addConnection, hx.historical,
          List.length_cons, Int.natCast_succ]
      · rw [haccepted]
        exact List.forall_mem_cons.mpr ⟨List.mem_cons_self,
          fun b hb => List.mem_cons_of_mem _ (hx.accepted b hb)⟩
      · rw [haccepted]
        exact List.forall_mem_cons.mpr
          ⟨ha, fun b hb => hallocated b (hx.allocated b hb)⟩
  | @leaves a ha hconnected hconcurrent hhistorical haccepted =>
      have hmem := (hx.mem a).mpr ha
      have hlength := List.length_erase_of_mem hmem
      have hpos := List.length_pos_of_mem hmem
      have hroom := hx.room
      refine ⟨xs.erase a, hx.nodup.erase a, fun b => ?_, ?_, by omega, ?_, ?_,
        ?_, ?_⟩
      · rw [hconnected, hx.nodup.mem_erase_iff, hx.mem]
      · rw [hconcurrent, hx.concurrent, hlength]
        omega
      · rw [haccepted]
        exact hx.once
      · rw [hhistorical, haccepted]
        exact hx.historical
      · rw [haccepted]
        exact fun b hb => hx.accepted b (List.mem_of_mem_erase hb)
      · rw [haccepted]
        exact fun b hb => hallocated b (hx.allocated b hb)

theorem length_le (hx : x.Accounted xs) : xs.length ≤ x.accepted.length :=
  hx.nodup.length_le_of_subset hx.accepted

end Accounted

namespace Changes

theorem historical_le (h : x.Changes y) :
    x.server.metrics.historicalConnections ≤
      y.server.metrics.historicalConnections := by
  cases h with
  | same _ _ hhistorical _ => exact Int.le_of_eq hhistorical.symm
  | joins _ _ _ _ hmetrics _ =>
      rw [hmetrics, Metrics.addConnection]
      exact Int.le_of_lt (Int.lt_succ _)
  | leaves _ _ _ hhistorical _ => exact Int.le_of_eq hhistorical.symm

/-- A session that has been accepted was before, or is connected now. -/
theorem mem_accepted_iff (h : x.Changes y)
    (hx : ∀ a, x.Connected a → a ∈ x.accepted) (b : ℕ) :
    b ∈ y.accepted ↔ b ∈ x.accepted ∨ y.Connected b := by
  cases h with
  | same hconnected _ _ haccepted =>
      rw [haccepted, hconnected]
      exact (or_iff_left_of_imp (hx b)).symm
  | joins _ _ hconnected _ _ haccepted =>
      rw [haccepted, hconnected, List.mem_cons, or_left_comm,
        or_iff_left_of_imp (hx b)]
  | leaves _ hconnected _ _ haccepted =>
      rw [haccepted, hconnected]
      exact (or_iff_left_of_imp fun hb => hx b hb.2).symm

end Changes

/-- No session has been accepted yet. -/
theorem Starts.accounted (hx : x.Starts) : x.Accounted [] ∧ x.accepted = [] := by
  have hwired := hx.wired
  obtain ⟨srv, opened, ⟨fd1, fd2, fd3, fd4, s, hs, rfl⟩, -, rfl⟩ := hx
  refine ⟨⟨.nil, fun a => ?_, rfl, Nat.zero_le _, .nil, rfl, nofun, nofun⟩, rfl⟩
  rw [hwired.connected_iff]
  constructor
  · exact nofun
  · rintro ⟨fd, hclient, -⟩
    cases hclient

/-- What is counted over a whole run: the sessions that have been accepted are
those that have been connected in one of its states. -/
theorem Accounted.run {x₀ x : Running} {tr : List (Running × LoopEvent)}
    (h₀ : x₀.Starts) (hrun : Run Step x₀ tr x) :
    (∃ xs, x.Accounted xs) ∧
      (∀ a, a ∈ x.accepted ↔ x.Connected a ∨ ∃ p ∈ tr, p.1.Connected a) ∧
      ∀ p ∈ tr, p.1.server.metrics.historicalConnections ≤
        x.server.metrics.historicalConnections := by
  induction hrun with
  | nil =>
      obtain ⟨haccounted, hnone⟩ := h₀.accounted
      refine ⟨⟨[], haccounted⟩, fun a => ?_, fun _ hp => absurd hp
        List.not_mem_nil⟩
      rw [hnone, ← haccounted.mem a]
      simp
  | @snoc tr x y e hrun hstep ih =>
      obtain ⟨⟨xs, hxs⟩, hmem, hhistorical⟩ := ih
      have hadvances := ((Serving.run h₀ hrun).step hstep).1
      refine ⟨hxs.changes hadvances.changes hadvances.allocated, fun a => ?_, ?_⟩
      · have hsub (b : ℕ) (hb : x.Connected b) : b ∈ x.accepted :=
          (hmem b).mpr (.inl hb)
        rw [hadvances.changes.mem_accepted_iff hsub, hmem]
        simp only [List.mem_append, List.mem_singleton]
        constructor
        · rintro ((hnow | ⟨p, hp, hconnected⟩) | hthen)
          · exact .inr ⟨_, .inr rfl, hnow⟩
          · exact .inr ⟨p, .inl hp, hconnected⟩
          · exact .inl hthen
        · rintro (hthen | ⟨p, hp | rfl, hconnected⟩)
          · exact .inr hthen
          · exact .inl (.inr ⟨p, hp, hconnected⟩)
          · exact .inl (.inl hconnected)
      · have hle := hadvances.changes.historical_le
        simp only [List.mem_append, List.mem_singleton]
        rintro p (hp | rfl)
        · exact Int.le_trans (hhistorical p hp) hle
        · exact hle

/-- In every run of the main loop `concurrent_connections` is the number of the
sessions that are connected, and is between 0 and 500, so that
`get_concurrent_connections` is exact; `historical_connections` is the number of
the sessions that have been connected in one of the states of the run, is not
less, and never decreases. -/
theorem connections_accounted {x₀ x : Running}
    {tr : List (Running × LoopEvent)} (h₀ : x₀.Starts)
    (hrun : Run Step x₀ tr x) :
    (∃ xs : List ℕ, xs.Nodup ∧ (∀ a, a ∈ xs ↔ x.Connected a) ∧
      x.server.metrics.concurrentConnections = xs.length) ∧
    0 ≤ x.server.metrics.concurrentConnections ∧
    x.server.metrics.concurrentConnections ≤ 500 ∧
    x.server.metrics.getConcurrentConnections =
      x.server.metrics.concurrentConnections ∧
    x.server.metrics.concurrentConnections ≤
      x.server.metrics.historicalConnections ∧
    (∀ p ∈ tr, p.1.server.metrics.historicalConnections ≤
      x.server.metrics.historicalConnections) ∧
    ∃ ys : List ℕ, ys.Nodup ∧
      (∀ a, a ∈ ys ↔ x.Connected a ∨ ∃ p ∈ tr, p.1.Connected a) ∧
      x.server.metrics.historicalConnections = ys.length := by
  obtain ⟨⟨xs, hxs⟩, hmem, hhistorical⟩ := Accounted.run h₀ hrun
  have hroom := hxs.room
  have hlength := hxs.length_le
  refine ⟨⟨xs, hxs.nodup, hxs.mem, hxs.concurrent⟩, ?_, ?_,
    hxs.getConcurrentConnections_eq, ?_, hhistorical, x.accepted, hxs.once, hmem,
    hxs.historical⟩
  · rw [hxs.concurrent]
    exact Int.natCast_nonneg _
  · rw [hxs.concurrent]
    exact Int.ofNat_le.mpr hroom
  · rw [hxs.concurrent, hxs.historical]
    exact Int.ofNat_le.mpr hlength

/-- The session that has ended is counted in the past, and the one that has been
accepted after it is counted now. -/
theorem connections_accounted_of_accepted : ∃ x₀ x : Running, x₀.Starts ∧
    (∃ tr, Run Step x₀ tr x) ∧ ¬ x.Connected 0 ∧ x.Connected 1 ∧
    0 < x.server.metrics.concurrentConnections ∧
    x.server.metrics.getConcurrentConnections =
      x.server.metrics.concurrentConnections ∧
    2 ≤ x.server.metrics.historicalConnections := by
  obtain ⟨x₀, x, h₀, hx, -, hdue, hgone, haccepted⟩ := exists_accepted_another
  obtain ⟨tr, hrun⟩ := Run.of_moves (fun x m e y => Move.perform_step x m e y) hx
  obtain ⟨⟨xs, -, hxs, hconcurrent⟩, -, -, hexact, -, -, ys, hys, hpast, hhistorical⟩ :=
    connections_accounted h₀ hrun
  have hserving := Serving.run h₀ hrun
  obtain ⟨i, -, hslot⟩ := hserving.due_key hdue
  have hconnected := hserving.wired.connected_of_slot hslot
  have hpos := List.length_pos_of_mem ((hxs 1).mpr hconnected)
  have hended : ¬ x.Connected 0 := by
    rintro ⟨node, data, hnode, -⟩
    rw [hgone] at hnode
    cases hnode
  have hmem₀ : 0 ∈ ys := by
    rw [hpast, ← (Accounted.run h₀ hrun).2.1]
    exact haccepted
  have hboth : [0, 1] ⊆ ys := by
    simp only [List.cons_subset, List.nil_subset, and_true]
    exact ⟨hmem₀, (hpast 1).mpr (.inl hconnected)⟩
  have hlength := (List.subperm_of_subset (by decide) hboth).length_le
  rw [List.length_cons, List.length_singleton] at hlength
  exact ⟨x₀, x, h₀, ⟨tr, hrun⟩, hended, hconnected, by omega, hexact, by omega⟩

end Running

end Socksv5
