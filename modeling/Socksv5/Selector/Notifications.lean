import Socksv5.Selector.Growth
import Socksv5.Selector.Readiness
import Socksv5.Support.Chain
import Socksv5.Support.Run
import Mathlib.Data.List.Nodup
import Mathlib.Data.List.Perm.Basic

/-!
# Notifications from other threads

The queue that the threads of the resolver share with the selector: a list of
jobs in the heap, which `selector_notify_block` puts a job in front of and
`handle_block_notifications` goes through from the front, before it forgets all
of it.  Threads take their steps between those of the selector, but for the time
in which this holds the lock.

An address stands for an allocation, so none is given out twice.
-/

namespace Socksv5

open Support

/-- `struct blocking_job` -/
structure BlockingJob where
  fd : ℤ
  next : Option ℕ
deriving DecidableEq, Repr

/-- Where the thread of the selector is: outside `selector_select`, in
`pselect`, in `handle_iteration`, in front of `handle_block_notifications`, or in
its loop: in front of the job `j`, in the handler called for the job `j`, or in
front of `free(j)`. -/
inductive SelectPoint
  | outside
  | waiting
  | iterating
  | locking
  | draining (j : Option ℕ)
  | handling (j : ℕ) (next : Option ℕ)
  | releasing (j : ℕ) (next : Option ℕ)
deriving DecidableEq, Repr

namespace SelectPoint

/-- `resolution_mutex` is held. -/
def locked : SelectPoint → Bool
  | .draining _ | .handling _ _ | .releasing _ _ => true
  | _ => false

/-- A handler runs. -/
def runsHandler : SelectPoint → Bool
  | .iterating | .handling _ _ => true
  | _ => false

/-- The job that has been looked at and is not freed yet. -/
def held : SelectPoint → List ℕ
  | .handling j _ | .releasing j _ => [j]
  | _ => []

end SelectPoint

/-- The selector and the threads of the resolver.  What the program does not
keep: the addresses given out, the descriptors of the threads that are to call
`selector_notify_block`, how many of them have queued their job and are to send
the signal, and whether the signal is pending. -/
structure SelectLoop where
  table : FdSelector
  point : SelectPoint := .outside
  resolutionJobs : Option ℕ := none
  heap : ℕ → Option BlockingJob := fun _ => none
  allocated : List ℕ := []
  threads : List ℤ := []
  unsent : ℕ := 0
  signalled : Bool := false

/-- What is seen of a step. -/
inductive SelectEvent
  /-- a handler changes the table -/
  | operates (op : SelectorOp)
  /-- a handler starts a thread for a descriptor -/
  | starts (fd : ℤ)
  /-- the critical section of `selector_notify_block(s, fd)`, for the job `j` -/
  | notifies (j : ℕ) (fd : ℤ)
  /-- `pthread_kill` -/
  | kills
  /-- `pselect` begins -/
  | enters
  /-- `pselect` ends -/
  | wakes (interrupted : Bool)
  /-- `handle_iteration` ends -/
  | iterated
  /-- `pthread_mutex_lock` -/
  | locks
  /-- `handle_block` is called for the job `j`, on the descriptor `fd` -/
  | calls (j : ℕ) (fd : ℤ)
  /-- the job `j` is passed over -/
  | drops (j : ℕ)
  /-- `handle_block` returns -/
  | returns
  /-- `free(j)` -/
  | frees (j : ℕ)
  /-- `resolution_jobs = 0` and `pthread_mutex_unlock` -/
  | drained

/-- The steps of the selector and of the threads, in any order.  A call through
a `handle_block` that is null ends the process: there is no step. -/
inductive SelectStep : SelectLoop → SelectEvent → SelectLoop → Prop
  | operates {x : SelectLoop} {op : SelectorOp} {ret : SelectorStatus}
      {table : FdSelector} : x.point.runsHandler = true →
      op.call x.table = .ok (ret, table) →
      SelectStep x (.operates op) { x with table := table }
  | starts {x : SelectLoop} {fd : ℤ} : x.point.runsHandler = true →
      x.table.Registered fd →
      SelectStep x (.starts fd) { x with threads := fd :: x.threads }
  | notifies {x : SelectLoop} {j : ℕ} {fd : ℤ} : x.point.locked = false →
      fd ∈ x.threads → j ∉ x.allocated →
      SelectStep x (.notifies j fd) { x with
        resolutionJobs := some j
        heap := Function.update x.heap j (some ⟨fd, x.resolutionJobs⟩)
        allocated := x.allocated ++ [j]
        threads := x.threads.erase fd
        unsent := x.unsent + 1 }
  | kills {x : SelectLoop} {n : ℕ} : x.unsent = n + 1 →
      SelectStep x .kills { x with unsent := n, signalled := true }
  | enters {x : SelectLoop} : x.point = .outside →
      SelectStep x .enters { x with point := .waiting }
  | ready {x : SelectLoop} : x.point = .waiting →
      SelectStep x (.wakes false) { x with point := .iterating }
  | interrupted {x : SelectLoop} : x.point = .waiting →
      SelectStep x (.wakes true) { x with
        point := .locking, signalled := false }
  | iterated {x : SelectLoop} : x.point = .iterating →
      SelectStep x .iterated { x with point := .locking }
  | locks {x : SelectLoop} : x.point = .locking →
      SelectStep x .locks { x with point := .draining x.resolutionJobs }
  | calls {x : SelectLoop} {j : ℕ} {job : BlockingJob} {item : Item}
      {handler : FdHandler} : x.point = .draining (some j) →
      x.heap j = some job → x.table.slot job.fd.toNat = .ok item →
      item.used = true → item.handler = some handler →
      handler.handles .block = true →
      SelectStep x (.calls j item.fd) { x with point := .handling j job.next }
  | drops {x : SelectLoop} {j : ℕ} {job : BlockingJob} {item : Item} :
      x.point = .draining (some j) → x.heap j = some job →
      x.table.slot job.fd.toNat = .ok item → item.used = false →
      SelectStep x (.drops j) { x with point := .releasing j job.next }
  | returns {x : SelectLoop} {j : ℕ} {next : Option ℕ} :
      x.point = .handling j next →
      SelectStep x .returns { x with point := .releasing j next }
  | frees {x : SelectLoop} {j : ℕ} {next : Option ℕ} {job : BlockingJob} :
      x.point = .releasing j next → x.heap j = some job →
      SelectStep x (.frees j) { x with
        point := .draining next
        heap := Function.update x.heap j none }
  | drained {x : SelectLoop} : x.point = .draining none →
      SelectStep x .drained { x with
        point := .outside, resolutionJobs := none }

/-- The selector that `main` creates, before the first `selector_select`. -/
def startingLoop (table : FdSelector) : SelectLoop where
  table := table

/-! ## What is seen of a run -/

namespace SelectEvent

/-- The job that is queued, with its descriptor. -/
def pushed? : SelectEvent → Option (ℕ × ℤ)
  | .notifies j fd => some (j, fd)
  | _ => none

/-- The job that is looked at. -/
def looked? : SelectEvent → Option ℕ
  | .calls j _ | .drops j => some j
  | _ => none

/-- The job that is freed. -/
def freed? : SelectEvent → Option ℕ
  | .frees j => some j
  | _ => none

end SelectEvent

section Trace

variable (tr : List (SelectLoop × SelectEvent))

/-- The jobs that have been queued, with their descriptors. -/
def pushed : List (ℕ × ℤ) := tr.filterMap fun x => x.2.pushed?

/-- The jobs that have been looked at. -/
def looked : List ℕ := tr.filterMap fun x => x.2.looked?

/-- The jobs that have been freed. -/
def freed : List ℕ := tr.filterMap fun x => x.2.freed?

end Trace

section Trace

variable (tr : List (SelectLoop × SelectEvent)) (x : SelectLoop) (l : SelectEvent)

theorem pushed_snoc : pushed (tr ++ [(x, l)]) = pushed tr ++ l.pushed?.toList := by
  unfold pushed
  rw [List.filterMap_append]
  cases h : l.pushed? <;> simp [h]

theorem looked_snoc : looked (tr ++ [(x, l)]) = looked tr ++ l.looked?.toList := by
  unfold looked
  rw [List.filterMap_append]
  cases h : l.looked? <;> simp [h]

theorem freed_snoc : freed (tr ++ [(x, l)]) = freed tr ++ l.freed?.toList := by
  unfold freed
  rw [List.filterMap_append]
  cases h : l.freed? <;> simp [h]

end Trace

/-! ## The queue -/

/-- The pointer to the jobs that have not been looked at; `head` is
`resolution_jobs`. -/
def SelectPoint.current (head : Option ℕ) : SelectPoint → Option ℕ
  | .draining j => j
  | .handling _ next | .releasing _ next => next
  | _ => head

theorem SelectPoint.current_of_unlocked {p : SelectPoint} (head : Option ℕ)
    (h : p.locked = false) : p.current head = head := by
  cases p with
  | draining | handling | releasing => cases h
  | outside | waiting | iterating | locking => rfl

theorem SelectPoint.held_of_unlocked {p : SelectPoint} (h : p.locked = false) :
    p.held = [] := by
  cases p with
  | handling | releasing => cases h
  | outside | waiting | iterating | locking | draining => rfl

/-- Where the jobs begin that have not been looked at. -/
def SelectLoop.current (x : SelectLoop) : Option ℕ :=
  x.point.current x.resolutionJobs

/-- What a step does to the queue: nothing, or it puts a job in front, takes one
from the front, or frees the one that has been taken. -/
inductive QueueStep (x : SelectLoop) (l : SelectEvent) (y : SelectLoop) : Prop
  | idle : l.pushed? = none → l.looked? = none → l.freed? = none →
      y.heap = x.heap → y.allocated = x.allocated → y.current = x.current →
      y.point.held = x.point.held → QueueStep x l y
  | push {j : ℕ} {fd : ℤ} : l = .notifies j fd → x.point.held = [] →
      fd ∈ x.threads → j ∉ x.allocated →
      y.heap = Function.update x.heap j (some ⟨fd, x.current⟩) →
      y.allocated = x.allocated ++ [j] → y.current = some j →
      y.point.held = [] → QueueStep x l y
  | take {j : ℕ} {job : BlockingJob} : l.pushed? = none → l.looked? = some j →
      l.freed? = none → x.point.held = [] → x.current = some j →
      x.heap j = some job → y.heap = x.heap → y.allocated = x.allocated →
      y.current = job.next → y.point.held = [j] → QueueStep x l y
  | free {j : ℕ} : l = .frees j → x.point.held = [j] →
      y.heap = Function.update x.heap j none → y.allocated = x.allocated →
      y.current = x.current → y.point.held = [] → QueueStep x l y

theorem SelectStep.queue {x y : SelectLoop} {l : SelectEvent}
    (h : SelectStep x l y) : QueueStep x l y := by
  cases h with
  | operates | starts | kills =>
      exact .idle rfl rfl rfl rfl rfl rfl rfl
  | @notifies j fd hunlocked hfd hj =>
      have hheld := SelectPoint.held_of_unlocked hunlocked
      refine .push rfl hheld hfd hj ?_ rfl ?_ hheld
      · rw [SelectLoop.current, SelectPoint.current_of_unlocked _ hunlocked]
      · exact SelectPoint.current_of_unlocked _ hunlocked
  | enters hpoint | ready hpoint | interrupted hpoint | iterated hpoint
  | locks hpoint | returns hpoint | drained hpoint =>
      refine .idle rfl rfl rfl rfl rfl ?_ ?_
      · simp [SelectLoop.current, SelectPoint.current, hpoint]
      · simp [SelectPoint.held, hpoint]
  | calls hpoint hjob | drops hpoint hjob =>
      refine .take rfl rfl rfl ?_ ?_ hjob rfl rfl rfl rfl
      · simp [SelectPoint.held, hpoint]
      · simp [SelectLoop.current, SelectPoint.current, hpoint]
  | frees hpoint hjob =>
      refine .free rfl ?_ rfl rfl ?_ rfl
      · simp [SelectPoint.held, hpoint]
      · simp [SelectLoop.current, SelectPoint.current, hpoint]

/-- What is known of the jobs after a run: each address given out is that of a
job that was queued; of these some have been freed, at most one is being
handled, and the others are reached from the current pointer. -/
structure JobsAccounted (tr : List (SelectLoop × SelectEvent)) (x : SelectLoop) :
    Prop where
  allocated_eq : x.allocated = (pushed tr).map Prod.fst
  nodup : x.allocated.Nodup
  looked_eq : looked tr = freed tr ++ x.point.held
  job_pushed : ∀ j job, x.heap j = some job → (j, job.fd) ∈ pushed tr
  chain : ∃ xs, Segment BlockingJob.next x.heap x.current xs none ∧
    x.allocated.Perm (freed tr ++ (x.point.held ++ xs)) ∧
    ∀ j, x.heap j ≠ none ↔ j ∈ x.point.held ++ xs

theorem JobsAccounted.start (table : FdSelector) :
    JobsAccounted [] (startingLoop table) where
  allocated_eq := rfl
  nodup := .nil
  looked_eq := rfl
  job_pushed := fun j job hjob => by cases hjob
  chain := ⟨[], rfl, .nil, fun j => by simp [startingLoop, SelectPoint.held]⟩

theorem JobsAccounted.step {tr : List (SelectLoop × SelectEvent)} {x y : SelectLoop}
    {l : SelectEvent} (h : JobsAccounted tr x) (hstep : QueueStep x l y) :
    JobsAccounted (tr ++ [(x, l)]) y := by
  obtain ⟨xs, hchain, hperm, hlive⟩ := h.chain
  cases hstep with
  | idle hpushed hlooked hfreed hheap hallocated hcurrent hheld =>
      have hp : pushed (tr ++ [(x, l)]) = pushed tr := by
        rw [pushed_snoc, hpushed]
        exact List.append_nil _
      have hf : freed (tr ++ [(x, l)]) = freed tr := by
        rw [freed_snoc, hfreed]
        exact List.append_nil _
      constructor
      · rw [hallocated, hp, h.allocated_eq]
      · rw [hallocated]
        exact h.nodup
      · rw [looked_snoc, hlooked, hf, hheld, h.looked_eq]
        exact List.append_nil _
      · rw [hheap, hp]
        exact h.job_pushed
      · rw [hheap, hcurrent, hallocated, hf, hheld]
        exact ⟨xs, hchain, hperm, hlive⟩
  | @push j fd hl hheld hfd hj hheap hallocated hcurrent hheld' =>
      subst hl
      have hp : pushed (tr ++ [(x, .notifies j fd)]) = pushed tr ++ [(j, fd)] :=
        pushed_snoc tr x _
      have hf : freed (tr ++ [(x, .notifies j fd)]) = freed tr := by
        rw [freed_snoc]
        exact List.append_nil _
      rw [hheld] at hperm hlive
      have hnot : j ∉ xs := fun hmem =>
        hj (hperm.mem_iff.mpr (List.mem_append_right _ hmem))
      have hsame : ∀ k ∈ xs, y.heap k = x.heap k := by
        intro k hk
        rw [hheap, Function.update_of_ne]
        rintro rfl
        exact hnot hk
      constructor
      · rw [hallocated, hp, h.allocated_eq, List.map_append]
        rfl
      · rw [hallocated, ← List.concat_eq_append]
        exact h.nodup.concat hj
      · rw [looked_snoc, hf, hheld', h.looked_eq, hheld]
        exact List.append_nil _
      · intro k job hk
        rw [hp, List.mem_append]
        rw [hheap, Function.update_apply] at hk
        split_ifs at hk with hkj
        · cases hk
          rw [hkj]
          exact .inr (List.mem_singleton.mpr rfl)
        · exact .inl (h.job_pushed k job hk)
      · refine ⟨j :: xs, ⟨hcurrent, ⟨fd, x.current⟩, ?_, hchain.congr hsame⟩, ?_,
          ?_⟩
        · rw [hheap, Function.update_self]
        · rw [hallocated, hf, hheld', List.nil_append]
          have hmore := hperm.append_right [j]
          rw [List.nil_append, List.append_assoc] at hmore
          exact hmore.trans ((List.perm_append_singleton j xs).append_left _)
        · intro k
          rw [hheld', hheap, Function.update_apply, List.nil_append,
            List.mem_cons]
          split_ifs with hkj
          · simp [hkj]
          · rw [hlive k, or_iff_right hkj]
            rfl
  | @take j job hpushed hlooked hfreed hheld hcurrent hjob hheap hallocated
      hcurrent' hheld' =>
      have hp : pushed (tr ++ [(x, l)]) = pushed tr := by
        rw [pushed_snoc, hpushed]
        exact List.append_nil _
      have hf : freed (tr ++ [(x, l)]) = freed tr := by
        rw [freed_snoc, hfreed]
        exact List.append_nil _
      obtain ⟨ys, rfl, hys⟩ : ∃ ys, xs = j :: ys ∧
          Segment BlockingJob.next x.heap job.next ys none := by
        rw [hcurrent] at hchain
        cases xs with
        | nil => cases hchain
        | cons k ys =>
            obtain ⟨hk, job', hjob', hys⟩ := hchain
            cases hk
            rw [hjob] at hjob'
            cases hjob'
            exact ⟨ys, rfl, hys⟩
      rw [hheld] at hperm hlive
      constructor
      · rw [hallocated, hp, h.allocated_eq]
      · rw [hallocated]
        exact h.nodup
      · rw [looked_snoc, hlooked, hf, hheld', h.looked_eq, hheld,
          List.append_nil]
        rfl
      · rw [hheap, hp]
        exact h.job_pushed
      · rw [hheap, hcurrent', hallocated, hf, hheld']
        exact ⟨ys, hys, hperm, hlive⟩
  | @free j hl hheld hheap hallocated hcurrent hheld' =>
      subst hl
      have hp : pushed (tr ++ [(x, .frees j)]) = pushed tr := by
        rw [pushed_snoc]
        exact List.append_nil _
      have hf : freed (tr ++ [(x, .frees j)]) = freed tr ++ [j] :=
        freed_snoc tr x _
      rw [hheld] at hperm hlive
      have hnodup := hperm.nodup_iff.mp h.nodup
      have hnot : j ∉ xs := by
        have htail := (List.nodup_append.mp hnodup).2.1
        exact (List.nodup_cons.mp htail).1
      have hsame : ∀ k ∈ xs, y.heap k = x.heap k := by
        intro k hk
        rw [hheap, Function.update_of_ne]
        rintro rfl
        exact hnot hk
      constructor
      · rw [hallocated, hp, h.allocated_eq]
      · rw [hallocated]
        exact h.nodup
      · rw [looked_snoc, hf, hheld', h.looked_eq, hheld]
        rfl
      · intro k job hk
        rw [hp]
        rw [hheap, Function.update_apply] at hk
        split_ifs at hk with hkj
        exact h.job_pushed k job hk
      · refine ⟨xs, ?_, ?_, ?_⟩
        · rw [hcurrent]
          exact hchain.congr hsame
        · rw [hallocated, hf, hheld', List.append_assoc]
          exact hperm
        · intro k
          rw [hheld', hheap, Function.update_apply, List.nil_append]
          split_ifs with hkj
          · rw [hkj]
            exact iff_of_false (fun hne => hne rfl) hnot
          · rw [hlive k, List.cons_append, List.nil_append, List.mem_cons,
              or_iff_right hkj]

/-! ## The table -/

/-- The descriptor is valid and has an item. -/
def FdSelector.HasItem (s : FdSelector) (fd : ℤ) : Prop :=
  invalidFd fd = false ∧ fd.toNat < s.fdSize

theorem FdSelector.Registered.hasItem {s : FdSelector} {fd : ℤ}
    (h : s.Registered fd) : s.HasItem fd :=
  ⟨h.valid, h.item.2.1⟩

/-- No operation makes the table smaller. -/
theorem SelectorOp.call_tabled {op : SelectorOp} {s s' : FdSelector}
    {ret : SelectorStatus} (hs : s.Tabled) (h : op.call s = .ok (ret, s')) :
    s'.Tabled ∧ s.fdSize ≤ s'.fdSize := by
  have hfits : op.Fits s := by
    by_contra hnot
    rw [call_of_not_fits hnot] at h
    cases h
  obtain ⟨ret₁, s₁, hcall, hs₁, hserves⟩ := stays_of_fits hs hfits
  rw [h] at hcall
  cases hcall
  exact ⟨hs₁, hserves.size_le⟩

/-- The table is sound, and every thread and every job is for a descriptor that
has an item in it. -/
structure Itemized (tr : List (SelectLoop × SelectEvent)) (x : SelectLoop) :
    Prop where
  tabled : x.table.Tabled
  threads : ∀ fd ∈ x.threads, x.table.HasItem fd
  jobs : ∀ j fd, (j, fd) ∈ pushed tr → x.table.HasItem fd

theorem Itemized.start {table : FdSelector} (h : table.Tabled) :
    Itemized [] (startingLoop table) where
  tabled := h
  threads := fun _ hfd => absurd hfd List.not_mem_nil
  jobs := fun _ _ hj => absurd hj List.not_mem_nil

/-- A step that leaves the table and the threads, and queues nothing. -/
theorem Itemized.frame {tr : List (SelectLoop × SelectEvent)} {x y : SelectLoop}
    {l : SelectEvent} (h : Itemized tr x) (htable : y.table = x.table)
    (hthreads : y.threads = x.threads) (hpushed : l.pushed? = none) :
    Itemized (tr ++ [(x, l)]) y where
  tabled := by
    rw [htable]
    exact h.tabled
  threads := by
    rw [htable, hthreads]
    exact h.threads
  jobs := by
    rw [htable, pushed_snoc, hpushed, Option.toList_none, List.append_nil]
    exact h.jobs

theorem Itemized.step {tr : List (SelectLoop × SelectEvent)} {x y : SelectLoop}
    {l : SelectEvent} (h : Itemized tr x) (hstep : SelectStep x l y) :
    Itemized (tr ++ [(x, l)]) y := by
  cases hstep with
  | @operates op ret table _ hcall =>
      obtain ⟨htabled, hsize⟩ := op.call_tabled h.tabled hcall
      have hmono : ∀ fd, x.table.HasItem fd → table.HasItem fd :=
        fun fd hfd => ⟨hfd.1, Nat.lt_of_lt_of_le hfd.2 hsize⟩
      refine ⟨htabled, fun fd hfd => hmono fd (h.threads fd hfd), ?_⟩
      intro j fd hj
      rw [pushed_snoc, List.mem_append] at hj
      exact hmono fd (h.jobs j fd (hj.resolve_right List.not_mem_nil))
  | @starts fd _ hreg =>
      refine ⟨h.tabled, ?_, ?_⟩
      · intro d hd
        rcases List.mem_cons.mp hd with rfl | hd
        · exact hreg.hasItem
        · exact h.threads d hd
      · intro j d hj
        rw [pushed_snoc, List.mem_append] at hj
        exact h.jobs j d (hj.resolve_right List.not_mem_nil)
  | @notifies j fd _ hfd _ =>
      refine ⟨h.tabled, fun d hd => h.threads d (List.mem_of_mem_erase hd), ?_⟩
      intro k d hk
      rw [pushed_snoc, List.mem_append] at hk
      rcases hk with hk | hk
      · exact h.jobs k d hk
      · cases List.mem_singleton.mp hk
        exact h.threads fd hfd
  | kills | enters | ready | interrupted | iterated | locks | calls | drops
  | returns | frees | drained => exact h.frame rfl rfl rfl

/-! ## What becomes of a job -/

/-- A job is called for on its own descriptor where that is registered, and is
passed over where it is not. -/
structure Judged (tr : List (SelectLoop × SelectEvent)) : Prop where
  called : ∀ x j fd, (x, SelectEvent.calls j fd) ∈ tr →
    (j, fd) ∈ pushed tr ∧ x.table.Registered fd
  dropped : ∀ x j, (x, SelectEvent.drops j) ∈ tr →
    ∃ fd, (j, fd) ∈ pushed tr ∧ ¬ x.table.Registered fd

/-- The item of a job, and whether it is in use. -/
theorem Itemized.item_spec {tr : List (SelectLoop × SelectEvent)}
    {x : SelectLoop} {j : ℕ} {fd : ℤ} {item : Item} (h : Itemized tr x)
    (hj : (j, fd) ∈ pushed tr) (hslot : x.table.slot fd.toNat = .ok item) :
    (x.table.Registered fd ↔ item.used = true) ∧
      (item.used = true → item.fd = fd) := by
  obtain ⟨-, rfl⟩ := FdSelector.slot_eq_ok hslot
  have hvalid := (h.jobs j fd hj).1
  refine ⟨h.tabled.registered_iff hvalid, ?_⟩
  intro hused
  rw [(h.tabled.fd_eq _ hused).1]
  exact Int.toNat_of_nonneg (invalidFd_eq_false_iff.mp hvalid).1

theorem Judged.step {tr : List (SelectLoop × SelectEvent)} {x y : SelectLoop}
    {l : SelectEvent} (h : Judged tr) (haccounted : JobsAccounted tr x)
    (hitemized : Itemized tr x) (hstep : SelectStep x l y) :
    Judged (tr ++ [(x, l)]) := by
  have hmore : ∀ p ∈ pushed tr, p ∈ pushed (tr ++ [(x, l)]) := by
    intro p hp
    rw [pushed_snoc]
    exact List.mem_append_left _ hp
  constructor
  · intro x₁ j fd hmem
    rcases List.mem_append.mp hmem with hmem | hmem
    · obtain ⟨hpushed, hreg⟩ := h.called x₁ j fd hmem
      exact ⟨hmore _ hpushed, hreg⟩
    · cases List.mem_singleton.mp hmem
      cases hstep with
      | calls hpoint hjob hslot hused =>
          have hpushed := haccounted.job_pushed _ _ hjob
          obtain ⟨hreg, hfd⟩ := hitemized.item_spec hpushed hslot
          rw [← hfd hused] at hpushed hreg
          exact ⟨hmore _ hpushed, hreg.mpr hused⟩
  · intro x₁ j hmem
    rcases List.mem_append.mp hmem with hmem | hmem
    · obtain ⟨fd, hpushed, hreg⟩ := h.dropped x₁ j hmem
      exact ⟨fd, hmore _ hpushed, hreg⟩
    · cases List.mem_singleton.mp hmem
      cases hstep with
      | drops hpoint hjob hslot hused =>
          have hpushed := haccounted.job_pushed _ _ hjob
          obtain ⟨hreg, -⟩ := hitemized.item_spec hpushed hslot
          refine ⟨_, hmore _ hpushed, ?_⟩
          rw [hreg, hused]
          exact Bool.false_ne_true

/-! ## The signal -/

/-- While the selector is about to wait, or waits, what is queued has been
signalled or is to be. -/
def SelectLoop.Awaited (x : SelectLoop) : Prop :=
  x.point = .outside ∨ x.point = .waiting → x.resolutionJobs ≠ none →
    x.signalled = true ∨ 0 < x.unsent

theorem SelectStep.awaited {x y : SelectLoop} {l : SelectEvent}
    (h : SelectStep x l y) (hx : x.Awaited) : y.Awaited := by
  cases h with
  | operates | starts => exact hx
  | notifies => exact fun _ _ => .inr (Nat.succ_pos _)
  | kills => exact fun _ _ => .inl rfl
  | enters hpoint => exact fun _ hne => hx (.inl hpoint) hne
  | drained => exact fun _ hne => absurd rfl hne
  | ready | interrupted | iterated | locks | calls | drops | returns | frees =>
      rintro (hpoint | hpoint) <;> cases hpoint

/-! ## Runs -/

/-- What is known after a run. -/
structure Consistent (tr : List (SelectLoop × SelectEvent)) (x : SelectLoop) :
    Prop where
  accounted : JobsAccounted tr x
  itemized : Itemized tr x
  judged : Judged tr
  awaited : x.Awaited

theorem consistent_of_run {table : FdSelector}
    {tr : List (SelectLoop × SelectEvent)} {x : SelectLoop}
    (htable : table.Tabled) (h : Run SelectStep (startingLoop table) tr x) :
    Consistent tr x := by
  induction h with
  | nil =>
      refine ⟨.start table, .start htable, ?_, fun _ hne => absurd rfl hne⟩
      exact ⟨fun _ _ _ hmem => absurd hmem List.not_mem_nil,
        fun _ _ hmem => absurd hmem List.not_mem_nil⟩
  | snoc _ hstep ih =>
      exact ⟨ih.accounted.step hstep.queue, ih.itemized.step hstep,
        ih.judged.step ih.accounted ih.itemized hstep, hstep.awaited ih.awaited⟩

namespace Consistent

variable {tr : List (SelectLoop × SelectEvent)} {x : SelectLoop}

theorem pushed_nodup (h : Consistent tr x) : ((pushed tr).map Prod.fst).Nodup := by
  rw [← h.accounted.allocated_eq]
  exact h.accounted.nodup

/-- A job has one descriptor. -/
theorem pushed_unique (h : Consistent tr x) {j : ℕ} {fd fd' : ℤ}
    (hfd : (j, fd) ∈ pushed tr) (hfd' : (j, fd') ∈ pushed tr) : fd = fd' :=
  congrArg Prod.snd (List.inj_on_of_nodup_map h.pushed_nodup hfd hfd' rfl)

/-- A job that has been looked at was called for or dropped. -/
theorem settled (h : Consistent tr x) {j : ℕ} {fd : ℤ}
    (hpushed : (j, fd) ∈ pushed tr) (hj : j ∈ looked tr) : ∃ x₁,
      (x₁, SelectEvent.calls j fd) ∈ tr ∧ x₁.table.Registered fd ∨
      (x₁, SelectEvent.drops j) ∈ tr ∧ ¬ x₁.table.Registered fd := by
  obtain ⟨⟨x₁, l⟩, hmem, hl⟩ := List.mem_filterMap.mp hj
  cases l with
  | calls k d =>
      cases hl
      obtain ⟨hd, hreg⟩ := h.judged.called x₁ j d hmem
      obtain rfl := h.pushed_unique hpushed hd
      exact ⟨x₁, .inl ⟨hmem, hreg⟩⟩
  | drops k =>
      cases hl
      obtain ⟨d, hd, hreg⟩ := h.judged.dropped x₁ j hmem
      obtain rfl := h.pushed_unique hpushed hd
      exact ⟨x₁, .inr ⟨hmem, hreg⟩⟩
  | operates | starts | notifies | kills | enters | wakes | iterated | locks
  | returns | frees | drained => cases hl

theorem live (h : Consistent tr x) (j : ℕ) :
    x.heap j ≠ none ↔ j ∈ (pushed tr).map Prod.fst ∧ j ∉ freed tr := by
  obtain ⟨xs, -, hperm, hlive⟩ := h.accounted.chain
  have hnodup := hperm.nodup_iff.mp h.accounted.nodup
  have hmem : j ∈ x.allocated ↔ j ∈ freed tr ∨ j ∈ x.point.held ++ xs :=
    hperm.mem_iff.trans List.mem_append
  rw [hlive, ← h.accounted.allocated_eq, hmem]
  constructor
  · intro hj
    refine ⟨.inr hj, fun hfreed => ?_⟩
    exact (List.nodup_append.mp hnodup).2.2 j hfreed j hj rfl
  · rintro ⟨hj, hnot⟩
    exact hj.resolve_left hnot

end Consistent

/-- What a step does to `resolution_jobs`, where this is the list of the
descriptors of the jobs. -/
def SelectEvent.queues (s : FdSelector) : SelectEvent → FdSelector
  | .notifies _ fd => (selectorNotifyBlock s fd true).2
  | .drained => { s with resolutionJobs := [] }
  | _ => s

/-- The selector after the events of a run. -/
def queuedAfter (tr : List (SelectLoop × SelectEvent)) (s : FdSelector) :
    FdSelector :=
  tr.foldl (fun s x => x.2.queues s) s

/-- The jobs that are reached from `resolution_jobs` are those of the list. -/
def SelectLoop.Holds (x : SelectLoop) (jobs : List ℤ) : Prop :=
  ∃ xs, Segment BlockingJob.next x.heap x.resolutionJobs xs none ∧
    xs.map (fun j => (x.heap j).map BlockingJob.fd) = jobs.map some

theorem SelectLoop.Holds.notifies {x : SelectLoop} {j : ℕ} {fd : ℤ}
    {jobs : List ℤ} (h : x.Holds jobs) (hj : x.heap j = none) {y : SelectLoop}
    (hheap : y.heap = Function.update x.heap j (some ⟨fd, x.resolutionJobs⟩))
    (hhead : y.resolutionJobs = some j) : y.Holds (fd :: jobs) := by
  obtain ⟨xs, hchain, hmap⟩ := h
  have hsame : ∀ k ∈ xs, y.heap k = x.heap k := by
    intro k hk
    obtain ⟨node, hnode⟩ := hchain.exists_node hk
    rw [hheap, Function.update_of_ne]
    rintro rfl
    rw [hj] at hnode
    cases hnode
  have hself : y.heap j = some ⟨fd, x.resolutionJobs⟩ := by
    rw [hheap, Function.update_self]
  refine ⟨j :: xs, ⟨hhead, _, hself, hchain.congr hsame⟩, ?_⟩
  rw [List.map_cons, List.map_cons, hself, ← hmap]
  congr 1
  exact List.map_congr_left fun k hk => by rw [hsame k hk]

/-- Between two drains the list in the heap is the list of the model of the
table. -/
theorem holds_of_run {table : FdSelector}
    {tr : List (SelectLoop × SelectEvent)} {x : SelectLoop}
    (htable : table.Tabled) (hjobs : table.resolutionJobs = [])
    (h : Run SelectStep (startingLoop table) tr x)
    (hunlocked : x.point.locked = false) :
    x.Holds (queuedAfter tr table).resolutionJobs := by
  induction h with
  | nil =>
      rw [queuedAfter, List.foldl_nil, hjobs]
      exact ⟨[], rfl, rfl⟩
  | @snoc tr x y l hrun hstep ih =>
      have hafter : queuedAfter (tr ++ [(x, l)]) table =
          l.queues (queuedAfter tr table) := by
        rw [queuedAfter, List.foldl_append]
        rfl
      rw [hafter]
      cases hstep with
      | operates | starts | kills => exact ih hunlocked
      | @notifies j fd hx hfd hj =>
          have hconsistent := consistent_of_run htable hrun
          have hnone : x.heap j = none := by
            by_contra hne
            apply hj
            rw [hconsistent.accounted.allocated_eq]
            exact ((hconsistent.live j).mp hne).1
          exact (ih hx).notifies hnone rfl rfl
      | enters hpoint | ready hpoint | interrupted hpoint | iterated hpoint =>
          exact ih (by rw [hpoint]; rfl)
      | locks | calls | drops | returns | frees => cases hunlocked
      | drained => exact ⟨[], rfl, rfl⟩

end Socksv5
