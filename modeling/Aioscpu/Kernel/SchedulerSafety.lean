import Aioscpu.Kernel.Scheduler
import Mathlib.Algebra.Order.Ring.Unbundled.Rat

/-! # When the Scheduler Raises

  The job heap has no tie-breaker: two entries with the same next run and the
  same interval are compared by their callables, and that comparison raises.
  Two jobs of one interval that fall due in the same `tick` are pushed back
  with such entries.

  A run in which no entry is pushed onto a heap that holds a clashing one
  compares only entries that have an order, so `tick` never raises in it.
-/

namespace Scheduler

variable {T J : Type}

/-! ### What is to be avoided -/

/-- No exception has left `tick`, and no comparison of entries has raised. -/
def Quiet (os : List (Obs T J)) : Prop :=
  (∀ err, .tick_raised err ∉ os) ∧ ∀ a b, .call_raised (.Unorderable a b) ∉ os

theorem quiet_nil : Quiet ([] : List (Obs T J)) := ⟨by simp, by simp⟩

theorem Quiet.append {os os' : List (Obs T J)} (h : Quiet os) (h' : Quiet os') :
    Quiet (os ++ os') := by
  refine ⟨fun err hmem => ?_, fun a b hmem => ?_⟩
  · exact (List.mem_append.mp hmem).elim (h.1 err) (h'.1 err)
  · exact (List.mem_append.mp hmem).elim (h.2 a b) (h'.2 a b)

/-! ### The condition -/

/-- No entry of the heap clashes with `e`. -/
def NoClash (e : JobEntry T J) (queue : List (JobEntry T J)) : Prop :=
  ∀ f ∈ queue, ¬ e.Clash f

theorem clash_symm {e f : JobEntry T J} (h : e.Clash f) : f.Clash e :=
  ⟨h.1.symm, h.2.1.symm, h.2.2.symm⟩

variable [Clock T]

/-- The entry that a step pushes onto the job heap, if it pushes one. -/
def pushed (s : State T J) : Label T J → Option (JobEntry T J)
  | .schedule_job (.callable j) interval_ms now =>
    if interval_ms < 1 then none else some ⟨now + Clock.ofMillis interval_ms, interval_ms, j⟩
  | .done _ =>
    match s.frames with
    | .in_job _ now entry :: _ => some (reschedule entry now)
    | _ => none
  | _ => none

/-- The step pushes no entry onto a heap that holds a clashing one. -/
def PushesNoClash (s : State T J) (l : Label T J) : Prop :=
  ∀ e ∈ pushed s l, NoClash e s.sched.job_queue

/-! ### The invariant -/

/-- Every two entries of the job heap have an order, and they form a heap. -/
structure Orderly (queue : List (JobEntry T J)) : Prop where
  comparable : ∀ e ∈ queue, NoClash e queue
  heap : Heapq.IsHeap JobEntry.key queue

theorem orderly_nil : Orderly ([] : List (JobEntry T J)) :=
  ⟨by simp, Heapq.isHeap_nil⟩

variable [DecidableEq J]

instance (e : JobEntry T J) (queue : List (JobEntry T J)) : Decidable (NoClash e queue) :=
  inferInstanceAs (Decidable (∀ f ∈ queue, ¬ e.Clash f))

instance (s : State T J) (l : Label T J) : Decidable (PushesNoClash s l) :=
  inferInstanceAs (Decidable (∀ e ∈ pushed s l, NoClash e s.sched.job_queue))

theorem decides_of_comparable {queue : List (JobEntry T J)}
    (h : ∀ e ∈ queue, NoClash e queue) : Heapq.Decides JobEntry.key JobEntry.lt queue :=
  fun e he f hf => JobEntry.lt_eq (h e he f hf)

/-- A push without a clash raises nothing. -/
theorem Orderly.push {queue : List (JobEntry T J)} (ho : Orderly queue) {e : JobEntry T J}
    (he : NoClash e queue) :
    (Heapq.heappush JobEntry.lt queue e).1 = .ok () ∧
      Orderly (Heapq.heappush JobEntry.lt queue e).2 := by
  -- with the new entry, any two entries still have an order
  have hall : ∀ x ∈ e :: queue, NoClash x (e :: queue) := by
    intro x hx y hy hclash
    rcases List.mem_cons.mp hx with rfl | hxq
    · rcases List.mem_cons.mp hy with rfl | hyq
      · exact hclash.2.2 rfl
      · exact he y hyq hclash
    · rcases List.mem_cons.mp hy with rfl | hyq
      · exact he x hxq (clash_symm hclash)
      · exact ho.comparable x hxq y hyq hclash
  obtain ⟨hok, hheap⟩ := Heapq.heappush_heap (decides_of_comparable hall) ho.heap
  have hperm := Heapq.heappush_perm JobEntry.lt queue e
  refine ⟨hok, ?_, hheap⟩
  intro x hx y hy
  exact hall x (hperm.mem_iff.mp hx) y (hperm.mem_iff.mp hy)

/-- A pop raises nothing. -/
theorem Orderly.pop {front : JobEntry T J} {rest : List (JobEntry T J)}
    (ho : Orderly (front :: rest)) :
    ∃ queue, Heapq.heappop JobEntry.lt (front :: rest) = some (.ok front, queue) ∧
      Orderly queue := by
  obtain ⟨queue, hpop, hheap, hperm⟩ :=
    Heapq.heappop_heap (decides_of_comparable ho.comparable) ho.heap
  refine ⟨queue, hpop, ?_, hheap⟩
  intro x hx y hy
  exact ho.comparable x (List.mem_cons_of_mem _ (hperm.mem_iff.mp hx)) y
    (List.mem_cons_of_mem _ (hperm.mem_iff.mp hy))

/-! ### Runs without a clash -/

omit [Clock T] [DecidableEq J] in
theorem submit_task_job_queue (s : Scheduler T J) (task : Arg J) (priority : Int) :
    (s.submit_task task priority).2.job_queue = s.job_queue ∧
      Quiet (callObs (T := T) (s.submit_task task priority).1) := by
  cases task with
  | callable j => exact ⟨rfl, quiet_nil⟩
  | other type => exact ⟨rfl, by simp [Quiet, submit_task, callObs]⟩

theorem schedule_job_quiet {s : State T J} (ho : Orderly s.sched.job_queue) (job : Arg J)
    (interval_ms : Int) (now : T)
    (hC : PushesNoClash s (.schedule_job job interval_ms now)) :
    Orderly (s.sched.schedule_job job interval_ms now).2.job_queue ∧
      Quiet (callObs (T := T) (s.sched.schedule_job job interval_ms now).1) := by
  cases job with
  | other type => exact ⟨ho, by simp [Quiet, schedule_job, callObs]⟩
  | callable j =>
    by_cases hi : interval_ms < 1
    · simp only [schedule_job, hi, if_true]
      exact ⟨ho, by simp [Quiet, callObs]⟩
    · obtain ⟨hok, hord⟩ := ho.push (hC ⟨now + Clock.ofMillis interval_ms, interval_ms, j⟩
        (by simp [pushed, hi]))
      simp only [schedule_job, hi, if_false]
      exact ⟨hord, by rw [hok]; exact quiet_nil⟩

theorem step_quiet {s s' : State T J} {l : Label T J} {os : List (Obs T J)}
    (h : (machine T J).step s l = some (s', os)) (ho : Orderly s.sched.job_queue)
    (hC : PushesNoClash s l) : Orderly s'.sched.job_queue ∧ Quiet os := by
  cases l with
  | submit_task task priority =>
    simp only [machine] at h
    split at h
    · cases h
      obtain ⟨hq, hquiet⟩ := submit_task_job_queue s.sched task priority
      exact ⟨by rw [hq]; exact ho, hquiet⟩
    · cases h
  | schedule_job job interval_ms now =>
    simp only [machine] at h
    split at h
    · cases h
      exact schedule_job_quiet ho job interval_ms now hC
    · cases h
  | tick =>
    simp only [machine, tick] at h
    split at h
    · split at h
      · cases h; exact ⟨ho, quiet_nil⟩
      · cases h; exact ⟨ho, by simp [Quiet]⟩
    · cases h
  | clock now =>
    simp only [machine] at h
    split at h
    · cases h; exact ⟨ho, quiet_nil⟩
    · cases h
  | done raised =>
    simp only [machine] at h
    split at h
    · cases h; exact ⟨ho, quiet_nil⟩
    -- the push after a job is outside the `try`, so it must not raise
    · next ran now entry _ hjob =>
      obtain ⟨hok, hord⟩ := ho.push (hC (reschedule entry now) (by simp [pushed, hjob]))
      unfold job_done at h
      generalize Heapq.heappush JobEntry.lt s.sched.job_queue (reschedule entry now) = r
        at h hok hord
      obtain ⟨r, queue⟩ := r
      obtain rfl : r = .ok () := hok
      cases h
      exact ⟨hord, quiet_nil⟩
    · cases h
  | advance =>
    simp only [machine] at h
    split at h
    · next ran now _ _ =>
      unfold advance at h
      split at h
      · cases h; exact ⟨ho, by simp [Quiet]⟩
      -- a due entry is popped, and the comparisons of the pop are defined
      · next front rest hq =>
        split at h
        · obtain ⟨queue, hpop, hord⟩ := (hq ▸ ho : Orderly (front :: rest)).pop
          rw [hpop] at h
          cases h
          exact ⟨hord, by simp [Quiet]⟩
        · cases h; exact ⟨ho, by simp [Quiet]⟩
    · cases h

/-- **Ticks never raise without a clash**: in every run of `schedule_job`,
    `submit_task` and `tick`, with callables that call these themselves and
    raise, if no entry is pushed onto a job heap that holds an entry with the
    same next run, the same interval and another callable, then no exception
    leaves `tick` and every comparison of two entries is defined. -/
theorem tick_quiet_of_no_clash {s : State T J} {ls : List (Label T J)} {tr : List (Obs T J)}
    (hC : (machine T J).Along PushesNoClash ⟨init, []⟩ ls)
    (hrun : (machine T J).run ⟨init, []⟩ ls = some (s, tr)) :
    (∀ err, .tick_raised err ∉ tr) ∧ ∀ a b, .call_raised (.Unorderable a b) ∉ tr := by
  have h := (machine T J).run_induction_along
    (P := fun _ s tr => Orderly s.sched.job_queue ∧ Quiet tr) ⟨orderly_nil, quiet_nil⟩
    (fun ls s tr l s' os _ ih hC hs => by
      obtain ⟨hord, hquiet⟩ := step_quiet hs ih.1 hC
      exact ⟨hord, ih.2.append hquiet⟩) hC hrun
  exact h.2

/-- Two jobs of one interval, due at 1 and 3/2, with a tick at each. -/
def apart : List (Label ℚ String) :=
  [.schedule_job (.callable "a") 1000 0, .schedule_job (.callable "b") 1000 (1 / 2),
    .tick, .clock 1, .advance, .done true, .advance,
    .tick, .clock (3 / 2), .advance, .done false, .advance]

theorem tick_quiet_of_no_clash_apart :
    ∃ s tr, (machine ℚ String).run ⟨init, []⟩ apart = some (s, tr) ∧
      (∀ err, .tick_raised err ∉ tr) ∧ ∀ a b, .call_raised (.Unorderable a b) ∉ tr := by
  obtain ⟨s, tr, hrun, -⟩ := (machine ℚ String).exists_run ⟨init, []⟩ apart
    (fun _ _ => true) (by decide +kernel)
  exact ⟨s, tr, hrun, tick_quiet_of_no_clash (by decide +kernel) hrun⟩

/-- Two jobs of one interval, due at 1 and 2, and one tick at 3. -/
def coinciding : List (Label ℚ String) :=
  [.schedule_job (.callable "a") 1000 0, .schedule_job (.callable "b") 1000 1,
    .tick, .clock 3, .advance, .done false, .advance, .done false]

/-- The push of the second job compares the two callables, and the exception
    leaves `tick`. -/
theorem tick_raises_on_coinciding_jobs :
    (readings coinciding).Pairwise (· ≤ ·) ∧
      ∃ s tr, (machine ℚ String).run ⟨init, []⟩ coinciding = some (s, tr) ∧
        .tick_raised (.Unorderable "b" "a") ∈ tr := by
  refine ⟨by decide +kernel, ?_⟩
  obtain ⟨s, tr, hrun, htest⟩ := (machine ℚ String).exists_run ⟨init, []⟩ coinciding
    (fun _ tr => decide (.tick_raised (.Unorderable "b" "a") ∈ tr)) (by decide +kernel)
  exact ⟨s, tr, hrun, of_decide_eq_true htest⟩

end Scheduler
