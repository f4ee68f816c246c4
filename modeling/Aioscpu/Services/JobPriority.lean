import Aioscpu.Services.JobQueue

/-! # Priorities of Jobs

  `_drain_one` runs the root of the heap, and the heap is ordered by the
  ready time before it is ordered by the priority. So a job that has become
  ready earlier runs before a more urgent one that is ready as well.

  In a run every job is started before all less urgent ready ones if and only
  if, whenever `_drain_one` is called, each ready job of the queue is no more
  urgent than some job of the queue with the least ready time.
-/

namespace JobQueue

variable {T F : Type} [Clock T]

/-- The priority law: no ready job that stays in the queue has a smaller
    priority number than the job that is started. -/
def Prioritised (tr : List (Obs T F)) : Prop :=
  ∀ job now pending, .started job now pending ∈ tr →
    ∀ other ∈ pending, other.next_run_at ≤ now → ¬ other.priority < job.priority

/-- Each ready job is no more urgent than some job with the least ready time. -/
def EarliestUrgent (s : State T F) : Label T F → Prop
  | .drain_one now _ =>
    s.jq.running = true → ∀ job ∈ s.jq.queue, job.next_run_at ≤ now →
      ∃ first ∈ s.jq.queue, (∀ other ∈ s.jq.queue, first.next_run_at ≤ other.next_run_at) ∧
        first.priority ≤ job.priority
  | _ => True

theorem prioritised_nil : Prioritised ([] : List (Obs T F)) := by
  intro job now pending hmem
  cases hmem

theorem prioritised_append (os os' : List (Obs T F)) :
    Prioritised (os ++ os') ↔ Prioritised os ∧ Prioritised os' := by
  unfold Prioritised
  simp only [List.mem_append]
  grind

/-- A step that starts no job obeys the law. -/
theorem prioritised_of_no_start {os : List (Obs T F)}
    (h : ∀ job now pending, .started job now pending ∉ os) : Prioritised os := by
  intro job now pending hmem
  exact absurd hmem (h job now pending)

/-- The root of the heap is among the earliest jobs, and it is the most
    urgent of them. -/
theorem root_earliest {s : State T F} (ho : Ordered s) {root : Job T F}
    {queue : List (Job T F)} (hpop : Heapq.pop Job.lt s.jq.queue = some (root, queue)) :
    ∀ other ∈ s.jq.queue, root.next_run_at < other.next_run_at ∨
      (root.next_run_at = other.next_run_at ∧ root.priority ≤ other.priority) := by
  intro other hmem
  have hleast := (Heapq.pop_heap Job.lt_eq ho hpop).2 other hmem
  rcases (Job.key_le_iff root other).mp hleast with hlt | ⟨heq, hlt | ⟨hpri, -⟩⟩
  · exact Or.inl hlt
  · exact Or.inr ⟨heq, le_of_lt hlt⟩
  · exact Or.inr ⟨heq, le_of_eq hpri⟩

/-- The step that starts the root obeys the law exactly under the condition. -/
theorem drain_prioritised {s : State T F} (ho : Ordered s) {root : Job T F}
    {queue : List (Job T F)} {now t0 : T} (hrunning : s.jq.running = true)
    (hpop : Heapq.pop Job.lt s.jq.queue = some (root, queue)) (hready : root.next_run_at ≤ now) :
    EarliestUrgent s (.drain_one now t0) ↔
      ∀ other ∈ queue, other.next_run_at ≤ now → ¬ other.priority < root.priority := by
  have hroot := root_earliest ho hpop
  have hmem : ∀ other, other ∈ s.jq.queue ↔ other = root ∨ other ∈ queue := by
    intro other
    rw [← (Heapq.pop_eq_some Job.lt hpop).2.mem_iff]
    exact List.mem_cons
  constructor
  · intro hcond other hother hdue
    obtain ⟨first, hfirst, hearliest, hpri⟩ :=
      hcond hrunning other ((hmem other).mpr (Or.inr hother)) hdue
    -- the root is as early as `first`, so it is at least as urgent
    have hle : root.priority ≤ first.priority := by
      rcases hroot first hfirst with hlt | ⟨-, hle⟩
      · exact absurd hlt (not_lt.mpr (hearliest root ((hmem root).mpr (Or.inl rfl))))
      · exact hle
    omega
  -- under the law the root itself is the job that is asked for
  · intro hlaw _ job hjob hdue
    refine ⟨root, (hmem root).mpr (Or.inl rfl), ?_, ?_⟩
    · intro other hother
      rcases hroot other hother with hlt | ⟨heq, -⟩
      · exact le_of_lt hlt
      · exact le_of_eq heq
    · rcases (hmem job).mp hjob with rfl | hjob
      · exact le_refl _
      · exact not_lt.mp (hlaw job hjob hdue)

/-- A call that starts nothing finds no ready job in a queue that runs. -/
theorem idle_earliest {s : State T F} (ho : Ordered s) {now t0 : T}
    (hidle : s.jq.running = true → ∀ root ∈ s.jq.queue[0]?, now < root.next_run_at) :
    EarliestUrgent s (.drain_one now t0) := by
  intro hrunning job hjob hdue
  cases hq : s.jq.queue with
  | nil => simp [hq] at hjob
  | cons root rest =>
    have hlate : now < root.next_run_at := hidle hrunning root (by simp [hq])
    obtain ⟨queue, hpop, -⟩ := Heapq.pop_cons Job.lt root rest
    rcases root_earliest ho (hq ▸ hpop) job hjob with hlt | ⟨heq, -⟩
    · exact absurd (lt_trans hlate hlt) (not_lt.mpr hdue)
    · exact absurd (heq ▸ hlate) (not_lt.mpr hdue)

/-- One step: the condition is exact. -/
theorem step_prioritised {s s' : State T F} {l : Label T F} {os : List (Obs T F)}
    (h : Step s l os s') (ho : Ordered s) : EarliestUrgent s l ↔ Prioritised os := by
  by_cases hstart : ∃ job now pending, .started job now pending ∈ os
  · obtain ⟨job, now, pending, hmem⟩ := hstart
    obtain ⟨root, t0, rfl, -, hrunning, hpop, hready, rfl, honly⟩ := step_started h hmem
    rw [drain_prioritised ho hrunning hpop hready]
    constructor
    · intro hlaw job now' pending' hmem'
      rcases honly _ hmem' with heq | ⟨e, heq⟩
      · cases heq
        exact hlaw
      · cases heq
    · intro hlaw
      exact hlaw root.begun now pending hmem
  · push Not at hstart
    refine iff_of_true ?_ (prioritised_of_no_start hstart)
    cases h with
    | drain_idle now t0 _ hidle => exact idle_earliest ho hidle
    | drain_run now t0 job queue => exact absurd (by simp) (hstart job.begun now queue)
    | _ => trivial

/-- **Priorities along a run**: the jobs are started by priority among the
    ready ones if and only if each call of `_drain_one` finds a queue in which
    no ready job is more urgent than all the jobs with the least ready time. -/
theorem prioritised_iff_earliest_urgent {event_bus scheduler : Bool} {ls : List (Label T F)}
    {s : State T F} {tr : List (Obs T F)}
    (hrun : (machine T F).run ⟨init event_bus scheduler, none⟩ ls = some (s, tr)) :
    (machine T F).Along EarliestUrgent ⟨init event_bus scheduler, none⟩ ls ↔
      Prioritised tr := by
  have hinit : Ordered (⟨init event_bus scheduler, none⟩ : State T F) := Heapq.isHeap_nil
  apply (machine T F).along_iff_trace (I := Ordered) prioritised_nil prioritised_append ?_
    hinit hrun
  intro s l s' os ho hs
  have hstep := step_sound hs
  exact ⟨step_ordered hstep ho, step_prioritised hstep ho⟩

/-- A retried job and a more urgent one that is submitted while it waits. -/
def retried : List (Label ℚ String) :=
  [.submit "a" "f" 5 3 0 "1" 0, .start, .drain_one 1 1, .fn_raises "boom" 1 1,
    .submit "b" "g" 0 3 0 "2" 2, .drain_one 3 3, .fn_returns 3, .drain_one 3 3]

theorem prioritised_iff_earliest_urgent_retried :
    ∃ s tr, (machine ℚ String).run ⟨init false false, none⟩ retried = some (s, tr) ∧
      ((machine ℚ String).Along EarliestUrgent ⟨init false false, none⟩ retried ↔
        Prioritised tr) := by
  obtain ⟨s, tr, hrun, -⟩ := (machine ℚ String).exists_run ⟨init false false, none⟩ retried
    (fun _ _ => true) (by decide +kernel)
  exact ⟨s, tr, hrun, prioritised_iff_earliest_urgent hrun⟩

/-- A background job, and a critical one that is submitted a second later;
    both are ready when the queue is drained. -/
def overtaking : List (Label ℚ String) :=
  [.submit "low" "f" 9 3 0 "1" 0, .submit "critical" "g" 0 3 0 "2" 1, .start, .drain_one 2 2]

/-- The background job is started first. -/
theorem priority_overtaken :
    ∃ s tr, (machine ℚ String).run ⟨init false false, none⟩ overtaking = some (s, tr) ∧
      ¬ Prioritised tr := by
  let low : Job ℚ String := ⟨"low", "f", 9, 3, "1", 1, 0, .running, "", 0, 1⟩
  let critical : Job ℚ String := ⟨"critical", "g", 0, 3, "2", 0, 1, .queued, "", 0, 2⟩
  obtain ⟨s, tr, hrun, htest⟩ := (machine ℚ String).exists_run ⟨init false false, none⟩
    overtaking (fun _ tr => decide (.started low 2 [critical] ∈ tr)) (by decide +kernel)
  refine ⟨s, tr, hrun, ?_⟩
  intro hlaw
  have hdue : critical.next_run_at ≤ 2 := by decide +kernel
  exact hlaw low 2 [critical] (of_decide_eq_true htest) critical (by simp) hdue (by decide)

end JobQueue
