import Aioscpu.Kernel.Scheduler

/-! # The Job Loop of the Scheduler

  The invariant of the loop in `tick`, and the order of the heaps between its steps.

  A comparison of two callables raises. Where a push does so, the entry is on the heap, and
  the heap is in order. But where the pop of a due entry does so, `tick` raises and leaves
  the last entry of the heap at its root.
-/

/-- Priority, then order of submission. -/
def TaskEntry.key {J : Type} (e : TaskEntry J) : Int ×ₗ Nat := toLex (e.priority, e.seq)

theorem TaskEntry.lt_eq {J : Type} (e f : TaskEntry J) :
    e.lt f = decide (e.key < f.key) := by
  unfold lt key
  by_cases hp : e.priority = f.priority
  · simp [hp, Prod.Lex.toLex_lt_toLex]
  · simp [hp, Prod.Lex.toLex_lt_toLex]

/-- Entries that cannot be compared have the same key. -/
theorem JobEntry.lt_follows {T J : Type} [Clock T] [DecidableEq J]
    (queue : List (JobEntry T J)) : Heapq.Follows JobEntry.key JobEntry.lt queue := by
  intro e _ f _
  by_cases hclash : e.Clash f
  · refine .inr ⟨?_, .Unorderable e.job f.job, ?_⟩
    · unfold key
      rw [hclash.1, hclash.2.1]
    · unfold lt
      simp [hclash.1, hclash.2.1, hclash.2.2]
  · exact .inl (lt_eq hclash)

namespace Scheduler

variable {T J : Type} [Clock T]

/-! ### The job loop -/

def due (now : T) (entries : List (JobEntry T J)) : List (JobEntry T J) :=
  entries.filter fun e => e.next_run ≤ now

def later (now : T) (entries : List (JobEntry T J)) : List (JobEntry T J) :=
  entries.filter fun e => ¬e.next_run ≤ now

theorem due_append (now : T) {entries entries' : List (JobEntry T J)}
    (h : ∀ e ∈ entries, e.next_run ≤ now) (h' : ∀ e ∈ entries', ¬e.next_run ≤ now) :
    due now (entries ++ entries') = entries := by
  have hself : due now entries = entries :=
    List.filter_eq_self.mpr fun e he => decide_eq_true (h e he)
  have hnil : due now entries' = [] :=
    List.filter_eq_nil_iff.mpr fun e he hdue => h' e he (of_decide_eq_true hdue)
  unfold due at hself hnil ⊢
  rw [List.filter_append, hself, hnil, List.append_nil]

theorem later_append (now : T) {entries entries' : List (JobEntry T J)}
    (h : ∀ e ∈ entries, e.next_run ≤ now) (h' : ∀ e ∈ entries', ¬e.next_run ≤ now) :
    later now (entries ++ entries') = entries' := by
  have hnil : later now entries = [] :=
    List.filter_eq_nil_iff.mpr fun e he hlater => of_decide_eq_true hlater (h e he)
  have hself : later now entries' = entries' :=
    List.filter_eq_self.mpr fun e he => decide_eq_true (h' e he)
  unfold later at hself hnil ⊢
  rw [List.filter_append, hself, hnil, List.nil_append]

/-- Of the entries `all`, those of `ran` have run, the last of them is `pending` where it has
    not returned, and the heap has the others and the new entries of those that have. -/
structure Clean (now : T) (all ran queue pending : List (JobEntry T J))
    (returned rest : List (JobEntry T J)) : Prop where
  ran_perm : ran.Perm (pending ++ returned)
  all_perm : all.Perm (ran ++ rest)
  queue_perm : queue.Perm (rest ++ returned.map (reschedule · now))
  ran_due : ∀ e ∈ ran, e.next_run ≤ now
  advanced : ∀ e ∈ returned, now < (reschedule e now).next_run

/-- An entry is due again after each of its runs. -/
def Stuck (now : T) (queue pending : List (JobEntry T J)) : Prop :=
  ∃ e ∈ pending ++ queue, e.next_run ≤ now ∧ (reschedule e now).next_run ≤ now

/-- The invariant of the loop. Where the clock does not advance by an interval, the loop
    does not end. -/
def Loop (now : T) (all ran queue pending : List (JobEntry T J)) : Prop :=
  Stuck now queue pending ∨ ∃ returned rest, Clean now all ran queue pending returned rest

theorem loop_start (now : T) {all queue : List (JobEntry T J)} (h : queue.Perm all) :
    Loop now all [] queue [] := by
  refine .inr ⟨[], all, .refl _, .refl _, ?_, ?_, ?_⟩
  · simpa using h
  · simp
  · simp

theorem loop_schedule {now : T} {all ran queue queue' pending : List (JobEntry T J)}
    {e : JobEntry T J} (h : Loop now all ran queue pending) (hpush : queue'.Perm (e :: queue)) :
    Loop now (all ++ [e]) ran queue' pending := by
  rcases h with ⟨f, hf, hdue⟩ | ⟨returned, rest, h⟩
  · refine .inl ⟨f, ?_, hdue⟩
    rcases List.mem_append.mp hf with hf | hf
    · exact List.mem_append_left _ hf
    · exact List.mem_append_right _ (hpush.mem_iff.mpr (List.mem_cons_of_mem _ hf))
  · refine .inr ⟨returned, e :: rest, h.ran_perm, ?_, ?_, h.ran_due, h.advanced⟩
    · calc (all ++ [e]).Perm (e :: all) := List.perm_append_singleton e all
        List.Perm _ (e :: (ran ++ rest)) := h.all_perm.cons e
        List.Perm _ (ran ++ e :: rest) := List.perm_middle.symm
    · exact hpush.trans (h.queue_perm.cons e)

/-- The entry that is popped has not run before. -/
theorem loop_pop [DecidableEq J] {now : T} {all ran queue queue' : List (JobEntry T J)}
    {e : JobEntry T J} (h : Loop now all ran queue []) (hpop : queue.Perm (e :: queue'))
    (hdue : e.next_run ≤ now) : Loop now all (ran ++ [e]) queue' [e] := by
  rcases h with ⟨f, hf, hstuck⟩ | ⟨returned, rest, h⟩
  · exact .inl ⟨f, hpop.mem_iff.mp hf, hstuck⟩
  · -- an entry that was put back is not due, so this one is among the others
    have hmem : e ∈ rest := by
      rcases List.mem_append.mp (h.queue_perm.mem_iff.mp (hpop.mem_iff.mpr List.mem_cons_self))
        with hmem | hmem
      · exact hmem
      · obtain ⟨f, hf, rfl⟩ := List.mem_map.mp hmem
        exact absurd hdue (not_le_of_gt (h.advanced f hf))
    have hrest := List.perm_cons_erase hmem
    refine .inr ⟨returned, rest.erase e, ?_, ?_, ?_, ?_, h.advanced⟩
    · exact (List.perm_append_singleton e ran).trans (h.ran_perm.cons e)
    · calc all.Perm (ran ++ rest) := h.all_perm
        List.Perm _ (ran ++ e :: rest.erase e) := hrest.append_left ran
        List.Perm _ (ran ++ [e] ++ rest.erase e) := by simp
    · refine List.Perm.cons_inv (a := e) ?_
      exact hpop.symm.trans (h.queue_perm.trans (hrest.append_right _))
    · intro f hf
      rcases List.mem_append.mp hf with hf | hf
      · exact h.ran_due f hf
      · rw [List.mem_singleton.mp hf]
        exact hdue

theorem loop_done {now : T} {all ran queue queue' : List (JobEntry T J)} {e : JobEntry T J}
    (h : Loop now all ran queue [e]) (hpush : queue'.Perm (reschedule e now :: queue)) :
    Loop now all ran queue' [] := by
  have hnew : reschedule e now ∈ queue' := hpush.mem_iff.mpr List.mem_cons_self
  rcases h with ⟨f, hf, hdue, hstuck⟩ | ⟨returned, rest, h⟩
  · rcases List.mem_cons.mp hf with rfl | hf
    · -- the new entry has the same interval, so the next one is due too
      exact .inl ⟨reschedule f now, hnew, hstuck, hstuck⟩
    · exact .inl ⟨f, hpush.mem_iff.mpr (List.mem_cons_of_mem _ hf), hdue, hstuck⟩
  · by_cases hstuck : (reschedule e now).next_run ≤ now
    · exact .inl ⟨reschedule e now, hnew, hstuck, hstuck⟩
    · -- the entry is put back for a time after `now`
      refine .inr ⟨e :: returned, rest, h.ran_perm, h.all_perm, ?_, h.ran_due, ?_⟩
      · exact hpush.trans ((h.queue_perm.cons _).trans List.perm_middle.symm)
      · intro f hf
        rcases List.mem_cons.mp hf with rfl | hf
        · exact lt_of_not_ge hstuck
        · exact h.advanced f hf

/-- When nothing on the heap is due, exactly the due entries have run. -/
theorem loop_end {now : T} {all ran queue : List (JobEntry T J)}
    (h : Loop now all ran queue []) (hlater : ∀ e ∈ queue, now < e.next_run) :
    ran.Perm (due now all) ∧
      queue.Perm (later now all ++ (due now all).map (reschedule · now)) := by
  rcases h with ⟨e, he, hdue, -⟩ | ⟨returned, rest, h⟩
  · exact absurd hdue (not_le_of_gt (hlater e he))
  · have hrest : ∀ e ∈ rest, ¬e.next_run ≤ now := by
      intro e he
      exact not_le_of_gt (hlater e (h.queue_perm.mem_iff.mpr (List.mem_append_left _ he)))
    have hdue : ran.Perm (due now all) := by
      have hall := h.all_perm.filter fun e => decide (e.next_run ≤ now)
      change (due now all).Perm (due now (ran ++ rest)) at hall
      rw [due_append now h.ran_due hrest] at hall
      exact hall.symm
    have hnot : rest.Perm (later now all) := by
      have hall := h.all_perm.filter fun e => decide (¬e.next_run ≤ now)
      change (later now all).Perm (later now (ran ++ rest)) at hall
      rw [later_append now h.ran_due hrest] at hall
      exact hall.symm
    refine ⟨hdue, h.queue_perm.trans (hnot.append ?_)⟩
    exact (h.ran_perm.symm.trans hdue).map _

/-! ### States between the steps -/

/-- The heaps are in order, and no two tasks have one place in the order of submission. -/
structure Sound (s : Scheduler T J) : Prop where
  jobs : Heapq.IsHeap JobEntry.key s.job_queue
  tasks : Heapq.IsHeap TaskEntry.key s.task_queue
  seqs : (s.task_queue.map TaskEntry.seq).Nodup
  counted : ∀ e ∈ s.task_queue, e.seq ≤ s.task_counter

theorem sound_init : Sound (init : Scheduler T J) :=
  ⟨Heapq.isHeap_nil, Heapq.isHeap_nil, List.nodup_nil, by simp [init]⟩

theorem submit_task_sound {s : Scheduler T J} (h : Sound s) (task : Arg J) (priority : Int) :
    Sound (s.submit_task task priority).2 := by
  cases task with
  | other type => exact h
  | callable j =>
    have hperm := Heapq.push_perm TaskEntry.lt s.task_queue ⟨priority, s.task_counter + 1, j⟩
    refine ⟨h.jobs, Heapq.push_heap TaskEntry.lt_eq h.tasks, ?_, ?_⟩
    · refine (hperm.map TaskEntry.seq).nodup_iff.mpr (List.nodup_cons.mpr ⟨?_, h.seqs⟩)
      intro hmem
      obtain ⟨e, he, hseq⟩ := List.mem_map.mp hmem
      have hle := h.counted e he
      have heq : e.seq = s.task_counter + 1 := hseq
      omega
    · intro e he
      show e.seq ≤ s.task_counter + 1
      rcases List.mem_cons.mp (hperm.mem_iff.mp he) with rfl | he
      · exact Nat.le_refl _
      · exact Nat.le_succ_of_le (h.counted e he)

variable [DecidableEq J]

omit [DecidableEq J] in
theorem with_jobs_sound {s : Scheduler T J} (h : Sound s) {queue : List (JobEntry T J)}
    (hqueue : Heapq.IsHeap JobEntry.key queue) : Sound { s with job_queue := queue } :=
  ⟨hqueue, h.tasks, h.seqs, h.counted⟩

theorem push_job_sound {s : Scheduler T J} (h : Sound s) (e : JobEntry T J) :
    Sound { s with job_queue := (Heapq.heappush JobEntry.lt s.job_queue e).2 } :=
  with_jobs_sound h (Heapq.heappush_keeps (JobEntry.lt_follows _) h.jobs)

theorem schedule_job_sound {s : Scheduler T J} (h : Sound s) (job : Arg J) (interval_ms : Int)
    (now : T) : Sound (s.schedule_job job interval_ms now).2 := by
  cases job with
  | other type => exact h
  | callable j =>
    unfold schedule_job
    dsimp only
    split
    · exact h
    · exact push_job_sound h _

omit [DecidableEq J] in
theorem tick_sound {s : Scheduler T J} (h : Sound s) (frames : List (Frame T J)) :
    Sound (tick s frames).1.sched := by
  unfold tick
  cases hpop : Heapq.pop TaskEntry.lt s.task_queue with
  | none => exact h
  | some r =>
    obtain ⟨entry, queue⟩ := r
    obtain ⟨-, hperm⟩ := Heapq.pop_eq_some TaskEntry.lt hpop
    have hseqs := (hperm.map TaskEntry.seq).nodup_iff.mpr h.seqs
    refine ⟨h.jobs, (Heapq.pop_heap TaskEntry.lt_eq h.tasks hpop).1, (List.nodup_cons.mp hseqs).2,
      ?_⟩
    intro e he
    exact h.counted e (hperm.mem_iff.mp (List.mem_cons_of_mem _ he))

/-- The pop of the job heap raises. -/
def pop_raises (queue : List (JobEntry T J)) : Bool :=
  match Heapq.heappop JobEntry.lt queue with
  | some (.error _, _) => true
  | _ => false

theorem advance_sound {s : Scheduler T J} (h : Sound s) (frames : List (Frame T J)) (ran : Nat)
    (now : T) (hpop : ∀ front rest, s.job_queue = front :: rest → front.next_run ≤ now →
      pop_raises (front :: rest) = false) :
    Sound (advance s frames ran now).1.sched := by
  unfold advance
  cases hqueue : s.job_queue with
  | nil => exact h
  | cons front rest =>
    dsimp only
    split
    · next hdue =>
      have hheap := h.jobs
      rw [hqueue] at hheap
      have hraises := hpop front rest hqueue hdue
      unfold pop_raises at hraises
      cases hentry : Heapq.heappop JobEntry.lt (front :: rest) with
      | none => exact h
      | some r =>
        obtain ⟨r, queue⟩ := r
        cases r with
        | error err =>
          rw [hentry] at hraises
          cases hraises
        | ok entry =>
          exact with_jobs_sound h (Heapq.heappop_keeps (JobEntry.lt_follows _) hheap hentry)
    · exact h

theorem job_done_sound {s : Scheduler T J} (h : Sound s) (frames : List (Frame T J)) (ran : Nat)
    (now : T) (entry : JobEntry T J) (raised : Bool) :
    Sound (job_done s frames ran now entry raised).1.sched := by
  have hpush := push_job_sound h (reschedule entry now)
  unfold job_done
  generalize Heapq.heappush JobEntry.lt s.job_queue (reschedule entry now) = r at hpush ⊢
  obtain ⟨_ | _, queue⟩ := r
  · exact hpush
  · exact hpush

/-- The step pops a due job, and the pop raises. -/
def raising_pop (s : State T J) : Label T J → Bool
  | .advance =>
    match s.frames, s.sched.job_queue with
    | .at_loop _ now :: _, front :: rest =>
      decide (front.next_run ≤ now) && pop_raises (front :: rest)
    | _, _ => false
  | _ => false

/-- The pop of a due job, if the step makes one, does not raise. -/
def PopsDefined (s : State T J) (l : Label T J) : Prop := raising_pop s l = false

instance (s : State T J) (l : Label T J) : Decidable (PopsDefined s l) :=
  inferInstanceAs (Decidable (_ = _))

theorem step_sound {s s' : State T J} {l : Label T J} {os : List (Obs T J)}
    (h : Sound s.sched) (hpop : PopsDefined s l) (hstep : (machine T J).step s l = some (s', os)) :
    Sound s'.sched := by
  cases l with
  | submit_task task priority =>
    simp only [machine] at hstep
    split at hstep
    · cases hstep
      exact submit_task_sound h task priority
    · cases hstep
  | schedule_job job interval_ms now =>
    simp only [machine] at hstep
    split at hstep
    · cases hstep
      exact schedule_job_sound h job interval_ms now
    · cases hstep
  | tick =>
    simp only [machine] at hstep
    split at hstep
    · have hsound := tick_sound h s.frames
      rw [Option.some.inj hstep] at hsound
      exact hsound
    · cases hstep
  | done raised =>
    simp only [machine] at hstep
    split at hstep
    · cases hstep
      exact h
    · next ran now entry frames hframes =>
      have hsound := job_done_sound h frames ran now entry raised
      rw [Option.some.inj hstep] at hsound
      exact hsound
    · cases hstep
  | clock now =>
    simp only [machine] at hstep
    split at hstep
    · cases hstep
      exact h
    · cases hstep
  | advance =>
    simp only [machine] at hstep
    split at hstep
    · next ran now frames hframes =>
      have hsound := advance_sound h frames ran now fun front rest hqueue hdue => by
        unfold PopsDefined raising_pop at hpop
        rw [hframes, hqueue] at hpop
        simpa [hdue] using hpop
      rw [Option.some.inj hstep] at hsound
      exact hsound
    · cases hstep

theorem run_sound {s₀ s : State T J} {ls : List (Label T J)} {tr : List (Obs T J)}
    (h : Sound s₀.sched) (hpops : (machine T J).Along PopsDefined s₀ ls)
    (hrun : (machine T J).run s₀ ls = some (s, tr)) : Sound s.sched :=
  (machine T J).run_induction_along (P := fun _ s _ => Sound s.sched) h
    (fun _ _ _ _ _ _ _ hs hpop hstep => step_sound hs hpop hstep) hpops hrun

end Scheduler
