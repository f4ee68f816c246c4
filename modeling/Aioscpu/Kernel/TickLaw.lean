import Aioscpu.Kernel.TickLoop
import Mathlib.Algebra.Order.Ring.Unbundled.Rat
import Mathlib.Data.List.Nodup

/-! # What a Tick Does

  A complete call of `tick` runs the most urgent task and all jobs that are due, each once,
  and loses nothing, as long as no pop has raised before: the heap is in order then.
-/

namespace Scheduler

variable {T J : Type}

/-! ### What happens in a tick -/

/-- The priorities and tasks of the calls of `submit_task`. -/
def submissions (ls : List (Label T J)) : List (Int × J) :=
  ls.filterMap fun
    | .submit_task (.callable j) priority => some (priority, j)
    | _ => none

/-- The entries of these calls. -/
def submitted (counter : Nat) (ls : List (Label T J)) : List (TaskEntry J) :=
  ((submissions ls).zipIdx (counter + 1)).map fun r => ⟨r.1.1, r.2, r.1.2⟩

/-- The readings of the clock by `tick`. -/
def tick_readings (ls : List (Label T J)) : List T :=
  ls.filterMap fun
    | .clock now => some now
    | _ => none

def tasks_run (os : List (Obs T J)) : List (TaskEntry J) :=
  os.filterMap fun
    | .task_started entry => some entry
    | _ => none

def jobs_run (os : List (Obs T J)) : List (JobEntry T J) :=
  os.filterMap fun
    | .job_started entry _ => some entry
    | _ => none

theorem submissions_append (ls ls' : List (Label T J)) :
    submissions (ls ++ ls') = submissions ls ++ submissions ls' := List.filterMap_append

theorem submitted_append (counter : Nat) (ls ls' : List (Label T J)) :
    submitted counter (ls ++ ls') =
      submitted counter ls ++ submitted (counter + (submissions ls).length) ls' := by
  unfold submitted
  rw [submissions_append, List.zipIdx_append, List.map_append]
  congr 3
  omega

theorem tick_readings_append (ls ls' : List (Label T J)) :
    tick_readings (ls ++ ls') = tick_readings ls ++ tick_readings ls' := List.filterMap_append

theorem tasks_run_append (os os' : List (Obs T J)) :
    tasks_run (os ++ os') = tasks_run os ++ tasks_run os' := List.filterMap_append

theorem jobs_run_append (os os' : List (Obs T J)) :
    jobs_run (os ++ os') = jobs_run os ++ jobs_run os' := List.filterMap_append

theorem callObs_run (r : Except (SchedulerError J) Unit) :
    tasks_run (callObs r : List (Obs T J)) = [] ∧ jobs_run (callObs r : List (Obs T J)) = [] := by
  cases r with
  | ok u => exact ⟨rfl, rfl⟩
  | error err => exact ⟨rfl, rfl⟩

variable [Clock T]

/-- The entries that the calls of `schedule_job` put on the heap, also where the push then
    raises. -/
def scheduled (ls : List (Label T J)) : List (JobEntry T J) :=
  ls.filterMap fun
    | .schedule_job (.callable j) interval_ms now =>
      if interval_ms < 1 then none else some ⟨now + Clock.ofMillis interval_ms, interval_ms, j⟩
    | _ => none

theorem scheduled_append (ls ls' : List (Label T J)) :
    scheduled (ls ++ ls') = scheduled ls ++ scheduled ls' := List.filterMap_append

/-! ### A tick that is active -/

/-- The jobs of a call of `tick` that stands at the frame: `all` is what has been on the heap
    since the call. -/
def AtFrame (all : List (JobEntry T J)) (readings : List T) (ran queue : List (JobEntry T J)) :
    Frame T J → Prop
  | .in_task _ => readings = [] ∧ ran = [] ∧ queue.Perm all
  | .at_clock _ => readings = [] ∧ ran = [] ∧ queue.Perm all
  | .at_loop _ now => readings = [now] ∧ Loop now all ran queue []
  | .in_job _ now entry => readings = [now] ∧ Loop now all ran queue [entry]

theorem AtFrame.append_nil {all ran queue : List (JobEntry T J)} {readings : List T}
    {frame : Frame T J} (h : AtFrame all readings ran queue frame) :
    AtFrame (all ++ []) (readings ++ []) (ran ++ []) queue frame := by
  rw [List.append_nil, List.append_nil, List.append_nil]
  exact h

theorem AtFrame.schedule {all ran queue queue' : List (JobEntry T J)} {readings : List T}
    {frame : Frame T J} {e : JobEntry T J} (h : AtFrame all readings ran queue frame)
    (hpush : queue'.Perm (e :: queue)) : AtFrame (all ++ [e]) readings ran queue' frame := by
  have hperm : queue.Perm all → queue'.Perm (all ++ [e]) := fun hall =>
    hpush.trans ((hall.cons e).trans (List.perm_append_singleton e all).symm)
  cases frame with
  | in_task entry => exact ⟨h.1, h.2.1, hperm h.2.2⟩
  | at_clock ran => exact ⟨h.1, h.2.1, hperm h.2.2⟩
  | at_loop ran now => exact ⟨h.1, loop_schedule h.2 hpush⟩
  | in_job ran now entry => exact ⟨h.1, loop_schedule h.2 hpush⟩

/-- A call of `tick` that found the scheduler as `before`, took the task of `first`, and is
    active. -/
structure Running (before : Scheduler T J) (first : List (TaskEntry J)) (ls : List (Label T J))
    (os : List (Obs T J)) (s : State T J) : Prop where
  sound : Sound s.sched
  tasks : tasks_run os = first
  kept : (first ++ s.sched.task_queue).Perm
    (before.task_queue ++ submitted before.task_counter ls)
  counter : s.sched.task_counter = before.task_counter + (submissions ls).length
  frame : ∃ frame, s.frames = [frame] ∧ AtFrame (before.job_queue ++ scheduled ls)
    (tick_readings ls) (jobs_run os) s.sched.job_queue frame

variable {before : Scheduler T J} {first : List (TaskEntry J)} {ls : List (Label T J)}
  {os os' : List (Obs T J)} {s s' : State T J}

/-- One more label, given what it adds to the tasks. -/
theorem Running.snoc (h : Running before first ls os s) {l : Label T J} (hsound : Sound s'.sched)
    (htasks : tasks_run os' = [])
    (hqueue : s'.sched.task_queue.Perm (s.sched.task_queue ++ submitted s.sched.task_counter [l]))
    (hcounter : s'.sched.task_counter = s.sched.task_counter + (submissions [l]).length)
    (hframe : ∃ frame, s'.frames = [frame] ∧
      AtFrame (before.job_queue ++ scheduled ls ++ scheduled [l])
        (tick_readings ls ++ tick_readings [l]) (jobs_run os ++ jobs_run os')
        s'.sched.job_queue frame) :
    Running before first (ls ++ [l]) (os ++ os') s' := by
  refine ⟨hsound, ?_, ?_, ?_, ?_⟩
  · rw [tasks_run_append, htasks, List.append_nil, h.tasks]
  · rw [submitted_append, ← h.counter, ← List.append_assoc]
    calc (first ++ s'.sched.task_queue).Perm
          (first ++ (s.sched.task_queue ++ submitted s.sched.task_counter [l])) :=
        hqueue.append_left first
      List.Perm _ ((first ++ s.sched.task_queue) ++ submitted s.sched.task_counter [l]) := by
        rw [List.append_assoc]
      List.Perm _ _ := h.kept.append_right _
  · rw [submissions_append, List.length_append, hcounter, h.counter, Nat.add_assoc]
  · rw [scheduled_append, tick_readings_append, jobs_run_append, ← List.append_assoc]
    exact hframe

/-- A label that submits no task. -/
theorem Running.snoc_same (h : Running before first ls os s) {l : Label T J}
    (hsound : Sound s'.sched) (htasks : tasks_run os' = [])
    (hqueue : s'.sched.task_queue = s.sched.task_queue)
    (hcounter : s'.sched.task_counter = s.sched.task_counter) (hl : submissions [l] = [])
    (hframe : ∃ frame, s'.frames = [frame] ∧
      AtFrame (before.job_queue ++ scheduled ls ++ scheduled [l])
        (tick_readings ls ++ tick_readings [l]) (jobs_run os ++ jobs_run os')
        s'.sched.job_queue frame) :
    Running before first (ls ++ [l]) (os ++ os') s' := by
  have hsubmitted : submitted s.sched.task_counter [l] = [] := by
    unfold submitted
    rw [hl]
    rfl
  refine h.snoc hsound htasks ?_ ?_ hframe
  · rw [hqueue, hsubmitted, List.append_nil]
  · rw [hcounter, hl]
    rfl

variable [DecidableEq J]

theorem running_submit_task (h : Running before first ls os s) {task : Arg J} {priority : Int}
    (hstep : (machine T J).step s (.submit_task task priority) = some (s', os')) :
    Running before first (ls ++ [.submit_task task priority]) (os ++ os') s' := by
  have hsound := step_sound h.sound (rfl : PopsDefined s (.submit_task task priority)) hstep
  simp only [machine] at hstep
  split at hstep
  · cases hstep
    obtain ⟨htasks, hjobs⟩ := callObs_run (T := T) (s.sched.submit_task task priority).1
    have hqueue : (s.sched.submit_task task priority).2.job_queue = s.sched.job_queue := by
      cases task <;> rfl
    obtain ⟨frame, hframe, hat⟩ := h.frame
    have hframe' : ∃ frame, s.frames = [frame] ∧
        AtFrame (before.job_queue ++ scheduled ls ++ []) (tick_readings ls ++ [])
          (jobs_run os ++ jobs_run (callObs (s.sched.submit_task task priority).1))
          (s.sched.submit_task task priority).2.job_queue frame := by
      rw [hjobs, hqueue]
      exact ⟨frame, hframe, hat.append_nil⟩
    cases task with
    | other type => exact h.snoc_same hsound htasks rfl rfl rfl hframe'
    | callable j =>
      refine h.snoc hsound htasks ?_ rfl hframe'
      exact (Heapq.push_perm TaskEntry.lt _ _).trans (List.perm_append_singleton _ _).symm
  · cases hstep

theorem running_schedule_job (h : Running before first ls os s) {job : Arg J} {interval_ms : Int}
    {now : T}
    (hstep : (machine T J).step s (.schedule_job job interval_ms now) = some (s', os')) :
    Running before first (ls ++ [.schedule_job job interval_ms now]) (os ++ os') s' := by
  have hsound := step_sound h.sound (rfl : PopsDefined s (.schedule_job job interval_ms now)) hstep
  simp only [machine] at hstep
  split at hstep
  · cases hstep
    obtain ⟨htasks, hjobs⟩ := callObs_run (T := T) (s.sched.schedule_job job interval_ms now).1
    obtain ⟨frame, hframe, hat⟩ := h.frame
    cases job with
    | other type =>
      refine h.snoc_same hsound htasks rfl rfl rfl ⟨frame, hframe, ?_⟩
      rw [hjobs]
      exact hat.append_nil
    | callable j =>
      by_cases hlow : interval_ms < 1
      · have hsame : (s.sched.schedule_job (.callable j) interval_ms now).2 = s.sched := by
          unfold schedule_job
          dsimp only
          rw [if_pos hlow]
        refine h.snoc_same hsound htasks (by rw [hsame]) (by rw [hsame]) rfl ⟨frame, hframe, ?_⟩
        have hnone : scheduled [Label.schedule_job (.callable j) interval_ms now] = [] := by
          simp [scheduled, hlow]
        rw [hjobs, hsame, hnone]
        exact hat.append_nil
      · have hsched : (s.sched.schedule_job (.callable j) interval_ms now).2 =
            { s.sched with job_queue := (Heapq.heappush JobEntry.lt s.sched.job_queue
              ⟨now + Clock.ofMillis interval_ms, interval_ms, j⟩).2 } := by
          unfold schedule_job
          dsimp only
          rw [if_neg hlow]
        have hentry : scheduled [Label.schedule_job (.callable j) interval_ms now] =
            [⟨now + Clock.ofMillis interval_ms, interval_ms, j⟩] := by
          simp [scheduled, hlow]
        refine h.snoc_same hsound htasks (by rw [hsched]) (by rw [hsched]) rfl ⟨frame, hframe, ?_⟩
        rw [hjobs, hsched, hentry]
        -- the entry is on the heap, whether or not the push raised
        have hat' := (hat.schedule (Heapq.heappush_perm JobEntry.lt s.sched.job_queue
          ⟨now + Clock.ofMillis interval_ms, interval_ms, j⟩)).append_nil
        rw [List.append_nil] at hat'
        exact hat'
  · cases hstep

theorem running_clock (h : Running before first ls os s) {now : T}
    (hstep : (machine T J).step s (.clock now) = some (s', os')) :
    Running before first (ls ++ [.clock now]) (os ++ os') s' := by
  have hsound := step_sound h.sound (rfl : PopsDefined s (.clock now)) hstep
  obtain ⟨frame, hframe, hat⟩ := h.frame
  simp only [machine, hframe] at hstep
  cases frame with
  | at_clock ran =>
    cases hstep
    refine h.snoc_same hsound rfl rfl rfl rfl ⟨.at_loop ran now, rfl, ?_⟩
    obtain ⟨hreadings, hran, hperm⟩ := hat
    rw [hreadings, hran]
    exact ⟨rfl, (List.append_nil _).symm ▸ loop_start now hperm⟩
  | in_task entry => cases hstep
  | at_loop ran now' => cases hstep
  | in_job ran now' entry => cases hstep

theorem running_done (h : Running before first ls os s) {raised : Bool}
    (hstep : (machine T J).step s (.done raised) = some (s', os')) :
    s'.frames = [] ∨ Running before first (ls ++ [.done raised]) (os ++ os') s' := by
  have hsound := step_sound h.sound (rfl : PopsDefined s (.done raised)) hstep
  obtain ⟨frame, hframe, hat⟩ := h.frame
  simp only [machine, hframe] at hstep
  cases frame with
  | in_task entry =>
    cases hstep
    refine .inr (h.snoc_same hsound rfl rfl rfl rfl ⟨.at_clock (if raised then 0 else 1), rfl, ?_⟩)
    have hat' : AtFrame (before.job_queue ++ scheduled ls) (tick_readings ls) (jobs_run os)
        s.sched.job_queue (.at_clock (if raised then 0 else 1)) := hat
    exact hat'.append_nil
  | in_job ran now entry =>
    have hperm := Heapq.heappush_perm JobEntry.lt s.sched.job_queue (reschedule entry now)
    simp only [Option.some.injEq] at hstep
    unfold job_done at hstep
    generalize Heapq.heappush JobEntry.lt s.sched.job_queue (reschedule entry now) = r
      at hperm hstep
    obtain ⟨_ | _, queue⟩ := r
    · -- the exception leaves `tick`
      cases hstep
      exact .inl rfl
    · cases hstep
      have hat' : AtFrame (before.job_queue ++ scheduled ls) (tick_readings ls) (jobs_run os)
          queue (.at_loop (if raised then ran else ran + 1) now) :=
        ⟨hat.1, loop_done hat.2 hperm⟩
      exact .inr (h.snoc_same hsound rfl rfl rfl rfl ⟨_, rfl, hat'.append_nil⟩)
  | at_clock ran => cases hstep
  | at_loop ran now => cases hstep

theorem running_advance (h : Running before first ls os s)
    (hstep : (machine T J).step s .advance = some (s', os')) :
    s'.frames = [] ∨ Running before first (ls ++ [.advance]) (os ++ os') s' := by
  obtain ⟨frame, hframe, hat⟩ := h.frame
  have hstep' := hstep
  simp only [machine, hframe] at hstep
  cases frame with
  | at_loop ran now =>
    simp only [Option.some.injEq] at hstep
    unfold advance at hstep
    cases hqueue : s.sched.job_queue with
    | nil =>
      rw [hqueue] at hstep
      cases hstep
      exact .inl rfl
    | cons front rest =>
      rw [hqueue] at hstep
      dsimp only at hstep
      split at hstep
      · next hdue =>
        cases hpop : Heapq.heappop JobEntry.lt (front :: rest) with
        | none =>
          rw [hpop] at hstep
          cases hstep
          exact .inl rfl
        | some r =>
          obtain ⟨r, queue⟩ := r
          rw [hpop] at hstep
          cases r with
          | error err =>
            cases hstep
            exact .inl rfl
          | ok entry =>
            have hdefined : PopsDefined s .advance := by
              unfold PopsDefined raising_pop pop_raises
              rw [hframe, hqueue]
              dsimp only
              rw [hpop, Bool.and_false]
            have hsound := step_sound h.sound hdefined hstep'
            obtain ⟨hperm, hroot⟩ := Heapq.heappop_perm hpop
            obtain rfl := hroot entry rfl
            cases hstep
            refine .inr (h.snoc_same hsound rfl rfl rfl rfl ⟨.in_job ran now entry, rfl, ?_⟩)
            obtain ⟨hreadings, hloop⟩ := hat
            rw [hqueue] at hloop
            have hloop' := loop_pop hloop (hperm.symm.cons entry) hdue
            rw [hreadings]
            exact ⟨rfl, (List.append_nil _).symm ▸ hloop'⟩
      · cases hstep
        exact .inl rfl
  | in_task entry => cases hstep
  | at_clock ran => cases hstep
  | in_job ran now entry => cases hstep

/-- A step of an active call, where its callables do not call `tick`, ends the call or leaves it
    active. -/
theorem running_step (h : Running before first ls os s) {l : Label T J} (hl : l ≠ .tick)
    (hstep : (machine T J).step s l = some (s', os')) :
    s'.frames = [] ∨ Running before first (ls ++ [l]) (os ++ os') s' := by
  cases l with
  | submit_task task priority => exact .inr (running_submit_task h hstep)
  | schedule_job job interval_ms now => exact .inr (running_schedule_job h hstep)
  | tick => exact absurd rfl hl
  | done raised => exact running_done h hstep
  | clock now => exact .inr (running_clock h hstep)
  | advance => exact running_advance h hstep

theorem idle_step (h : s.frames = []) {l : Label T J} (hl : l ≠ .tick)
    (hstep : (machine T J).step s l = some (s', os)) : s'.frames = [] := by
  cases l with
  | tick => exact absurd rfl hl
  | submit_task task priority =>
    simp only [machine] at hstep
    split at hstep
    · cases hstep
      exact h
    · cases hstep
  | schedule_job job interval_ms now =>
    simp only [machine] at hstep
    split at hstep
    · cases hstep
      exact h
    · cases hstep
  | done raised =>
    simp only [machine, h] at hstep
    cases hstep
  | clock now =>
    simp only [machine, h] at hstep
    cases hstep
  | advance =>
    simp only [machine, h] at hstep
    cases hstep

theorem running_run {ls₀ : List (Label T J)} {os₀ : List (Obs T J)}
    (h : Running before first ls₀ os₀ s) (hno : .tick ∉ ls)
    (hrun : (machine T J).run s ls = some (s', os)) :
    s'.frames = [] ∨ Running before first (ls₀ ++ ls) (os₀ ++ os) s' := by
  refine (machine T J).run_induction
    (P := fun ls s' os => .tick ∉ ls → s'.frames = [] ∨
      Running before first (ls₀ ++ ls) (os₀ ++ os) s') ?_ ?_ hrun hno
  · intro _
    rw [List.append_nil, List.append_nil]
    exact .inr h
  · intro ls t tr l t' os' _ ih hstep hno
    have hl : l ≠ .tick := by
      rintro rfl
      exact hno (List.mem_append_right _ (List.mem_singleton_self _))
    rcases ih fun hmem => hno (List.mem_append_left _ hmem) with hidle | hrunning
    · exact .inl (idle_step hidle hl hstep)
    · rw [← List.append_assoc, ← List.append_assoc]
      exact running_step hrunning hl hstep

/-! ### The task -/

/-- The task that `tick` takes from the queue comes before all others of it. -/
structure FirstTask (queue first : List (TaskEntry J)) : Prop where
  none : queue = [] → first = []
  least : queue ≠ [] → ∃ e ∈ queue, first = [e] ∧ ∀ f ∈ queue, f ≠ e → e.key < f.key

theorem running_start (hsound : Sound s.sched) (hidle : s.frames = [])
    (hstep : (machine T J).step s .tick = some (s', os)) :
    ∃ first, FirstTask s.sched.task_queue first ∧ Running s.sched first [] os s' := by
  simp only [machine] at hstep
  split at hstep
  · have hsound' := tick_sound hsound s.frames
    rw [Option.some.inj hstep] at hsound'
    rw [hidle] at hstep
    simp only [Option.some.injEq] at hstep
    have hperm : s.sched.job_queue.Perm (s.sched.job_queue ++ []) := by rw [List.append_nil]
    unfold tick at hstep
    cases hpop : Heapq.pop TaskEntry.lt s.sched.task_queue with
    | none =>
      rw [hpop] at hstep
      cases hstep
      have hempty := Heapq.pop_eq_none TaskEntry.lt hpop
      refine ⟨[], ⟨fun _ => rfl, fun hne => absurd hempty hne⟩, hsound', rfl, ?_, rfl,
        .at_clock 0, rfl, rfl, rfl, hperm⟩
      show s.sched.task_queue.Perm (s.sched.task_queue ++ [])
      rw [List.append_nil]
    | some r =>
      obtain ⟨entry, queue⟩ := r
      rw [hpop] at hstep
      cases hstep
      obtain ⟨-, htasks⟩ := Heapq.pop_eq_some TaskEntry.lt hpop
      have hle := (Heapq.pop_heap TaskEntry.lt_eq hsound.tasks hpop).2
      have hmem : entry ∈ s.sched.task_queue := htasks.mem_iff.mp List.mem_cons_self
      refine ⟨[entry], ⟨?_, ?_⟩, hsound', rfl, ?_, rfl, .in_task entry, rfl, rfl, rfl,
        hperm⟩
      · intro hempty
        rw [hempty] at hmem
        cases hmem
      · refine fun _ => ⟨entry, hmem, rfl, fun f hf hne => lt_of_le_of_ne (hle f hf) ?_⟩
        intro hkey
        -- no two tasks have one place in the order of submission
        have hseq : entry.seq = f.seq := congrArg (fun k => (ofLex k).2) hkey
        exact hne (List.inj_on_of_nodup_map hsound.seqs hmem hf hseq).symm
      · show (entry :: queue).Perm (s.sched.task_queue ++ [])
        rw [List.append_nil]
        exact htasks
  · cases hstep

/-! ### The law of a tick -/

/-- The intervals and callables of jobs. -/
def pairs (entries : List (JobEntry T J)) : List (Int × J) :=
  entries.map fun e => (e.interval_ms, e.job)

omit [DecidableEq J] in
/-- The new entry of a job is for the same job. -/
theorem pairs_due_later (now : T) (all : List (JobEntry T J)) :
    (pairs (later now all ++ (due now all).map (reschedule · now))).Perm (pairs all) := by
  have hmap : pairs ((due now all).map (reschedule · now)) = pairs (due now all) := by
    unfold pairs
    rw [List.map_map]
    rfl
  have hsplit : pairs (later now all ++ (due now all).map (reschedule · now)) =
      pairs (later now all ++ due now all) := by
    unfold pairs at hmap ⊢
    rw [List.map_append, hmap, List.map_append]
  rw [hsplit]
  refine List.Perm.map _ (List.perm_append_comm.trans ?_)
  have hnot : later now all = all.filter fun e => !decide (e.next_run ≤ now) := by
    unfold later
    congr 1
    funext e
    exact decide_not
  rw [hnot]
  exact List.filter_append_perm _ all

/-- What a call of `tick` does that returns, from `before` to `after`, with the labels `ls` of
    its callables and of the clock, and the trace `os`. -/
structure TickLaw (before : Scheduler T J) (ls : List (Label T J)) (os : List (Obs T J))
    (after : Scheduler T J) : Prop where
  /-- It runs the least task. -/
  task : FirstTask before.task_queue (tasks_run os)
  /-- No other task is lost. -/
  tasks : (tasks_run os ++ after.task_queue).Perm
    (before.task_queue ++ submitted before.task_counter ls)
  /-- Each due job runs once, and is on the heap again, for one interval after `now`. -/
  jobs : ∃ now, tick_readings ls = [now] ∧
    (jobs_run os).Perm (due now (before.job_queue ++ scheduled ls)) ∧
    after.job_queue.Perm (later now (before.job_queue ++ scheduled ls) ++
      (due now (before.job_queue ++ scheduled ls)).map (reschedule · now))
  /-- No job is lost, and none is there twice. -/
  pairs : (pairs after.job_queue).Perm (pairs before.job_queue ++ pairs (scheduled ls))

/-- The last step of a tick. -/
theorem running_return (h : Running before first ls os s) {ran : Nat}
    (hstep : (machine T J).step s .advance = some (s', [.tick_returned ran])) :
    s'.frames = [] ∧ s'.sched = s.sched ∧ ∃ now, tick_readings ls = [now] ∧
      Loop now (before.job_queue ++ scheduled ls) (jobs_run os) s.sched.job_queue [] ∧
      ∀ e ∈ s.sched.job_queue, now < e.next_run := by
  obtain ⟨frame, hframe, hat⟩ := h.frame
  simp only [machine, hframe] at hstep
  cases frame with
  | at_loop ran' now =>
    simp only [Option.some.injEq] at hstep
    unfold advance at hstep
    cases hqueue : s.sched.job_queue with
    | nil =>
      rw [hqueue] at hstep
      cases hstep
      refine ⟨rfl, rfl, now, hat.1, hqueue ▸ hat.2, ?_⟩
      simp
    | cons front rest =>
      have hroot := (hqueue ▸ h.sound.jobs : Heapq.IsHeap JobEntry.key (front :: rest)).root_le
      rw [hqueue] at hstep
      dsimp only at hstep
      split at hstep
      · split at hstep <;> cases hstep
      · next hlater =>
        cases hstep
        refine ⟨rfl, rfl, now, hat.1, hqueue ▸ hat.2, fun e he => ?_⟩
        have hle : front.next_run ≤ e.next_run := by
          rcases Prod.Lex.toLex_le_toLex.mp (hroot e he) with hlt | heq
          · exact le_of_lt hlt
          · exact le_of_eq heq.1
        exact lt_of_lt_of_le (lt_of_not_ge hlater) hle
  | in_task entry => cases hstep
  | at_clock ran => cases hstep
  | in_job ran now entry => cases hstep

/-- **The law of a tick**: in every run of the scheduler in which no pop has raised, a call of
    `tick` whose callables submit tasks and schedule jobs, and may raise, and which returns,
    obeys the law. -/
theorem tick_law {ls₀ ls : List (Label T J)} {s₀ s s' : State T J} {tr₀ os : List (Obs T J)}
    {ran : Nat} (hpops : (machine T J).Along PopsDefined ⟨init, []⟩ ls₀)
    (hrun : (machine T J).run ⟨init, []⟩ ls₀ = some (s₀, tr₀)) (hidle : s₀.frames = [])
    (htick : (machine T J).run s₀ (.tick :: ls) = some (s, os)) (hno : .tick ∉ ls)
    (hreturn : (machine T J).step s .advance = some (s', [.tick_returned ran])) :
    s'.frames = [] ∧ TickLaw s₀.sched ls os s'.sched := by
  have hsound := run_sound sound_init hpops hrun
  obtain ⟨t, os₁, os₂, hfirst, hrest, rfl⟩ := (machine T J).run_cons_iff.mp htick
  obtain ⟨first, htask, hstart⟩ := running_start hsound hidle hfirst
  rcases running_run hstart hno hrest with hover | hrunning
  · -- the tick has not ended before its last step
    simp only [machine, hover] at hreturn
    cases hreturn
  · rw [List.nil_append] at hrunning
    obtain ⟨hframes, hsched, now, hreadings, hloop, hlater⟩ := running_return hrunning hreturn
    obtain ⟨hdue, hqueue⟩ := loop_end hloop hlater
    rw [hsched]
    refine ⟨hframes, ?_, ?_, ⟨now, hreadings, hdue, hqueue⟩, ?_⟩
    · rw [hrunning.tasks]
      exact htask
    · rw [hrunning.tasks]
      exact hrunning.kept
    · unfold pairs
      rw [← List.map_append]
      exact (hqueue.map _).trans (pairs_due_later now _)

/-- A call of `tick` with these labels returns, and its trace passes the test. -/
def returns (s : State T J) (ls : List (Label T J)) (ran : Nat) (test : List (Obs T J) → Bool) :
    Bool :=
  match (machine T J).run s (.tick :: ls) with
  | some (t, os) =>
    test os && decide (((machine T J).step t .advance).map Prod.snd = some [.tick_returned ran])
  | none => false

theorem exists_of_returns {ran : Nat} {test : List (Obs T J) → Bool}
    (h : returns s ls ran test = true) :
    ∃ t os s', (machine T J).run s (.tick :: ls) = some (t, os) ∧ test os = true ∧
      (machine T J).step t .advance = some (s', [.tick_returned ran]) := by
  unfold returns at h
  cases hrun : (machine T J).run s (.tick :: ls) with
  | none =>
    rw [hrun] at h
    cases h
  | some r =>
    obtain ⟨t, os⟩ := r
    rw [hrun] at h
    obtain ⟨htest, hstep⟩ := (Bool.and_eq_true ..).mp h
    obtain ⟨⟨s', os'⟩, hstep, rfl⟩ := Option.map_eq_some_iff.mp (of_decide_eq_true hstep)
    exact ⟨t, os, s', rfl, htest, hstep⟩

/-- A task and two jobs of one interval, of which one is due at 1. -/
def mixed : List (Label ℚ String) :=
  [.schedule_job (.callable "a") 1000 0, .schedule_job (.callable "b") 1000 (1 / 2),
    .submit_task (.callable "t") 5]

theorem tick_law_mixed :
    ∃ s₀ s s' : State ℚ String, ∃ os, s'.frames = [] ∧
      TickLaw s₀.sched [.done false, .clock 1, .advance, .done true] os s'.sched ∧
      (machine ℚ String).step s .advance = some (s', [.tick_returned 1]) := by
  obtain ⟨s₀, tr₀, hrun, htest⟩ := (machine ℚ String).exists_run ⟨init, []⟩ mixed
    (fun s _ => s.frames.isEmpty &&
      returns s [.done false, .clock 1, .advance, .done true] 1 fun _ => true) (by decide +kernel)
  rw [Bool.and_eq_true, List.isEmpty_iff] at htest
  obtain ⟨s, os, s', htick, -, hstep⟩ := exists_of_returns htest.2
  obtain ⟨hframes, hlaw⟩ := tick_law (by decide +kernel) hrun htest.1 htick (by decide) hstep
  exact ⟨s₀, s, s', os, hframes, hlaw, hstep⟩

/-- Two jobs of one interval behind one that is due at 1, and a tick. -/
def behind : List (Label ℚ String) :=
  [.schedule_job (.callable "r") 1000 0, .schedule_job (.callable "a") 2000 0,
    .schedule_job (.callable "b") 2000 0, .schedule_job (.callable "l") 10000 0,
    .tick, .clock (3 / 2), .advance]

/-- The pop of the first job raises, and the last one is at the root: a `tick` at 3 returns
    without running the jobs that have been due since 2. -/
theorem due_jobs_not_run : (readings (behind ++ [.tick, .clock 3])).Pairwise (· ≤ ·) ∧
    ∃ s₀ s s' : State ℚ String, ∃ tr₀ os,
      (machine ℚ String).run ⟨init, []⟩ behind = some (s₀, tr₀) ∧ s₀.frames = [] ∧
      (machine ℚ String).run s₀ [.tick, .clock 3] = some (s, os) ∧
      (machine ℚ String).step s .advance = some (s', [.tick_returned 0]) ∧
      ¬TickLaw s₀.sched [.clock 3] os s'.sched := by
  refine ⟨by decide +kernel, ?_⟩
  obtain ⟨s₀, tr₀, hrun, htest⟩ := (machine ℚ String).exists_run ⟨init, []⟩ behind
    (fun s _ => s.frames.isEmpty && !(due 3 s.sched.job_queue).isEmpty &&
      returns s [.clock 3] 0 fun os => (jobs_run os).isEmpty) (by decide +kernel)
  rw [Bool.and_eq_true, Bool.and_eq_true, List.isEmpty_iff, Bool.not_eq_true'] at htest
  obtain ⟨⟨hidle, hdue⟩, htick⟩ := htest
  obtain ⟨s, os, s', htick, hran, hstep⟩ := exists_of_returns htick
  refine ⟨s₀, s, s', tr₀, os, hrun, hidle, htick, hstep, fun hlaw => ?_⟩
  obtain ⟨now, hnow, hperm, -⟩ := hlaw.jobs
  obtain rfl : (3 : ℚ) = now := List.head_eq_of_cons_eq hnow
  have hnone : due 3 (s₀.sched.job_queue ++ []) = [] := by
    rw [List.isEmpty_iff.mp hran] at hperm
    exact hperm.symm.eq_nil
  rw [List.append_nil] at hnone
  rw [hnone] at hdue
  cases hdue

end Scheduler
