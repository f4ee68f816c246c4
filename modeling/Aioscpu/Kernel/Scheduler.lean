import Aioscpu.Framework.Clock
import Aioscpu.Framework.Heapq
import Aioscpu.Framework.Machine
import Mathlib.Data.Prod.Lex

/-! # Scheduler

  The tasks and the periodic jobs of `kernel/scheduler.py`.

  A task heap holds `_TaskEntry` objects, ordered by priority and a counter.
  The job heap holds plain lists `[next_run, interval_ms, job]`, so its
  comparisons are those of Python lists: the first unequal component decides,
  and two different callables have no order.

  `tick` runs callables, and a callable may submit tasks, schedule jobs and
  call `tick` itself. So the calls of `tick` are a stack of frames: the label
  for the end of a callable says whether an exception was raised, and the
  labels of `schedule_job` and of the clock carry the reading of
  `time.monotonic`.
-/

/-! ### Errors and arguments -/

/-- What a call of the scheduler can raise. -/
inductive SchedulerError (J : Type) where
  | TypeError (message : String)
  | ValueError (message : String)
  /-- The `TypeError` of `a < b` for two callables. -/
  | Unorderable (a b : J)
deriving DecidableEq, Repr

/-- What a caller may pass as a task or a job. -/
inductive Arg (J : Type) where
  | callable (j : J)
  /-- Not callable, with the text of its type. -/
  | other (type : String)
deriving DecidableEq, Repr

/-! ### Heap entries -/

/-- `_TaskEntry`. -/
structure TaskEntry (J : Type) where
  priority : Int
  seq : Nat
  task : J
deriving DecidableEq, Repr

/-- `_TaskEntry.__lt__`. -/
def TaskEntry.lt {J : Type} (self other : TaskEntry J) : Bool :=
  if self.priority ≠ other.priority then self.priority < other.priority
  else self.seq < other.seq

/-- A job entry: the list `[next_run_ts, interval_ms, job_callable]`. -/
structure JobEntry (T J : Type) where
  next_run : T
  interval_ms : Int
  job : J
deriving DecidableEq, Repr

namespace JobEntry

variable {T J : Type} [Clock T] [DecidableEq J]

/-- `<` on the lists: the first unequal component decides, equal lists are
    not below each other, and different callables raise. -/
def lt (self other : JobEntry T J) : Except (SchedulerError J) Bool :=
  if self.next_run ≠ other.next_run then .ok (self.next_run < other.next_run)
  else if self.interval_ms ≠ other.interval_ms then .ok (self.interval_ms < other.interval_ms)
  else if self.job ≠ other.job then .error (.Unorderable self.job other.job)
  else .ok false

/-- The components that have an order. -/
def key (e : JobEntry T J) : T ×ₗ Int := toLex (e.next_run, e.interval_ms)

/-- Two entries that `lt` cannot compare. -/
def Clash (e f : JobEntry T J) : Prop :=
  e.next_run = f.next_run ∧ e.interval_ms = f.interval_ms ∧ e.job ≠ f.job

instance (e f : JobEntry T J) : Decidable (Clash e f) :=
  inferInstanceAs (Decidable (_ ∧ _ ∧ _))

theorem lt_eq {e f : JobEntry T J} (h : ¬ Clash e f) :
    e.lt f = .ok (decide (e.key < f.key)) := by
  unfold lt key
  by_cases hn : e.next_run = f.next_run
  · by_cases hi : e.interval_ms = f.interval_ms
    · have hj : e.job = f.job := by
        by_contra hne
        exact h ⟨hn, hi, hne⟩
      simp [hn, hi, hj]
    · simp [hn, hi, Prod.Lex.toLex_lt_toLex]
  · simp [hn, Prod.Lex.toLex_lt_toLex]

end JobEntry

/-! ### The scheduler -/

structure Scheduler (T J : Type) where
  task_queue : List (TaskEntry J)
  job_queue : List (JobEntry T J)
  /-- `_TaskEntry._counter`. -/
  task_counter : Nat

namespace Scheduler

variable {T J : Type} [Clock T] [DecidableEq J]

/-- `Scheduler.__init__`. -/
def init : Scheduler T J := ⟨[], [], 0⟩

/-- `Scheduler.submit_task`. -/
def submit_task (self : Scheduler T J) (task : Arg J) (priority : Int) :
    Except (SchedulerError J) Unit × Scheduler T J :=
  match task with
  | .other type => (.error (.TypeError s!"task must be callable, got {type}"), self)
  | .callable j =>
    let counter := self.task_counter + 1
    (.ok (), { self with
      task_queue := Heapq.push TaskEntry.lt self.task_queue ⟨priority, counter, j⟩
      task_counter := counter })

/-- `Scheduler.schedule_job`, with the reading `now` of the clock. A raising
    push has already put the entry on the heap. -/
def schedule_job (self : Scheduler T J) (job : Arg J) (interval_ms : Int) (now : T) :
    Except (SchedulerError J) Unit × Scheduler T J :=
  match job with
  | .other type => (.error (.TypeError s!"job must be callable, got {type}"), self)
  | .callable j =>
    if interval_ms < 1 then (.error (.ValueError "interval_ms must be >= 1"), self)
    else
      let next_run := now + Clock.ofMillis interval_ms
      -- `r.2` has the entry also where the comparison raises
      let r := Heapq.heappush JobEntry.lt self.job_queue ⟨next_run, interval_ms, j⟩
      (r.1, { self with job_queue := r.2 })

/-- The entry that `tick` pushes back after a job: `entry[0] = now + interval`. -/
def reschedule (entry : JobEntry T J) (now : T) : JobEntry T J :=
  { entry with next_run := now + Clock.ofMillis entry.interval_ms }

/-! ### The tick machine -/

/-- Where an active call of `tick` stands. -/
inductive Frame (T J : Type) where
  /-- Inside `entry.task()`. -/
  | in_task (entry : TaskEntry J)
  /-- Before the reading of the clock. -/
  | at_clock (ran : Nat)
  /-- At the test of the `while` loop. -/
  | at_loop (ran : Nat) (now : T)
  /-- Inside `job()`. -/
  | in_job (ran : Nat) (now : T) (entry : JobEntry T J)
deriving DecidableEq, Repr

structure State (T J : Type) where
  sched : Scheduler T J
  /-- The active calls of `tick`, the innermost first. -/
  frames : List (Frame T J)

inductive Label (T J : Type) where
  | submit_task (task : Arg J) (priority : Int)
  | schedule_job (job : Arg J) (interval_ms : Int) (now : T)
  /-- A call of `tick` begins: it starts the first task, if there is one. -/
  | tick
  /-- The task or job returns, or raises an `Exception` (caught and logged). -/
  | done (raised : Bool)
  /-- `now = time.monotonic()`. -/
  | clock (now : T)
  /-- The innermost call of `tick` goes on to the next due job, or returns. -/
  | advance
deriving DecidableEq, Repr

inductive Obs (T J : Type) where
  /-- `submit_task` or `schedule_job` raises. -/
  | call_raised (err : SchedulerError J)
  | task_started (entry : TaskEntry J)
  | job_started (entry : JobEntry T J) (now : T)
  | tick_returned (ran : Nat)
  /-- An exception leaves `tick`. -/
  | tick_raised (err : SchedulerError J)
deriving DecidableEq, Repr

/-- The code outside `tick` runs while no call is active or inside the
    callable of the innermost call. -/
def State.open (s : State T J) : Bool :=
  match s.frames with
  | [] => true
  | .in_task _ :: _ => true
  | .in_job .. :: _ => true
  | _ => false

/-- What a raising or returning call leaves in the trace. -/
def callObs : Except (SchedulerError J) Unit → List (Obs T J)
  | .ok () => []
  | .error err => [.call_raised err]

/-- The first part of `tick`: pop and call the most urgent task. -/
def tick (s : Scheduler T J) (frames : List (Frame T J)) : State T J × List (Obs T J) :=
  match Heapq.pop TaskEntry.lt s.task_queue with
  | none => (⟨s, .at_clock 0 :: frames⟩, [])
  | some (entry, queue) =>
    (⟨{ s with task_queue := queue }, .in_task entry :: frames⟩, [.task_started entry])

/-- One test of `while self._job_queue and self._job_queue[0][0] <= now`. -/
def advance (s : Scheduler T J) (frames : List (Frame T J)) (ran : Nat) (now : T) :
    State T J × List (Obs T J) :=
  match s.job_queue with
  | [] => (⟨s, frames⟩, [.tick_returned ran])
  | front :: rest =>
    if front.next_run ≤ now then
      match Heapq.heappop JobEntry.lt (front :: rest) with
      | some (.ok entry, queue) =>
        (⟨{ s with job_queue := queue }, .in_job ran now entry :: frames⟩,
          [.job_started entry now])
      | some (.error err, queue) => (⟨{ s with job_queue := queue }, frames⟩, [.tick_raised err])
      | none => (⟨s, frames⟩, [])
    else (⟨s, frames⟩, [.tick_returned ran])

/-- The end of a job: count it and push its entry back. -/
def job_done (s : Scheduler T J) (frames : List (Frame T J)) (ran : Nat) (now : T)
    (entry : JobEntry T J) (raised : Bool) : State T J × List (Obs T J) :=
  let ran := if raised then ran else ran + 1
  match Heapq.heappush JobEntry.lt s.job_queue (reschedule entry now) with
  | (.ok (), queue) => (⟨{ s with job_queue := queue }, .at_loop ran now :: frames⟩, [])
  | (.error err, queue) => (⟨{ s with job_queue := queue }, frames⟩, [.tick_raised err])

/-- The scheduler with nested calls of `tick`. An exception that leaves a
    nested call is one of the callable that made the call. -/
def machine (T J : Type) [Clock T] [DecidableEq J] :
    Machine (State T J) (Label T J) (Obs T J) where
  step := fun s l =>
    match l with
    | .submit_task task priority =>
      if s.open then
        let r := s.sched.submit_task task priority
        some ({ s with sched := r.2 }, callObs r.1)
      else none
    | .schedule_job job interval_ms now =>
      if s.open then
        let r := s.sched.schedule_job job interval_ms now
        some ({ s with sched := r.2 }, callObs r.1)
      else none
    | .tick => if s.open then some (tick s.sched s.frames) else none
    | .done raised =>
      match s.frames with
      | .in_task _ :: frames =>
        some ({ s with frames := .at_clock (if raised then 0 else 1) :: frames }, [])
      | .in_job ran now entry :: frames => some (job_done s.sched frames ran now entry raised)
      | _ => none
    | .clock now =>
      match s.frames with
      | .at_clock ran :: frames => some ({ s with frames := .at_loop ran now :: frames }, [])
      | _ => none
    | .advance =>
      match s.frames with
      | .at_loop ran now :: frames => some (advance s.sched frames ran now)
      | _ => none

/-- The clock readings of a run, in order. -/
def readings (ls : List (Label T J)) : List T :=
  ls.filterMap fun
    | .schedule_job _ _ now => some now
    | .clock now => some now
    | _ => none

end Scheduler
