import Aioscpu.Framework.Clock
import Aioscpu.Framework.Heapq
import Aioscpu.Framework.Machine
import Mathlib.Data.List.DropRight
import Mathlib.Data.Prod.Lex

/-! # Job Queue

  The prioritised job queue with retries of `services/job_queue.py`.

  A job moves between the heap of queued jobs, the active slot and the
  history. `_drain_one` runs the function of a job, and that function may
  submit and cancel other jobs, so a call of `_drain_one` is split where the
  function starts and where it returns or raises. Labels carry the readings
  of the clock, the generated job ids and the outcome of the function.

  The event bus and the scheduler are optional; what the queue sends to them
  is part of the trace.
-/

/-! ### Jobs -/

/-- The values of `Job.state`. -/
inductive JobState where
  | queued | running | done | failed | retrying | cancelled
deriving DecidableEq, Repr

/-- One unit of queued work. `F` identifies the function. -/
structure Job (T F : Type) where
  name : String
  fn : F
  priority : Int
  max_retries : Int
  job_id : String
  attempts : Nat
  next_run_at : T
  state : JobState
  error : String
  elapsed_s : T
  seq : Nat
deriving DecidableEq, Repr

namespace Job

variable {T F : Type}

/-- The job when its function is called. -/
def begun (job : Job T F) : Job T F :=
  { job with state := .running, attempts := job.attempts + 1 }

/-- The job after its function has returned. -/
def completed (job : Job T F) (elapsed_s : T) : Job T F :=
  { job with elapsed_s, state := .done }

/-- The job after its function has raised, on the way back to the heap. -/
def retrying (job : Job T F) (elapsed_s : T) (error : String) (next_run_at : T) : Job T F :=
  { job with elapsed_s, error, next_run_at, state := .retrying }

/-- The job after its function has raised for the last time. -/
def failed (job : Job T F) (elapsed_s : T) (error : String) : Job T F :=
  { job with elapsed_s, error, state := .failed }

/-- The job after `cancel`. -/
def cancelled (job : Job T F) : Job T F := { job with state := .cancelled }

@[simp] theorem begun_job_id (job : Job T F) : job.begun.job_id = job.job_id := rfl

@[simp] theorem completed_job_id (job : Job T F) (elapsed_s : T) :
    (job.completed elapsed_s).job_id = job.job_id := rfl

@[simp] theorem retrying_job_id (job : Job T F) (elapsed_s : T) (error : String)
    (next_run_at : T) : (job.retrying elapsed_s error next_run_at).job_id = job.job_id := rfl

@[simp] theorem failed_job_id (job : Job T F) (elapsed_s : T) (error : String) :
    (job.failed elapsed_s error).job_id = job.job_id := rfl

@[simp] theorem cancelled_job_id (job : Job T F) : job.cancelled.job_id = job.job_id := rfl

variable [Clock T]

/-- `Job.__lt__`. -/
def lt (self other : Job T F) : Bool :=
  if self.next_run_at ≠ other.next_run_at then self.next_run_at < other.next_run_at
  else if self.priority ≠ other.priority then self.priority < other.priority
  else self.seq < other.seq

/-- What `__lt__` compares: ready time, priority, then submission number. -/
def key (j : Job T F) : T ×ₗ (Int ×ₗ Nat) :=
  toLex (j.next_run_at, toLex (j.priority, j.seq))

theorem lt_eq (a b : Job T F) : a.lt b = decide (a.key < b.key) := by
  unfold lt key
  by_cases hn : a.next_run_at = b.next_run_at
  · by_cases hp : a.priority = b.priority
    · simp [Prod.Lex.toLex_lt_toLex, hn, hp]
    · simp [Prod.Lex.toLex_lt_toLex, hn, hp]
  · simp [Prod.Lex.toLex_lt_toLex, hn]

theorem key_le_iff (a b : Job T F) :
    a.key ≤ b.key ↔ a.next_run_at < b.next_run_at ∨
      (a.next_run_at = b.next_run_at ∧
        (a.priority < b.priority ∨ (a.priority = b.priority ∧ a.seq ≤ b.seq))) := by
  unfold key
  rw [Prod.Lex.toLex_le_toLex, Prod.Lex.toLex_le_toLex]

end Job

/-! ### The queue -/

/-- The payloads of the events that the queue publishes. -/
inductive JobEvent (T : Type) where
  | JOB_QUEUED (name job_id : String) (priority : Int)
  | JOB_STARTED (name job_id : String)
  | JOB_COMPLETE (name job_id : String) (elapsed_s : T)
  | JOB_FAILED (name job_id : String) (attempt : Nat) (error : String)
  | JOB_RETRYING (name job_id : String) (attempt retry_in_s : Nat)
deriving DecidableEq, Repr

def DEFAULT_MAX_HISTORY : Nat := 200

structure JobQueue (T F : Type) where
  /-- Whether an event bus was given. -/
  event_bus : Bool
  /-- Whether a scheduler was given. -/
  scheduler : Bool
  /-- The heap of queued and retrying jobs. -/
  queue : List (Job T F)
  /-- The dictionary of running jobs, keyed by their ids. -/
  active : List (Job T F)
  history : List (Job T F)
  max_history : Nat
  running : Bool
  seq : Nat
deriving Repr

namespace JobQueue

variable {T F : Type} [Clock T]

/-- What the operations do to the outside, and the facts the laws speak of. -/
inductive Obs (T F : Type) where
  | published (event : JobEvent T)
  /-- `scheduler.schedule_job(self._drain_one, interval_ms)`. -/
  | drain_scheduled (interval_ms : Int)
  /-- `submit` returns this job id. -/
  | submitted (job_id : String)
  /-- `cancel` returns `found` for this job id. -/
  | cancelled (job_id : String) (found : Bool)
  /-- The function of the job is called; with the jobs then in the heap. -/
  | started (job : Job T F) (now : T) (pending : List (Job T F))
  /-- The job enters the history. -/
  | terminated (job : Job T F)
deriving DecidableEq, Repr

/-- `JobQueue.__init__`. -/
def init (event_bus scheduler : Bool) : JobQueue T F :=
  { event_bus, scheduler, queue := [], active := [], history := [],
    max_history := DEFAULT_MAX_HISTORY, running := false, seq := 0 }

/-- `JobQueue._publish`; a bus that raises is ignored. -/
def publish (self : JobQueue T F) (event : JobEvent T) : List (Obs T F) :=
  if self.event_bus then [.published event] else []

/-- `JobQueue.start`. -/
def start (self : JobQueue T F) : JobQueue T F × List (Obs T F) :=
  if self.running then (self, [])
  else ({ self with running := true }, if self.scheduler then [.drain_scheduled 100] else [])

/-- `JobQueue.stop`. -/
def stop (self : JobQueue T F) : JobQueue T F := { self with running := false }

/-- `JobQueue.submit`, with the generated id and the reading of the clock. -/
def submit (self : JobQueue T F) (name : String) (fn : F) (priority max_retries : Int)
    (delay_s : T) (job_id : String) (now : T) : JobQueue T F × List (Obs T F) :=
  let seq := self.seq + 1
  let job : Job T F :=
    { name, fn, priority, max_retries, job_id, attempts := 0, next_run_at := now + delay_s,
      state := .queued, error := "", elapsed_s := Clock.ofSeconds 0, seq }
  ({ self with seq, queue := Heapq.push Job.lt self.queue job },
    .submitted job_id :: self.publish (.JOB_QUEUED name job_id priority))

/-- `JobQueue._trim_history`. -/
def trim_history (self : JobQueue T F) : JobQueue T F :=
  if self.history.length > self.max_history then
    { self with history := self.history.drop (self.history.length - self.max_history) }
  else self

/-- `self._history.append(job)` and `self._trim_history()`. -/
def record (self : JobQueue T F) (job : Job T F) : JobQueue T F :=
  trim_history { self with history := self.history ++ [job] }

/-- `self._queue.pop(i)` at the first job with this id, and
    `heapq.heapify(self._queue)`. -/
def without (self : JobQueue T F) (job_id : String) : JobQueue T F :=
  { self with queue := Heapq.rebuild Job.lt (self.queue.eraseP (·.job_id = job_id)) }

/-- `JobQueue.cancel`: the first queued job with this id leaves the heap. -/
def cancel (self : JobQueue T F) (job_id : String) : JobQueue T F × List (Obs T F) :=
  match self.queue.find? (·.job_id = job_id) with
  | none => (self, [.cancelled job_id false])
  | some job =>
    let job := job.cancelled
    ((self.without job_id).record job, [.cancelled job_id true, .terminated job])

/-- `self._active[job.job_id] = job`. -/
def activate (self : JobQueue T F) (job : Job T F) : JobQueue T F :=
  { self with active := job :: self.active.filter (·.job_id ≠ job.job_id) }

/-- `del self._active[job.job_id]`. -/
def deactivate (self : JobQueue T F) (job : Job T F) : JobQueue T F :=
  { self with active := self.active.filter (·.job_id ≠ job.job_id) }

/-! ### What the operations do to the fields -/

omit [Clock T] in
theorem mem_publish {self : JobQueue T F} {event : JobEvent T} {o : Obs T F}
    (h : o ∈ self.publish event) : o = .published event := by
  unfold publish at h
  split at h
  · exact List.mem_singleton.mp h
  · cases h

omit [Clock T] in
theorem mem_start {self : JobQueue T F} {o : Obs T F} (h : o ∈ self.start.2) :
    o = .drain_scheduled 100 := by
  unfold start at h
  split at h
  · cases h
  · split at h
    · exact List.mem_singleton.mp h
    · cases h

@[simp] theorem without_active (self : JobQueue T F) (job_id : String) :
    (self.without job_id).active = self.active := rfl

@[simp] theorem without_history (self : JobQueue T F) (job_id : String) :
    (self.without job_id).history = self.history := rfl

@[simp] theorem without_max_history (self : JobQueue T F) (job_id : String) :
    (self.without job_id).max_history = self.max_history := rfl

omit [Clock T] in
/-- The history keeps the newest `max_history` entries. -/
theorem record_eq (self : JobQueue T F) (job : Job T F) :
    self.record job =
      { self with history := (self.history ++ [job]).rtake self.max_history } := by
  unfold record trim_history
  split
  · rfl
  · next hle =>
    have hlen : (self.history ++ [job]).length ≤ self.max_history := not_lt.mp hle
    rw [List.rtake, Nat.sub_eq_zero_of_le hlen, List.drop_zero]

omit [Clock T] in
theorem start_eq (self : JobQueue T F) : self.start.1 = { self with running := true } := by
  unfold start
  split
  · next hrunning => rw [← hrunning]
  · rfl

/-- `submit` adds the new job to the heap. -/
theorem submit_queue_perm (self : JobQueue T F) (name : String) (fn : F)
    (priority max_retries : Int) (delay_s : T) (job_id : String) (now : T) :
    ∃ job : Job T F, job.job_id = job_id ∧ job.state = .queued ∧
      (self.submit name fn priority max_retries delay_s job_id now).1.queue.Perm
        (job :: self.queue) :=
  ⟨_, rfl, rfl, Heapq.push_perm _ _ _⟩

/-- The job that `cancel` finds is the one that leaves the heap. -/
theorem without_queue_perm {self : JobQueue T F} {job_id : String} {job : Job T F}
    (hfind : self.queue.find? (·.job_id = job_id) = some job) :
    (job :: (self.without job_id).queue).Perm self.queue := by
  obtain ⟨hid, before, after, hq, hbefore⟩ := List.find?_eq_some_iff_append.mp hfind
  have herase : self.queue.eraseP (·.job_id = job_id) = before ++ after := by
    rw [hq, List.eraseP_append_right _ (by simpa using hbefore)]
    simp [of_decide_eq_true hid]
  have hperm : (self.without job_id).queue.Perm (before ++ after) := by
    rw [← herase]
    exact Heapq.rebuild_perm Job.lt _
  rw [hq]
  exact (hperm.cons job).trans List.perm_middle.symm

/-! ### The drain machine -/

structure State (T F : Type) where
  jq : JobQueue T F
  /-- The local variables `job` and `t0` of the active call of `_drain_one`. -/
  frame : Option (Job T F × T)
deriving Repr

inductive Label (T F : Type) where
  | submit (name : String) (fn : F) (priority max_retries : Int) (delay_s : T)
      (job_id : String) (now : T)
  | cancel (job_id : String)
  | start
  | stop
  /-- A call of `_drain_one`, with the readings before and after the pop. -/
  | drain_one (now t0 : T)
  /-- The function of the active job returns at `t1`. -/
  | fn_returns (t1 : T)
  /-- It raises an `Exception` with this text; the back-off starts at `t2`. -/
  | fn_raises (text : String) (t1 t2 : T)
deriving DecidableEq, Repr

/-- `_drain_one` up to the call of `job.fn()`. -/
def drain_one (self : JobQueue T F) (now t0 : T) : State T F × List (Obs T F) :=
  if ¬ self.running then (⟨self, none⟩, [])
  else
    match self.queue with
    | [] => (⟨self, none⟩, [])
    | front :: _ =>
      -- only the root is looked at, so a job that is not ready hides the others
      if now < front.next_run_at then (⟨self, none⟩, [])
      else
        match Heapq.pop Job.lt self.queue with
        | none => (⟨self, none⟩, [])
        | some (job, queue) =>
          let job := job.begun
          let self := activate { self with queue } job
          (⟨self, some (job, t0)⟩,
            self.publish (.JOB_STARTED job.name job.job_id) ++ [.started job now queue])

/-- A call of `_drain_one` does nothing, because the queue is not running or
    the root of the heap is not ready, or runs that root. -/
theorem drain_one_cases (self : JobQueue T F) (now t0 : T) :
    ((self.running = true → ∀ root ∈ self.queue[0]?, now < root.next_run_at) ∧
      self.drain_one now t0 = (⟨self, none⟩, [])) ∨
    ∃ job queue, self.running = true ∧ Heapq.pop Job.lt self.queue = some (job, queue) ∧
      job.next_run_at ≤ now ∧
      self.drain_one now t0 =
        (⟨activate { self with queue } job.begun, some (job.begun, t0)⟩,
          self.publish (.JOB_STARTED job.name job.job_id) ++
            [.started job.begun now queue]) := by
  unfold drain_one
  by_cases hrunning : self.running
  · cases hq : self.queue with
    | nil => simp [hrunning]
    | cons front rest =>
      obtain ⟨queue, hpop, -⟩ := Heapq.pop_cons Job.lt front rest
      by_cases hready : now < front.next_run_at
      · simp [hrunning, hready]
      · right
        refine ⟨front, queue, hrunning, hpop, not_lt.mp hready, ?_⟩
        simp only [hrunning, not_true_eq_false, if_false, hready, hpop]
        rfl
  · simp [hrunning]

/-- `_drain_one` after `job.fn()` has returned. -/
def fn_returns (self : JobQueue T F) (job : Job T F) (t0 t1 : T) :
    State T F × List (Obs T F) :=
  let job := job.completed (t1 - t0)
  (⟨record (self.deactivate job) job, none⟩,
    self.publish (.JOB_COMPLETE job.name job.job_id (Clock.round3 job.elapsed_s)) ++
      [.terminated job])

/-- `_drain_one` after `job.fn()` has raised. -/
def fn_raises (self : JobQueue T F) (job : Job T F) (text : String) (t0 t1 t2 : T) :
    State T F × List (Obs T F) :=
  if (job.attempts : Int) < job.max_retries then
    let backoff := 2 ^ job.attempts
    let job := job.retrying (t1 - t0) text (t2 + Clock.ofSeconds backoff)
    (⟨deactivate { self with queue := Heapq.push Job.lt self.queue job } job, none⟩,
      self.publish (.JOB_RETRYING job.name job.job_id job.attempts backoff))
  else
    let job := job.failed (t1 - t0) text
    (⟨record (self.deactivate job) job, none⟩,
      self.publish (.JOB_FAILED job.name job.job_id job.attempts job.error) ++
        [.terminated job])

/-- The queue with one call of `_drain_one` at a time. The other operations
    are possible at any time: outside, and inside the function of a job. -/
def machine (T F : Type) [Clock T] : Machine (State T F) (Label T F) (Obs T F) where
  step := fun s l =>
    match l with
    | .submit name fn priority max_retries delay_s job_id now =>
      let r := s.jq.submit name fn priority max_retries delay_s job_id now
      some ({ s with jq := r.1 }, r.2)
    | .cancel job_id =>
      let r := s.jq.cancel job_id
      some ({ s with jq := r.1 }, r.2)
    | .start =>
      let r := s.jq.start
      some ({ s with jq := r.1 }, r.2)
    | .stop => some ({ s with jq := s.jq.stop }, [])
    | .drain_one now t0 =>
      match s.frame with
      | none => some (s.jq.drain_one now t0)
      | some _ => none
    | .fn_returns t1 =>
      match s.frame with
      | some (job, t0) => some (s.jq.fn_returns job t0 t1)
      | none => none
    | .fn_raises text t1 t2 =>
      match s.frame with
      | some (job, t0) => some (s.jq.fn_raises job text t0 t1 t2)
      | none => none

/-- What a step can do, with one constructor for each case. -/
inductive Step : State T F → Label T F → List (Obs T F) → State T F → Prop where
  | submit {s} (name : String) (fn : F) (priority max_retries : Int) (delay_s : T)
      (job_id : String) (now : T) :
      Step s (.submit name fn priority max_retries delay_s job_id now)
        (s.jq.submit name fn priority max_retries delay_s job_id now).2
        ⟨(s.jq.submit name fn priority max_retries delay_s job_id now).1, s.frame⟩
  | cancel_missing {s} (job_id : String)
      (hfind : s.jq.queue.find? (·.job_id = job_id) = none) :
      Step s (.cancel job_id) [.cancelled job_id false] s
  | cancel_found {s} (job_id : String) (job : Job T F)
      (hfind : s.jq.queue.find? (·.job_id = job_id) = some job) :
      Step s (.cancel job_id) [.cancelled job_id true, .terminated job.cancelled]
        ⟨(s.jq.without job_id).record job.cancelled, s.frame⟩
  | start {s} : Step s .start s.jq.start.2 ⟨s.jq.start.1, s.frame⟩
  | stop {s} : Step s .stop [] ⟨s.jq.stop, s.frame⟩
  | drain_idle {s} (now t0 : T) (hframe : s.frame = none)
      (hidle : s.jq.running = true → ∀ root ∈ s.jq.queue[0]?, now < root.next_run_at) :
      Step s (.drain_one now t0) [] s
  | drain_run {s} (now t0 : T) (job : Job T F) (queue : List (Job T F))
      (hframe : s.frame = none) (hrunning : s.jq.running = true)
      (hpop : Heapq.pop Job.lt s.jq.queue = some (job, queue))
      (hready : job.next_run_at ≤ now) :
      Step s (.drain_one now t0)
        (s.jq.publish (.JOB_STARTED job.name job.job_id) ++ [.started job.begun now queue])
        ⟨activate { s.jq with queue } job.begun, some (job.begun, t0)⟩
  | returned {s} (job : Job T F) (t0 t1 : T) (hframe : s.frame = some (job, t0)) :
      Step s (.fn_returns t1) (s.jq.fn_returns job t0 t1).2 (s.jq.fn_returns job t0 t1).1
  | raised {s} (job : Job T F) (text : String) (t0 t1 t2 : T)
      (hframe : s.frame = some (job, t0)) :
      Step s (.fn_raises text t1 t2) (s.jq.fn_raises job text t0 t1 t2).2
        (s.jq.fn_raises job text t0 t1 t2).1

theorem step_sound {s s' : State T F} {l : Label T F} {os : List (Obs T F)}
    (h : (machine T F).step s l = some (s', os)) : Step s l os s' := by
  cases l with
  | submit name fn priority max_retries delay_s job_id now =>
    cases h
    exact .submit name fn priority max_retries delay_s job_id now
  | cancel job_id =>
    simp only [machine, cancel] at h
    split at h
    · next hfind => cases h; exact .cancel_missing job_id hfind
    · next job hfind => cases h; exact .cancel_found job_id job hfind
  | start => cases h; exact .start
  | stop => cases h; exact .stop
  | drain_one now t0 =>
    simp only [machine] at h
    split at h
    · next hframe =>
      obtain ⟨jq, frame⟩ := s
      obtain rfl : frame = none := hframe
      rcases drain_one_cases jq now t0 with ⟨hidle, heq⟩ | ⟨job, queue, hrunning, hpop, hready, heq⟩
      · rw [heq] at h
        cases h
        exact .drain_idle now t0 rfl hidle
      · rw [heq] at h
        cases h
        exact .drain_run now t0 job queue rfl hrunning hpop hready
    · cases h
  | fn_returns t1 =>
    simp only [machine] at h
    split at h
    · next job t0 hframe =>
      obtain ⟨rfl, rfl⟩ := Prod.mk.inj (Option.some.inj h)
      exact .returned job t0 t1 hframe
    · cases h
  | fn_raises text t1 t2 =>
    simp only [machine] at h
    split at h
    · next job t0 hframe =>
      obtain ⟨rfl, rfl⟩ := Prod.mk.inj (Option.some.inj h)
      exact .raised job text t0 t1 t2 hframe
    · cases h

/-- Where a job is started: at the root of the heap, when it is ready, in a
    step that emits nothing else but events. -/
theorem step_started {s s' : State T F} {l : Label T F} {os : List (Obs T F)}
    (h : Step s l os s') {job : Job T F} {now : T} {pending : List (Job T F)}
    (hmem : .started job now pending ∈ os) :
    ∃ root t0, l = .drain_one now t0 ∧ s.frame = none ∧ s.jq.running = true ∧
      Heapq.pop Job.lt s.jq.queue = some (root, pending) ∧ root.next_run_at ≤ now ∧
      job = root.begun ∧ ∀ o ∈ os, o = .started job now pending ∨ ∃ e, o = .published e := by
  have hpub : ∀ e : JobEvent T, .started job now pending ∉ s.jq.publish e := by
    intro e he
    cases mem_publish he
  cases h with
  | submit => simp [submit, hpub] at hmem
  | cancel_missing => simp at hmem
  | cancel_found => simp at hmem
  | start => cases mem_start hmem
  | stop => cases hmem
  | drain_idle => cases hmem
  | drain_run now' t0 root queue hframe hrunning hpop hready =>
    simp [hpub] at hmem
    obtain ⟨rfl, rfl, rfl⟩ := hmem
    refine ⟨root, t0, rfl, hframe, hrunning, hpop, hready, rfl, ?_⟩
    intro o ho
    rcases List.mem_append.mp ho with ho | ho
    · exact Or.inr ⟨_, mem_publish ho⟩
    · exact Or.inl (List.mem_singleton.mp ho)
  | returned => simp [fn_returns, hpub] at hmem
  | raised =>
    unfold fn_raises at hmem
    split at hmem
    · exact absurd hmem (hpub _)
    · simp [hpub] at hmem

/-! ### The heap invariant -/

/-- The queued jobs form a heap. -/
def Ordered (s : State T F) : Prop := Heapq.IsHeap Job.key s.jq.queue

theorem step_ordered {s s' : State T F} {l : Label T F} {os : List (Obs T F)}
    (h : Step s l os s') (ho : Ordered s) : Ordered s' := by
  unfold Ordered
  cases h with
  | submit => exact Heapq.push_heap Job.lt_eq ho
  | cancel_missing => exact ho
  | cancel_found =>
    rw [record_eq]
    exact Heapq.rebuild_heap Job.lt_eq _
  | start =>
    rw [start_eq]
    exact ho
  | stop => exact ho
  | drain_idle => exact ho
  | drain_run now t0 job queue _ _ hpop _ => exact (Heapq.pop_heap Job.lt_eq ho hpop).1
  | returned =>
    simp only [fn_returns, record_eq]
    exact ho
  | raised =>
    unfold fn_raises
    split
    · exact Heapq.push_heap Job.lt_eq ho
    · simp only [record_eq]
      exact ho

end JobQueue
