import Aioscpu.Kernel.SchedulerSafety
import Aioscpu.Services.JobQueue

/-! # The Job Queue on the Scheduler

  `start` registers `_drain_one` as a periodic job of the scheduler. The
  scheduler offers no removal, and `stop` only lowers `_running`.

  The queue and the scheduler are one machine. A call of `_drain_one` begins in
  the step in which the scheduler takes its entry from the heap, and ends
  before the step that pushes it back. What the other callables do is up to the
  environment; each may call any operation.
-/

namespace JobQueue.OnScheduler

variable {T F J : Type}

/-! ### The queue and the scheduler -/

inductive Callable (J : Type) where
  /-- `JobQueue._drain_one`. -/
  | drain_one
  | other (j : J)
deriving DecidableEq, Repr

structure State (T F J : Type) where
  jq : JobQueue.State T F
  sched : Scheduler.State T (Callable J)

inductive Label (T F J : Type) where
  /-- `JobQueue.start`, with the clock reading of `schedule_job`. -/
  | start (now : T)
  /-- Another step of the queue: `submit`, `cancel` or `stop`, or the end of the
      function that the active call of `_drain_one` runs. -/
  | queue (l : JobQueue.Label T F)
  /-- A step of the scheduler, with the readings of a `_drain_one` in it. -/
  | sched (l : Scheduler.Label T (Callable J)) (now t0 : T)

/-- The innermost call of `tick` is inside `_drain_one`. -/
def draining (s : State T F J) : Bool :=
  match s.sched.frames with
  | .in_job _ _ entry :: _ =>
    match entry.job with
    | .drain_one => true
    | .other _ => false
  | _ => false

variable [Clock T] [DecidableEq J]

/-- `self._scheduler.schedule_job(self._drain_one, interval_ms=100)`, if it is
    among what `start` does. -/
def register (sched : Scheduler T (Callable J)) (now : T) :
    List (JobQueue.Obs T F) → Scheduler T (Callable J)
  | [.drain_scheduled interval_ms] =>
    (sched.schedule_job (.callable .drain_one) interval_ms now).2
  | _ => sched

/-- `_drain_one` begins, if it is the job that `tick` starts. -/
def begin_drain (jq : JobQueue.State T F) (now t0 : T) :
    List (Scheduler.Obs T (Callable J)) → Option (JobQueue.State T F)
  | [.job_started entry _] =>
    match entry.job with
    | .drain_one =>
      ((JobQueue.machine T F).step jq (.drain_one now t0)).map Prod.fst
    | .other _ => some jq
  | _ => some jq

/-- Callables that other code passes to the scheduler. -/
def foreign : Scheduler.Label T (Callable J) → Bool
  | .submit_task (.callable .drain_one) _ => false
  | .schedule_job (.callable .drain_one) _ _ => false
  | _ => true

/-- The queue and the scheduler. The calls of `start`, `stop`, `submit` and
    `cancel` come from outside `tick` or from within a callable. -/
def machine (T F J : Type) [Clock T] [DecidableEq J] :
    Machine (State T F J) (Label T F J) (Scheduler.Obs T (Callable J)) where
  step := fun s l =>
    match l with
    | .start now =>
      if s.sched.open then
        let r := s.jq.jq.start
        some (⟨{ s.jq with jq := r.1 }, { s.sched with sched := register s.sched.sched now r.2 }⟩,
          [])
      else none
    | .queue l =>
      match l with
      | .start => none
      | .drain_one .. => none
      | .fn_returns _ | .fn_raises .. =>
        if draining s then
          ((JobQueue.machine T F).step s.jq l).map fun r => ({ s with jq := r.1 }, [])
        else none
      | _ =>
        if s.sched.open then
          ((JobQueue.machine T F).step s.jq l).map fun r => ({ s with jq := r.1 }, [])
        else none
    | .sched (.done raised) _ _ =>
      -- `_drain_one` catches what the function raises
      if draining s ∧ (s.jq.frame.isSome ∨ raised) then none
      else
        ((Scheduler.machine T (Callable J)).step s.sched (.done raised)).map fun r =>
          ({ s with sched := r.1 }, r.2)
    | .sched l now t0 =>
      if foreign l then
        match (Scheduler.machine T (Callable J)).step s.sched l with
        | some (sched, os) => (begin_drain s.jq now t0 os).map fun jq => (⟨jq, sched⟩, os)
        | none => none
      else none

/-- A new queue and a new scheduler. -/
def State.init (event_bus scheduler : Bool) : State T F J :=
  ⟨⟨.init event_bus scheduler, none⟩, ⟨.init, []⟩⟩

/-! ### How often `_drain_one` is scheduled -/

/-- The entries of `_drain_one`. -/
def drains (queue : List (JobEntry T (Callable J))) : Nat :=
  queue.countP fun entry => entry.job = .drain_one

/-- `_drain_one` is in the job heap at most once. -/
def AtMostOnce (s : State T F J) : Prop := drains s.sched.sched.job_queue ≤ 1

/-- Where `_drain_one` comes onto the heap, it is not there: a `start` that takes
    effect finds no entry of it, and neither does the end of a call of it. -/
def FindsNone (s : State T F J) : Label T F J → Prop
  | .start _ =>
    s.jq.jq.running = false → s.jq.jq.scheduler = true → drains s.sched.sched.job_queue = 0
  | .sched (.done _) _ _ => draining s = true → drains s.sched.sched.job_queue = 0
  | _ => True

omit [Clock T] in
theorem drains_perm {q q' : List (JobEntry T (Callable J))} (h : q.Perm q') :
    drains q = drains q' :=
  h.countP_eq _

omit [Clock T] in
theorem drains_cons (entry : JobEntry T (Callable J)) (q : List (JobEntry T (Callable J))) :
    drains (entry :: q) = drains q + if entry.job = .drain_one then 1 else 0 := by
  unfold drains
  rw [List.countP_cons]
  simp

/-- A call of `schedule_job` for another callable adds no entry of `_drain_one`. -/
theorem schedule_job_drains (s : Scheduler T (Callable J)) (job : Arg (Callable J))
    (interval_ms : Int) (now : T) (hother : job ≠ .callable .drain_one) :
    drains (s.schedule_job job interval_ms now).2.job_queue = drains s.job_queue := by
  cases job with
  | other type => rfl
  | callable j =>
    unfold Scheduler.schedule_job
    dsimp only
    split
    · rfl
    · rw [drains_perm (Heapq.heappush_perm _ _ _), drains_cons, Nat.add_eq_left]
      exact if_neg (fun hj => hother (congrArg Arg.callable hj))

/-- `start` adds an entry of `_drain_one` if it takes effect. -/
theorem register_drains (s : Scheduler T (Callable J)) (jq : JobQueue T F) (now : T) :
    drains (register s now jq.start.2).job_queue =
      drains s.job_queue + if jq.running = false ∧ jq.scheduler = true then 1 else 0 := by
  unfold JobQueue.start
  cases hrunning : jq.running with
  | true => simp [register]
  | false =>
    cases hsched : jq.scheduler with
    | false => simp [register]
    | true =>
      -- the pushed entry is one of `_drain_one`
      show drains (Heapq.heappush JobEntry.lt s.job_queue _).2 = _
      rw [drains_perm (Heapq.heappush_perm _ _ _), drains_cons]
      rfl

/-- A `tick` that goes on takes at most one entry from the heap. -/
theorem advance_drains (s : Scheduler T (Callable J))
    (frames : List (Scheduler.Frame T (Callable J))) (ran : Nat) (now : T) :
    drains (Scheduler.advance s frames ran now).1.sched.job_queue ≤ drains s.job_queue := by
  unfold Scheduler.advance
  split
  · exact Nat.le_refl _
  · next front rest hq =>
    split
    · have hle : drains rest ≤ drains s.job_queue := by
        rw [hq, drains_cons]
        exact Nat.le_add_right _ _
      split
      · next hpop => exact (drains_perm (Heapq.heappop_perm hpop).1).trans_le hle
      · next hpop => exact (drains_perm (Heapq.heappop_perm hpop).1).trans_le hle
      · exact Nat.le_refl _
    · exact Nat.le_refl _

/-- The end of a job brings its entry back. -/
theorem job_done_drains (s : Scheduler T (Callable J))
    (frames : List (Scheduler.Frame T (Callable J))) (ran : Nat) (now : T)
    (entry : JobEntry T (Callable J)) (raised : Bool) :
    drains (Scheduler.job_done s frames ran now entry raised).1.sched.job_queue =
      drains s.job_queue + if entry.job = .drain_one then 1 else 0 := by
  -- also where a comparison raises the entry is on the heap
  have hperm := Heapq.heappush_perm JobEntry.lt s.job_queue (Scheduler.reschedule entry now)
  unfold Scheduler.job_done
  dsimp only
  split
  · next hpush =>
    rw [hpush] at hperm
    exact (drains_perm hperm).trans (drains_cons _ _)
  · next hpush =>
    rw [hpush] at hperm
    exact (drains_perm hperm).trans (drains_cons _ _)

/-- The other steps of the scheduler bring no entry of `_drain_one`. -/
theorem sched_drains {s s' : Scheduler.State T (Callable J)}
    {l : Scheduler.Label T (Callable J)} {os : List (Scheduler.Obs T (Callable J))}
    (hstep : (Scheduler.machine T (Callable J)).step s l = some (s', os))
    (hforeign : foreign l = true) (hdone : ∀ raised, l ≠ .done raised) :
    drains s'.sched.job_queue ≤ drains s.sched.job_queue := by
  cases l with
  | submit_task task priority =>
    simp only [Scheduler.machine] at hstep
    split at hstep
    · cases hstep
      exact Nat.le_of_eq (congrArg drains (Scheduler.submit_task_job_queue _ _ _).1)
    · cases hstep
  | schedule_job job interval_ms now =>
    simp only [Scheduler.machine] at hstep
    split at hstep
    · cases hstep
      refine Nat.le_of_eq (schedule_job_drains _ _ _ _ ?_)
      rintro rfl
      cases hforeign
    · cases hstep
  | tick =>
    simp only [Scheduler.machine, Scheduler.tick] at hstep
    split at hstep
    · split at hstep
      · cases hstep; exact Nat.le_refl _
      · cases hstep; exact Nat.le_refl _
    · cases hstep
  | done raised => exact absurd rfl (hdone raised)
  | clock now =>
    simp only [Scheduler.machine] at hstep
    split at hstep
    · cases hstep; exact Nat.le_refl _
    · cases hstep
  | advance =>
    simp only [Scheduler.machine] at hstep
    split at hstep
    · have heq := Option.some.inj hstep
      obtain rfl := congrArg Prod.fst heq
      exact advance_drains _ _ _ _
    · cases hstep

/-- The end of a callable brings an entry of `_drain_one` if it is the end of
    `_drain_one`. -/
theorem done_drains {s : State T F J} {s' : Scheduler.State T (Callable J)} {raised : Bool}
    {os : List (Scheduler.Obs T (Callable J))}
    (hstep : (Scheduler.machine T (Callable J)).step s.sched (.done raised) = some (s', os)) :
    drains s'.sched.job_queue =
      drains s.sched.sched.job_queue + if draining s then 1 else 0 := by
  simp only [Scheduler.machine] at hstep
  split at hstep
  · next frames hframes =>
    cases hstep
    simp [draining, hframes]
  · next ran now entry frames hframes =>
    have heq := Option.some.inj hstep
    obtain rfl := congrArg Prod.fst heq
    rw [job_done_drains]
    -- the innermost job is the one that ends
    have hdraining : draining s = true ↔ entry.job = .drain_one := by
      unfold draining
      rw [hframes]
      cases hjob : entry.job with
      | drain_one => simp [hjob]
      | other j => simp [hjob]
    simp only [hdraining]
  · cases hstep

/-! ### When it is scheduled at most once -/

theorem step_atMostOnce_iff {s s' : State T F J} {l : Label T F J}
    {os : List (Scheduler.Obs T (Callable J))} (honce : AtMostOnce s)
    (hstep : (machine T F J).step s l = some (s', os)) : FindsNone s l ↔ AtMostOnce s' := by
  unfold AtMostOnce at honce ⊢
  unfold machine at hstep
  dsimp only at hstep
  split at hstep
  · next now =>
    split at hstep
    · cases hstep
      show (s.jq.jq.running = false → _ → _) ↔ drains (register _ now s.jq.jq.start.2).job_queue ≤ 1
      rw [register_drains]
      split
      · next hcond => simp only [hcond.1, hcond.2, forall_const]; omega
      · next hcond => exact iff_of_true (fun hr hs => absurd ⟨hr, hs⟩ hcond) honce
    · cases hstep
  · next l =>
    -- the heap stays as it is
    have hsame : s'.sched = s.sched := by
      split at hstep
      · cases hstep
      · cases hstep
      · split at hstep
        · obtain ⟨r, -, heq⟩ := Option.map_eq_some_iff.mp hstep
          cases heq
          rfl
        · cases hstep
      · split at hstep
        · obtain ⟨r, -, heq⟩ := Option.map_eq_some_iff.mp hstep
          cases heq
          rfl
        · cases hstep
      · split at hstep
        · obtain ⟨r, -, heq⟩ := Option.map_eq_some_iff.mp hstep
          cases heq
          rfl
        · cases hstep
    rw [hsame]
    exact iff_of_true trivial honce
  · next raised _ _ =>
    split at hstep
    · cases hstep
    · obtain ⟨r, hsched, heq⟩ := Option.map_eq_some_iff.mp hstep
      cases heq
      show (draining s = true → _) ↔ drains r.1.sched.job_queue ≤ 1
      rw [done_drains hsched]
      split
      · next hdraining => simp only [hdraining, forall_const]; omega
      · next hdraining => exact iff_of_true (fun h => absurd h hdraining) honce
  · next l now t0 hdone =>
    have hnone : FindsNone s (.sched l now t0) := by
      cases l with
      | done raised => exact (hdone raised rfl).elim
      | _ => trivial
    split at hstep
    · next hforeign =>
      split at hstep
      · next sched os' hsched =>
        obtain ⟨jq, -, heq⟩ := Option.map_eq_some_iff.mp hstep
        cases heq
        have hle := sched_drains hsched hforeign (fun raised => hdone raised)
        exact iff_of_true hnone (hle.trans honce)
      · cases hstep
    · cases hstep

/-- **`_drain_one` is in the job heap at most once throughout a run if and only
    if** no `start` takes effect while it is there, and no call of it ends while
    it is there. -/
theorem atMostOnce_iff {event_bus scheduler : Bool} {s : State T F J} {ls : List (Label T F J)}
    {tr : List (Scheduler.Obs T (Callable J))}
    (hrun : (machine T F J).run (.init event_bus scheduler) ls = some (s, tr)) :
    (machine T F J).Along FindsNone (.init event_bus scheduler) ls ↔
      ∀ pre t tr', pre <+: ls →
        (machine T F J).run (.init event_bus scheduler) pre = some (t, tr') → AtMostOnce t :=
  (machine T F J).along_iff_throughout (I := fun s _ => AtMostOnce s) (Nat.zero_le 1)
    (fun _ _ _ _ _ _ _ _ honce hstep => step_atMostOnce_iff honce hstep) hrun

end JobQueue.OnScheduler
