import Aioscpu.Services.JobConservation
import Aioscpu.Services.JobPriority

/-! # Progress of Jobs

  The queue gets its work done. A job that is submitted brings work with it: as many calls of its
  function as may be needed, at most. A call of `_drain_one` does a piece of this work exactly if
  the queue is running and some queued job is ready, and nothing else but a new submission brings
  work back. So the work that is queued bounds how many calls find a ready job, and once that many
  have, all jobs have ended.
-/

namespace JobQueue

variable {T F : Type}

/-! ### Work -/

/-- How often the function of a queued job may yet be called. -/
def upcoming (job : Job T F) : Nat := max 1 (job.max_retries - job.attempts).toNat

/-- How often the function of a running job may yet be called again. -/
def remaining (job : Job T F) : Nat := (job.max_retries - job.attempts).toNat

/-- How many calls of functions there may yet be, without new jobs. -/
def work (s : State T F) : Nat :=
  (s.jq.queue.map upcoming).sum + (s.frame.map fun call => remaining call.1).getD 0

/-- The work that a submission brings. -/
def brings : Label T F → Nat
  | .submit _ _ _ max_retries _ _ _ => max 1 max_retries.toNat
  | _ => 0

def brought (ls : List (Label T F)) : Nat := (ls.map brings).sum

/-- How many functions are called. -/
def starts (tr : List (Obs T F)) : Nat :=
  tr.countP fun o =>
    match o with
    | .started .. => true
    | _ => false

theorem one_le_upcoming (job : Job T F) : 1 ≤ upcoming job := le_max_left ..

/-- A call that starts a job is one of its calls. -/
theorem remaining_begun (job : Job T F) : remaining job.begun + 1 = upcoming job := by
  unfold remaining upcoming Job.begun
  push_cast
  omega

theorem upcoming_sum_perm {jobs jobs' : List (Job T F)} (h : jobs.Perm jobs') :
    (jobs.map upcoming).sum = (jobs'.map upcoming).sum := (h.map _).sum_eq

@[simp] theorem starts_nil : starts ([] : List (Obs T F)) = 0 := rfl

@[simp] theorem starts_cons (o : Obs T F) (tr : List (Obs T F)) :
    starts (o :: tr) =
      (match o with
      | .started .. => 1
      | _ => 0) + starts tr := by
  unfold starts
  rw [List.countP_cons, Nat.add_comm]
  cases o <;> rfl

@[simp] theorem starts_append (tr os : List (Obs T F)) :
    starts (tr ++ os) = starts tr + starts os := List.countP_append

@[simp] theorem starts_publish (jq : JobQueue T F) (event : JobEvent T) :
    starts (jq.publish event) = 0 := by
  unfold publish
  split <;> rfl

@[simp] theorem starts_start (jq : JobQueue T F) : starts jq.start.2 = 0 := by
  unfold start
  split
  · rfl
  · split <;> rfl

theorem work_eq_zero_iff (s : State T F) :
    work s = 0 ↔ s.jq.queue = [] ∧ ∀ call ∈ s.frame, remaining call.1 = 0 := by
  have hqueue : (s.jq.queue.map upcoming).sum = 0 ↔ s.jq.queue = [] := by
    cases s.jq.queue with
    | nil => simp
    | cons job rest =>
      simpa using fun h : upcoming job = 0 => absurd (one_le_upcoming job) (by omega)
  unfold work
  rw [Nat.add_eq_zero_iff, hqueue]
  cases s.frame <;> simp

/-! ### Ready jobs -/

variable [Clock T]

/-- `_drain_one` is called while the queue is running and has a job that is ready. -/
def ripe (s : State T F) : Label T F → Bool
  | .drain_one now _ => s.jq.running && s.jq.queue.any fun job => job.next_run_at ≤ now
  | _ => false

/-- How many calls of a run find a job that is ready. -/
def ripes (s : State T F) : List (Label T F) → Nat
  | [] => 0
  | l :: ls =>
    (ripe s l).toNat +
      match (machine T F).step s l with
      | none => 0
      | some (s', _) => ripes s' ls

/-- The root of the heap is not ready: no job is. -/
theorem not_ripe_of_idle {s : State T F} (ho : Ordered s) {now t0 : T}
    (hidle : s.jq.running = true → ∀ root ∈ s.jq.queue[0]?, now < root.next_run_at) :
    ripe s (.drain_one now t0) = false := by
  by_contra hripe
  rw [Bool.not_eq_false, ripe, Bool.and_eq_true, List.any_eq_true] at hripe
  obtain ⟨hrunning, job, hjob, hready⟩ := hripe
  rw [decide_eq_true_iff] at hready
  cases hq : s.jq.queue with
  | nil => simp [hq] at hjob
  | cons root rest =>
    have hlate : now < root.next_run_at := hidle hrunning root (by simp [hq])
    obtain ⟨queue, hpop, -⟩ := Heapq.pop_cons Job.lt root rest
    -- no job is earlier than the root, and the root is not ready
    rcases root_earliest ho (hq ▸ hpop) job hjob with hlt | ⟨heq, -⟩
    · exact absurd (lt_trans hlate hlt) (not_lt.mpr hready)
    · exact absurd (heq ▸ hlate) (not_lt.mpr hready)

/-- **One step**: a function is called exactly if the call finds a ready job, and that is work
    done. -/
theorem step_progress {s s' : State T F} {l : Label T F} {os : List (Obs T F)}
    (h : Step s l os s') (ho : Ordered s) :
    starts os = (ripe s l).toNat ∧ starts os + work s' ≤ work s + brings l := by
  cases h with
  | submit name fn priority max_retries delay_s job_id now =>
    have hsum := upcoming_sum_perm (Heapq.push_perm Job.lt s.jq.queue
      { name, fn, priority, max_retries, job_id, attempts := 0, next_run_at := now + delay_s,
        state := .queued, error := "", elapsed_s := Clock.ofSeconds 0, seq := s.jq.seq + 1 })
    refine ⟨by simp [submit, ripe], ?_⟩
    simp only [submit, work, brings, hsum, List.map_cons, List.sum_cons, upcoming, starts_cons,
      starts_publish]
    omega
  | cancel_missing => exact ⟨rfl, by simp [starts]⟩
  | cancel_found job_id job hfind =>
    have hsum := upcoming_sum_perm (without_queue_perm hfind)
    rw [List.map_cons, List.sum_cons] at hsum
    refine ⟨rfl, ?_⟩
    simp only [work, record_eq, starts_cons, starts_nil]
    omega
  | start => simp [start_eq, work, ripe]
  | stop => exact ⟨rfl, by simp [work, stop]⟩
  | drain_idle now t0 hframe hidle =>
    rw [not_ripe_of_idle ho hidle]
    exact ⟨rfl, by simp⟩
  | drain_run now t0 job queue hframe hrunning hpop hready =>
    have hperm := (Heapq.pop_eq_some Job.lt hpop).2
    have hsum := upcoming_sum_perm hperm
    rw [List.map_cons, List.sum_cons] at hsum
    have hripe : ripe s (.drain_one now t0) = true := by
      rw [ripe, hrunning, Bool.true_and, List.any_eq_true]
      exact ⟨job, hperm.mem_iff.mp List.mem_cons_self, decide_eq_true hready⟩
    -- the job leaves the heap and takes its calls to the frame
    have hcall := remaining_begun job
    refine ⟨by simp [hripe], ?_⟩
    simp only [work, activate, hframe, starts_append, starts_publish, starts_cons, starts_nil,
      Option.map_some, Option.getD_some, Option.map_none, Option.getD_none]
    omega
  | returned job t0 t1 hframe =>
    refine ⟨by simp [fn_returns, ripe], ?_⟩
    simp [fn_returns, work, record_eq, deactivate, hframe]
    omega
  | raised job text t0 t1 t2 hframe =>
    refine ⟨?_, ?_⟩
    · unfold fn_raises
      split <;> simp [ripe]
    · unfold fn_raises
      split
      · next hlt =>
        have hsum := upcoming_sum_perm (Heapq.push_perm Job.lt s.jq.queue
          (job.retrying (t1 - t0) text (t2 + Clock.ofSeconds (2 ^ job.attempts))))
        -- a retry brings back the calls that the job has left
        have hagain : upcoming (job.retrying (t1 - t0) text
            (t2 + Clock.ofSeconds (2 ^ job.attempts))) = remaining job := by
          unfold upcoming remaining Job.retrying
          dsimp only
          omega
        rw [List.map_cons, List.sum_cons, hagain] at hsum
        simp only [work, deactivate, hframe, hsum, starts_publish, Option.map_some,
          Option.getD_some, Option.map_none, Option.getD_none]
        omega
      · next hlt =>
        simp [work, record_eq, deactivate, hframe]
        omega

/-! ### Every run -/

theorem run_progress {s s' : State T F} {ls : List (Label T F)} {tr : List (Obs T F)}
    (ho : Ordered s) (hrun : (machine T F).run s ls = some (s', tr)) :
    Ordered s' ∧ starts tr = ripes s ls ∧ starts tr + work s' ≤ work s + brought ls := by
  induction ls generalizing s tr with
  | nil =>
    cases hrun
    exact ⟨ho, rfl, by simp [brought]⟩
  | cons l ls ih =>
    obtain ⟨t, os, tr', hs, hrest, rfl⟩ := (machine T F).run_cons_iff.mp hrun
    have hstep := step_sound hs
    obtain ⟨hstarts, hle⟩ := step_progress hstep ho
    obtain ⟨ho', hstarts', hle'⟩ := ih (step_ordered hstep ho) hrest
    refine ⟨ho', ?_, ?_⟩
    · simp only [ripes, hs, starts_append, hstarts, hstarts']
    · have hbrought : brought (l :: ls) = brings l + brought ls := List.sum_cons
      rw [starts_append, hbrought]
      omega

theorem run_placed {event_bus scheduler : Bool} {ls : List (Label T F)} {s : State T F}
    {tr : List (Obs T F)}
    (hrun : (machine T F).run ⟨init event_bus scheduler, none⟩ ls = some (s, tr)) :
    Slotted s ∧ Placed s tr := by
  have hinit : Slotted (⟨init event_bus scheduler, none⟩ : State T F) ∧
      Placed (⟨init event_bus scheduler, none⟩ : State T F) [] := ⟨rfl, List.Perm.refl _⟩
  refine (machine T F).run_induction (P := fun _ s tr => Slotted s ∧ Placed s tr) hinit ?_ hrun
  rintro ls s tr l s' os - ⟨hslotted, hplaced⟩ hs
  have hstep := step_sound hs
  exact ⟨step_slotted hstep hslotted, step_placed hstep hslotted hplaced⟩

/-- One job is retried and another one is not. -/
def twoSubmitted : List (Label ℚ String) :=
  [.start, .submit "a" "f" 5 2 0 "a" 0, .submit "b" "g" 1 1 0 "b" 0]

def threeDrained : List (Label ℚ String) :=
  [.drain_one 1 1, .fn_raises "no" 2 2, .drain_one 3 3, .fn_raises "not yet" 3 3, .drain_one 4 4,
    .drain_one 10 10, .fn_returns 11]

end JobQueue
