import Aioscpu.Services.JobQueue
import Aioscpu.Framework.Precedes

/-! # Conservation of Jobs

  No job of the queue is lost, duplicated or run when it should not be, in
  any run of `submit`, `cancel`, `start`, `stop` and `_drain_one` whose job
  ids are distinct, with job functions that submit and cancel, and raise:

  - each submitted job is queued, active, in the history, or trimmed from it;
  - a job that was cancelled or has ended is not started again;
  - no job is started before its time;
  - the history is the end of the list of all jobs that have ended.
-/

namespace JobQueue

variable {T F : Type}

/-! ### Histories -/

/-- The job ids that `submit` has returned, in order. -/
def submitted (tr : List (Obs T F)) : List String :=
  tr.filterMap fun
    | .submitted job_id => some job_id
    | _ => none

/-- The jobs that have ended (done, failed or cancelled), in order. -/
def terminated (tr : List (Obs T F)) : List (Job T F) :=
  tr.filterMap fun
    | .terminated job => some job
    | _ => none

/-- The ended jobs that are too old for the history. -/
def trimmed (tr : List (Obs T F)) : List (Job T F) :=
  (terminated tr).rdrop DEFAULT_MAX_HISTORY

def ids (jobs : List (Job T F)) : List String := jobs.map (·.job_id)

@[simp] theorem ids_append (jobs jobs' : List (Job T F)) :
    ids (jobs ++ jobs') = ids jobs ++ ids jobs' := List.map_append

@[simp] theorem ids_cons (job : Job T F) (jobs : List (Job T F)) :
    ids (job :: jobs) = job.job_id :: ids jobs := rfl

theorem ids_perm {jobs jobs' : List (Job T F)} (h : jobs.Perm jobs') :
    (ids jobs).Perm (ids jobs') := h.map _

@[simp] theorem ids_nil : ids ([] : List (Job T F)) = [] := rfl

@[simp] theorem submitted_append (tr os : List (Obs T F)) :
    submitted (tr ++ os) = submitted tr ++ submitted os := List.filterMap_append

@[simp] theorem terminated_append (tr os : List (Obs T F)) :
    terminated (tr ++ os) = terminated tr ++ terminated os := List.filterMap_append

@[simp] theorem submitted_nil : submitted ([] : List (Obs T F)) = [] := rfl

@[simp] theorem terminated_nil : terminated ([] : List (Obs T F)) = [] := rfl

@[simp] theorem submitted_cons (o : Obs T F) (tr : List (Obs T F)) :
    submitted (o :: tr) =
      (match o with
      | .submitted job_id => [job_id]
      | _ => []) ++ submitted tr := by
  cases o <;> rfl

@[simp] theorem terminated_cons (o : Obs T F) (tr : List (Obs T F)) :
    terminated (o :: tr) =
      (match o with
      | .terminated job => [job]
      | _ => []) ++ terminated tr := by
  cases o <;> rfl

@[simp] theorem submitted_publish (self : JobQueue T F) (event : JobEvent T) :
    submitted (self.publish event) = [] := by
  unfold publish
  split <;> rfl

@[simp] theorem terminated_publish (self : JobQueue T F) (event : JobEvent T) :
    terminated (self.publish event) = [] := by
  unfold publish
  split <;> rfl

@[simp] theorem submitted_start (self : JobQueue T F) : submitted self.start.2 = [] := by
  unfold start
  split
  · rfl
  · split <;> rfl

@[simp] theorem terminated_start (self : JobQueue T F) : terminated self.start.2 = [] := by
  unfold start
  split
  · rfl
  · split <;> rfl

theorem mem_terminated {tr : List (Obs T F)} {job : Job T F} (h : .terminated job ∈ tr) :
    job ∈ terminated tr :=
  List.mem_filterMap.mpr ⟨_, h, rfl⟩

/-! ### The law -/

variable [Clock T]

/-- What the queue owes to the jobs that were submitted to it. -/
structure Conserved (s : State T F) (tr : List (Obs T F)) : Prop where
  /-- Each submitted job is in exactly one of the four places. -/
  one_place : ∀ job_id ∈ submitted tr,
    (ids s.jq.queue).count job_id + (ids s.jq.active).count job_id +
      (ids s.jq.history).count job_id + (ids (trimmed tr)).count job_id = 1
  queued : ∀ job ∈ s.jq.queue, job.state = .queued ∨ job.state = .retrying
  active : ∀ job ∈ s.jq.active, job.state = .running
  ended : ∀ job ∈ s.jq.history,
    job.state = .done ∨ job.state = .failed ∨ job.state = .cancelled
  history : s.jq.history = (terminated tr).rtake (min 200 (terminated tr).length)
  /-- No job is started after `cancel` has returned `True` for it. -/
  cancelled_stays : ∀ job now pending,
    ¬ Precedes tr (.cancelled job.job_id true) (.started job now pending)
  /-- No job is started after it has ended. -/
  ended_stays : ∀ job job' now pending, job.job_id = job'.job_id →
    ¬ Precedes tr (.terminated job) (.started job' now pending)
  /-- No job is started before its time. -/
  ready : ∀ job now pending, .started job now pending ∈ tr → job.next_run_at ≤ now

/-! ### Places -/

/-- The active slot is the job of the active call of `_drain_one`. -/
def Slotted (s : State T F) : Prop := s.jq.active = s.frame.toList.map Prod.fst

/-- The ids in the queue, in the active slot and of the ended jobs are the
    submitted ones. -/
def Placed (s : State T F) (tr : List (Obs T F)) : Prop :=
  (ids s.jq.queue ++ ids s.jq.active ++ ids (terminated tr)).Perm (submitted tr)

omit [Clock T] in
theorem Slotted.active {s : State T F} (hs : Slotted s) {job : Job T F} {t0 : T}
    (hframe : s.frame = some (job, t0)) : s.jq.active = [job] := by
  rw [hs, hframe]
  rfl

theorem step_slotted {s s' : State T F} {l : Label T F} {os : List (Obs T F)}
    (h : Step s l os s') (hs : Slotted s) : Slotted s' := by
  cases h with
  | submit => exact hs
  | cancel_missing => exact hs
  | cancel_found job_id job _ =>
    show ((s.jq.without job_id).record job.cancelled).active = _
    rw [record_eq]
    exact hs
  | start =>
    show s.jq.start.1.active = _
    rw [start_eq]
    exact hs
  | stop => exact hs
  | drain_idle => exact hs
  | drain_run now t0 job queue hframe _ _ _ =>
    -- outside of a call the slot is empty
    have hnil : s.jq.active = [] := by
      rw [hs, hframe]
      rfl
    simp [Slotted, activate, hnil]
  | returned job t0 t1 hframe =>
    simp [Slotted, fn_returns, record_eq, deactivate, hs.active hframe]
  | raised job text t0 t1 t2 hframe =>
    unfold fn_raises
    split
    · simp [Slotted, deactivate, hs.active hframe]
    · simp [Slotted, record_eq, deactivate, hs.active hframe]

/-- One step of the places: the ids move, and the submitted ones come in.
    Each case counts an id on both sides. -/
theorem step_moves {s s' : State T F} {l : Label T F} {os : List (Obs T F)}
    (h : Step s l os s') (hs : Slotted s) :
    (ids s'.jq.queue ++ ids s'.jq.active ++ ids (terminated os)).Perm
      (ids s.jq.queue ++ ids s.jq.active ++ submitted os) := by
  rw [List.perm_iff_count]
  intro a
  cases h with
  -- the new id is submitted and enters the queue
  | submit name fn priority max_retries delay_s job_id now =>
    obtain ⟨job, rfl, -, hq⟩ :=
      submit_queue_perm s.jq name fn priority max_retries delay_s job_id now
    have hcount := (ids_perm hq).count_eq a
    simp [submit, List.count_cons] at hcount ⊢
    omega
  | cancel_missing => simp
  -- from the queue to the ended jobs
  | cancel_found job_id job hfind =>
    have hcount := (ids_perm (without_queue_perm hfind)).count_eq a
    simp [record_eq, List.count_cons] at hcount ⊢
    omega
  | start => simp [start_eq]
  | stop => simp [stop]
  | drain_idle => simp
  -- from the queue to the empty active slot
  | drain_run now t0 job queue hframe _ hpop _ =>
    have hnil : s.jq.active = [] := by rw [hs, hframe]; rfl
    have hcount := (ids_perm (Heapq.pop_eq_some Job.lt hpop).2).count_eq a
    simp [activate, hnil, List.count_cons] at hcount ⊢
    omega
  -- from the active slot to the ended jobs
  | returned job t0 t1 hframe =>
    simp [fn_returns, record_eq, deactivate, hs.active hframe]
  -- from the active slot back to the queue, or to the ended jobs
  | raised job text t0 t1 t2 hframe =>
    have hactive := hs.active hframe
    unfold fn_raises
    split
    · have hpush := Heapq.push_perm Job.lt s.jq.queue
        (job.retrying (t1 - t0) text (t2 + Clock.ofSeconds (2 ^ job.attempts)))
      have hcount := (ids_perm hpush).count_eq a
      simp [deactivate, hactive, List.count_cons] at hcount ⊢
      omega
    · simp [record_eq, deactivate, hactive]

theorem step_placed {s s' : State T F} {l : Label T F} {os : List (Obs T F)}
    (h : Step s l os s') (hs : Slotted s) {tr : List (Obs T F)} (hp : Placed s tr) :
    Placed s' (tr ++ os) := by
  unfold Placed
  rw [List.perm_iff_count]
  intro a
  have hmove := (step_moves h hs).count_eq a
  have hplaced := List.Perm.count_eq hp a
  simp only [List.count_append, ids_append, submitted_append, terminated_append]
    at hmove hplaced ⊢
  omega

/-! ### States -/

/-- The states of the jobs fit the places. -/
structure Stated (s : State T F) (tr : List (Obs T F)) : Prop where
  queued : ∀ job ∈ s.jq.queue, job.state = .queued ∨ job.state = .retrying
  active : ∀ job ∈ s.jq.active, job.state = .running
  ended : ∀ job ∈ terminated tr,
    job.state = .done ∨ job.state = .failed ∨ job.state = .cancelled

theorem step_stated {s s' : State T F} {l : Label T F} {os tr : List (Obs T F)}
    (h : Step s l os s') (hs : Stated s tr) : Stated s' (tr ++ os) := by
  obtain ⟨hqueued, hactive, hended⟩ := hs
  have hrest : ∀ job' : Job T F, ∀ job ∈ s.jq.active.filter (·.job_id ≠ job'.job_id),
      job.state = .running := by
    intro job' job hmem
    exact hactive job (List.mem_filter.mp hmem).1
  have hmore : ∀ job : Job T F,
      job.state = .done ∨ job.state = .failed ∨ job.state = .cancelled →
      ∀ job' ∈ terminated tr ++ [job],
        job'.state = .done ∨ job'.state = .failed ∨ job'.state = .cancelled := by
    intro job hjob job' hmem
    rcases List.mem_append.mp hmem with hmem | hmem
    · exact hended job' hmem
    · exact List.mem_singleton.mp hmem ▸ hjob
  cases h with
  | submit name fn priority max_retries delay_s job_id now =>
    obtain ⟨job, -, hstate, hq⟩ :=
      submit_queue_perm s.jq name fn priority max_retries delay_s job_id now
    refine ⟨?_, hactive, by simpa [submit] using hended⟩
    intro job' hmem
    rcases List.mem_cons.mp (hq.mem_iff.mp hmem) with rfl | hmem
    · exact Or.inl hstate
    · exact hqueued job' hmem
  | cancel_missing => exact ⟨hqueued, hactive, by simpa using hended⟩
  | cancel_found job_id job hfind =>
    have hq := without_queue_perm hfind
    refine ⟨?_, ?_, by simpa using hmore job.cancelled (Or.inr (Or.inr rfl))⟩
    · intro job' hmem
      rw [record_eq] at hmem
      exact hqueued job' (hq.mem_iff.mp (List.mem_cons_of_mem job hmem))
    · rw [record_eq]
      exact hactive
  | start =>
    rw [start_eq]
    exact ⟨hqueued, hactive, by simpa using hended⟩
  | stop => exact ⟨hqueued, hactive, by simpa using hended⟩
  | drain_idle => exact ⟨hqueued, hactive, by simpa using hended⟩
  | drain_run now t0 job queue _ _ hpop _ =>
    have hq := (Heapq.pop_eq_some Job.lt hpop).2
    refine ⟨?_, ?_, by simpa using hended⟩
    · intro job' hmem
      exact hqueued job' (hq.mem_iff.mp (List.mem_cons_of_mem job hmem))
    · intro job' hmem
      rcases List.mem_cons.mp hmem with rfl | hmem
      · rfl
      · exact hrest job.begun job' hmem
  | returned job t0 t1 _ =>
    simp only [fn_returns, record_eq]
    exact ⟨hqueued, hrest _, by simpa using hmore (job.completed (t1 - t0)) (Or.inl rfl)⟩
  | raised job text t0 t1 t2 _ =>
    unfold fn_raises
    split
    · refine ⟨?_, hrest _, by simpa using hended⟩
      intro job' hmem
      rcases List.mem_cons.mp ((Heapq.push_perm Job.lt _ _).mem_iff.mp hmem) with rfl | hmem
      · exact Or.inr rfl
      · exact hqueued job' hmem
    · simp only [record_eq]
      exact ⟨hqueued, hrest _,
        by simpa using hmore (job.failed (t1 - t0) text) (Or.inr (Or.inl rfl))⟩

/-! ### The history -/

/-- The history is the end of the list of ended jobs. -/
def Recorded (s : State T F) (tr : List (Obs T F)) : Prop :=
  s.jq.max_history = DEFAULT_MAX_HISTORY ∧
    s.jq.history = (terminated tr).rtake DEFAULT_MAX_HISTORY

/-- Keeping the newest entries each time keeps the newest of all. -/
theorem rtake_append_rtake {α : Type} (l l' : List α) (n : Nat) :
    (l.rtake n ++ l').rtake n = (l ++ l').rtake n := by
  simp only [List.rtake_eq_reverse_take_reverse, List.reverse_append, List.reverse_reverse,
    List.take_append, List.take_take]
  congr 2
  congr 1
  omega

omit [Clock T] in
theorem record_recorded (jq : JobQueue T F) (job : Job T F) {tr : List (Obs T F)}
    (hmax : jq.max_history = DEFAULT_MAX_HISTORY)
    (hhist : jq.history = (terminated tr).rtake DEFAULT_MAX_HISTORY) :
    (jq.record job).max_history = DEFAULT_MAX_HISTORY ∧
      (jq.record job).history = (terminated tr ++ [job]).rtake DEFAULT_MAX_HISTORY := by
  rw [record_eq]
  refine ⟨hmax, ?_⟩
  show (jq.history ++ [job]).rtake jq.max_history = _
  rw [hmax, hhist, rtake_append_rtake]

theorem step_recorded {s s' : State T F} {l : Label T F} {os : List (Obs T F)}
    (h : Step s l os s') {tr : List (Obs T F)} (hr : Recorded s tr) :
    Recorded s' (tr ++ os) := by
  obtain ⟨hmax, hhist⟩ := hr
  unfold Recorded
  rw [terminated_append]
  cases h with
  | submit => simpa [submit] using ⟨hmax, hhist⟩
  | cancel_missing => simpa using ⟨hmax, hhist⟩
  | cancel_found job_id job _ => 
    simpa using record_recorded (s.jq.without job_id) job.cancelled hmax hhist
  | start => simpa [start_eq] using ⟨hmax, hhist⟩
  | stop => simpa [stop] using ⟨hmax, hhist⟩
  | drain_idle => simpa using ⟨hmax, hhist⟩
  | drain_run => simpa [activate] using ⟨hmax, hhist⟩
  | returned job t0 t1 _ =>
    simpa [fn_returns] using
      record_recorded (s.jq.deactivate _) (job.completed (t1 - t0)) hmax hhist
  | raised job text t0 t1 t2 _ =>
    unfold fn_raises
    split
    · simpa [deactivate] using ⟨hmax, hhist⟩
    · simpa using record_recorded (s.jq.deactivate _) (job.failed (t1 - t0) text) hmax hhist

/-! ### Order -/

/-- What has ended, what was cancelled, and what was started in time. -/
structure Settled (tr : List (Obs T F)) : Prop where
  cancelled_ended : ∀ job_id, .cancelled job_id true ∈ tr → job_id ∈ ids (terminated tr)
  cancelled_stays : ∀ job now pending,
    ¬ Precedes tr (.cancelled job.job_id true) (.started job now pending)
  ended_stays : ∀ job job' now pending, job.job_id = job'.job_id →
    ¬ Precedes tr (.terminated job) (.started job' now pending)
  ready : ∀ job now pending, .started job now pending ∈ tr → job.next_run_at ≤ now

/-- A job that `cancel` finds ends in that step. -/
theorem step_cancelled {s s' : State T F} {l : Label T F} {os : List (Obs T F)}
    (h : Step s l os s') {job_id : String} (hmem : .cancelled job_id true ∈ os) :
    job_id ∈ ids (terminated os) := by
  have hpub : ∀ (jq : JobQueue T F) e, .cancelled job_id true ∉ jq.publish e := by
    intro jq e he
    cases mem_publish he
  cases h with
  | submit => simp [submit, hpub] at hmem
  | cancel_missing => simp at hmem
  | cancel_found job_id' job hfind =>
    simp at hmem
    subst hmem
    have hid := List.find?_some hfind
    simpa using (of_decide_eq_true hid).symm
  | start => cases mem_start hmem
  | stop => cases hmem
  | drain_idle => cases hmem
  | drain_run => simp [hpub] at hmem
  | returned => simp [fn_returns, hpub] at hmem
  | raised =>
    unfold fn_raises at hmem
    split at hmem
    · exact absurd hmem (hpub _ _)
    · simp [hpub] at hmem

/-- A started job comes from the queue, so it has not ended. -/
theorem started_not_ended {s s' : State T F} {l : Label T F} {os tr : List (Obs T F)}
    (h : Step s l os s') (hp : Placed s tr) (hnodup : (submitted tr).Nodup)
    {job : Job T F} {now : T} {pending : List (Job T F)}
    (hmem : .started job now pending ∈ os) : job.job_id ∉ ids (terminated tr) := by
  obtain ⟨root, -, -, -, -, hpop, -, rfl, -⟩ := step_started h hmem
  have hroot : root ∈ s.jq.queue :=
    (Heapq.pop_eq_some Job.lt hpop).2.mem_iff.mp List.mem_cons_self
  have hqueue : root.job_id ∈ ids s.jq.queue ++ ids s.jq.active :=
    List.mem_append_left _ (List.mem_map_of_mem hroot)
  exact List.disjoint_of_nodup_append (hp.nodup_iff.mpr hnodup) hqueue

theorem step_settled {s s' : State T F} {l : Label T F} {os tr : List (Obs T F)}
    (h : Step s l os s') (hp : Placed s tr) (hnodup : (submitted tr).Nodup)
    (hs : Settled tr) : Settled (tr ++ os) where
  cancelled_ended := by
    intro job_id hmem
    rw [terminated_append, ids_append]
    rcases List.mem_append.mp hmem with hmem | hmem
    · exact List.mem_append_left _ (hs.cancelled_ended job_id hmem)
    · exact List.mem_append_right _ (step_cancelled h hmem)
  cancelled_stays := by
    intro job now pending hprec
    -- both before the step, across it, or both in it
    rcases Precedes.append_iff.mp hprec with hprec | ⟨hbefore, hmem⟩ | hprec
    · exact hs.cancelled_stays job now pending hprec
    · exact started_not_ended h hp hnodup hmem (hs.cancelled_ended _ hbefore)
    · obtain ⟨_, _, _, _, _, _, _, _, honly⟩ := step_started h hprec.mem_right
      rcases honly _ hprec.mem_left with heq | ⟨e, heq⟩
      · cases heq
      · cases heq
  ended_stays := by
    intro job job' now pending hid hprec
    rcases Precedes.append_iff.mp hprec with hprec | ⟨hbefore, hmem⟩ | hprec
    · exact hs.ended_stays job job' now pending hid hprec
    · apply started_not_ended h hp hnodup hmem
      rw [← hid]
      exact List.mem_map_of_mem (mem_terminated hbefore)
    · obtain ⟨_, _, _, _, _, _, _, _, honly⟩ := step_started h hprec.mem_right
      rcases honly _ hprec.mem_left with heq | ⟨e, heq⟩
      · cases heq
      · cases heq
  ready := by
    intro job now pending hmem
    rcases List.mem_append.mp hmem with hmem | hmem
    · exact hs.ready job now pending hmem
    · obtain ⟨root, -, -, -, -, -, hready, rfl, -⟩ := step_started h hmem
      exact hready

/-! ### Every run -/

/-- What holds after every run with distinct job ids. -/
structure Inv (s : State T F) (tr : List (Obs T F)) : Prop where
  slotted : Slotted s
  placed : Placed s tr
  stated : Stated s tr
  recorded : Recorded s tr
  settled : Settled tr

theorem run_inv {event_bus scheduler : Bool} {ls : List (Label T F)} {s : State T F}
    {tr : List (Obs T F)}
    (hrun : (machine T F).run ⟨init event_bus scheduler, none⟩ ls = some (s, tr))
    (hnodup : (submitted tr).Nodup) : Inv s tr := by
  revert hnodup
  apply (machine T F).run_induction (P := fun _ s tr => (submitted tr).Nodup → Inv s tr) ?_ ?_
    hrun
  · intro _
    refine ⟨rfl, List.Perm.refl _, ⟨by simp [init], by simp [init], by simp⟩,
      ⟨rfl, (List.rtake_nil _).symm⟩, ?_⟩
    exact ⟨by simp, by simp, by simp, by simp⟩
  · intro ls s tr l s' os _ ih hs hnodup
    rw [submitted_append] at hnodup
    have hnodup' := hnodup.of_append_left
    obtain ⟨hslot, hplaced, hstated, hrec, hsettled⟩ := ih hnodup'
    have hstep := step_sound hs
    exact ⟨step_slotted hstep hslot, step_placed hstep hslot hplaced,
      step_stated hstep hstated, step_recorded hstep hrec,
      step_settled hstep hplaced hnodup' hsettled⟩

/-- **Conservation of jobs**: in every run with distinct job ids, whatever the
    job functions submit, cancel and raise, each submitted job is in exactly
    one place, in a state that fits it, no job is started before its time,
    after a cancellation or after its end, and the history is the end of the
    list of ended jobs. -/
theorem jobs_conserved {event_bus scheduler : Bool} {ls : List (Label T F)} {s : State T F}
    {tr : List (Obs T F)}
    (hrun : (machine T F).run ⟨init event_bus scheduler, none⟩ ls = some (s, tr))
    (hnodup : (submitted tr).Nodup) : Conserved s tr := by
  obtain ⟨-, hplaced, hstated, ⟨-, hhist⟩, hsettled⟩ := run_inv hrun hnodup
  -- the ended jobs are the trimmed ones followed by the history
  have hsplit : terminated tr = trimmed tr ++ s.jq.history := by
    rw [hhist]
    exact (List.take_append_drop _ _).symm
  have hmin : s.jq.history = (terminated tr).rtake (min 200 (terminated tr).length) := by
    have hdrop : (terminated tr).length - DEFAULT_MAX_HISTORY =
        (terminated tr).length - min 200 (terminated tr).length := by
      unfold DEFAULT_MAX_HISTORY
      omega
    rw [hhist, List.rtake, List.rtake, hdrop]
  refine ⟨?_, hstated.queued, hstated.active, ?_, hmin, hsettled.cancelled_stays,
    hsettled.ended_stays, hsettled.ready⟩
  -- a submitted id occurs once in the submissions, so once in the places
  · intro job_id hmem
    have hone : (submitted tr).count job_id = 1 := List.count_eq_one_of_mem hnodup hmem
    have hcount := List.Perm.count_eq hplaced job_id
    rw [hsplit] at hcount
    simp only [ids_append, List.count_append] at hcount
    omega
  · intro job hmem
    apply hstated.ended
    rw [hsplit]
    exact List.mem_append_right _ hmem

/-- The function of the first job submits a third job, cancels the second and
    raises; the third job fails; the first one is run again. -/
def nested : List (Label ℚ String) :=
  [.submit "a" "f" 5 3 0 "1" 0, .submit "b" "g" 5 3 0 "2" 0, .start, .drain_one 1 1,
    .submit "c" "h" 0 1 0 "3" 1, .cancel "2", .fn_raises "boom" 2 2, .drain_one 3 3,
    .fn_raises "boom" 4 4, .drain_one 4 4, .fn_returns 5]

theorem jobs_conserved_nested :
    ∃ s tr, (machine ℚ String).run ⟨init true true, none⟩ nested = some (s, tr) ∧
      Conserved s tr := by
  obtain ⟨s, tr, hrun, hnodup⟩ := (machine ℚ String).exists_run ⟨init true true, none⟩ nested
    (fun _ tr => decide (submitted tr).Nodup) (by decide +kernel)
  exact ⟨s, tr, hrun, jobs_conserved hrun (of_decide_eq_true hnodup)⟩

end JobQueue
