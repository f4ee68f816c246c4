import Aioscpu.Services.JobConservation
import Mathlib.Order.Bounds.Basic

/-! # Retries

  How often the function of a job is called, in any run: other jobs are submitted,
  cancelled and run at any time. A job is known by its submission number.

  `max_retries` is compared with the attempts so far, the first run included. So a job
  with `max_retries = n` is run `n` times at most, or once if `n = 0`, and not `n + 1`
  times.
-/

namespace JobQueue

variable {T F : Type}

/-! ### The history of a job -/

/-- The jobs that are running or in the heap. -/
def live (s : State T F) : List (Job T F) := (s.frame.map Prod.fst).toList ++ s.jq.queue

def seqs (jobs : List (Job T F)) : List Nat := jobs.map Job.seq

/-- How often the function of the job is called. -/
def calls (seq : Nat) (tr : List (Obs T F)) : Nat :=
  (tr.filterMap fun
    | .started job _ _ => some job.seq
    | _ => none).count seq

/-- The ends of the job. -/
def ends (seq : Nat) (tr : List (Obs T F)) : List (Job T F) :=
  (terminated tr).filter fun job => job.seq = seq

/-- How the function of the job ends in a step, if it does: `true` if it returns. -/
def outcome (seq : Nat) (s : State T F) (l : Label T F) : List Bool :=
  match l, s.frame with
  | .fn_returns _, some (job, _) => if job.seq = seq then [true] else []
  | .fn_raises _ _ _, some (job, _) => if job.seq = seq then [false] else []
  | _, _ => []

@[simp] theorem calls_nil (seq : Nat) : calls seq ([] : List (Obs T F)) = 0 := rfl

@[simp] theorem calls_append (seq : Nat) (tr os : List (Obs T F)) :
    calls seq (tr ++ os) = calls seq tr + calls seq os := by
  unfold calls
  rw [List.filterMap_append, List.count_append]

@[simp] theorem calls_publish (seq : Nat) (jq : JobQueue T F) (event : JobEvent T) :
    calls seq (jq.publish event) = 0 := by
  unfold publish
  split <;> rfl

@[simp] theorem calls_start (seq : Nat) (jq : JobQueue T F) : calls seq jq.start.2 = 0 := by
  unfold start
  split
  · rfl
  · split <;> rfl

@[simp] theorem ends_append (seq : Nat) (tr os : List (Obs T F)) :
    ends seq (tr ++ os) = ends seq tr ++ ends seq os := by
  unfold ends
  rw [terminated_append, List.filter_append]

variable [Clock T]

/-- How the calls of the job's function end in a run. -/
def outcomes (seq : Nat) : State T F → List (Label T F) → List Bool
  | _, [] => []
  | s, l :: ls =>
    match (machine T F).step s l with
    | none => []
    | some (s', _) => outcome seq s l ++ outcomes seq s' ls

/-! ### Submission numbers -/

/-- Each live job has its own number, up to the last one that was given. -/
structure Numbered (s : State T F) : Prop where
  distinct : (seqs (live s)).Nodup
  bounded : ∀ seq ∈ seqs (live s), seq ≤ s.jq.seq

/-- The numbers that the step gives. -/
def given (s : State T F) : Label T F → List Nat
  | .submit _ _ _ _ _ _ _ => [s.jq.seq + 1]
  | _ => []

omit [Clock T] in
theorem seqs_perm {jobs jobs' : List (Job T F)} (h : jobs.Perm jobs') :
    (seqs jobs).Perm (seqs jobs') := h.map _

theorem step_seq {s s' : State T F} {l : Label T F} {os : List (Obs T F)}
    (h : Step s l os s') : s'.jq.seq = s.jq.seq + (given s l).length := by
  cases h with
  | submit => rfl
  | cancel_missing => rfl
  | cancel_found => rw [record_eq]; rfl
  | start => rw [start_eq]; rfl
  | stop => rfl
  | drain_idle => rfl
  | drain_run => rfl
  | returned => simp only [fn_returns, record_eq]; rfl
  | raised =>
    unfold fn_raises
    split
    · rfl
    · simp only [record_eq]; rfl

/-- A step that ends no job and gives no number keeps the live jobs' numbers; the jobs
    that it ends leave. -/
theorem step_seqs {s s' : State T F} {l : Label T F} {os : List (Obs T F)}
    (h : Step s l os s') :
    (seqs (terminated os) ++ seqs (live s')).Perm (given s l ++ seqs (live s)) := by
  cases h with
  | submit name fn priority max_retries delay_s job_id now =>
    simp only [submit, terminated_cons, terminated_publish, List.append_nil, List.nil_append,
      seqs, live, List.map_nil]
    rw [List.map_append, List.map_append]
    refine ((Heapq.push_perm Job.lt _ _).map Job.seq |>.append_left _).trans ?_
    exact List.perm_middle
  | cancel_missing => exact List.Perm.refl _
  | cancel_found job_id job hfind =>
    rw [record_eq]
    simp only [terminated_cons, terminated_nil, List.nil_append, List.append_nil, seqs, live,
      List.map_append, List.map_cons, List.map_nil, List.cons_append]
    refine List.perm_middle.symm.trans ?_
    exact ((without_queue_perm hfind).map Job.seq).append_left _
  | start =>
    rw [start_eq, terminated_start]
    exact List.Perm.refl _
  | stop => exact List.Perm.refl _
  | drain_idle => exact List.Perm.refl _
  | drain_run now t0 job queue hframe hrunning hpop hready =>
    have hperm := (Heapq.pop_eq_some Job.lt hpop).2.map Job.seq
    simp only [terminated_append, terminated_publish, terminated_cons, terminated_nil,
      List.append_nil, List.nil_append, seqs, live, hframe, Option.map_none, Option.toList_none]
    exact hperm
  | returned job t0 t1 hframe =>
    simp only [fn_returns, record_eq, terminated_append, terminated_publish, terminated_cons,
      terminated_nil, List.append_nil, List.nil_append, seqs, live, hframe]
    exact List.Perm.refl _
  | raised job text t0 t1 t2 hframe =>
    unfold fn_raises
    split
    · simp only [terminated_publish, seqs, live, hframe, List.map_nil, List.nil_append]
      exact (Heapq.push_perm Job.lt _ _).map Job.seq
    · simp only [record_eq, terminated_append, terminated_publish, terminated_cons,
        terminated_nil, List.append_nil, List.nil_append, seqs, live, hframe]
      exact List.Perm.refl _

theorem step_numbered {s s' : State T F} {l : Label T F} {os : List (Obs T F)}
    (h : Step s l os s') (hn : Numbered s) : Numbered s' := by
  have hperm := step_seqs h
  have hlast := step_seq h
  have hgiven : ∀ seq ∈ given s l, seq = s.jq.seq + 1 ∧ (given s l).length = 1 := by
    intro seq hmem
    cases l <;> simp_all [given]
  have hnodup : (given s l ++ seqs (live s)).Nodup := by
    refine List.Nodup.append ?_ hn.distinct ?_
    · cases l <;> simp [given]
    · intro seq hmem hlive
      have := hn.bounded seq hlive
      have := (hgiven seq hmem).1
      omega
  refine ⟨(List.nodup_append.mp (hperm.nodup_iff.mpr hnodup)).2.1, fun seq hmem => ?_⟩
  rcases List.mem_append.mp (hperm.mem_iff.mp (List.mem_append_right _ hmem)) with hmem | hmem
  · obtain ⟨rfl, hone⟩ := hgiven seq hmem
    omega
  · have := hn.bounded seq hmem
    omega

/-! ### One job -/

/-- How a job with `max_retries = n` ends: after so many calls with these outcomes. -/
inductive Ended (n : Nat) : Nat → List Bool → JobState → Prop
  | done {c : Nat} (hmore : c = 0 ∨ c < n) :
      Ended n (c + 1) (List.replicate c false ++ [true]) .done
  | failed {c : Nat} (hlast : c = max 1 n) : Ended n c (List.replicate c false) .failed
  | cancelled {c : Nat} {outs : List Bool} : Ended n c outs .cancelled

/-- Where the job is after so many calls, with their outcomes and the ends of the job. -/
inductive Track (seq n : Nat) (s : State T F) : Nat → List Bool → List (Job T F) → Prop
  | queued {job : Job T F} {c : Nat} (hmem : job ∈ s.jq.queue) (hseq : job.seq = seq)
      (hmax : job.max_retries = n) (hattempts : job.attempts = c) (hmore : c = 0 ∨ c < n) :
      Track seq n s c (List.replicate c false) []
  | running {job : Job T F} {t0 : T} {c : Nat} (hframe : s.frame = some (job, t0))
      (hseq : job.seq = seq) (hmax : job.max_retries = n) (hattempts : job.attempts = c + 1)
      (hmore : c = 0 ∨ c < n) : Track seq n s (c + 1) (List.replicate c false) []
  | ended {job : Job T F} {c : Nat} {outs : List Bool} (hgone : seq ∉ seqs (live s))
      (hgiven : seq ≤ s.jq.seq) (hended : Ended n c outs job.state) :
      Track seq n s c outs [job]

omit [Clock T] in
theorem mem_live_of_queue {s : State T F} {job : Job T F} (h : job ∈ s.jq.queue) :
    job ∈ live s := List.mem_append_right _ h

omit [Clock T] in
theorem mem_live_of_frame {s : State T F} {job : Job T F} {t0 : T}
    (h : s.frame = some (job, t0)) : job ∈ live s := by
  unfold live
  rw [h]
  exact List.mem_append_left _ List.mem_cons_self

omit [Clock T] in
/-- Live jobs with the same number are the same. -/
theorem Numbered.eq_of_seq {s : State T F} (hn : Numbered s) {job job' : Job T F}
    (h : job ∈ live s) (h' : job' ∈ live s) (hseq : job.seq = job'.seq) : job = job' :=
  List.inj_on_of_nodup_map hn.distinct h h' hseq

omit [Clock T] in
/-- The running job is not in the heap. -/
theorem Numbered.frame_ne {s : State T F} (hn : Numbered s) {job job' : Job T F} {t0 : T}
    (hframe : s.frame = some (job, t0)) (hmem : job' ∈ s.jq.queue) : job.seq ≠ job'.seq := by
  have hnodup := hn.distinct
  unfold live at hnodup
  rw [hframe] at hnodup
  intro heq
  have hnot : job.seq ∉ s.jq.queue.map Job.seq := (List.nodup_cons.mp hnodup).1
  exact hnot (heq ▸ List.mem_map_of_mem hmem)

/-- The function of no other job than the root of the heap is called. -/
theorem calls_eq_zero {s s' : State T F} {l : Label T F} {os : List (Obs T F)} {seq : Nat}
    (h : Step s l os s') (hroot : ∀ now t0 job queue, l = .drain_one now t0 →
      Heapq.pop Job.lt s.jq.queue = some (job, queue) → job.seq ≠ seq) : calls seq os = 0 := by
  cases h with
  | submit => exact calls_publish _ _ _
  | cancel_missing => rfl
  | cancel_found => rfl
  | start => exact calls_start _ _
  | stop => rfl
  | drain_idle => rfl
  | drain_run now t0 job queue hframe hrunning hpop hready =>
    have hne : job.begun.seq ≠ seq := hroot now t0 job queue rfl hpop
    rw [calls_append, calls_publish]
    simp [calls, hne]
  | returned =>
    unfold fn_returns
    rw [calls_append, calls_publish]
    rfl
  | raised =>
    unfold fn_raises
    split
    · exact calls_publish _ _ _
    · rw [calls_append, calls_publish]
      rfl

omit [Clock T] in
/-- No other function than that of the active job ends. -/
theorem outcome_eq_nil {s : State T F} {seq : Nat}
    (hframe : ∀ job t0, s.frame = some (job, t0) → job.seq ≠ seq) (l : Label T F) :
    outcome seq s l = [] := by
  unfold outcome
  split
  · next job t0 heq => rw [if_neg (hframe job t0 heq)]
  · next job t0 heq => rw [if_neg (hframe job t0 heq)]
  · rfl

omit [Clock T] in
theorem ends_eq_nil {os : List (Obs T F)} {seq : Nat} (h : seq ∉ seqs (terminated os)) :
    ends seq os = [] := by
  refine List.filter_eq_nil_iff.mpr fun job hmem => ?_
  rw [decide_eq_true_eq]
  rintro rfl
  exact h (List.mem_map_of_mem hmem)

omit [Clock T] in
theorem ends_terminated (jq : JobQueue T F) (event : JobEvent T) (job : Job T F) :
    ends job.seq (jq.publish event ++ [.terminated job]) = [job] := by
  simp [ends]

/-- A job that is gone stays so. -/
theorem step_gone {s s' : State T F} {l : Label T F} {os : List (Obs T F)} {seq : Nat}
    (h : Step s l os s') (hgone : seq ∉ seqs (live s)) (hgiven : seq ≤ s.jq.seq) :
    (seq ∉ seqs (live s') ∧ seq ≤ s'.jq.seq) ∧
      calls seq os = 0 ∧ outcome seq s l = [] ∧ ends seq os = [] := by
  have hbefore : seq ∉ given s l ++ seqs (live s) := by
    rw [List.mem_append, not_or]
    refine ⟨fun hmem => ?_, hgone⟩
    cases l <;> simp [given] at hmem
    omega
  have hafter := mt (step_seqs h).mem_iff.mp hbefore
  rw [List.mem_append, not_or] at hafter
  have hlive : ∀ job ∈ live s, job.seq ≠ seq := by
    rintro job hmem rfl
    exact hgone (List.mem_map_of_mem hmem)
  refine ⟨⟨hafter.2, by rw [step_seq h]; omega⟩, ?_, ?_, ends_eq_nil hafter.1⟩
  · refine calls_eq_zero h fun _ _ job queue _ hpop => hlive job (mem_live_of_queue ?_)
    exact (Heapq.pop_eq_some Job.lt hpop).2.mem_iff.mp List.mem_cons_self
  · exact outcome_eq_nil (fun job t0 hframe => hlive job (mem_live_of_frame hframe)) l

/-- A job in the heap stays there, is run or is cancelled. -/
theorem step_queued {s s' : State T F} {l : Label T F} {os : List (Obs T F)} {n c : Nat}
    (h : Step s l os s') (hn : Numbered s) {job : Job T F} (hmem : job ∈ s.jq.queue)
    (hmax : job.max_retries = n) (hattempts : job.attempts = c) (hmore : c = 0 ∨ c < n) :
    Track job.seq n s' (c + calls job.seq os)
      (List.replicate c false ++ outcome job.seq s l) (ends job.seq os) := by
  have houtcome : outcome job.seq s l = [] :=
    outcome_eq_nil (fun job' t0 hframe => hn.frame_ne hframe hmem) l
  have hstays : job ∈ s'.jq.queue → calls job.seq os = 0 → ends job.seq os = [] →
      Track job.seq n s' (c + calls job.seq os)
        (List.replicate c false ++ outcome job.seq s l) (ends job.seq os) := by
    intro hmem' hcalls hends
    rw [hcalls, houtcome, hends, List.append_nil]
    exact .queued hmem' rfl hmax hattempts hmore
  cases h with
  | submit name fn priority max_retries delay_s job_id now =>
    refine hstays ?_ (calls_publish _ _ _) (ends_eq_nil (by simp [submit, seqs]))
    exact (Heapq.push_perm Job.lt _ _).mem_iff.mpr (List.mem_cons_of_mem _ hmem)
  | cancel_missing => exact hstays hmem rfl rfl
  | cancel_found job_id job' hfind =>
    have hperm := without_queue_perm hfind
    by_cases hseq : job'.seq = job.seq
    · -- it is the job that is cancelled
      obtain rfl : job' = job := by
        refine hn.eq_of_seq (mem_live_of_queue ?_) (mem_live_of_queue hmem) hseq
        exact List.mem_of_find?_eq_some hfind
      have hends : ends job'.seq [.cancelled job_id true, .terminated job'.cancelled] =
          [job'.cancelled] := by
        simp [ends, Job.cancelled]
      have hgone : job'.seq ∉ seqs (live (⟨(s.jq.without job_id).record job'.cancelled,
          s.frame⟩ : State T F)) := by
        have hleft := step_seqs (.cancel_found job_id job' hfind)
        have hnodup := (List.nodup_append.mp (hleft.nodup_iff.mpr hn.distinct)).2.2
        intro hmem'
        exact hnodup job'.seq (by simp [seqs, Job.cancelled]) job'.seq hmem' rfl
      rw [hends]
      refine .ended hgone ?_ .cancelled
      rw [record_eq]
      exact hn.bounded _ (List.mem_map_of_mem (mem_live_of_queue hmem))
    · refine hstays ?_ rfl (by simp [ends, Job.cancelled, hseq])
      rw [record_eq]
      refine (List.mem_cons.mp (hperm.mem_iff.mpr hmem)).resolve_left ?_
      rintro rfl
      exact hseq rfl
  | start =>
    refine hstays ?_ (calls_start _ _) (ends_eq_nil (by simp [seqs]))
    rw [start_eq]
    exact hmem
  | stop => exact hstays hmem rfl rfl
  | drain_idle => exact hstays hmem rfl rfl
  | drain_run now t0 root queue hframe hrunning hpop hready =>
    have hperm := (Heapq.pop_eq_some Job.lt hpop).2
    have hends : ends job.seq (s.jq.publish (.JOB_STARTED root.name root.job_id) ++
        [.started root.begun now queue]) = [] := ends_eq_nil (by simp [seqs])
    by_cases hseq : root.seq = job.seq
    · -- it is the job that is run
      obtain rfl : root = job := by
        refine hn.eq_of_seq (mem_live_of_queue ?_) (mem_live_of_queue hmem) hseq
        exact hperm.mem_iff.mp List.mem_cons_self
      have hcalls : calls root.seq (s.jq.publish (.JOB_STARTED root.name root.job_id) ++
          [.started root.begun now queue]) = 1 := by
        rw [calls_append, calls_publish]
        simp [calls, Job.begun]
      rw [hcalls, houtcome, hends, List.append_nil]
      exact .running rfl rfl hmax (congrArg (· + 1) hattempts) hmore
    · refine hstays ?_ ?_ hends
      · refine (List.mem_cons.mp (hperm.mem_iff.mpr hmem)).resolve_left ?_
        rintro rfl
        exact hseq rfl
      · rw [calls_append, calls_publish]
        simp [calls, Job.begun, hseq]
  | returned job' t0 t1 hframe =>
    have hne : job'.seq ≠ job.seq := hn.frame_ne hframe hmem
    simp only [fn_returns, record_eq] at hstays ⊢
    refine hstays hmem ?_ ?_
    · rw [calls_append, calls_publish]
      rfl
    · simp [ends, Job.completed, hne]
  | raised job' text t0 t1 t2 hframe =>
    have hne : job'.seq ≠ job.seq := hn.frame_ne hframe hmem
    unfold fn_raises at hstays ⊢
    split
    · next hretry =>
      rw [if_pos hretry] at hstays
      refine hstays ?_ (calls_publish _ _ _) (ends_eq_nil (by simp [seqs]))
      exact (Heapq.push_perm Job.lt _ _).mem_iff.mpr (List.mem_cons_of_mem _ hmem)
    · next hretry =>
      rw [if_neg hretry] at hstays
      simp only [record_eq] at hstays ⊢
      refine hstays hmem ?_ ?_
      · rw [calls_append, calls_publish]
        rfl
      · simp [ends, Job.failed, hne]

/-- A running job runs on, is done, fails or is retried. -/
theorem step_running {s s' : State T F} {l : Label T F} {os : List (Obs T F)} {n c : Nat}
    (h : Step s l os s') (hn : Numbered s) {job : Job T F} {t0 : T}
    (hframe : s.frame = some (job, t0)) (hmax : job.max_retries = n)
    (hattempts : job.attempts = c + 1) (hmore : c = 0 ∨ c < n) :
    Track job.seq n s' (c + 1 + calls job.seq os)
      (List.replicate c false ++ outcome job.seq s l) (ends job.seq os) := by
  have hcalls : calls job.seq os = 0 := by
    refine calls_eq_zero h fun now t0 job' queue hl hpop => ?_
    have hmem := (Heapq.pop_eq_some Job.lt hpop).2.mem_iff.mp List.mem_cons_self
    exact (hn.frame_ne hframe hmem).symm
  have hruns : s'.frame = s.frame → outcome job.seq s l = [] → ends job.seq os = [] →
      Track job.seq n s' (c + 1 + calls job.seq os)
        (List.replicate c false ++ outcome job.seq s l) (ends job.seq os) := by
    intro hframe' houtcome hends
    rw [hcalls, houtcome, hends, List.append_nil]
    exact .running (hframe'.trans hframe) rfl hmax hattempts hmore
  -- when the job ends, it is not in the heap
  have hgone : ∀ {s'' : State T F}, s''.frame = none → s''.jq.queue = s.jq.queue →
      job.seq ∉ seqs (live s'') := by
    intro s'' hframe' hqueue hmem
    unfold live at hmem
    rw [hframe', hqueue] at hmem
    obtain ⟨job', hmem', hseq⟩ := List.mem_map.mp hmem
    exact hn.frame_ne hframe hmem' hseq.symm
  have hbounded := hn.bounded _ (List.mem_map_of_mem (mem_live_of_frame hframe))
  cases h with
  | submit => exact hruns rfl rfl (ends_eq_nil (by simp [submit, seqs]))
  | cancel_missing => exact hruns rfl rfl rfl
  | cancel_found job_id job' hfind =>
    have hne : job'.cancelled.seq ≠ job.seq :=
      (hn.frame_ne hframe (List.mem_of_find?_eq_some hfind)).symm
    exact hruns rfl rfl (by simp [ends, hne])
  | start => exact hruns rfl rfl (ends_eq_nil (by simp [seqs]))
  | stop => exact hruns rfl rfl rfl
  | drain_idle => exact hruns rfl rfl rfl
  | drain_run now t0 root queue hframe' => cases hframe.symm.trans hframe'
  | returned job' t0' t1 hframe' =>
    cases hframe.symm.trans hframe'
    have houtcome : outcome job.seq s (.fn_returns t1) = [true] := by
      unfold outcome
      rw [hframe]
      exact if_pos rfl
    have hends : ends job.seq (s.jq.fn_returns job t0 t1).2 = [job.completed (t1 - t0)] :=
      ends_terminated s.jq _ (job.completed (t1 - t0))
    rw [hcalls, houtcome, hends]
    simp only [fn_returns, record_eq]
    exact .ended (hgone rfl rfl) hbounded (.done hmore)
  | raised job' text t0' t1 t2 hframe' =>
    cases hframe.symm.trans hframe'
    have houtcome : outcome job.seq s (.fn_raises text t1 t2) = [false] := by
      unfold outcome
      rw [hframe]
      exact if_pos rfl
    have hfalse : List.replicate c false ++ [false] = List.replicate (c + 1) false :=
      List.replicate_succ'.symm
    rw [hcalls, houtcome, hfalse, Nat.add_zero]
    unfold fn_raises
    split
    · next hretry =>
      -- back on the heap, with the attempt counted
      rw [ends_eq_nil (by simp [seqs])]
      rw [hmax, hattempts, Int.ofNat_lt] at hretry
      exact .queued ((Heapq.push_perm Job.lt _ _).mem_iff.mpr List.mem_cons_self) rfl hmax
        hattempts (Or.inr hretry)
    · next hlast =>
      rw [hmax, hattempts, Int.ofNat_lt] at hlast
      -- the first run counts as an attempt even where no retry is allowed
      have hmany : c + 1 = max 1 n := by omega
      have hends := ends_terminated s.jq (.JOB_FAILED job.name job.job_id job.attempts text)
        (job.failed (t1 - t0) text)
      refine (congrArg (Track job.seq n _ _ _) hends).mpr ?_
      simp only [record_eq]
      exact .ended (hgone rfl rfl) hbounded (.failed hmany)

omit [Clock T] in
/-- The job ends once. -/
theorem Track.ended_of_mem {s : State T F} {seq n c : Nat} {outs : List Bool}
    {ended : List (Job T F)} (ht : Track seq n s c outs ended) {job : Job T F}
    (hmem : job ∈ ended) : Ended n c outs job.state := by
  cases ht with
  | queued => cases hmem
  | running => cases hmem
  | ended hgone hgiven hended =>
    obtain rfl := List.mem_singleton.mp hmem
    exact hended

theorem step_track {s s' : State T F} {l : Label T F} {os : List (Obs T F)} {seq n c : Nat}
    {outs : List Bool} {ended : List (Job T F)} (h : Step s l os s') (hn : Numbered s)
    (ht : Track seq n s c outs ended) :
    Track seq n s' (c + calls seq os) (outs ++ outcome seq s l) (ended ++ ends seq os) := by
  cases ht with
  | queued hmem hseq hmax hattempts hmore =>
    subst hseq
    exact step_queued h hn hmem hmax hattempts hmore
  | running hframe hseq hmax hattempts hmore =>
    subst hseq
    exact step_running h hn hframe hmax hattempts hmore
  | ended hgone hgiven hended =>
    obtain ⟨⟨hgone', hgiven'⟩, hcalls, houtcome, hends⟩ := step_gone h hgone hgiven
    rw [hcalls, houtcome, hends, List.append_nil]
    exact .ended hgone' hgiven' hended

/-! ### Runs -/

theorem run_numbered {event_bus scheduler : Bool} {ls : List (Label T F)} {s : State T F}
    {tr : List (Obs T F)}
    (hrun : (machine T F).run ⟨init event_bus scheduler, none⟩ ls = some (s, tr)) :
    Numbered s :=
  (machine T F).run_invariant (I := Numbered)
    ⟨by simp [seqs, live, init], by simp [seqs, live, init]⟩
    (fun _ _ _ _ hn hs => step_numbered (step_sound hs) hn) hrun

theorem run_track {s u : State T F} {ls : List (Label T F)} {tr : List (Obs T F)} {seq n c : Nat}
    {outs : List Bool} {ended : List (Job T F)} (hn : Numbered s)
    (ht : Track seq n s c outs ended) (hrun : (machine T F).run s ls = some (u, tr)) :
    Track seq n u (c + calls seq tr) (outs ++ outcomes seq s ls) (ended ++ ends seq tr) := by
  induction ls generalizing s c outs ended tr with
  | nil =>
    simp only [Machine.run_nil, Option.some.injEq, Prod.mk.injEq] at hrun
    obtain ⟨rfl, rfl⟩ := hrun
    simpa [outcomes, ends] using ht
  | cons l ls ih =>
    obtain ⟨t, os, tr', hs, hrest, rfl⟩ := (machine T F).run_cons_iff.mp hrun
    have h := step_sound hs
    have hafter := ih (step_numbered h hn) (step_track h hn ht) hrest
    simp only [outcomes, hs, calls_append, ends_append]
    rw [← Nat.add_assoc, ← List.append_assoc, ← List.append_assoc]
    exact hafter

/-- How the job ends that is submitted with `max_retries = n`. -/
theorem run_ended {event_bus scheduler : Bool} {before rest : List (Label T F)}
    {s u : State T F} {tr tr' : List (Obs T F)} {name : String} {fn : F} {priority : Int}
    {n : Nat} {delay_s : T} {job_id : String} {now : T}
    (hbefore : (machine T F).run ⟨init event_bus scheduler, none⟩ before = some (s, tr))
    (hrun : (machine T F).run s (.submit name fn priority n delay_s job_id now :: rest) =
      some (u, tr'))
    {job : Job T F} (hend : job ∈ ends (s.jq.seq + 1) tr') :
    Ended n (calls (s.jq.seq + 1) tr')
      (outcomes (s.jq.seq + 1) s (.submit name fn priority n delay_s job_id now :: rest))
      job.state := by
  obtain ⟨t, os, tr'', hs, hrest, rfl⟩ := (machine T F).run_cons_iff.mp hrun
  have hn := run_numbered hbefore
  have hcalls : calls (s.jq.seq + 1) os = 0 := by
    cases hs
    exact calls_publish _ _ _
  have hends : ends (s.jq.seq + 1) os = [] := by
    cases hs
    exact ends_eq_nil (by simp [submit, seqs])
  have htrack : Track (s.jq.seq + 1) n t 0 [] [] := by
    cases hs
    exact .queued (c := 0) ((Heapq.push_perm Job.lt _ _).mem_iff.mpr List.mem_cons_self) rfl rfl
      rfl (Or.inl rfl)
  have hafter := run_track (step_numbered (step_sound hs) hn) htrack hrest
  rw [ends_append, hends, List.nil_append] at hend
  rw [calls_append, hcalls]
  simp only [outcomes, hs, outcome, List.nil_append]
  exact hafter.ended_of_mem hend

/-! ### The law -/

/-- The runs of a function whose `i`-th call returns if `o i` does, and the last state of
    its job: it is run up to its first success, and `n + 1` times at most. -/
def RetryLaw (o : Nat → Bool) (n runs : Nat) (state : JobState) : Prop :=
  IsLeast {k | k = n + 1 ∨ ∃ i, o i = true ∧ k = i + 1} runs ∧
    state = if ∃ i < runs, o i = true then .done else .failed

/-- The outcomes are those of `o`. -/
def Follows (o : Nat → Bool) (outs : List Bool) : Prop := outs = (List.range outs.length).map o

theorem Follows.eq {o : Nat → Bool} {outs : List Bool} (h : Follows o outs) {i : Nat} {b : Bool}
    (hi : outs[i]? = some b) : o i = b := by
  have hlt : i < outs.length := (List.getElem?_eq_some_iff.mp hi).1
  rw [h] at hi
  simpa [hlt] using hi

/-- A job that has ended obeys the law if and only if it cannot be retried, or one of its
    first `n` calls returns. -/
theorem Ended.law_iff {o : Nat → Bool} {n c : Nat} {outs : List Bool} {state : JobState}
    (h : Ended n c outs state) (hstate : state ≠ .cancelled) (ho : Follows o outs) :
    RetryLaw o n c state ↔ n = 0 ∨ ∃ i < n, o i = true := by
  cases h with
  | @done c hmore =>
    -- the call after `c` failures is the first that returns
    have hlast : o c = true := ho.eq (by simp)
    have hbefore : ∀ i < c, o i = false := by
      intro i hi
      exact ho.eq (by simp [List.getElem?_append, hi])
    refine iff_of_true ⟨⟨Or.inr ⟨c, hlast, rfl⟩, ?_⟩, ?_⟩ ?_
    · rintro k (rfl | ⟨i, hi, rfl⟩)
      · omega
      · have hle : ¬ i < c := by
          intro hlt
          rw [hbefore i hlt] at hi
          cases hi
        omega
    · rw [if_pos ⟨c, Nat.lt_succ_self c, hlast⟩]
    · by_cases hn : n = 0
      · exact Or.inl hn
      · exact Or.inr ⟨c, by omega, hlast⟩
  | failed hlast =>
    have hall : ∀ i < c, o i = false := by
      intro i hi
      exact ho.eq (by simp [hi])
    have hnone : ¬ ∃ i < c, o i = true := by
      rintro ⟨i, hi, hsuccess⟩
      rw [hall i hi] at hsuccess
      cases hsuccess
    by_cases hn : n = 0
    · -- one run, and no retry
      have hone : c = 1 := by omega
      subst hone hn
      refine iff_of_true ⟨⟨Or.inl rfl, ?_⟩, (if_neg hnone).symm⟩ (Or.inl rfl)
      rintro k (rfl | ⟨i, -, rfl⟩)
      · exact le_refl _
      · exact Nat.le_add_left 1 i
    · -- the last retry is missing
      have hsame : c = n := by omega
      subst hsame
      refine iff_of_false (fun hlaw => ?_) ?_
      · rcases hlaw.1.1 with heq | ⟨i, hi, heq⟩
        · omega
        · exact hnone ⟨i, by omega, hi⟩
      · rintro (heq | hsome)
        · exact hn heq
        · exact hnone hsome
  | cancelled => exact absurd rfl hstate

/-- **Retries**: a job that is submitted with `max_retries = n`, and that ends without
    being cancelled, is retried as often as it should be if and only if `n = 0` or one of
    its first `n` calls returns. -/
theorem retry_law_iff {event_bus scheduler : Bool} {before rest : List (Label T F)}
    {s u : State T F} {tr tr' : List (Obs T F)} {name : String} {fn : F} {priority : Int}
    {n : Nat} {delay_s : T} {job_id : String} {now : T}
    (hbefore : (machine T F).run ⟨init event_bus scheduler, none⟩ before = some (s, tr))
    (hrun : (machine T F).run s (.submit name fn priority n delay_s job_id now :: rest) =
      some (u, tr'))
    {o : Nat → Bool} (ho : Follows o (outcomes (s.jq.seq + 1) s
      (.submit name fn priority n delay_s job_id now :: rest)))
    {job : Job T F} (hend : job ∈ ends (s.jq.seq + 1) tr') (hstate : job.state ≠ .cancelled) :
    RetryLaw o n (calls (s.jq.seq + 1) tr') job.state ↔ n = 0 ∨ ∃ i < n, o i = true :=
  (run_ended hbefore hrun hend).law_iff hstate ho

/-- A second call succeeds, with two retries. -/
theorem retry_law_iff_second :
    let submit : Label ℚ String := .submit "sync" "sync" 5 2 0 "a" 0
    let rest : List (Label ℚ String) :=
      [.drain_one 0 0, .fn_raises "timeout" 1 1, .drain_one 3 3, .fn_returns 4]
    ∃ (s u : State ℚ String) (tr tr' : List (Obs ℚ String)),
      (machine ℚ String).run ⟨init false false, none⟩ [.start] = some (s, tr) ∧
      (machine ℚ String).run s (submit :: rest) = some (u, tr') ∧
      ∃ job ∈ ends (s.jq.seq + 1) tr', (RetryLaw (fun i => decide (i = 1)) 2
        (calls (s.jq.seq + 1) tr') job.state ↔ 2 = 0 ∨ ∃ i < 2, decide (i = 1) = true) := by
  intro submit rest
  have hbefore : (machine ℚ String).run ⟨init false false, none⟩ [.start] =
      some (⟨{ init false false with running := true }, none⟩, []) := rfl
  obtain ⟨u, tr', hrun, htest⟩ := (machine ℚ String).exists_run
    ⟨{ init false false with running := true }, none⟩ (submit :: rest)
    (fun _ tr => (ends 1 tr).any fun job => job.state ≠ .cancelled) (by decide +kernel)
  obtain ⟨job, hend, hstate⟩ := List.any_eq_true.mp htest
  have ho : Follows (fun i => decide (i = 1)) (outcomes 1
      ⟨{ init false false with running := true }, none⟩ (submit :: rest)) := by
    unfold Follows
    decide +kernel
  exact ⟨_, u, _, tr', hbefore, hrun, job, hend,
    retry_law_iff hbefore hrun ho hend (of_decide_eq_true hstate)⟩

/-- With one retry, a job that fails once is not run again. -/
theorem job_not_retried :
    let submit : Label ℚ String := .submit "sync" "sync" 5 1 0 "a" 0
    let rest : List (Label ℚ String) := [.drain_one 0 0, .fn_raises "timeout" 1 1]
    let s : State ℚ String := ⟨{ init false false with running := true }, none⟩
    ∃ (u : State ℚ String) (tr : List (Obs ℚ String)),
      (machine ℚ String).run ⟨init false false, none⟩ [.start] = some (s, []) ∧
      (machine ℚ String).run s (submit :: rest) = some (u, tr) ∧
      Follows (fun i => decide (i = 1)) (outcomes 1 s (submit :: rest)) ∧
      ∃ job ∈ ends 1 tr, job.state = .failed ∧
        ¬ RetryLaw (fun i => decide (i = 1)) 1 (calls 1 tr) job.state := by
  intro submit rest s
  obtain ⟨u, tr, hrun, htest⟩ := (machine ℚ String).exists_run s (submit :: rest)
    (fun _ tr => calls 1 tr = 1 && (ends 1 tr).any fun job => job.state = .failed)
    (by decide +kernel)
  rw [Bool.and_eq_true] at htest
  obtain ⟨hcalls, hends⟩ := htest
  obtain ⟨job, hend, hfailed⟩ := List.any_eq_true.mp hends
  refine ⟨u, tr, rfl, hrun, by unfold Follows; decide +kernel, job, hend,
    of_decide_eq_true hfailed, ?_⟩
  rintro ⟨hleast, -⟩
  rw [of_decide_eq_true hcalls] at hleast
  rcases hleast.1 with heq | ⟨i, hi, heq⟩
  · cases heq
  · have hone : i = 1 := of_decide_eq_true hi
    omega

end JobQueue
