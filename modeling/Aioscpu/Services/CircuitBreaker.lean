import Aioscpu.Services.HealthMonitor
import Mathlib.Tactic.Ring

/-! # The Circuit Breaker of the Health Monitor

  A check that finds a service not running counts a failure, and the check that counts
  `max_consecutive_failures` of them in a row raises the alarm. The alarm is raised once in
  a row: the circuit is open from then on, and a check that passes closes it.

  A repair whose restart the manager accepts half opens the circuit. Until then, repairs
  count nothing.
-/

open ServiceManager (ServiceState)

namespace HealthMonitor

variable {T : Type}

/-! ### What is to happen -/

/-- What happens to a service. -/
inductive Event where
  | checked (state : ServiceState)
  | alert (failures : Nat)
  | submitted
deriving DecidableEq

/-- What the trace tells of the service. -/
def view (name : String) (os : List (Obs T)) : List Event :=
  os.filterMap fun
    | .checked name' state _ => if name' = name then some (.checked state) else none
    | .integrity_alert name' failures => if name' = name then some (.alert failures) else none
    | .submitted name' _ => if name' = name then some .submitted else none
    | _ => none

/-- The states in which the checks have found the service. -/
def history (name : String) (ls : List (Label T)) : List ServiceState :=
  ls.filterMap fun
    | .check_all (some registry) _ => registry.get name
    | _ => none

/-- The alarm: an alert and a repair. -/
def alarm (event_bus job_queue : Bool) (failures : Nat) : List Event :=
  (if event_bus then [.alert failures] else []) ++ if job_queue then [.submitted] else []

/-- The alarm is raised with the check that is the `max`-th one in a row of failures. `row`
    failures came last. -/
def expected (event_bus job_queue : Bool) (max row : Nat) : List ServiceState → List Event
  | [] => []
  | state :: states =>
    if state = .RUNNING then .checked state :: expected event_bus job_queue max 0 states
    else
      .checked state :: (if row + 1 = max then alarm event_bus job_queue max else []) ++
        expected event_bus job_queue max (row + 1) states

/-- The failures in a row after the states. -/
def row (start : Nat) (states : List ServiceState) : Nat :=
  states.foldl (fun n state => if state = .RUNNING then 0 else n + 1) start

/-- The rows of failures between the checks that passed, which are as long as they can be. -/
def rows (states : List ServiceState) : List (List ServiceState) :=
  states.splitOnP (· = .RUNNING)

theorem view_append (name : String) (os os' : List (Obs T)) :
    view name (os ++ os') = view name os ++ view name os' := List.filterMap_append

theorem history_append (name : String) (ls ls' : List (Label T)) :
    history name (ls ++ ls') = history name ls ++ history name ls' := List.filterMap_append

theorem row_append (start : Nat) (states states' : List ServiceState) :
    row start (states ++ states') = row (row start states) states' := List.foldl_append

theorem expected_append (event_bus job_queue : Bool) (max : Nat) (states : List ServiceState) :
    ∀ (start : Nat) (states' : List ServiceState),
      expected event_bus job_queue max start (states ++ states') =
        expected event_bus job_queue max start states ++
          expected event_bus job_queue max (row start states) states' := by
  induction states with
  | nil =>
    intro start states'
    rfl
  | cons state states ih =>
    intro start states'
    rw [List.cons_append, expected, expected]
    by_cases hrunning : state = .RUNNING
    · rw [if_pos hrunning, if_pos hrunning, ih]
      have hrow : row start (state :: states) = row 0 states := by
        unfold row
        rw [List.foldl_cons, if_pos hrunning]
      rw [hrow, List.cons_append]
    · rw [if_neg hrunning, if_neg hrunning, ih]
      have hrow : row start (state :: states) = row (start + 1) states := by
        unfold row
        rw [List.foldl_cons, if_neg hrunning]
      rw [hrow, List.append_assoc]

/-- The rows of more states: the first one is the row that goes on. -/
theorem rows_cons (state : ServiceState) (states : List ServiceState) :
    rows (state :: states) =
      if state = .RUNNING then [] :: rows states else (rows states).modifyHead (state :: ·) := by
  unfold rows
  rw [List.splitOnP_cons_eq_if_modifyHead]
  simp only [decide_eq_true_eq]

theorem exists_rows (states : List ServiceState) : ∃ first others, rows states = first :: others :=
  List.exists_cons_of_ne_nil (List.splitOnP_ne_nil _ _)

/-- Of the row that goes on, `start` failures came before. It raises the alarm where it passes
    the bound. -/
theorem count_expected_start {event_bus job_queue : Bool} {max : Nat} (hmax : 1 ≤ max)
    {p : Event → Bool} (hp : ∀ state, p (.checked state) = false) (states : List ServiceState) :
    ∀ start first others, rows states = first :: others →
      (expected event_bus job_queue max start states).countP p =
        ((if start < max ∧ max ≤ start + first.length then 1 else 0) +
          others.countP fun row => max ≤ row.length) *
          (alarm event_bus job_queue max).countP p := by
  induction states with
  | nil =>
    intro start first others hrows
    obtain ⟨rfl, rfl⟩ : [] = first ∧ [] = others := List.cons.inj hrows
    have hnot : ¬(start < max ∧ max ≤ start + 0) := by omega
    rw [List.length_nil, if_neg hnot]
    simp [expected]
  | cons state states ih =>
    intro start first others hrows
    obtain ⟨first', others', hrows'⟩ := exists_rows states
    rw [rows_cons, hrows'] at hrows
    rw [expected]
    by_cases hrunning : state = .RUNNING
    · rw [if_pos hrunning] at hrows ⊢
      cases hrows
      have hnot : ¬(start < max ∧ max ≤ start + 0) := by omega
      rw [List.countP_cons_of_neg (by rw [hp]; exact Bool.false_ne_true),
        ih 0 first' others' hrows', List.length_nil, if_neg hnot, List.countP_cons]
      congr 1
      rw [Nat.zero_add, Nat.zero_add, Nat.add_comm]
      congr 1
      simp only [decide_eq_true_eq]
      congr 1
      rw [eq_iff_iff]
      omega
    · rw [if_neg hrunning] at hrows ⊢
      cases hrows
      rw [List.cons_append, List.countP_cons_of_neg (by rw [hp]; exact Bool.false_ne_true),
        List.countP_append, ih (start + 1) first' others hrows', List.length_cons]
      by_cases hlast : start + 1 = max
      · -- the alarm of this row is raised here, and not once more in it
        have hnot : ¬(start + 1 < max ∧ max ≤ start + 1 + first'.length) := by omega
        have hpast : start < max ∧ max ≤ start + (first'.length + 1) := by omega
        rw [if_pos hlast, if_neg hnot, if_pos hpast]
        ring
      · have hiff : (start + 1 < max ∧ max ≤ start + 1 + first'.length) ↔
            (start < max ∧ max ≤ start + (first'.length + 1)) := by omega
        rw [if_neg hlast, List.countP_nil, Nat.zero_add]
        simp only [hiff]

/-- There is one alarm for each row that is long enough. -/
theorem count_expected {event_bus job_queue : Bool} {max : Nat} (hmax : 1 ≤ max) {p : Event → Bool}
    (hp : ∀ state, p (.checked state) = false) (states : List ServiceState) :
    (expected event_bus job_queue max 0 states).countP p =
      ((rows states).countP fun row => max ≤ row.length) *
        (alarm event_bus job_queue max).countP p := by
  obtain ⟨first, others, hrows⟩ := exists_rows states
  rw [count_expected_start hmax hp states 0 first others hrows, hrows, List.countP_cons,
    Nat.add_comm]
  congr 2
  simp only [decide_eq_true_eq, Nat.zero_add]
  congr 1
  rw [eq_iff_iff]
  omega

/-! ### What a check emits and lists -/

/-- What the check of one service emits after the check itself. -/
def raised (self : HealthMonitor T) (health : Dict String (ServiceHealth T)) (name : String)
    (state : ServiceState) (j : Nat) : List (Obs T) :=
  if self.Opens health name state then
    self.publish (.integrity_alert name (failures health name + 1)) ++
      if self.job_queue then [.submitted name j] else []
  else []

/-- What the check of one service does to the trace and the lists of names. -/
structure Lists (monitor : HealthMonitor T) (env : CheckEnv T) (acc : Check T) (name : String)
    (state : ServiceState) (acc' : Check T) : Prop where
  trace : acc'.trace = acc.trace ++ .checked name state (env.checked name) ::
    raised monitor acc.health name state acc.jobs.next
  healthy : acc'.healthy_names = acc.healthy_names ++ if state = .RUNNING then [name] else []
  names : (acc'.healthy_names ++ acc'.degraded_names ++ acc'.failed_names).Perm
    (name :: (acc.healthy_names ++ acc.degraded_names ++ acc.failed_names))

theorem handle_failure_trace (self : HealthMonitor T) (acc : Check T) (name : String) (n : Nat) :
    (self.handle_failure acc name n).trace = acc.trace ++ (self.publish (.integrity_alert name n) ++
      if self.job_queue then [.submitted name acc.jobs.next] else []) ∧
    (self.handle_failure acc name n).healthy_names = acc.healthy_names ∧
    (self.handle_failure acc name n).degraded_names = acc.degraded_names := by
  unfold handle_failure
  cases self.job_queue with
  | false =>
    refine ⟨?_, rfl, rfl⟩
    simp
  | true =>
    refine ⟨?_, rfl, rfl⟩
    simp

variable [Clock T]

theorem check_service_lists (self : HealthMonitor T) (env : CheckEnv T) (acc : Check T)
    (name : String) (state : ServiceState) :
    Lists self env acc name state (self.check_service env acc (name, state)) := by
  by_cases hrunning : state = .RUNNING
  · have hnot : ¬self.Opens acc.health name state := fun hopens => hopens.1 hrunning
    unfold check_service
    dsimp only
    rw [if_pos hrunning]
    refine ⟨?_, ?_, ?_⟩
    · unfold raised
      rw [if_neg hnot]
    · rw [if_pos hrunning]
    · simp only [List.append_assoc]
      exact List.perm_middle
  · have hcircuit := circuit_getD acc.health name
    have hfailures := failures_getD acc.health name
    unfold check_service
    dsimp only
    generalize (acc.health.get name).getD (.init name) = h at hcircuit hfailures ⊢
    rw [if_neg hrunning]
    obtain ⟨hcount, ⟨hclosed, hmax, htrue, hopen⟩ | ⟨hnot, hfalse, hsame⟩⟩ :=
      ServiceHealth.record_failure_cases
        { h with last_check_ts := env.checked name, last_state := some state }
        self.max_failures (env.failed name)
    · -- the circuit opens
      have hopens : self.Opens acc.health name state :=
        ⟨hrunning, hcircuit ▸ hclosed, hfailures ▸ hmax⟩
      rw [if_pos htrue]
      obtain ⟨htrace, hhealthy, hdegraded⟩ := self.handle_failure_trace
        { acc with
          trace := acc.trace ++ [Obs.checked name state (env.checked name)]
          health := acc.health.set name (ServiceHealth.record_failure
            { h with last_check_ts := env.checked name, last_state := some state }
            self.max_failures (env.failed name)).1 }
        name (ServiceHealth.record_failure
          { h with last_check_ts := env.checked name, last_state := some state }
          self.max_failures (env.failed name)).1.consecutive_failures
      refine ⟨?_, ?_, ?_⟩
      · rw [htrace]
        unfold raised
        rw [if_pos hopens, List.append_assoc, hcount, ← hfailures]
        rfl
      · rw [if_neg hrunning, hhealthy, List.append_nil]
      · rw [hhealthy, hdegraded, ← List.append_assoc]
        exact List.perm_append_singleton _ _
    · have hnot' : ¬self.Opens acc.health name state := fun hopens =>
        hnot ⟨hcircuit.trans hopens.2.1, hfailures ▸ hopens.2.2⟩
      rw [hfalse, if_neg Bool.false_ne_true, if_pos (by rw [hcount]; exact Nat.succ_pos _)]
      refine ⟨?_, ?_, ?_⟩
      · unfold raised
        rw [if_neg hnot']
      · rw [if_neg hrunning, List.append_nil]
      · simp only [← List.append_assoc]
        rw [List.append_assoc _ [name]]
        exact List.perm_middle

/-- The loop puts each service of the registry on one of the lists. -/
theorem check_services_lists (self : HealthMonitor T) (env : CheckEnv T)
    (registry : List (String × ServiceState)) (acc : Check T) :
    (registry.foldl (self.check_service env) acc).healthy_names = acc.healthy_names ++
      (registry.filter (·.2 = .RUNNING)).map Prod.fst ∧
    ((registry.foldl (self.check_service env) acc).healthy_names ++
      (registry.foldl (self.check_service env) acc).degraded_names ++
      (registry.foldl (self.check_service env) acc).failed_names).Perm
      (acc.healthy_names ++ acc.degraded_names ++ acc.failed_names ++ registry.map Prod.fst) := by
  induction registry generalizing acc with
  | nil => simp
  | cons item registry ih =>
    obtain ⟨name, state⟩ := item
    have hone := self.check_service_lists env acc name state
    obtain ⟨hhealthy, hnames⟩ := ih (self.check_service env acc (name, state))
    rw [List.foldl_cons]
    refine ⟨?_, ?_⟩
    · rw [hhealthy, hone.healthy, List.append_assoc]
      congr 1
      by_cases hrunning : state = .RUNNING
      · rw [if_pos hrunning, List.filter_cons_of_pos (by simpa using hrunning)]
        rfl
      · rw [if_neg hrunning, List.filter_cons_of_neg (by simpa using hrunning)]
        rfl
    · refine hnames.trans ((hone.names.append_right _).trans ?_)
      exact List.perm_middle.symm

/-! ### What happens to one service -/

omit [Clock T] in
theorem view_alarm (self : HealthMonitor T) (name : String) (n j : Nat) :
    view name (self.publish (.integrity_alert name n) ++
      if self.job_queue then [.submitted name j] else []) =
      alarm self.event_bus self.job_queue n := by
  unfold publish alarm
  cases self.event_bus <;> cases self.job_queue <;> simp [view]

omit [Clock T] in
theorem view_raised (self : HealthMonitor T) (health : Dict String (ServiceHealth T))
    (name : String) (state : ServiceState) (now : T) (j : Nat) :
    view name (.checked name state now :: raised self health name state j) =
      .checked state :: if self.Opens health name state then
        alarm self.event_bus self.job_queue (failures health name + 1) else [] := by
  have hcheck : view name [Obs.checked name state now] = [.checked state] := by simp [view]
  rw [← List.singleton_append, view_append, hcheck, List.singleton_append]
  congr 1
  unfold raised
  split
  · exact view_alarm self name _ j
  · rfl

omit [Clock T] in
theorem view_other (self : HealthMonitor T) (health : Dict String (ServiceHealth T))
    {name name' : String} (h : name' ≠ name) (state : ServiceState) (now : T) (j : Nat) :
    view name (.checked name' state now :: raised self health name' state j) = [] := by
  refine List.filterMap_eq_nil_iff.mpr fun o ho => ?_
  rcases List.mem_cons.mp ho with rfl | ho
  · exact if_neg h
  · unfold raised publish at ho
    split at ho
    · rcases List.mem_append.mp ho with ho | ho
      · split at ho
        · rw [List.mem_singleton.mp ho]
          exact if_neg h
        · cases ho
      · split at ho
        · rw [List.mem_singleton.mp ho]
          exact if_neg h
        · cases ho
    · cases ho

theorem check_services_view_absent (self : HealthMonitor T) (env : CheckEnv T) {name : String}
    {registry : List (String × ServiceState)} (h : name ∉ registry.map Prod.fst)
    (acc : Check T) :
    view name (registry.foldl (self.check_service env) acc).trace = view name acc.trace := by
  induction registry generalizing acc with
  | nil => rfl
  | cons item registry ih =>
    obtain ⟨name', state⟩ := item
    rw [List.map_cons, List.mem_cons, not_or] at h
    rw [List.foldl_cons, ih h.2, (self.check_service_lists env acc name' state).trace,
      view_append, view_other self _ (Ne.symm h.1), List.append_nil]

theorem check_services_view (self : HealthMonitor T) (env : CheckEnv T) {name : String}
    {state : ServiceState} {registry : List (String × ServiceState)}
    (hnodup : (registry.map Prod.fst).Nodup) (h : (name, state) ∈ registry) (acc : Check T) :
    view name (registry.foldl (self.check_service env) acc).trace = view name acc.trace ++
      .checked state :: if self.Opens acc.health name state then
        alarm self.event_bus self.job_queue (failures acc.health name + 1) else [] := by
  obtain ⟨before, after, rfl⟩ := List.append_of_mem h
  rw [List.map_append, List.map_cons] at hnodup
  obtain ⟨-, hafter, hdisjoint⟩ := List.nodup_append'.mp hnodup
  obtain ⟨hnew, -⟩ := List.nodup_cons.mp hafter
  have hbefore : name ∉ before.map Prod.fst := fun hmem => hdisjoint hmem List.mem_cons_self
  obtain ⟨hhealth, -⟩ := check_services_absent self env hbefore acc
  have hview := check_services_view_absent self env hbefore acc
  rw [List.foldl_append, List.foldl_cons, check_services_view_absent self env hnew]
  generalize before.foldl (self.check_service env) acc = acc₁ at hhealth hview ⊢
  have hopens : self.Opens acc₁.health name state ↔ self.Opens acc.health name state := by
    unfold Opens
    rw [circuit_congr hhealth, failures_congr hhealth]
  rw [(self.check_service_lists env acc₁ name state).trace, view_append, hview, view_raised,
    failures_congr hhealth]
  simp only [hopens]

/-! ### Runs -/

/-- The step is not the one of a repair whose restart of the service was accepted. -/
def NotRestarted (name : String) (s : State T) : Label T → Prop
  | .repair j _ _ => ∀ job, s.jobs.get j = some job → job.name = name → job.pc ≠ .marking
  | _ => True

/-- The circuit and the failures of a service are those of its row. -/
structure Counts (max : Nat) (name : String) (states : List ServiceState) (s : State T) :
    Prop where
  failures : failures s.monitor.health name = row 0 states
  circuit : circuit s.monitor.health name = if max ≤ row 0 states then .OPEN else .CLOSED

omit [Clock T] in
theorem Counts.opens_iff {max : Nat} {name : String} {states : List ServiceState} {s : State T}
    (h : Counts max name states s) (hmax : s.monitor.max_failures = max) (state : ServiceState) :
    s.monitor.Opens s.monitor.health name state ↔
      state ≠ .RUNNING ∧ row 0 states + 1 = max := by
  unfold Opens
  rw [h.circuit, h.failures, hmax]
  constructor
  · rintro ⟨hrunning, hclosed, hle⟩
    refine ⟨hrunning, ?_⟩
    split at hclosed
    · cases hclosed
    · omega
  · rintro ⟨hrunning, heq⟩
    refine ⟨hrunning, if_neg (by omega), by omega⟩

/-- The invariant of a run. -/
structure Followed (event_bus job_queue : Bool) (max : Nat) (name : String)
    (ls : List (Label T)) (s : State T) (tr : List (Obs T)) : Prop where
  bus : s.monitor.event_bus = event_bus
  queue : s.monitor.job_queue = job_queue
  mgr : s.monitor.svc_mgr = true
  bound : s.monitor.max_failures = max
  counts : Counts max name (history name ls) s
  view : view name tr = expected event_bus job_queue max 0 (history name ls)

variable {event_bus job_queue : Bool} {max : Nat} {name : String} {ls : List (Label T)}
  {s s' : State T} {tr os : List (Obs T)}

omit [Clock T] in
/-- A step that the service has no part in. -/
theorem Followed.aside {l : Label T} (h : Followed event_bus job_queue max name ls s tr)
    (hbus : s'.monitor.event_bus = s.monitor.event_bus)
    (hqueue : s'.monitor.job_queue = s.monitor.job_queue)
    (hmgr : s'.monitor.svc_mgr = s.monitor.svc_mgr)
    (hbound : s'.monitor.max_failures = s.monitor.max_failures)
    (hfailures : failures s'.monitor.health name = failures s.monitor.health name)
    (hcircuit : circuit s'.monitor.health name = circuit s.monitor.health name)
    (hhistory : history name [l] = []) (hview : HealthMonitor.view name os = []) :
    Followed event_bus job_queue max name (ls ++ [l]) s' (tr ++ os) := by
  have hsame : history name (ls ++ [l]) = history name ls := by
    rw [history_append, hhistory, List.append_nil]
  refine ⟨hbus.trans h.bus, hqueue.trans h.queue, hmgr.trans h.mgr, hbound.trans h.bound, ?_, ?_⟩
  · rw [hsame]
    exact ⟨hfailures.trans h.counts.failures, hcircuit.trans h.counts.circuit⟩
  · rw [hsame, view_append, hview, List.append_nil, h.view]

omit [Clock T] in
/-- A repair is no check. -/
theorem view_of_repair (h : ∀ o ∈ os, o.ofCheck = false) : view name os = [] := by
  refine List.filterMap_eq_nil_iff.mpr fun o ho => ?_
  have hcheck := h o ho
  cases o with
  | checked name' state now => cases hcheck
  | integrity_alert name' n => cases hcheck
  | submitted name' j => cases hcheck
  | _ => rfl

omit [Clock T] in
/-- A repair half opens the circuit only where its restart was accepted. -/
theorem repairs_circuit {j : Nat} {job : Repair} {result : Option Bool} {now : T}
    (h : Repairs s j job result now os s') (hjob : job.name = name → job.pc ≠ .marking) :
    circuit s'.monitor.health name = circuit s.monitor.health name := by
  cases h with
  | stops hpc => rfl
  | starts hpc hresult => rfl
  | started hpc hresult => rfl
  | ends hpc => rfl
  | marks health hpc hhealth =>
    have hne : name ≠ job.name := fun heq => hjob heq.symm hpc
    exact circuit_congr (Dict.get_set_of_ne hne _)

theorem followed_step (hmax : 1 ≤ max) {l : Label T}
    (h : Followed event_bus job_queue max name ls s tr) (hno : NotRestarted name s l)
    (hstep : machine.step s l = some (s', os)) :
    Followed event_bus job_queue max name (ls ++ [l]) s' (tr ++ os) := by
  cases step_sound hstep with
  | idle registry env hidle =>
    rcases hidle with hmgr | rfl
    · exact absurd (h.mgr.symm.trans hmgr) Bool.noConfusion
    · exact h.aside rfl rfl rfl rfl rfl rfl rfl rfl
  | repairs j result now job _ _ hjob hrepairs =>
    obtain ⟨⟨hbound, hmgr, hqueue⟩, hfailures, -, -, hos⟩ := hrepairs.spec
    have hbus : s'.monitor.event_bus = s.monitor.event_bus := by
      cases hrepairs <;> rfl
    exact h.aside hbus hqueue hmgr hbound (hfailures name)
      (repairs_circuit hrepairs (hno job hjob)) rfl (view_of_repair hos)
  | checks registry env acc hmgr hacc =>
    have hreport : view name (s.monitor.publish (.health_report (report acc env.timestamp))) =
        [] := by
      unfold publish
      split <;> rfl
    rcases checks_cases hacc (report acc env.timestamp) name rfl with
      ⟨hnone, hhealth, -⟩ | ⟨state, subs, hstate, hcircuit, hfailures, -⟩
    · refine h.aside rfl rfl rfl rfl (failures_congr hhealth) (circuit_congr hhealth) ?_ ?_
      · simp [history, hnone]
      · have habsent : name ∉ registry.items.map Prod.fst := by
          intro hmem
          obtain ⟨state, hsome⟩ := (registry.mem_keys_iff name).mp hmem
          cases hnone.symm.trans hsome
        rw [view_append, hreport, ← hacc, check_services,
          check_services_view_absent s.monitor env habsent]
        rfl
    · -- the service is in the registry, and the check is one of its history
      have hlast : history name [Label.check_all (some registry) env] = [state] := by
        simp [history, hstate]
      have hopens := h.counts.opens_iff h.bound state
      refine ⟨h.bus, h.queue, h.mgr, h.bound, ⟨?_, ?_⟩, ?_⟩
      · show failures acc.health name = _
        rw [history_append, hlast, row_append, hfailures, h.counts.failures]
        rfl
      · show circuit acc.health name = _
        rw [history_append, hlast, row_append, hcircuit, h.counts.circuit]
        show _ = if max ≤ (if state = .RUNNING then 0 else row 0 (history name ls) + 1) then
          Circuit.OPEN else .CLOSED
        by_cases hrunning : state = .RUNNING
        · rw [if_pos hrunning, if_pos hrunning, if_neg (by omega)]
        · rw [if_neg hrunning, if_neg hrunning]
          simp only [hopens, hrunning, ne_eq, not_false_eq_true, true_and]
          -- the row is as long as the bound, longer, or shorter
          by_cases heq : row 0 (history name ls) + 1 = max
          · rw [if_pos heq, if_pos (by omega)]
          · rw [if_neg heq]
            congr 1
            rw [eq_iff_iff]
            omega
      · rw [view_append, view_append, hreport, List.append_nil, history_append, hlast,
          expected_append, h.view]
        congr 1
        rw [← hacc, check_services, check_services_view s.monitor env registry.nodup
          (Dict.mem_of_get hstate)]
        show Event.checked state :: _ = _
        rw [expected]
        simp only [hopens, h.bus, h.queue, h.counts.failures]
        by_cases hrunning : state = .RUNNING
        · rw [if_pos hrunning, if_neg (fun hboth => hboth.1 hrunning)]
          rfl
        · rw [if_neg hrunning]
          by_cases heq : row 0 (history name ls) + 1 = max
          · rw [if_pos ⟨hrunning, heq⟩, if_pos heq, heq, expected, List.append_nil]
          · rw [if_neg (fun hboth => heq hboth.2), if_neg heq]
            rfl

/-! ### The law -/

/-- Each service of the registry is on one of the lists of the report, and those that run are on
    the first one. -/
structure Partitions (registry : Dict String ServiceState) (report : HealthReport T) : Prop where
  names : (report.healthy_list ++ report.degraded_list ++ report.failed_list).Perm registry.keys
  healthy : ∀ name, name ∈ report.healthy_list ↔ registry.get name = some .RUNNING

theorem report_partitions (s : State T) (registry : Dict String ServiceState) (env : CheckEnv T) :
    Partitions registry (report (check_services s env registry.items) env.timestamp) := by
  obtain ⟨hhealthy, hnames⟩ := check_services_lists s.monitor env registry.items
    ⟨s.monitor.health, s.jobs, [], [], [], []⟩
  refine ⟨hnames, fun name => ?_⟩
  show name ∈ (check_services s env registry.items).healthy_names ↔ _
  unfold check_services
  rw [hhealthy, List.nil_append, List.mem_map, Dict.get_eq_some_iff]
  constructor
  · rintro ⟨⟨name', state⟩, hmem, rfl⟩
    obtain ⟨hmem, hrunning⟩ := List.mem_filter.mp hmem
    rw [← of_decide_eq_true hrunning]
    exact hmem
  · intro hmem
    exact ⟨(name, .RUNNING), List.mem_filter.mpr ⟨hmem, rfl⟩, rfl⟩

def Event.isAlert : Event → Bool
  | .alert _ => true
  | _ => false

theorem alarm_alerts (event_bus job_queue : Bool) (n : Nat) :
    (alarm event_bus job_queue n).countP Event.isAlert = if event_bus then 1 else 0 := by
  cases event_bus <;> cases job_queue <;> rfl

theorem alarm_repairs (event_bus job_queue : Bool) (n : Nat) :
    (alarm event_bus job_queue n).countP (· == .submitted) = if job_queue then 1 else 0 := by
  cases event_bus <;> cases job_queue <;> rfl

/-- **The circuit breaker**: in every run of checks, with any registry and any states each time,
    and of repairs whose restart of the service the manager does not accept, the alarm for the
    service is raised with the `max`-th check of each row of checks that find it not running. A
    report lists each service once, and as healthy those that run. -/
theorem circuit_breaker (event_bus job_queue : Bool) {max : Nat} (hmax : 1 ≤ max) (name : String)
    {ls : List (Label T)} {s : State T} {tr : List (Obs T)}
    (hno : machine.Along (NotRestarted name) ⟨.init event_bus true job_queue max, .empty⟩ ls)
    (hrun : machine.run ⟨.init event_bus true job_queue max, .empty⟩ ls = some (s, tr)) :
    view name tr = expected event_bus job_queue max 0 (history name ls) ∧
    (view name tr).countP Event.isAlert = (if event_bus then
      (rows (history name ls)).countP fun row => max ≤ row.length else 0) ∧
    (view name tr).count .submitted = (if job_queue then
      (rows (history name ls)).countP fun row => max ≤ row.length else 0) ∧
    ∀ registry env, ∃ rep, Partitions registry rep ∧
      (check_all s (some registry) env).1.monitor.last_report = some rep ∧
      (event_bus = true → .health_report rep ∈ (check_all s (some registry) env).2) := by
  have h := machine.run_induction_along
    (P := fun ls s tr => Followed event_bus job_queue max name ls s tr)
    ⟨rfl, rfl, rfl, rfl, ⟨rfl, (if_neg (by show ¬max ≤ 0; omega)).symm⟩, rfl⟩
    (fun _ _ _ _ _ _ _ hfollowed hno hstep => followed_step hmax hfollowed hno hstep) hno hrun
  refine ⟨h.view, ?_, ?_, ?_⟩
  · rw [h.view, count_expected hmax (fun _ => rfl), alarm_alerts, mul_ite, Nat.mul_one,
      Nat.mul_zero]
  · rw [h.view, List.count, count_expected hmax (fun _ => rfl), alarm_repairs, mul_ite,
      Nat.mul_one, Nat.mul_zero]
  · intro registry env
    refine ⟨_, report_partitions s registry env, ?_, ?_⟩
    · unfold check_all
      rw [if_neg (by rw [h.mgr]; decide)]
    · intro hbus
      have hpublish : ∀ o : Obs T, o ∈ s.monitor.publish o := by
        intro o
        unfold publish
        rw [h.bus, if_pos hbus]
        exact List.mem_singleton_self o
      unfold check_all
      rw [if_neg (by rw [h.mgr]; decide)]
      exact List.mem_append_right _ (hpublish _)

/-- Three checks that find the service stopped, and one that finds it running. -/
def outage : List (Label ℚ) :=
  [ServiceState.STOPPED, .STOPPED, .STOPPED, .RUNNING].map fun state =>
    .check_all (some ⟨[("db", state)], List.nodup_singleton _⟩) ⟨fun _ => 0, fun _ => 0, 0⟩

theorem circuit_breaker_outage :
    ∃ s tr, machine.run ⟨.init true true true 2, .empty⟩ outage = some (s, tr) ∧
      view "db" tr = [.checked .STOPPED, .checked .STOPPED, .alert 2, .submitted,
        .checked .STOPPED, .checked .RUNNING] := by
  obtain ⟨s, tr, hrun, -⟩ := machine.exists_run ⟨.init true true true 2, .empty⟩ outage
    (fun _ _ => true) (by decide +kernel)
  have hmax : 1 ≤ 2 := by decide
  refine ⟨s, tr, hrun, (circuit_breaker true true hmax "db" ?_ hrun).1⟩
  refine machine.along_of_mem (fun l hl s => ?_) _
  obtain ⟨state, -, rfl⟩ := List.mem_map.mp hl
  trivial

end HealthMonitor
