import Aioscpu.Framework.Clock
import Aioscpu.Services.Manager

/-! # Health Monitor

  The checks and the repairs of `services/health_monitor.py`. A check runs as
  a whole. A repair is a job that was submitted to the job queue, and other
  jobs and checks go on between its steps. What a call of the service manager
  comes to is up to the environment here.

  A repair never raises, so the job queue runs it once at most.
-/

open ServiceManager (ServiceState)

namespace HealthMonitor

inductive Circuit where
  | CLOSED
  | OPEN
  | HALF_OPEN
deriving DecidableEq, Repr

/-- `T` is the type of clock readings. -/
structure ServiceHealth (T : Type) where
  name : String
  circuit : Circuit
  consecutive_failures : Nat
  last_check_ts : T
  last_failure_ts : T
  total_checks : Nat
  total_failures : Nat
  /-- `none` is `"unknown"`. -/
  last_state : Option ServiceState

/-- What `ServiceHealth.to_dict` returns. -/
structure HealthEntry where
  circuit : Circuit
  consecutive_failures : Nat
  total_failures : Nat
  total_checks : Nat
  last_state : Option ServiceState
deriving DecidableEq

namespace ServiceHealth

variable {T : Type}

/-- `ServiceHealth.__init__`. -/
def init [Clock T] (name : String) : ServiceHealth T :=
  ⟨name, .CLOSED, 0, Clock.ofSeconds 0, Clock.ofSeconds 0, 0, 0, none⟩

/-- `ServiceHealth.record_healthy`. -/
def record_healthy (self : ServiceHealth T) : ServiceHealth T :=
  { self with
    consecutive_failures := 0
    circuit := .CLOSED
    total_checks := self.total_checks + 1 }

/-- `ServiceHealth.record_failure`, with the reading of the clock. -/
def record_failure (self : ServiceHealth T) (max_failures : Int) (now : T) :
    ServiceHealth T × Bool :=
  let self :=
    { self with
      consecutive_failures := self.consecutive_failures + 1
      total_failures := self.total_failures + 1
      total_checks := self.total_checks + 1
      last_failure_ts := now }
  if self.circuit = .CLOSED ∧ max_failures ≤ self.consecutive_failures then
    ({ self with circuit := .OPEN }, true)
  else (self, false)

/-- A failure opens a closed circuit once there are enough in a row. -/
theorem record_failure_cases (self : ServiceHealth T) (max_failures : Int) (now : T) :
    (self.record_failure max_failures now).1.consecutive_failures =
      self.consecutive_failures + 1 ∧
    ((self.circuit = .CLOSED ∧ max_failures ≤ (self.consecutive_failures + 1 : Nat) ∧
      (self.record_failure max_failures now).2 = true ∧
      (self.record_failure max_failures now).1.circuit = .OPEN) ∨
    (¬ (self.circuit = .CLOSED ∧ max_failures ≤ (self.consecutive_failures + 1 : Nat)) ∧
      (self.record_failure max_failures now).2 = false ∧
      (self.record_failure max_failures now).1.circuit = self.circuit)) := by
  unfold record_failure
  by_cases h : self.circuit = .CLOSED ∧ max_failures ≤ (self.consecutive_failures + 1 : Nat)
  · rw [if_pos h]
    exact ⟨rfl, Or.inl ⟨h.1, h.2, rfl, rfl⟩⟩
  · rw [if_neg h]
    exact ⟨rfl, Or.inr ⟨h, rfl, rfl⟩⟩

/-- `ServiceHealth.to_dict`. -/
def to_dict (self : ServiceHealth T) : HealthEntry :=
  ⟨self.circuit, self.consecutive_failures, self.total_failures, self.total_checks,
    self.last_state⟩

end ServiceHealth

/-- The payload of `HEALTH_REPORT`. -/
structure HealthReport (T : Type) where
  timestamp : T
  healthy : Nat
  degraded : Nat
  failed : Nat
  services : List (String × HealthEntry)
  healthy_list : List String
  degraded_list : List String
  failed_list : List String

end HealthMonitor

structure HealthMonitor (T : Type) where
  /-- Whether there is an event bus. -/
  event_bus : Bool
  /-- Whether there is a service manager. -/
  svc_mgr : Bool
  /-- Whether there is a job queue. -/
  job_queue : Bool
  max_failures : Int
  health : Dict String (HealthMonitor.ServiceHealth T)
  /-- `none` is the empty dictionary. -/
  last_report : Option (HealthMonitor.HealthReport T)

namespace HealthMonitor

variable {T : Type}

/-- `time before a half-open circuit is retried`, in seconds. No function of
    the source reads it. -/
def CIRCUIT_RESET_S : Nat := 60

/-- `HealthMonitor.__init__`. -/
def init (event_bus svc_mgr job_queue : Bool) (max_consecutive_failures : Int) :
    HealthMonitor T :=
  ⟨event_bus, svc_mgr, job_queue, max_consecutive_failures, .empty, none⟩

inductive Pc where
  | queued
  /-- Inside `self._svc_mgr.stop(name)`. -/
  | stopping
  /-- Inside `self._svc_mgr.start(name)`. -/
  | starting
  /-- At the write of `HALF_OPEN`. -/
  | marking
  | done
deriving DecidableEq, Repr

/-- A job that runs `_repair_service`. -/
structure Repair where
  name : String
  pc : Pc
deriving DecidableEq, Repr

structure State (T : Type) where
  monitor : HealthMonitor T
  jobs : Objects Repair

inductive Obs (T : Type) where
  | checked (name : String) (state : ServiceState) (now : T)
  | integrity_alert (name : String) (failures : Nat)
  /-- `submit` of a job named `repair:` with the name of the service. -/
  | submitted (name : String) (j : Nat)
  | health_report (report : HealthReport T)
  /-- The job calls `stop`, or `start`. -/
  | stop (j : Nat) (name : String)
  | start (j : Nat) (name : String)
  | restarting (name : String)
  /-- The job has run. -/
  | repaired (name : String) (now : T)

/-- The readings of the clock during a check. -/
structure CheckEnv (T : Type) where
  checked : String → T
  failed : String → T
  timestamp : T

/-- The observation is about the service. -/
def Obs.about (name : String) : Obs T → Bool
  | .checked name' _ _ => name' = name
  | .submitted name' _ => name' = name
  | .repaired name' _ => name' = name
  | _ => false

/-- The observation is one of a check. -/
def Obs.ofCheck : Obs T → Bool
  | .checked .. => true
  | .integrity_alert .. => true
  | .submitted .. => true
  | .health_report .. => true
  | _ => false

inductive Label (T : Type) where
  /-- A check, with the registry of the manager unless reading it raises. -/
  | check_all (registry : Option (Dict String ServiceState)) (env : CheckEnv T)
  /-- A job goes on. `result` is the truth of what its call of the manager
      returns, `none` if that raises. -/
  | repair (j : Nat) (result : Option Bool) (now : T)

/-! ### Checks -/

/-- The variables of the loop of `_check_all`, and what it has done. -/
structure Check (T : Type) where
  health : Dict String (ServiceHealth T)
  jobs : Objects Repair
  healthy_names : List String
  degraded_names : List String
  failed_names : List String
  trace : List (Obs T)

/-- `_publish`: without an event bus it returns. -/
def publish (self : HealthMonitor T) (o : Obs T) : List (Obs T) :=
  if self.event_bus then [o] else []

/-- `_handle_failure`. -/
def handle_failure (self : HealthMonitor T) (acc : Check T) (name : String) (failures : Nat) :
    Check T :=
  let acc := { acc with trace := acc.trace ++ self.publish (.integrity_alert name failures) }
  if self.job_queue then
    { acc with
      jobs := acc.jobs.create ⟨name, .queued⟩
      trace := acc.trace ++ [.submitted name acc.jobs.next] }
  else acc

/-- The body of the loop of `_check_all`. -/
def check_service [Clock T] (self : HealthMonitor T) (env : CheckEnv T) (acc : Check T)
    (item : String × ServiceState) : Check T :=
  let name := item.1
  let h := (acc.health.get name).getD (.init name)
  let h := { h with last_check_ts := env.checked name, last_state := some item.2 }
  let acc := { acc with trace := acc.trace ++ [Obs.checked name item.2 (env.checked name)] }
  if item.2 = .RUNNING then
    { acc with
      health := acc.health.set name h.record_healthy
      healthy_names := acc.healthy_names ++ [name] }
  else
    let failure := h.record_failure self.max_failures (env.failed name)
    let acc := { acc with health := acc.health.set name failure.1 }
    if failure.2 then
      { self.handle_failure acc name failure.1.consecutive_failures with
        failed_names := acc.failed_names ++ [name] }
    else if 0 < failure.1.consecutive_failures then
      { acc with degraded_names := acc.degraded_names ++ [name] }
    else { acc with healthy_names := acc.healthy_names ++ [name] }

/-- The loop of `_check_all`. -/
def check_services [Clock T] (s : State T) (env : CheckEnv T)
    (registry : List (String × ServiceState)) : Check T :=
  registry.foldl (s.monitor.check_service env) ⟨s.monitor.health, s.jobs, [], [], [], []⟩

/-- The report of `_check_all`. -/
def report (acc : Check T) (timestamp : T) : HealthReport T where
  timestamp
  healthy := acc.healthy_names.length
  degraded := acc.degraded_names.length
  failed := acc.failed_names.length
  services := acc.health.items.map fun item => (item.1, item.2.to_dict)
  healthy_list := acc.healthy_names
  degraded_list := acc.degraded_names
  failed_list := acc.failed_names

/-- `_check_all`. -/
def check_all [Clock T] (s : State T) (registry : Option (Dict String ServiceState))
    (env : CheckEnv T) : State T × List (Obs T) :=
  if ¬ s.monitor.svc_mgr then (s, [])
  else
    match registry with
    | none => (s, [])
    | some registry =>
      let acc := check_services s env registry.items
      let report := report acc env.timestamp
      ({ monitor := { s.monitor with health := acc.health, last_report := some report },
          jobs := acc.jobs },
        acc.trace ++ s.monitor.publish (.health_report report))

/-! ### Repairs -/

/-- The job stands elsewhere. -/
def goto (s : State T) (j : Nat) (job : Repair) (pc : Pc) : State T :=
  { s with jobs := s.jobs.set j { job with pc } }

/-- The job has run. -/
def finish (s : State T) (j : Nat) (job : Repair) (os : List (Obs T)) (now : T) :
    State T × List (Obs T) :=
  (goto s j job .done, os ++ [.repaired job.name now])

/-- A step of `_repair_service`. -/
def repair_service (s : State T) (j : Nat) (job : Repair) (result : Option Bool) (now : T) :
    Option (State T × List (Obs T)) :=
  match job.pc with
  | .queued =>
    if s.monitor.svc_mgr then some (goto s j job .stopping, [.stop j job.name])
    else some (finish s j job [] now)
  | .stopping =>
    match result with
    | some true => some (goto s j job .starting, [.start j job.name])
    -- an exception is logged only
    | _ => some (finish s j job [] now)
  | .starting =>
    match result with
    | some true => some (goto s j job .marking, [])
    | _ => some (finish s j job [] now)
  | .marking =>
    match s.monitor.health.get job.name with
    | none => some (finish s j job [] now)
    | some h =>
      some (finish
        { s with
          monitor :=
            { s.monitor with
              health := s.monitor.health.set job.name { h with circuit := .HALF_OPEN } } }
        j job (s.monitor.publish (.restarting job.name)) now)
  | .done => none

/-- The monitor and its jobs. -/
def machine [Clock T] : Machine (State T) (Label T) (Obs T) where
  step := fun s l =>
    match l with
    | .check_all registry env => some (check_all s registry env)
    | .repair j result now =>
      match s.jobs.get j with
      | none => none
      | some job => repair_service s j job result now

/-! ### What a check does for a service -/

/-- The circuit of a service, closed where the monitor does not know it yet. -/
def circuit (health : Dict String (ServiceHealth T)) (name : String) : Circuit :=
  ((health.get name).map ServiceHealth.circuit).getD .CLOSED

/-- The failures in a row of a service. -/
def failures (health : Dict String (ServiceHealth T)) (name : String) : Nat :=
  ((health.get name).map ServiceHealth.consecutive_failures).getD 0

/-- The check opens the circuit. -/
def Opens (self : HealthMonitor T) (health : Dict String (ServiceHealth T)) (name : String)
    (state : ServiceState) : Prop :=
  state ≠ .RUNNING ∧ circuit health name = .CLOSED ∧
    self.max_failures ≤ (failures health name + 1 : Nat)

instance Opens.decidable (self : HealthMonitor T) (health : Dict String (ServiceHealth T))
    (name : String) (state : ServiceState) : Decidable (self.Opens health name state) :=
  inferInstanceAs (Decidable (_ ∧ _))

/-- What the loop does for one service. -/
structure Checks (monitor : HealthMonitor T) (env : CheckEnv T) (acc : Check T) (name : String)
    (state : ServiceState) (acc' : Check T) : Prop where
  others : ∀ name', name' ≠ name → acc'.health.get name' = acc.health.get name'
  circuit : circuit acc'.health name =
    if state = .RUNNING then .CLOSED
    else if monitor.Opens acc.health name state then .OPEN else circuit acc.health name
  failures : failures acc'.health name =
    if state = .RUNNING then 0 else failures acc.health name + 1
  jobs : acc'.jobs =
    if monitor.Opens acc.health name state ∧ monitor.job_queue then
      acc.jobs.create ⟨name, .queued⟩ else acc.jobs
  trace : ∃ os, acc'.trace = acc.trace ++ .checked name state (env.checked name) :: os ∧
    (∀ o ∈ os, o = .submitted name acc.jobs.next ∨ ∃ n, o = .integrity_alert name n) ∧
    (.submitted name acc.jobs.next ∈ os ↔
      monitor.Opens acc.health name state ∧ monitor.job_queue = true)

theorem circuit_congr {health health' : Dict String (ServiceHealth T)} {name : String}
    (h : health.get name = health'.get name) : circuit health name = circuit health' name := by
  unfold circuit
  rw [h]

theorem failures_congr {health health' : Dict String (ServiceHealth T)} {name : String}
    (h : health.get name = health'.get name) : failures health name = failures health' name := by
  unfold failures
  rw [h]

/-- The circuit of the record that a check starts from. -/
theorem circuit_getD [Clock T] (health : Dict String (ServiceHealth T)) (name : String) :
    ((health.get name).getD (.init name)).circuit = circuit health name := by
  unfold circuit
  cases health.get name <;> rfl

theorem failures_getD [Clock T] (health : Dict String (ServiceHealth T)) (name : String) :
    ((health.get name).getD (.init name)).consecutive_failures = failures health name := by
  unfold failures
  cases health.get name <;> rfl

theorem circuit_set (health : Dict String (ServiceHealth T)) (name : String)
    (h : ServiceHealth T) : circuit (health.set name h) name = h.circuit := by
  unfold circuit
  rw [Dict.get_set_self]
  rfl

theorem failures_set (health : Dict String (ServiceHealth T)) (name : String)
    (h : ServiceHealth T) : failures (health.set name h) name = h.consecutive_failures := by
  unfold failures
  rw [Dict.get_set_self]
  rfl

theorem handle_failure_spec (self : HealthMonitor T) (acc : Check T) (name : String)
    (n : Nat) :
    (self.handle_failure acc name n).health = acc.health ∧
    (self.handle_failure acc name n).jobs =
      (if self.job_queue = true then acc.jobs.create ⟨name, .queued⟩ else acc.jobs) ∧
    ∃ os, (self.handle_failure acc name n).trace = acc.trace ++ os ∧
      (∀ o ∈ os, o = .submitted name acc.jobs.next ∨ ∃ n, o = .integrity_alert name n) ∧
      (.submitted name acc.jobs.next ∈ os ↔ self.job_queue = true) := by
  unfold handle_failure publish
  cases self.job_queue with
  | false =>
    refine ⟨rfl, rfl, _, rfl, ?_, ?_⟩
    · intro o ho
      split at ho
      · exact Or.inr ⟨n, List.mem_singleton.mp ho⟩
      · cases ho
    · split <;> simp
  | true =>
    refine ⟨rfl, rfl, _, List.append_assoc .., ?_, by simp⟩
    intro o ho
    rcases List.mem_append.mp ho with ho | ho
    · split at ho
      · exact Or.inr ⟨n, List.mem_singleton.mp ho⟩
      · cases ho
    · exact Or.inl (List.mem_singleton.mp ho)

/-- A service that runs passes the check. -/
theorem check_service_passed [Clock T] (self : HealthMonitor T) (env : CheckEnv T)
    (acc : Check T) (name : String) {state : ServiceState} (hrunning : state = .RUNNING) :
    Checks self env acc name state (self.check_service env acc (name, state)) := by
  have hnot : ¬ self.Opens acc.health name state := fun hopens => hopens.1 hrunning
  unfold check_service
  dsimp only
  rw [if_pos hrunning]
  refine ⟨fun name' hne => Dict.get_set_of_ne hne _, ?_, ?_, ?_, [], rfl, ?_, ?_⟩
  · rw [if_pos hrunning, circuit_set]
    rfl
  · rw [if_pos hrunning, failures_set]
    rfl
  · rw [if_neg fun hopens => hnot hopens.1]
  · simp
  · simp [hnot]

/-- A service that does not run fails the check. -/
theorem check_service_failed [Clock T] (self : HealthMonitor T) (env : CheckEnv T)
    (acc : Check T) (name : String) {state : ServiceState} (hrunning : state ≠ .RUNNING) :
    Checks self env acc name state (self.check_service env acc (name, state)) := by
  have hcircuit := circuit_getD acc.health name
  have hfailures := failures_getD acc.health name
  unfold check_service
  dsimp only
  generalize (acc.health.get name).getD (.init name) = h at hcircuit hfailures ⊢
  rw [if_neg hrunning]
  obtain ⟨hcount, ⟨hclosed, hmax, htrue, hopen⟩ | ⟨hnot, hfalse, hsame⟩⟩ :=
    ServiceHealth.record_failure_cases
      { h with last_check_ts := env.checked name, last_state := some state }
      self.max_failures (env.failed name)
  · -- the circuit opens
    have hopens : self.Opens acc.health name state :=
      ⟨hrunning, hcircuit ▸ hclosed, hfailures ▸ hmax⟩
    rw [if_pos htrue]
    obtain ⟨hhealth, hjobs, os, htrace, hos, hsubmitted⟩ := self.handle_failure_spec
      { acc with
        trace := acc.trace ++ [Obs.checked name state (env.checked name)]
        health := acc.health.set name (ServiceHealth.record_failure
          { h with last_check_ts := env.checked name, last_state := some state }
          self.max_failures (env.failed name)).1 }
      name (ServiceHealth.record_failure
        { h with last_check_ts := env.checked name, last_state := some state }
        self.max_failures (env.failed name)).1.consecutive_failures
    have hqueue : self.Opens acc.health name state ∧ self.job_queue = true ↔
        self.job_queue = true := and_iff_right hopens
    refine ⟨fun name' hne => ?_, ?_, ?_, ?_, os, ?_, hos,
      hsubmitted.trans hqueue.symm⟩
    · rw [hhealth]
      exact Dict.get_set_of_ne hne _
    · rw [if_neg hrunning, if_pos hopens, hhealth]
      exact (circuit_set ..).trans hopen
    · rw [if_neg hrunning, hhealth]
      exact (failures_set ..).trans (hcount.trans (congrArg (· + 1) hfailures))
    · rw [hjobs]
      simp only [hqueue]
    · rw [htrace, List.append_assoc]
      rfl
  · have hnot' : ¬ self.Opens acc.health name state := fun hopens =>
      hnot ⟨hcircuit.trans hopens.2.1, hfailures ▸ hopens.2.2⟩
    rw [hfalse, if_neg Bool.false_ne_true, if_pos (by rw [hcount]; exact Nat.succ_pos _)]
    refine ⟨fun name' hne => Dict.get_set_of_ne hne _, ?_, ?_, ?_, [], rfl, ?_, ?_⟩
    · rw [if_neg hrunning, if_neg hnot', circuit_set, hsame]
      exact hcircuit
    · rw [if_neg hrunning, failures_set, hcount]
      exact congrArg (· + 1) hfailures
    · rw [if_neg fun hopens => hnot' hopens.1]
    · simp
    · simp [hnot']

theorem check_service_checks [Clock T] (self : HealthMonitor T) (env : CheckEnv T)
    (acc : Check T) (name : String) (state : ServiceState) :
    Checks self env acc name state (self.check_service env acc (name, state)) := by
  by_cases hrunning : state = .RUNNING
  · exact self.check_service_passed env acc name hrunning
  · exact self.check_service_failed env acc name hrunning

/-! ### What a check does for all services -/

section loop

variable [Clock T] (self : HealthMonitor T) (env : CheckEnv T)

/-- The loop does nothing for a service that is not in the registry. -/
theorem check_services_absent {name : String} {registry : List (String × ServiceState)}
    (h : name ∉ registry.map Prod.fst) (acc : Check T) :
    (registry.foldl (self.check_service env) acc).health.get name = acc.health.get name ∧
    (registry.foldl (self.check_service env) acc).trace.filter (Obs.about name) =
      acc.trace.filter (Obs.about name) := by
  induction registry generalizing acc with
  | nil => exact ⟨rfl, rfl⟩
  | cons item registry ih =>
    obtain ⟨name', state⟩ := item
    rw [List.map_cons, List.mem_cons, not_or] at h
    have hone := self.check_service_checks env acc name' state
    obtain ⟨hhealth, htrace⟩ := ih h.2 (self.check_service env acc (name', state))
    rw [List.foldl_cons, hhealth, htrace]
    refine ⟨hone.others name h.1, ?_⟩
    obtain ⟨os, heq, hos, -⟩ := hone.trace
    rw [heq, List.filter_append, List.append_right_eq_self, List.filter_eq_nil_iff]
    rintro o (_ | ⟨_, ho⟩)
    · simpa [Obs.about] using Ne.symm h.1
    · rcases hos o ho with rfl | ⟨n, rfl⟩
      · simpa [Obs.about] using Ne.symm h.1
      · simp [Obs.about]

/-- The loop checks each service of the registry once. -/
theorem check_services_present {name : String} {state : ServiceState}
    {registry : List (String × ServiceState)} (hnodup : (registry.map Prod.fst).Nodup)
    (h : (name, state) ∈ registry) (acc : Check T) :
    ∃ acc', registry.foldl (self.check_service env) acc = acc' ∧
      circuit acc'.health name =
        (if state = .RUNNING then .CLOSED
        else if self.Opens acc.health name state then .OPEN else circuit acc.health name) ∧
      failures acc'.health name =
        (if state = .RUNNING then 0 else failures acc.health name + 1) ∧
      ∃ os, acc'.trace.filter (Obs.about name) = acc.trace.filter (Obs.about name) ++
          .checked name state (env.checked name) :: os ∧
        (∀ o ∈ os, ∃ j, o = .submitted name j) ∧
        (os ≠ [] ↔ self.Opens acc.health name state ∧ self.job_queue = true) := by
  obtain ⟨before, after, rfl⟩ := List.append_of_mem h
  rw [List.map_append, List.map_cons] at hnodup
  obtain ⟨-, hafter, hdisjoint⟩ := List.nodup_append'.mp hnodup
  obtain ⟨hnew, -⟩ := List.nodup_cons.mp hafter
  have hbefore : name ∉ before.map Prod.fst := fun hmem => hdisjoint hmem List.mem_cons_self
  obtain ⟨hhealth, htrace⟩ := check_services_absent self env hbefore acc
  rw [List.foldl_append, List.foldl_cons]
  generalize before.foldl (self.check_service env) acc = acc₁ at hhealth htrace ⊢
  -- what the services before and after it leave as it is
  have hone := self.check_service_checks env acc₁ name state
  obtain ⟨hhealth', htrace'⟩ :=
    check_services_absent self env hnew (self.check_service env acc₁ (name, state))
  have hcircuit₁ := circuit_congr hhealth
  have hfailures₁ := failures_congr hhealth
  have hopens : self.Opens acc₁.health name state ↔ self.Opens acc.health name state := by
    unfold Opens
    rw [hcircuit₁, hfailures₁]
  refine ⟨_, rfl, ?_, ?_, ?_⟩
  · rw [circuit_congr hhealth', hone.circuit]
    simp only [hopens, hcircuit₁]
  · rw [failures_congr hhealth', hone.failures, hfailures₁]
  · obtain ⟨os, heq, hos, hsubmitted⟩ := hone.trace
    refine ⟨os.filter (Obs.about name), ?_, ?_, ?_⟩
    · rw [htrace', heq, List.filter_append, htrace, List.filter_cons_of_pos]
      simp [Obs.about]
    · intro o ho
      obtain ⟨hmem, habout⟩ := List.mem_filter.mp ho
      rcases hos o hmem with rfl | ⟨n, rfl⟩
      · exact ⟨_, rfl⟩
      · simp [Obs.about] at habout
    · rw [← hopens, ← hsubmitted, ne_eq, List.filter_eq_nil_iff]
      push Not
      constructor
      · rintro ⟨o, ho, habout⟩
        rcases hos o ho with rfl | ⟨n, rfl⟩
        · exact ho
        · simp [Obs.about] at habout
      · intro ho
        exact ⟨_, ho, by simp [Obs.about]⟩

/-- The loop queues jobs, and emits what a check emits. -/
theorem check_services_jobs (registry : List (String × ServiceState)) (acc : Check T) :
    (∀ j job, (registry.foldl (self.check_service env) acc).jobs.get j = some job →
      acc.jobs.get j = some job ∨ (job.pc = .queued ∧ self.job_queue = true)) ∧
    ∀ o ∈ (registry.foldl (self.check_service env) acc).trace,
      o ∈ acc.trace ∨ o.ofCheck = true := by
  induction registry generalizing acc with
  | nil => exact ⟨fun _ _ => Or.inl, fun _ => Or.inl⟩
  | cons item registry ih =>
    obtain ⟨hnew, htrace⟩ := ih (self.check_service env acc item)
    have hone := self.check_service_checks env acc item.1 item.2
    rw [List.foldl_cons]
    refine ⟨fun j job hj => ?_, fun o ho => ?_⟩
    · rcases hnew j job hj with hj | hqueued
      · rw [hone.jobs] at hj
        split at hj
        · next hopens =>
          rw [Objects.get_create] at hj
          split at hj
          · obtain rfl := Option.some.inj hj
            exact Or.inr ⟨rfl, hopens.2⟩
          · exact Or.inl hj
        · exact Or.inl hj
      · exact Or.inr hqueued
    · rcases htrace o ho with ho | ho
      · obtain ⟨os, heq, hos, -⟩ := hone.trace
        rw [heq, List.mem_append, List.mem_cons] at ho
        rcases ho with ho | rfl | ho
        · exact Or.inl ho
        · exact Or.inr rfl
        · rcases hos o ho with rfl | ⟨n, rfl⟩ <;> exact Or.inr rfl
      · exact Or.inr ho

end loop

/-! ### Inversion of the steps -/

/-- What a step of a repair does. -/
inductive Repairs (s : State T) (j : Nat) (job : Repair) (result : Option Bool) (now : T) :
    List (Obs T) → State T → Prop where
  | stops (h : job.pc = .queued) :
      Repairs s j job result now [.stop j job.name] (goto s j job .stopping)
  | starts (h : job.pc = .stopping) (hresult : result = some true) :
      Repairs s j job result now [.start j job.name] (goto s j job .starting)
  | started (h : job.pc = .starting) (hresult : result = some true) :
      Repairs s j job result now [] (goto s j job .marking)
  | ends (h : job.pc ≠ .done) :
      Repairs s j job result now [.repaired job.name now] (goto s j job .done)
  | marks (health : ServiceHealth T) (h : job.pc = .marking)
      (hhealth : s.monitor.health.get job.name = some health) :
      Repairs s j job result now
        (s.monitor.publish (.restarting job.name) ++ [.repaired job.name now])
        (goto
          { s with
            monitor :=
              { s.monitor with
                health :=
                  s.monitor.health.set job.name { health with circuit := .HALF_OPEN } } }
          j job .done)

theorem repair_service_sound {s s' : State T} {j : Nat} {job : Repair} {result : Option Bool}
    {now : T} {os : List (Obs T)} (h : repair_service s j job result now = some (s', os)) :
    Repairs s j job result now os s' := by
  unfold repair_service at h
  split at h
  · next hpc =>
    split at h
    · cases h
      exact .stops hpc
    · cases h
      exact .ends (by simp [hpc])
  · next hpc =>
    split at h
    · cases h
      exact .starts hpc rfl
    · cases h
      exact .ends (by simp [hpc])
  · next hpc =>
    split at h
    · cases h
      exact .started hpc rfl
    · cases h
      exact .ends (by simp [hpc])
  · next hpc =>
    split at h
    · cases h
      exact .ends (by simp [hpc])
    · next health hhealth =>
      cases h
      exact .marks health hpc hhealth
  · cases h

/-- What a step can do. -/
inductive Step [Clock T] (s : State T) : Label T → List (Obs T) → State T → Prop where
  | idle (registry : Option (Dict String ServiceState)) (env : CheckEnv T)
      (h : s.monitor.svc_mgr = false ∨ registry = none) : Step s (.check_all registry env) [] s
  | checks (registry : Dict String ServiceState) (env : CheckEnv T) (acc : Check T)
      (hmgr : s.monitor.svc_mgr = true) (hacc : check_services s env registry.items = acc) :
      Step s (.check_all (some registry) env)
        (acc.trace ++ s.monitor.publish (.health_report (report acc env.timestamp)))
        { monitor :=
            { s.monitor with
              health := acc.health
              last_report := some (report acc env.timestamp) }
          jobs := acc.jobs }
  | repairs (j : Nat) (result : Option Bool) (now : T) (job : Repair) (os : List (Obs T))
      (s' : State T) (hjob : s.jobs.get j = some job)
      (hrepairs : Repairs s j job result now os s') : Step s (.repair j result now) os s'

theorem step_sound [Clock T] {s s' : State T} {l : Label T} {os : List (Obs T)}
    (h : machine.step s l = some (s', os)) : Step s l os s' := by
  cases l with
  | check_all registry env =>
    have heq : check_all s registry env = (s', os) := Option.some.inj h
    unfold check_all at heq
    split at heq
    · next hmgr =>
      cases heq
      exact .idle registry env (Or.inl (by simpa using hmgr))
    · next hmgr =>
      split at heq
      · cases heq
        exact .idle none env (Or.inr rfl)
      · next registry =>
        cases heq
        exact .checks registry env _ (by simpa using hmgr) rfl
  | repair j result now =>
    simp only [machine] at h
    split at h
    · cases h
    · next job hjob => exact .repairs j result now job os s' hjob (repair_service_sound h)

/-! ### What the steps do -/

/-- What a check does for a service: nothing if it is not in the registry.
    Otherwise it checks it once, and submits a repair if it opens the circuit. -/
theorem checks_cases [Clock T] {s : State T} {registry : Dict String ServiceState}
    {env : CheckEnv T} {acc : Check T} (hacc : check_services s env registry.items = acc)
    (report : HealthReport T) (name : String) {os : List (Obs T)}
    (hos : acc.trace ++ s.monitor.publish (.health_report report) = os) :
    (registry.get name = none ∧ acc.health.get name = s.monitor.health.get name ∧
      os.filter (Obs.about name) = []) ∨
    ∃ state subs, registry.get name = some state ∧
      circuit acc.health name =
        (if state = .RUNNING then .CLOSED
        else if s.monitor.Opens s.monitor.health name state then .OPEN
        else circuit s.monitor.health name) ∧
      failures acc.health name =
        (if state = .RUNNING then 0 else failures s.monitor.health name + 1) ∧
      os.filter (Obs.about name) = .checked name state (env.checked name) :: subs ∧
      (∀ o ∈ subs, ∃ j, o = .submitted name j) ∧
      (subs ≠ [] ↔
        s.monitor.Opens s.monitor.health name state ∧ s.monitor.job_queue = true) := by
  have hreport : (s.monitor.publish (.health_report report)).filter (Obs.about name) = [] := by
    unfold publish
    split <;> simp [Obs.about]
  subst hos
  rw [List.filter_append, hreport, List.append_nil]
  unfold check_services at hacc
  cases hget : registry.get name with
  | none =>
    left
    have habsent : name ∉ registry.items.map Prod.fst := by
      intro hmem
      obtain ⟨state, hsome⟩ := (registry.mem_keys_iff name).mp hmem
      rw [hget] at hsome
      cases hsome
    obtain ⟨hhealth, htrace⟩ := check_services_absent s.monitor env habsent
      ⟨s.monitor.health, s.jobs, [], [], [], []⟩
    rw [hacc] at hhealth htrace
    exact ⟨rfl, hhealth, htrace⟩
  | some state =>
    right
    obtain ⟨acc', heq, hcircuit, hfailures, subs, htrace, hsubs, hiff⟩ :=
      check_services_present s.monitor env registry.nodup (Dict.mem_of_get hget)
        ⟨s.monitor.health, s.jobs, [], [], [], []⟩
    obtain rfl := heq.symm.trans hacc
    exact ⟨state, subs, rfl, hcircuit, hfailures, htrace, hsubs, hiff⟩

/-- A check queues jobs, and emits what a check emits. -/
theorem checks_jobs [Clock T] {s : State T} {registry : Dict String ServiceState}
    {env : CheckEnv T} {acc : Check T} (hacc : check_services s env registry.items = acc)
    (report : HealthReport T) :
    (∀ j job, acc.jobs.get j = some job → s.jobs.get j = some job ∨
      (job.pc = .queued ∧ s.monitor.job_queue = true)) ∧
    ∀ o ∈ acc.trace ++ s.monitor.publish (.health_report report), o.ofCheck = true := by
  obtain ⟨hjobs, htrace⟩ := check_services_jobs s.monitor env registry.items
    ⟨s.monitor.health, s.jobs, [], [], [], []⟩
  unfold check_services at hacc
  rw [hacc] at hjobs htrace
  refine ⟨hjobs, fun o ho => ?_⟩
  rcases List.mem_append.mp ho with ho | ho
  · exact (htrace o ho).resolve_left List.not_mem_nil
  · unfold publish at ho
    split at ho
    · obtain rfl := List.mem_singleton.mp ho
      rfl
    · cases ho

/-- A repair counts nothing. -/
theorem Repairs.spec {s s' : State T} {j : Nat} {job : Repair} {result : Option Bool} {now : T}
    {os : List (Obs T)} (h : Repairs s j job result now os s') :
    (s'.monitor.max_failures = s.monitor.max_failures ∧
      s'.monitor.svc_mgr = s.monitor.svc_mgr ∧ s'.monitor.job_queue = s.monitor.job_queue) ∧
    (∀ name, failures s'.monitor.health name = failures s.monitor.health name) ∧
    (∀ name, circuit s'.monitor.health name = circuit s.monitor.health name ∨
      circuit s'.monitor.health name = .HALF_OPEN) ∧
    (∃ pc, s'.jobs = s.jobs.set j { job with pc }) ∧
    ∀ o ∈ os, o.ofCheck = false := by
  cases h with
  | stops h => exact ⟨⟨rfl, rfl, rfl⟩, fun _ => rfl, fun _ => Or.inl rfl, ⟨_, rfl⟩,
      by simp [Obs.ofCheck]⟩
  | starts h hresult => exact ⟨⟨rfl, rfl, rfl⟩, fun _ => rfl, fun _ => Or.inl rfl, ⟨_, rfl⟩,
      by simp [Obs.ofCheck]⟩
  | started h hresult => exact ⟨⟨rfl, rfl, rfl⟩, fun _ => rfl, fun _ => Or.inl rfl, ⟨_, rfl⟩,
      by simp⟩
  | ends h => exact ⟨⟨rfl, rfl, rfl⟩, fun _ => rfl, fun _ => Or.inl rfl, ⟨_, rfl⟩,
      by simp [Obs.ofCheck]⟩
  | marks health h hhealth =>
    refine ⟨⟨rfl, rfl, rfl⟩, fun name => ?_, fun name => ?_, ⟨_, rfl⟩, ?_⟩
    · unfold failures goto
      rw [Dict.get_set]
      split
      · next heq => rw [heq, hhealth]; rfl
      · rfl
    · unfold circuit goto
      rw [Dict.get_set]
      split
      · exact Or.inr rfl
      · exact Or.inl rfl
    · unfold publish
      split <;> simp [Obs.ofCheck]

end HealthMonitor
