import Aioscpu.Services.HealthMonitor
import Mathlib.Logic.Function.Basic

/-! # Self-Healing

  The health monitor over the service manager. The repair of a service calls
  `stop` and then `start` of the manager. While it waits for a call, the other
  calls and the workers of the manager go on, and so do other repairs and
  checks.

  `stop` and `start` return `None`. The repair takes that for a failure.
-/

namespace SelfHealing

open ServiceManager (ServiceState ServiceRecord)

variable {T : Type}

structure State (T : Type) where
  manager : ServiceManager.State
  health : HealthMonitor.State T
  /-- The call of the manager that a job waits for. -/
  waits : Nat → Option Nat

inductive Label (T : Type) where
  /-- Anything that the manager, its workers and its callers do. -/
  | manager (l : ServiceManager.Label)
  | check_all (env : HealthMonitor.CheckEnv T)
  | repair (j : Nat) (now : T)

inductive Obs (T : Type) where
  | manager (o : ServiceManager.Obs)
  | monitor (o : HealthMonitor.Obs T)

def init (manager : ServiceManager.State) (event_bus job_queue : Bool)
    (max_consecutive_failures : Int) : State T :=
  ⟨manager, ⟨.init event_bus true job_queue max_consecutive_failures, .empty⟩, fun _ => none⟩

/-- The registry as a check reads it. -/
def registry (manager : ServiceManager.State) : Dict String ServiceState :=
  manager.registry.filterMap fun r => (manager.records.get r).map ServiceRecord.state

/-- A check reads of a service what `status` tells of it. -/
theorem registry_get (manager : ServiceManager.State) (name : String) :
    (registry manager).get name = ServiceManager.status manager name :=
  Dict.get_filterMap ..

/-- The truth of what a call of `stop` or `start` has returned, if it has ended. -/
def truth : ServiceManager.Pc → Option (Option Bool)
  -- they return `None`
  | .returned => some (some false)
  | .raised _ => some none
  | _ => none

/-- What the job goes on with. -/
def answer (s : State T) (j : Nat) (job : HealthMonitor.Repair) : Option (Option Bool) :=
  if job.pc = .stopping ∨ job.pc = .starting then
    (s.waits j).bind fun n => (s.manager.calls.get n).bind fun c => truth c.pc
  else some none

/-- The job calls the manager. -/
def call (s : State T) (j : Nat) : List (HealthMonitor.Obs T) → State T
  | [.stop _ name] =>
    { s with
      manager := ServiceManager.lookup s.manager name .stop_check
      waits := Function.update s.waits j (some s.manager.calls.next) }
  | [.start _ name] =>
    { s with
      manager := ServiceManager.lookup s.manager name .start_check
      waits := Function.update s.waits j (some s.manager.calls.next) }
  | _ => s

/-- A step of a repair. -/
def repair (s : State T) (j : Nat) (now : T) : Option (State T × List (Obs T)) :=
  match s.health.jobs.get j with
  | none => none
  | some job =>
    match answer s j job with
    | none => none
    | some result =>
      match HealthMonitor.repair_service s.health j job result now with
      | none => none
      | some (health, os) => some (call { s with health } j os, os.map .monitor)

/-- The monitor, its jobs and the manager. -/
def machine [Clock T] : Machine (State T) (Label T) (Obs T) where
  step := fun s l =>
    match l with
    | .manager l =>
      match ServiceManager.machine.step s.manager l with
      | none => none
      | some (manager, os) => some ({ s with manager }, os.map .manager)
    | .check_all env =>
      let (health, os) := HealthMonitor.check_all s.health (some (registry s.manager)) env
      some ({ s with health }, os.map .monitor)
    | .repair j now => repair s j now

/-! ### Repairs that are told of no success -/

/-- No repair has got past `stop`, and no circuit is half open. -/
structure Unhealed (s : HealthMonitor.State T) : Prop where
  jobs : ∀ j job, s.jobs.get j = some job →
    job.pc = .queued ∨ job.pc = .stopping ∨ job.pc = .done
  circuits : ∀ name, HealthMonitor.circuit s.monitor.health name ≠ .HALF_OPEN

theorem Unhealed.goto {s : HealthMonitor.State T} (h : Unhealed s) {j : Nat}
    {job : HealthMonitor.Repair} (hjob : s.jobs.get j = some job) {pc : HealthMonitor.Pc}
    (hpc : pc = .queued ∨ pc = .stopping ∨ pc = .done) :
    Unhealed (HealthMonitor.goto s j job pc) := by
  refine ⟨fun i job' hi => ?_, h.circuits⟩
  unfold HealthMonitor.goto at hi
  rw [Objects.get_set hjob] at hi
  split at hi
  · obtain rfl := Option.some.inj hi
    exact hpc
  · exact h.jobs i job' hi

/-- A check opens circuits, and half opens none. -/
theorem check_all_unhealed [Clock T] {s s' : HealthMonitor.State T} (h : Unhealed s)
    {registry : Option (Dict String ServiceState)} {env : HealthMonitor.CheckEnv T}
    {os : List (HealthMonitor.Obs T)}
    (hs : HealthMonitor.machine.step s (.check_all registry env) = some (s', os)) :
    Unhealed s' ∧ ∀ j name, .start j name ∉ os := by
  cases HealthMonitor.step_sound hs with
  | idle => exact ⟨h, fun _ _ => List.not_mem_nil⟩
  | checks registry env acc hmgr hacc =>
    obtain ⟨hjobs, htrace⟩ := HealthMonitor.checks_jobs hacc
      (HealthMonitor.report acc env.timestamp)
    refine ⟨⟨fun j job hj => ?_, fun name => ?_⟩, fun j name hmem => ?_⟩
    · rcases hjobs j job hj with hj | ⟨hqueued, -⟩
      · exact h.jobs j job hj
      · exact Or.inl hqueued
    · rcases HealthMonitor.checks_cases hacc (HealthMonitor.report acc env.timestamp) name rfl with
        ⟨-, hhealth, -⟩ | ⟨state, subs, -, hcircuit, -⟩
      · have hsame := h.circuits name
        unfold HealthMonitor.circuit at hsame ⊢
        rwa [hhealth]
      · show HealthMonitor.circuit acc.health name ≠ .HALF_OPEN
        rw [hcircuit]
        split
        · decide
        · split
          · decide
          · exact h.circuits name
    · cases htrace _ hmem

/-- A repair that is not told of a success calls `start` no more. -/
theorem repair_unhealed {s s' : HealthMonitor.State T} (h : Unhealed s) {j : Nat}
    {job : HealthMonitor.Repair} (hjob : s.jobs.get j = some job) {result : Option Bool}
    (hresult : result ≠ some true) {now : T} {os : List (HealthMonitor.Obs T)}
    (hrepairs : HealthMonitor.Repairs s j job result now os s') :
    Unhealed s' ∧ ∀ i name, .start i name ∉ os := by
  cases hrepairs with
  | stops hpc => exact ⟨h.goto hjob (Or.inr (Or.inl rfl)), by simp⟩
  | starts hpc htrue => exact absurd htrue hresult
  | started hpc htrue => exact absurd htrue hresult
  | ends hpc => exact ⟨h.goto hjob (Or.inr (Or.inr rfl)), by simp⟩
  | marks health hpc hhealth =>
    rcases h.jobs j job hjob with heq | heq | heq <;> cases heq.symm.trans hpc

/-! ### What the manager tells -/

/-- No call of the manager returns what is true. -/
theorem answer_ne_true {s : State T} {j : Nat} {job : HealthMonitor.Repair} :
    answer s j job ≠ some (some true) := by
  unfold answer
  split
  · intro h
    obtain ⟨n, -, h⟩ := Option.bind_eq_some_iff.mp h
    obtain ⟨c, -, h⟩ := Option.bind_eq_some_iff.mp h
    unfold truth at h
    split at h <;> cases h
  · exact fun h => by cases h

theorem call_health (s : State T) (j : Nat) (os : List (HealthMonitor.Obs T)) :
    (call s j os).health = s.health := by
  unfold call
  split <;> rfl

theorem step_unhealed [Clock T] {s s' : State T} {l : Label T} {os : List (Obs T)}
    (h : Unhealed s.health) (hs : machine.step s l = some (s', os)) :
    Unhealed s'.health ∧ ∀ j name, .monitor (.start j name) ∉ os := by
  cases l with
  | manager l =>
    simp only [machine] at hs
    split at hs
    · cases hs
    · cases hs
      exact ⟨h, by simp⟩
  | check_all env =>
    have hcheck : HealthMonitor.machine.step s.health
        (.check_all (some (registry s.manager)) env) =
          some (HealthMonitor.check_all s.health (some (registry s.manager)) env) := rfl
    obtain ⟨rfl, rfl⟩ := Prod.mk.inj (Option.some.inj hs)
    obtain ⟨hunhealed, hnever⟩ := check_all_unhealed h hcheck
    exact ⟨hunhealed, by simpa using hnever⟩
  | repair j now =>
    simp only [machine, repair] at hs
    split at hs
    · cases hs
    next job hjob =>
    split at hs
    · cases hs
    next result hanswer =>
    split at hs
    · cases hs
    next health os' hrepair =>
    cases hs
    have hresult : result ≠ some true := fun heq => answer_ne_true (heq ▸ hanswer)
    obtain ⟨hunhealed, hnever⟩ := repair_unhealed h hjob hresult
      (HealthMonitor.repair_service_sound hrepair)
    rw [call_health]
    exact ⟨hunhealed, by simpa using hnever⟩

/-- **Self-healing never heals**: in every run over every manager, no repair
    calls `start`, and no circuit is half open. -/
theorem repair_never_restarts [Clock T] (manager : ServiceManager.State)
    (event_bus job_queue : Bool) (max_failures : Int) {ls : List (Label T)} {s : State T}
    {tr : List (Obs T)}
    (hrun : machine.run (init manager event_bus job_queue max_failures) ls = some (s, tr)) :
    (∀ j name, .monitor (.start j name) ∉ tr) ∧
      ∀ name, HealthMonitor.circuit s.health.monitor.health name ≠ .HALF_OPEN := by
  have hinit : Unhealed (init (T := T) manager event_bus job_queue max_failures).health := by
    refine ⟨fun j job hj => ?_, fun name => ?_⟩
    · cases hj
    · show HealthMonitor.Circuit.CLOSED ≠ .HALF_OPEN
      decide
  obtain ⟨hunhealed, hnever⟩ := machine.run_induction
    (P := fun _ s tr => Unhealed s.health ∧ ∀ j name, .monitor (.start j name) ∉ tr)
    ⟨hinit, fun _ _ => List.not_mem_nil⟩
    (fun _ s tr l s' os _ h hs => by
      obtain ⟨hunhealed, hnever⟩ := step_unhealed h.1 hs
      refine ⟨hunhealed, fun j name hmem => ?_⟩
      rcases List.mem_append.mp hmem with hmem | hmem
      · exact h.2 j name hmem
      · exact hnever j name hmem) hrun
  exact ⟨hnever, hunhealed.circuits⟩

/-- A service is registered and started, and its entrypoint is no file. -/
def stoppedService : List (Label ℚ) :=
  [.register "a" ⟨[("name", "a"), ("entrypoint", "/services/a.py")], by simp⟩, .call 0 false,
    .start "a", .call 1 false, .call 1 false, .call 1 false, .call 1 false,
    .worker 0 false false, .worker 0 false false, .worker 0 false false,
    .worker 0 false false, .worker 0 false false].map .manager

/-- A check opens its circuit, and the repair runs. -/
def repairedService : List (Label ℚ) :=
  [.check_all ⟨fun _ => 0, fun _ => 0, 0⟩, .repair 0 1, .manager (.call 2 false),
    .manager (.call 2 false), .repair 0 1]

theorem repair_never_restarts_stopped :
    ∃ s tr, machine.run (init ServiceManager.init false true 1)
        (stoppedService ++ repairedService) = some (s, tr) ∧
      (∀ j name, .monitor (.start j name) ∉ tr) ∧
        ∀ name, HealthMonitor.circuit s.health.monitor.health name ≠ .HALF_OPEN := by
  obtain ⟨s, tr, hrun, -⟩ := machine.exists_run (init ServiceManager.init false true 1)
    (stoppedService ++ repairedService) (fun _ _ => true) (by decide +kernel)
  exact ⟨s, tr, hrun, repair_never_restarts ServiceManager.init false true 1 hrun⟩

/-- The repair of a stopped service has run. It has not called `start`, and the
    circuit is still open. -/
theorem repair_without_start :
    ∃ s tr s', machine.run (init ServiceManager.init false true 1) stoppedService =
        some (s, tr) ∧
      ServiceManager.status s.manager "a" = some .STOPPED ∧
      machine.run s repairedService =
        some (s', [.monitor (.checked "a" .STOPPED 0), .monitor (.submitted "a" 0),
          .monitor (.stop 0 "a"), .monitor (.repaired "a" 1)]) ∧
      s'.health.jobs.get 0 = some ⟨"a", .done⟩ ∧
      HealthMonitor.circuit s'.health.monitor.health "a" = .OPEN :=
  ⟨_, _, _, rfl, rfl, rfl, rfl, rfl⟩

/-! ### What happens instead -/

/-- The repair of a service that has stopped, if nothing else happens: `stop`
    refuses it, and the job has run. -/
theorem repair_refused [Clock T] {s : State T} (hmgr : s.health.monitor.svc_mgr = true) {j : Nat}
    {job : HealthMonitor.Repair} (hjob : s.health.jobs.get j = some job)
    (hqueued : job.pc = .queued) {r : Nat} {record : ServiceRecord}
    (hregistered : s.manager.registry.get job.name = some r)
    (hrecord : s.manager.records.get r = some record) (hstopped : record.state = .STOPPED)
    (now now' : T) :
    ∃ s', machine.run s [.repair j now, .manager (.call s.manager.calls.next false),
        .manager (.call s.manager.calls.next false), .repair j now'] =
          some (s', [.monitor (.stop j job.name), .monitor (.repaired job.name now')]) ∧
      s'.health.monitor = s.health.monitor ∧
      s'.health.jobs.get j = some { job with pc := .done } ∧
      s'.manager.calls.get s.manager.calls.next =
        some ⟨job.name, .raised (.cannot_stop job.name .STOPPED)⟩ := by
  set n := s.manager.calls.next with hn
  set c : ServiceManager.Call := ⟨job.name, .stop_check r⟩ with hc
  -- the job calls `stop`
  set s₁ : State T := ⟨{ s.manager with calls := s.manager.calls.create c },
    HealthMonitor.goto s.health j job .stopping, Function.update s.waits j (some n)⟩ with hs₁
  have h₁ : machine.step s (.repair j now) = some (s₁, [.monitor (.stop j job.name)]) := by
    simp [machine, repair, hjob, answer, hqueued, HealthMonitor.repair_service, hmgr, call,
      ServiceManager.lookup, hregistered, hs₁, hc, hn]
  -- the state is read
  have hcall₁ : s₁.manager.calls.get n = some c := Objects.get_create_self ..
  set s₂ : State T := { s₁ with manager := ServiceManager.goto s₁.manager n c (.stop_refused r) }
    with hs₂
  have h₂ : machine.step s₁ (.manager (.call n false)) = some (s₂, []) := by
    have hrecord₁ : s₁.manager.records.get r = some record := hrecord
    simp [machine, ServiceManager.machine, hcall₁, ServiceManager.call_step, hc,
      ServiceManager.Pc.record, hrecord₁, ServiceManager.start_step, ServiceManager.stop_step,
      hstopped, hs₂]
  -- and once more for the message
  set c₂ : ServiceManager.Call := ⟨job.name, .stop_refused r⟩ with hc₂
  have hcall₂ : s₂.manager.calls.get n = some c₂ := by
    rw [hs₂]
    exact Objects.get_set_self hcall₁ _
  set s₃ : State T := { s₂ with
    manager := ServiceManager.goto s₂.manager n c₂ (.raised (.cannot_stop job.name .STOPPED)) }
    with hs₃
  have h₃ : machine.step s₂ (.manager (.call n false)) = some (s₃, []) := by
    have hrecord₂ : s₂.manager.records.get r = some record := hrecord
    simp [machine, ServiceManager.machine, hcall₂, ServiceManager.call_step, hc₂,
      ServiceManager.Pc.record, hrecord₂, ServiceManager.start_step, ServiceManager.stop_step,
      hstopped, hs₃]
  have hcall₃ : s₃.manager.calls.get n =
      some ⟨job.name, .raised (.cannot_stop job.name .STOPPED)⟩ := by
    rw [hs₃]
    exact Objects.get_set_self hcall₂ _
  -- the job catches the exception
  set job₁ : HealthMonitor.Repair := { job with pc := .stopping } with hjob₁
  have hget₁ : s₃.health.jobs.get j = some job₁ :=
    Objects.get_set_self hjob _
  set s₄ : State T := { s₃ with health := HealthMonitor.goto s₃.health j job₁ .done } with hs₄
  have hwaits : s₃.waits j = some n := Function.update_self ..
  have h₄ : machine.step s₃ (.repair j now') =
      some (s₄, [.monitor (.repaired job.name now')]) := by
    simp [machine, repair, hget₁, answer, hjob₁, hwaits, hcall₃, truth,
      HealthMonitor.repair_service, HealthMonitor.finish, call, hs₄]
  refine ⟨s₄, ?_, rfl, ?_, hcall₃⟩
  · rw [machine.run_cons h₁, machine.run_cons h₂, machine.run_cons h₃, machine.run_cons h₄]
    rfl
  · exact Objects.get_set_self hget₁ _

end SelfHealing
