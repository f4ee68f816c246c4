import Aioscpu.Framework.Clock
import Aioscpu.Services.Rests

/-! # Kernel Watchdog

  The watchdog of `kernel/watchdog.py`, over the service manager.

  The thread of the watchdog takes turns with the calls and the workers of the
  manager: a step of it is one access to the manager. The bus delivers each
  registration event once, at any time after it was published. What it does
  with the other events does not matter here.
-/

/-! ### Health -/

/-- `T` is the type of clock readings. -/
structure ServiceHealth (T : Type) where
  name : String
  max_failures : Int
  backoff_ms : Int
  failure_count : Nat
  last_failure : Option T
  restart_count : Nat
  disabled : Bool
deriving Repr

/-- The keys that `ServiceHealth.to_dict` has. -/
structure HealthDict where
  failures : Nat
  restarts : Nat
  disabled : Bool
deriving DecidableEq, Repr

namespace ServiceHealth

variable {T : Type}

/-- `ServiceHealth(name, max_failures)`. -/
def create (name : String) (max_failures : Int) : ServiceHealth T :=
  { name, max_failures, backoff_ms := 5000, failure_count := 0, last_failure := none
    restart_count := 0, disabled := false }

/-- `ServiceHealth.record_failure`, with the reading of the clock. -/
def record_failure (self : ServiceHealth T) (now : T) : ServiceHealth T :=
  let failure_count := self.failure_count + 1
  { self with
    failure_count
    last_failure := some now
    disabled := self.disabled ∨ self.max_failures ≤ failure_count }

/-- `ServiceHealth.is_restartable`, with the reading of the clock. -/
def is_restartable [Timer T] (self : ServiceHealth T) (now : T) : Bool :=
  if self.disabled then false
  else
    match self.last_failure with
    | none => true
    | some last_failure => Timer.ofInt self.backoff_ms ≤ Timer.toMillis (now - last_failure)

def to_dict (self : ServiceHealth T) : HealthDict :=
  ⟨self.failure_count, self.restart_count, self.disabled⟩

end ServiceHealth

/-! ### The watchdog -/

structure KernelWatchdog (T : Type) where
  max_failures : Int
  auto_restart : Bool
  /-- Whether a build service is attached. -/
  build_service : Bool
  /-- `max(1, integrity_check_interval)`. -/
  integrity_every : Nat
  check_count : Nat
  health : Dict String (ServiceHealth T)

namespace KernelWatchdog

open ServiceManager (ServiceState Pc stoppedWrites)

variable {T : Type} [Timer T]

/-- Where the thread stands. -/
inductive Control where
  | idle
  /-- At the head of the first loop of `_check_cycle`. -/
  | scanning (todo degraded : List String)
  /-- Inside `status`, with the record that it found. -/
  | reading (name : String) (record : Option Nat) (todo degraded : List String)
  | reporting (degraded : List String)
  /-- At the head of the second loop. -/
  | restarting (todo : List String)
  /-- Inside the `status` of `_attempt_restart`. -/
  | testing (name : String) (record : Option Nat) (todo : List String)
  /-- At `self._services.start(name)`. -/
  | calling (name : String) (todo : List String)
  /-- Inside the call. -/
  | starting (name : String) (n : Nat) (todo : List String)
  | checking_integrity
deriving DecidableEq

structure State (T : Type) where
  manager : ServiceManager.State
  /-- The services whose `SERVICE_REGISTERED` is not yet delivered. -/
  events : List String
  watchdog : KernelWatchdog T
  control : Control
  /-- The last transition to `stopped` of the service was made by a call of
      `stop`, or by the worker that the call was stopping, and no start came
      after it but those of the watchdog. No operation reads it. -/
  held : String → Bool
  /-- How often the service came to rest: its state was set to `stopped`, or it
      was registered once more. No operation reads it. -/
  rests : String → Nat

inductive Obs where
  | manager (o : ServiceManager.Obs)
  | health_check (degraded : List String) (health_report : List (String × HealthDict))
  /-- `self._services.start(name)` is called. -/
  | restart (name : String) (n : Nat)
  /-- `SERVICE_RESTARTING` is published. -/
  | restarted (name : String) (restart_count : Nat)
  | integrity_check
deriving DecidableEq

inductive Label (T : Type) where
  | manager (l : ServiceManager.Label)
  /-- The bus delivers the registration of a service. -/
  | deliver (name : String)
  /-- The thread of the watchdog goes on, with the reading of the clock. -/
  | watchdog (now : T)

/-- `get_health_report`. -/
def get_health_report (self : KernelWatchdog T) : List (String × HealthDict) :=
  self.health.items.map fun item => (item.1, item.2.to_dict)

/-- `_on_service_registered`. -/
def on_service_registered (self : KernelWatchdog T) (name : String) : KernelWatchdog T :=
  if name ≠ "" ∧ self.health.get name = none then
    { self with health := self.health.set name (ServiceHealth.create name self.max_failures) }
  else self

/-- The health of the service changes. -/
def setHealth (self : KernelWatchdog T) (name : String) (health : ServiceHealth T) :
    KernelWatchdog T :=
  { self with health := self.health.set name health }

/-- The state of a record that `status` has found; `none` is `"unknown"`. -/
def stateOf (s : ServiceManager.State) (record : Option Nat) : Option ServiceState :=
  (record.bind s.records.get).map ServiceManager.ServiceRecord.state

/-- The call is one of the watchdog. -/
def Control.calls : Control → Nat → Bool
  | .starting _ m _, n => m = n
  | _, _ => false

/-- `held` after an observation of the manager, which had this registry. -/
def heldAfter (registry : Dict String Nat) (control : Control) (held : String → Bool) :
    ServiceManager.Obs → String → Bool
  | .wrote (.call _) name r _ .STOPPED =>
    if registry.get name = some r then Function.update held name true else held
  | .wrote (.worker _) name r old .STOPPED =>
    if registry.get name = some r ∧ old ≠ .STOPPED then
      Function.update held name (old = .STOPPING)
    else held
  | .wrote (.call n) name _ _ .STARTING =>
    if control.calls n then held else Function.update held name false
  | _ => held

/-- The step registers a service that is registered already. -/
def registersAgain (s : ServiceManager.State) (l : ServiceManager.Label) (name : String) : Bool :=
  match l with
  | .register name' unit =>
    name' = name ∧ ServiceManager.missing unit = ∅ ∧ (s.registry.get name).isSome
  | _ => false

/-- The services whose registrations are published. -/
def registrations (os : List ServiceManager.Obs) : List String :=
  os.filterMap fun
    | .published event_type name _ => if event_type = "SERVICE_REGISTERED" then some name else none
    | _ => none

/-- A step of the manager. -/
def manager_step (s : State T) (l : ServiceManager.Label) : Option (State T × List Obs) :=
  match ServiceManager.machine.step s.manager l with
  | none => none
  | some (manager, os) =>
    some ({ s with
      manager
      events := s.events ++ registrations os
      held := os.foldl (heldAfter s.manager.registry s.control) s.held
      rests := fun name => s.rests name + (stoppedWrites name os).length +
        (if registersAgain s.manager l name then 1 else 0) }, os.map .manager)

/-- A step of the thread: `_check_cycle` and `_attempt_restart`. -/
def watchdog_step (s : State T) (now : T) : Option (State T × List Obs) :=
  match s.control with
  | .idle =>
    some ({ s with
      watchdog := { s.watchdog with check_count := s.watchdog.check_count + 1 }
      control := .scanning s.watchdog.health.keys [] }, [])
  | .scanning [] degraded => some ({ s with control := .reporting degraded }, [])
  | .scanning (name :: todo) degraded =>
    some ({ s with control := .reading name (s.manager.registry.get name) todo degraded }, [])
  | .reading name record todo degraded =>
    -- a service without a record is unknown, and degraded
    let state := stateOf s.manager record
    if state ∉ [some .RUNNING, some .REGISTERED, some .STARTING] ∧
        ¬ (s.watchdog.health.get name).any (·.disabled) then
      some ({ s with control := .scanning todo (degraded ++ [name]) }, [])
    else some ({ s with control := .scanning todo degraded }, [])
  | .reporting degraded =>
    some ({ s with
      control := if s.watchdog.auto_restart then .restarting degraded else .checking_integrity },
      [.health_check degraded s.watchdog.get_health_report])
  | .restarting [] => some ({ s with control := .checking_integrity }, [])
  | .restarting (name :: todo) =>
    if (s.watchdog.health.get name).any (·.is_restartable now) then
      some ({ s with control := .testing name (s.manager.registry.get name) todo }, [])
    else some ({ s with control := .restarting todo }, [])
  -- `disabled` and the backoff were looked at before, and are not again
  | .testing name record todo =>
    if stateOf s.manager record ∈ [some .STOPPED, some .REGISTERED] then
      some ({ s with control := .calling name todo }, [])
    else some ({ s with control := .restarting todo }, [])
  | .calling name todo =>
    some ({ s with
      manager := ServiceManager.lookup s.manager name .start_check
      control := .starting name s.manager.calls.next todo },
      [.restart name s.manager.calls.next])
  | .starting name n todo =>
    -- the thread waits until its call has returned or raised
    match (s.manager.calls.get n).map ServiceManager.Call.pc, s.watchdog.health.get name with
    | some .returned, some health =>
      let restart_count := health.restart_count + 1
      some ({ s with
        watchdog := s.watchdog.setHealth name { health with restart_count }
        control := .restarting todo }, [.restarted name restart_count])
    | some (.raised _), some health =>
      some ({ s with
        watchdog := s.watchdog.setHealth name (health.record_failure now)
        control := .restarting todo }, [])
    | _, _ => none
  | .checking_integrity =>
    some ({ s with control := .idle },
      if s.watchdog.build_service ∧ s.watchdog.check_count % s.watchdog.integrity_every = 0 then
        [.integrity_check]
      else [])

/-- The watchdog over the manager. -/
def machine : Machine (State T) (Label T) Obs where
  step := fun s l =>
    match l with
    | .manager l => manager_step s l
    | .deliver name =>
      if name ∈ s.events then
        some ({ s with
          events := s.events.erase name
          watchdog := s.watchdog.on_service_registered name }, [])
      else none
    | .watchdog now => watchdog_step s now

/-- A watchdog over a new manager. -/
def init (max_failures : Int) (auto_restart build_service : Bool)
    (integrity_check_interval : Nat) : State T :=
  { manager := ServiceManager.init
    events := []
    watchdog :=
      { max_failures, auto_restart, build_service
        integrity_every := max 1 integrity_check_interval
        check_count := 0
        health := .empty }
    control := .idle
    held := fun _ => false
    rests := fun _ => 0 }

end KernelWatchdog
