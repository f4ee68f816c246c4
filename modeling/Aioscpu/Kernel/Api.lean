import Aioscpu.Kernel.EventBus
import Aioscpu.Kernel.Permissions

/-! # Kernel API

  The public surface of the kernel, `kernel/api.py`, over the permission
  model and the event bus.

  Every method is a program that may raise, and what it changed before it
  raised stays changed. The other subsystems of the kernel (services,
  scheduler, AURA, storage) are parameters: each of their operations is some
  function of the kernel without its permission model. What these operations
  call back through the API comes after them as calls of its own.
-/

/-! ### The kernel -/

/-- The values of payloads and of the storage: strings and other objects. -/
inductive Value (V : Type) where
  | str (s : String)
  | obj (v : V)
deriving DecidableEq, Repr

abbrev Payload (V : Type) := List (String × Value V)

/-- The kernel without its permission model. -/
structure Kernel (V H K : Type) where
  event_bus : EventBus (Payload V) H
  /-- `Event._counter`. -/
  counter : Nat
  /-- The other subsystems. -/
  rest : K

/-- An operation of a subsystem: it returns, or raises some exception. -/
abbrev Op (V H K α : Type) := Kernel V H K → Except String α × Kernel V H K

/-- The operations of the other subsystems. `J` is the type of tasks and jobs,
    `R` that of service records. -/
structure Subsystems (V H J R K : Type) where
  services_registry : Kernel V H K → List (String × R)
  record_state : R → String
  services_start : String → Op V H K Bool
  services_stop : String → Op V H K Bool
  scheduler_submit_task : J → Int → Op V H K Unit
  scheduler_schedule_job : J → Int → Op V H K Unit
  aura_query : String → Op V H K String
  aura_get_state_snapshot : Op V H K (Payload V)
  storage_read : String → Op V H K (Option (Value V))
  storage_write : String → Value V → Op V H K Unit
  /-- `kernel.mode.NAME`, if the kernel has such a mode. -/
  mode_name : Kernel V H K → Option String

/-- The exceptions that leave a method. -/
inductive ApiError where
  | denied (e : PermissionDenied)
  | value (e : ValueError)
  | subsystem (text : String)
deriving DecidableEq, Repr

/-- What `self._kernel` and `self._perms` hold. -/
structure ApiState (V H K : Type) where
  kernel : Kernel V H K
  perms : PermissionModel

/-- A method: what it changed stays changed when it raises. -/
abbrev Api (V H K α : Type) := ExceptT ApiError (StateM (ApiState V H K)) α

namespace KernelAPI

variable {V H J R K α : Type}

/-! ### The building blocks of the methods -/

/-- `self._perms.check(capability)`. -/
def check (capability : String) : Api V H K Unit := fun st =>
  (match st.perms.check capability with
    | .ok () => .ok ()
    | .error e => .error (.denied e), st)

/-- An operation of the kernel. -/
def kernel (op : Op V H K α) : Api V H K α := fun st =>
  match op st.kernel with
  | (.ok a, k) => (.ok a, { st with kernel := k })
  | (.error text, k) => (.error (.subsystem text), { st with kernel := k })

/-- An operation of the permission model. -/
def perms (op : PermissionModel → Except ValueError α × PermissionModel) : Api V H K α :=
  fun st =>
    match op st.perms with
    | (.ok a, p) => (.ok a, { st with perms := p })
    | (.error e, p) => (.error (.value e), { st with perms := p })

/-- `self._kernel.event_bus.publish(Event(...))`. -/
def publish_event (event_type : String) (payload : Payload V) (priority : Int) :
    Op V H K Unit := fun k =>
  let r := Event.create k.counter event_type payload priority "kernel_api"
  (.ok (), { k with event_bus := k.event_bus.publish r.1, counter := r.2 })

/-- The dictionary of priority names. Only ASCII letters lower to its keys. -/
def priority_number (priority : String) : Int :=
  match priority.toLower with
  | "critical" => Priority.CRITICAL
  | "high" => Priority.HIGH
  | "normal" => Priority.NORMAL
  | "low" => Priority.LOW
  | _ => Priority.NORMAL

/-! ### The methods -/

def publish (event_type : String) (payload : Option (Payload V)) (priority : String) :
    Api V H K Unit := do
  check "event.publish"
  kernel (publish_event event_type (payload.getD []) (priority_number priority))

def subscribe (event_type : String) (handler : H) : Api V H K Unit := do
  check "event.subscribe"
  kernel fun k => (.ok (), { k with event_bus := k.event_bus.subscribe event_type handler })

def get_service (sys : Subsystems V H J R K) (name : String) : Api V H K (Option R) := do
  check "service.query"
  kernel fun k => (.ok ((sys.services_registry k).lookup name), k)

def list_services (sys : Subsystems V H J R K) : Api V H K (List (String × String)) := do
  check "service.query"
  kernel fun k =>
    (.ok ((sys.services_registry k).map fun p => (p.1, sys.record_state p.2)), k)

def start_service (sys : Subsystems V H J R K) (name : String) : Api V H K Bool := do
  check "service.start"
  kernel (sys.services_start name)

def stop_service (sys : Subsystems V H J R K) (name : String) : Api V H K Bool := do
  check "service.stop"
  kernel (sys.services_stop name)

def submit_task (sys : Subsystems V H J R K) (task : J) (priority : Int) : Api V H K Unit := do
  check "job.submit"
  kernel (sys.scheduler_submit_task task priority)

def schedule_job (sys : Subsystems V H J R K) (job : J) (interval_ms : Int) :
    Api V H K Unit := do
  check "job.submit"
  kernel (sys.scheduler_schedule_job job interval_ms)

def aura_query (sys : Subsystems V H J R K) (prompt : String) : Api V H K String := do
  check "aura.query"
  kernel (sys.aura_query prompt)

def aura_snapshot (sys : Subsystems V H J R K) : Api V H K (Payload V) := do
  check "aura.query"
  kernel sys.aura_get_state_snapshot

def storage_read (sys : Subsystems V H J R K) (key : String) :
    Api V H K (Option (Value V)) := do
  check "fs.read"
  kernel (sys.storage_read key)

def storage_write (sys : Subsystems V H J R K) (key : String) (value : Value V) :
    Api V H K Unit := do
  check "storage.write"
  kernel (sys.storage_write key value)

def sysinfo (sys : Subsystems V H J R K) : Api V H K (Payload V) := do
  check "sysinfo.read"
  kernel sys.aura_get_state_snapshot

/-- No check, as in the source. -/
def get_mode (sys : Subsystems V H J R K) : Api V H K String :=
  kernel fun k => (.ok ((sys.mode_name k).getD "unknown"), k)

def request_mode_switch (new_mode : String) (consent_token : Option String) :
    Api V H K Unit := do
  check "kernel.mode_switch"
  let token := consent_token.getD ""
  let payload : Payload V :=
    ("requested_mode", .str new_mode) ::
      if token ≠ "" then [("consent_token", .str token)] else []
  publish "MODE_SWITCH_REQUEST" (some payload) "high"

/-- No check, as in the source. -/
def is_allowed (capability : String) : Api V H K Bool :=
  perms fun p => (.ok (p.is_allowed capability), p)

/-- No check before the grant, as in the source. -/
def grant_capability (capability : String) : Api V H K Unit := do
  perms (·.grant capability)
  publish "CAPABILITY_GRANTED" (some [("capability", .str capability)]) "high"

/-- No check before the revocation, as in the source. -/
def revoke_capability (capability : String) : Api V H K Unit := do
  perms fun p => (.ok (), p.revoke capability)
  publish "CAPABILITY_REVOKED" (some [("capability", .str capability)]) "high"

/-- No check, as in the source. -/
def permission_summary : Api V H K PermissionModel.Summary :=
  perms fun p => (.ok p.summary, p)

/-! ### Calls -/

/-- A call of a method, with its arguments. -/
inductive Call (V H J : Type) where
  | publish (event_type : String) (payload : Option (Payload V)) (priority : String)
  | subscribe (event_type : String) (handler : H)
  | get_service (name : String)
  | list_services
  | start_service (name : String)
  | stop_service (name : String)
  | submit_task (task : J) (priority : Int)
  | schedule_job (job : J) (interval_ms : Int)
  | aura_query (prompt : String)
  | aura_snapshot
  | storage_read (key : String)
  | storage_write (key : String) (value : Value V)
  | sysinfo
  | get_mode
  | request_mode_switch (new_mode : String) (consent_token : Option String)
  | is_allowed (capability : String)
  | grant_capability (capability : String)
  | revoke_capability (capability : String)
  | permission_summary

/-- A program without what it returns. -/
def ignore (m : Api V H K α) : Api V H K Unit := m >>= fun _ => pure ()

/-- The call, without what it returns. -/
def call (sys : Subsystems V H J R K) : Call V H J → Api V H K Unit
  | .publish event_type payload priority => publish event_type payload priority
  | .subscribe event_type handler => subscribe event_type handler
  | .get_service name => ignore (get_service sys name)
  | .list_services => ignore (list_services sys)
  | .start_service name => ignore (start_service sys name)
  | .stop_service name => ignore (stop_service sys name)
  | .submit_task task priority => submit_task sys task priority
  | .schedule_job job interval_ms => schedule_job sys job interval_ms
  | .aura_query prompt => ignore (aura_query sys prompt)
  | .aura_snapshot => ignore (aura_snapshot sys)
  | .storage_read key => ignore (storage_read sys key)
  | .storage_write key value => storage_write sys key value
  | .sysinfo => ignore (sysinfo sys)
  | .get_mode => ignore (get_mode sys)
  | .request_mode_switch new_mode consent_token => request_mode_switch new_mode consent_token
  | .is_allowed capability => ignore (is_allowed capability)
  | .grant_capability capability => grant_capability capability
  | .revoke_capability capability => revoke_capability capability
  | .permission_summary => ignore permission_summary

inductive Label (V H J K : Type) where
  | call (c : Call V H J)
  /-- The kernel goes on by itself: ticks, handlers, services. -/
  | kernel (k : Kernel V H K)

/-- A kernel whose permission model is reached through the API only. The
    observation of a call is what it raised, if it raised. -/
def machine (sys : Subsystems V H J R K) :
    Machine (ApiState V H K) (Label V H J K) (Except ApiError Unit) where
  step := fun st l =>
    match l with
    | .call c =>
      let r := call sys c st
      some (r.2, [r.1])
    | .kernel k => some ({ st with kernel := k }, [])

/-! ### What the methods do to the permissions -/

/-- The program leaves the permission model as it is. -/
def KeepsPerms (m : Api V H K α) : Prop := ∀ st, (m st).2.perms = st.perms

theorem keeps_check (capability : String) : KeepsPerms (check capability : Api V H K Unit) :=
  fun _ => rfl

theorem keeps_kernel (op : Op V H K α) : KeepsPerms (kernel op) := by
  intro st
  unfold kernel
  split <;> rfl

theorem bind_of_ok {β : Type} {m : Api V H K α} {f : α → Api V H K β}
    {st st' : ApiState V H K} {a : α} (h : m st = (.ok a, st')) :
    (m >>= f) st = f a st' := by
  show ExceptT.bindCont f (m st).1 (m st).2 = _
  rw [h]
  rfl

theorem bind_of_error {β : Type} {m : Api V H K α} {f : α → Api V H K β}
    {st st' : ApiState V H K} {e : ApiError} (h : m st = (.error e, st')) :
    (m >>= f) st = (.error e, st') := by
  show ExceptT.bindCont f (m st).1 (m st).2 = _
  rw [h]
  rfl

/-- The rule for programs in sequence. -/
theorem KeepsPerms.bind {β : Type} {m : Api V H K α} {f : α → Api V H K β}
    (hm : KeepsPerms m) (hf : ∀ a, KeepsPerms (f a)) : KeepsPerms (m >>= f) := by
  intro st
  have hst := hm st
  cases hr : m st with
  | mk r st' =>
    rw [hr] at hst
    cases r with
    | ok a => rw [bind_of_ok hr, hf a st', hst]
    | error e =>
      rw [bind_of_error hr]
      exact hst

theorem KeepsPerms.ignore {m : Api V H K α} (hm : KeepsPerms m) : KeepsPerms (ignore m) :=
  hm.bind fun _ _ => rfl

theorem keeps_query (query : PermissionModel → α) :
    KeepsPerms (perms (fun p => (.ok (query p), p)) : Api V H K α) := fun _ => rfl

theorem keeps_publish (event_type : String) (payload : Option (Payload V))
    (priority : String) : KeepsPerms (publish event_type payload priority : Api V H K Unit) :=
  (keeps_check _).bind fun _ => keeps_kernel _

/-- `publish` either raises at its check or queues the event. -/
theorem publish_eq (event_type : String) (payload : Option (Payload V)) (priority : String)
    (st : ApiState V H K) :
    publish event_type payload priority st =
      match st.perms.check "event.publish" with
      | .ok () =>
        (.ok (), { st with kernel := (publish_event event_type (payload.getD [])
          (priority_number priority) st.kernel).2 })
      | .error e => (.error (.denied e), st) := by
  unfold publish
  cases hc : st.perms.check "event.publish" with
  | ok u =>
    have hr : (check "event.publish" : Api V H K Unit) st = (.ok (), st) := by
      simp [check, hc]
    rw [bind_of_ok hr]
    rfl
  | error e =>
    have hr : (check "event.publish" : Api V H K Unit) st = (.error (.denied e), st) := by
      simp [check, hc]
    rw [bind_of_error hr]

/-- A grant of a known capability is made first and published after. -/
theorem grant_capability_eq (capability : String) (st : ApiState V H K) :
    grant_capability capability st =
      if CAPABILITY_TIER capability = none then
        (.error (.value (.unknown_capability capability)), st)
      else
        publish "CAPABILITY_GRANTED" (some [("capability", .str capability)]) "high"
          { st with perms := (st.perms.grant capability).2 } := by
  unfold grant_capability
  by_cases hc : CAPABILITY_TIER capability = none
  · have hr : (perms (·.grant capability) : Api V H K Unit) st =
        (.error (.value (.unknown_capability capability)), st) := by
      simp [perms, PermissionModel.grant, hc]
    rw [bind_of_error hr, if_pos hc]
  · have hr : (perms (·.grant capability) : Api V H K Unit) st =
        (.ok (), { st with perms := (st.perms.grant capability).2 }) := by
      simp [perms, PermissionModel.grant, hc]
    rw [bind_of_ok hr, if_neg hc]

/-- A revocation is made first and published after. -/
theorem revoke_capability_eq (capability : String) (st : ApiState V H K) :
    revoke_capability capability st =
      publish "CAPABILITY_REVOKED" (some [("capability", .str capability)]) "high"
        { st with perms := st.perms.revoke capability } := by
  unfold revoke_capability
  exact bind_of_ok rfl

/-- What a call does to the permissions. -/
def changedPerms (p : PermissionModel) : Call V H J → PermissionModel
  | .grant_capability capability => (p.grant capability).2
  | .revoke_capability capability => p.revoke capability
  | _ => p

/-- Only `grant_capability` and `revoke_capability` change the permissions. -/
theorem call_perms (sys : Subsystems V H J R K) (c : Call V H J) (st : ApiState V H K) :
    (call sys c st).2.perms = changedPerms st.perms c := by
  -- the other methods are checks followed by operations of the kernel
  have hguarded : ∀ (capability : String) {α : Type} (op : Op V H K α),
      KeepsPerms (do check capability; kernel op) :=
    fun capability _ op => (keeps_check capability).bind fun _ => keeps_kernel op
  cases c with
  | publish event_type payload priority => exact keeps_publish event_type payload priority st
  | subscribe event_type handler => exact hguarded _ _ st
  | get_service name => exact (hguarded _ _).ignore st
  | list_services => exact (hguarded _ _).ignore st
  | start_service name => exact (hguarded _ _).ignore st
  | stop_service name => exact (hguarded _ _).ignore st
  | submit_task task priority => exact hguarded _ _ st
  | schedule_job job interval_ms => exact hguarded _ _ st
  | aura_query prompt => exact (hguarded _ _).ignore st
  | aura_snapshot => exact (hguarded _ _).ignore st
  | storage_read key => exact (hguarded _ _).ignore st
  | storage_write key value => exact hguarded _ _ st
  | sysinfo => exact (hguarded _ _).ignore st
  | get_mode => exact (keeps_kernel _).ignore st
  | request_mode_switch new_mode consent_token =>
    exact ((keeps_check _).bind fun _ => keeps_publish _ _ _) st
  | is_allowed capability => exact (keeps_query _).ignore st
  | grant_capability capability =>
    simp only [call, grant_capability_eq, changedPerms]
    split
    · next hc => rw [PermissionModel.grant_unknown _ hc]
    · rw [keeps_publish]
  | revoke_capability capability =>
    simp only [call, revoke_capability_eq, changedPerms]
    rw [keeps_publish]
  | permission_summary => exact (keeps_query _).ignore st

end KernelAPI
