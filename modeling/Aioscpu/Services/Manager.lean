import Aioscpu.Framework.Dict
import Aioscpu.Framework.Machine
import Aioscpu.Framework.Objects
import Mathlib.Data.Finset.SDiff

/-! # Service Manager

  The service manager of `services/__init__.py`, whose services run in threads
  of their own, without a lock.

  Any number of calls and worker threads take turns. A step is one access to
  what they share: the registry, the state or the thread of a record, the life
  of a thread, the event bus. A call is a frame with the local variables of
  the function and the place where it stands, and so is a worker. Labels carry
  what the environment decides: which thread goes on, whether `join` times
  out, whether the entrypoint is a file.
-/

namespace ServiceManager

/-! ### Records -/

inductive ServiceState where
  | REGISTERED
  | STARTING
  | RUNNING
  | STOPPING
  | STOPPED
deriving DecidableEq, Repr

def REQUIRED_UNIT_KEYS : Finset String := {"name", "entrypoint"}

/-- The required keys that the unit does not have. -/
def missing (unit : Dict String String) : Finset String :=
  REQUIRED_UNIT_KEYS \ unit.keys.toFinset

/-- A unit with all required keys. -/
structure ServiceUnit where
  entries : Dict String String
  complete : missing entries = ∅

theorem ServiceUnit.has_entrypoint (unit : ServiceUnit) :
    (unit.entries.get "entrypoint").isSome := by
  have hkey : "entrypoint" ∈ unit.entries.keys.toFinset :=
    Finset.sdiff_eq_empty_iff_subset.mp unit.complete (by decide)
  obtain ⟨v, hv⟩ := (unit.entries.mem_keys_iff _).mp (List.mem_toFinset.mp hkey)
  rw [hv]
  rfl

/-- `record.unit["entrypoint"]`. -/
def ServiceUnit.entrypoint (unit : ServiceUnit) : String :=
  (unit.entries.get "entrypoint").get unit.has_entrypoint

structure ServiceRecord where
  name : String
  unit : ServiceUnit
  state : ServiceState
  thread : Option Nat

/-! ### Frames -/

inductive Error where
  /-- The `ValueError` of `register`. -/
  | missing_keys (name : String) (missing : Finset String)
  /-- The `KeyError` of `start` and `stop`. -/
  | unknown_service (name : String)
  | cannot_start (name : String) (state : ServiceState)
  | cannot_stop (name : String) (state : ServiceState)
  /-- `Thread.start` of a thread that was started before. -/
  | thread_started
  /-- `Thread.join` of a thread that was not started. -/
  | thread_not_started
  /-- `None` has no `start` and no `join`. -/
  | no_thread
deriving DecidableEq

/-- Where a call stands, with its `record`. -/
inductive Pc where
  | register_publish
  /-- At the test of the state. -/
  | start_check (record : Nat)
  | start_refused (record : Nat)
  /-- At `record.state = ServiceState.STARTING`. -/
  | start_write (record : Nat)
  /-- At `record.thread = threading.Thread(...)`. -/
  | start_thread (record : Nat)
  /-- At `record.thread.start()`. -/
  | start_launch (record : Nat)
  | stop_check (record : Nat)
  | stop_refused (record : Nat)
  /-- At `record.state = ServiceState.STOPPING`. -/
  | stop_write (record : Nat)
  /-- At `record.thread.is_alive()`. -/
  | stop_alive (record : Nat)
  | stop_join (record : Nat)
  /-- Inside `join`. -/
  | stop_wait (record thread : Nat)
  /-- At `record.state = ServiceState.STOPPED`. -/
  | stop_finish (record : Nat)
  | stop_publish
  | returned
  | raised (e : Error)
deriving DecidableEq

structure Call where
  name : String
  pc : Pc
deriving DecidableEq

inductive WorkerPc where
  /-- The thread is not started. -/
  | created
  | launched
  /-- `RUNNING` is written. -/
  | running
  | announced
  /-- Inside `subprocess.run`. -/
  | executing
  /-- At the `finally` block. -/
  | ended
  /-- `STOPPED` is written. -/
  | stopped
  | gone
deriving DecidableEq, Repr

/-- A thread that runs `_run`, with what `_run` captures. -/
structure Worker where
  name : String
  record : Nat
  entrypoint : String
  pc : WorkerPc
deriving DecidableEq, Repr

/-- `Thread.is_alive`. -/
def Worker.is_alive (w : Worker) : Bool := w.pc ≠ .created ∧ w.pc ≠ .gone

/-! ### The manager -/

structure State where
  registry : Dict String Nat
  records : Objects ServiceRecord
  calls : Objects Call
  workers : Objects Worker

inductive Source where
  | call (n : Nat)
  | worker (t : Nat)
deriving DecidableEq, Repr

inductive Obs where
  | published (event_type name : String) (source : Source)
  /-- The state of a record of the service is written. -/
  | wrote (source : Source) (name : String) (record : Nat) (old new : ServiceState)
  /-- The call of `start` has started the thread. -/
  | launched (n t : Nat) (name : String)
  /-- `subprocess.run(["python", entrypoint])`. -/
  | spawned (t : Nat) (entrypoint : String)
deriving DecidableEq

inductive Label where
  | register (name : String) (unit : Dict String String)
  | start (name : String)
  | stop (name : String)
  /-- The call goes on; `join` returns for its timeout if `timed_out`. -/
  | call (n : Nat) (timed_out : Bool)
  /-- The thread goes on. An exception of the entrypoint is only logged. -/
  | worker (t : Nat) (isfile raises : Bool)

/-- `ServiceManager.__init__`. -/
def init : State := ⟨.empty, .empty, .empty, .empty⟩

/-- `ServiceManager.status`, in one step; `none` is `"unknown"`. -/
def status (s : State) (name : String) : Option ServiceState :=
  (s.registry.get name).bind fun r => (s.records.get r).map ServiceRecord.state

/-- The call stands elsewhere. -/
def goto (s : State) (n : Nat) (c : Call) (pc : Pc) : State :=
  { s with calls := s.calls.set n { c with pc } }

/-- The record changes. -/
def setRecord (s : State) (r : Nat) (record : ServiceRecord) : State :=
  { s with records := s.records.set r record }

def setState (s : State) (r : Nat) (record : ServiceRecord) (state : ServiceState) : State :=
  setRecord s r { record with state }

/-- The thread stands elsewhere. -/
def advance (s : State) (t : Nat) (w : Worker) (pc : WorkerPc) : State :=
  { s with workers := s.workers.set t { w with pc } }

/-- `register`, up to the event. -/
def register (s : State) (name : String) (unit : Dict String String) : State :=
  if h : missing unit = ∅ then
    { s with
      registry := s.registry.set name s.records.next
      records := s.records.create ⟨name, ⟨unit, h⟩, .REGISTERED, none⟩
      calls := s.calls.create ⟨name, .register_publish⟩ }
  else
    { s with calls := s.calls.create ⟨name, .raised (.missing_keys name (missing unit))⟩ }

/-- `start` and `stop`, up to the test of the state. -/
def lookup (s : State) (name : String) (pc : Nat → Pc) : State :=
  match s.registry.get name with
  | none => { s with calls := s.calls.create ⟨name, .raised (.unknown_service name)⟩ }
  | some r => { s with calls := s.calls.create ⟨name, pc r⟩ }

/-- A step of `start`. -/
def start_step (s : State) (n : Nat) (c : Call) (record : ServiceRecord) :
    Pc → Option (State × List Obs)
  -- the state is read here and once more for the message
  | .start_check r =>
    if record.state = .REGISTERED ∨ record.state = .STOPPED then
      some (goto s n c (.start_write r), [])
    else some (goto s n c (.start_refused r), [])
  | .start_refused _ => some (goto s n c (.raised (.cannot_start c.name record.state)), [])
  | .start_write r =>
    some (goto (setState s r record .STARTING) n c (.start_thread r),
      [.wrote (.call n) record.name r record.state .STARTING])
  | .start_thread r =>
    let w : Worker := ⟨c.name, r, record.unit.entrypoint, .created⟩
    some (goto { setRecord s r { record with thread := some s.workers.next } with
      workers := s.workers.create w } n c (.start_launch r), [])
  | .start_launch _ =>
    -- another call may have put its thread into the record since
    match record.thread with
    | none => some (goto s n c (.raised .no_thread), [])
    | some t =>
      match s.workers.get t with
      | none => none
      | some w =>
        if w.pc = .created then
          some (goto (advance s t w .launched) n c .returned, [.launched n t c.name])
        else some (goto s n c (.raised .thread_started), [])
  | _ => none

/-- A step of `stop`. -/
def stop_step (s : State) (n : Nat) (c : Call) (timed_out : Bool) (record : ServiceRecord) :
    Pc → Option (State × List Obs)
  | .stop_check r =>
    if record.state = .RUNNING then some (goto s n c (.stop_write r), [])
    else some (goto s n c (.stop_refused r), [])
  | .stop_refused _ => some (goto s n c (.raised (.cannot_stop c.name record.state)), [])
  | .stop_write r =>
    some (goto (setState s r record .STOPPING) n c (.stop_alive r),
      [.wrote (.call n) record.name r record.state .STOPPING])
  | .stop_alive r =>
    if (record.thread.bind s.workers.get).any Worker.is_alive then
      some (goto s n c (.stop_join r), [])
    else some (goto s n c (.stop_finish r), [])
  | .stop_join r =>
    match record.thread with
    | none => some (goto s n c (.raised .no_thread), [])
    | some t =>
      if (s.workers.get t).any (·.pc = .created) then
        some (goto s n c (.raised .thread_not_started), [])
      else some (goto s n c (.stop_wait r t), [])
  -- `stop` goes on the same way when the timeout is over and the thread is not
  | .stop_wait r t =>
    if timed_out ∨ ¬ (s.workers.get t).any Worker.is_alive then
      some (goto s n c (.stop_finish r), [])
    else none
  | .stop_finish r =>
    some (goto (setState s r record .STOPPED) n c .stop_publish,
      [.wrote (.call n) record.name r record.state .STOPPED])
  | _ => none

/-- The record that the call accesses. -/
def Pc.record : Pc → Option Nat
  | .start_check r => some r
  | .start_refused r => some r
  | .start_write r => some r
  | .start_thread r => some r
  | .start_launch r => some r
  | .stop_check r => some r
  | .stop_refused r => some r
  | .stop_write r => some r
  | .stop_alive r => some r
  | .stop_join r => some r
  | .stop_wait r _ => some r
  | .stop_finish r => some r
  | _ => none

/-- A step of a call. -/
def call_step (s : State) (n : Nat) (c : Call) (timed_out : Bool) : Option (State × List Obs) :=
  match c.pc with
  | .register_publish =>
    some (goto s n c .returned, [.published "SERVICE_REGISTERED" c.name (.call n)])
  | .stop_publish => some (goto s n c .returned, [.published "SERVICE_STOPPED" c.name (.call n)])
  | pc =>
    match pc.record.bind s.records.get with
    | none => none
    | some record => (start_step s n c record pc).or (stop_step s n c timed_out record pc)

/-- A step of `_run`. -/
def worker_step (s : State) (t : Nat) (w : Worker) (isfile : Bool) : Option (State × List Obs) :=
  match w.pc with
  | .launched =>
    match s.records.get w.record with
    | none => none
    | some record =>
      some (advance (setState s w.record record .RUNNING) t w .running,
        [.wrote (.worker t) record.name w.record record.state .RUNNING])
  | .running => some (advance s t w .announced, [.published "SERVICE_STARTED" w.name (.worker t)])
  | .announced =>
    if isfile then some (advance s t w .executing, [.spawned t w.entrypoint])
    else some (advance s t w .ended, [])
  | .executing => some (advance s t w .ended, [])
  -- the record is the one that `_run` captures, registered or not
  | .ended =>
    match s.records.get w.record with
    | none => none
    | some record =>
      some (advance (setState s w.record record .STOPPED) t w .stopped,
        [.wrote (.worker t) record.name w.record record.state .STOPPED])
  | .stopped => some (advance s t w .gone, [.published "SERVICE_STOPPED" w.name (.worker t)])
  | _ => none

/-- The manager, its calls and its workers. -/
def machine : Machine State Label Obs where
  step := fun s l =>
    match l with
    | .register name unit => some (register s name unit, [])
    | .start name => some (lookup s name .start_check, [])
    | .stop name => some (lookup s name .stop_check, [])
    | .call n timed_out =>
      match s.calls.get n with
      | none => none
      | some c => call_step s n c timed_out
    | .worker t isfile _ =>
      match s.workers.get t with
      | none => none
      | some w => worker_step s t w isfile

/-! ### Inversion of the steps -/

/-- The frames that calls begin with, apart from those that register. -/
inductive Begins (s : State) : Label → Call → Prop where
  | missing_keys (name : String) (unit : Dict String String) (h : missing unit ≠ ∅) :
      Begins s (.register name unit) ⟨name, .raised (.missing_keys name (missing unit))⟩
  | start_unknown (name : String) (h : s.registry.get name = none) :
      Begins s (.start name) ⟨name, .raised (.unknown_service name)⟩
  | start (name : String) (r : Nat) (h : s.registry.get name = some r) :
      Begins s (.start name) ⟨name, .start_check r⟩
  | stop_unknown (name : String) (h : s.registry.get name = none) :
      Begins s (.stop name) ⟨name, .raised (.unknown_service name)⟩
  | stop (name : String) (r : Nat) (h : s.registry.get name = some r) :
      Begins s (.stop name) ⟨name, .stop_check r⟩

/-- The moves of a call that write nothing. -/
inductive Goes (s : State) (n : Nat) (c : Call) (timed_out : Bool) : Pc → List Obs → Prop where
  | registered (h : c.pc = .register_publish) :
      Goes s n c timed_out .returned [.published "SERVICE_REGISTERED" c.name (.call n)]
  | start_accepted (r : Nat) (record : ServiceRecord) (h : c.pc = .start_check r)
      (hr : s.records.get r = some record)
      (hstate : record.state = .REGISTERED ∨ record.state = .STOPPED) :
      Goes s n c timed_out (.start_write r) []
  | start_refused (r : Nat) (record : ServiceRecord) (h : c.pc = .start_check r)
      (hr : s.records.get r = some record)
      (hstate : ¬ (record.state = .REGISTERED ∨ record.state = .STOPPED)) :
      Goes s n c timed_out (.start_refused r) []
  | start_raises (r : Nat) (e : Error) (h : c.pc = .start_refused r ∨ c.pc = .start_launch r)
      (hlaunch : c.pc = .start_launch r → ∀ record t w, s.records.get r = some record →
        record.thread = some t → s.workers.get t = some w → w.pc ≠ .created) :
      Goes s n c timed_out (.raised e) []
  | stop_accepted (r : Nat) (record : ServiceRecord) (h : c.pc = .stop_check r)
      (hr : s.records.get r = some record) (hstate : record.state = .RUNNING) :
      Goes s n c timed_out (.stop_write r) []
  | stop_refused (r : Nat) (h : c.pc = .stop_check r) :
      Goes s n c timed_out (.stop_refused r) []
  | stop_alive (r : Nat) (h : c.pc = .stop_alive r) : Goes s n c timed_out (.stop_join r) []
  | stop_wait (r t : Nat) (h : c.pc = .stop_join r) : Goes s n c timed_out (.stop_wait r t) []
  | stop_raises (r : Nat) (e : Error) (h : c.pc = .stop_refused r ∨ c.pc = .stop_join r) :
      Goes s n c timed_out (.raised e) []
  | stop_joined (r : Nat) (h : c.pc = .stop_alive r ∨ ∃ t, c.pc = .stop_wait r t) :
      Goes s n c timed_out (.stop_finish r) []
  | stop_published (h : c.pc = .stop_publish) :
      Goes s n c timed_out .returned [.published "SERVICE_STOPPED" c.name (.call n)]

/-- The moves of a worker that write nothing. -/
inductive WorkerGoes (t : Nat) (w : Worker) : WorkerPc → List Obs → Prop where
  | announces (h : w.pc = .running) :
      WorkerGoes t w .announced [.published "SERVICE_STARTED" w.name (.worker t)]
  | spawns (h : w.pc = .announced) : WorkerGoes t w .executing [.spawned t w.entrypoint]
  | ends (h : w.pc = .announced ∨ w.pc = .executing) : WorkerGoes t w .ended []
  | leaves (h : w.pc = .stopped) :
      WorkerGoes t w .gone [.published "SERVICE_STOPPED" w.name (.worker t)]

/-- What a step can do, with one constructor for each access that writes. -/
inductive Step (s : State) : Label → List Obs → State → Prop where
  | register (name : String) (unit : Dict String String) (h : missing unit = ∅) :
      Step s (.register name unit) []
        { s with
          registry := s.registry.set name s.records.next
          records := s.records.create ⟨name, ⟨unit, h⟩, .REGISTERED, none⟩
          calls := s.calls.create ⟨name, .register_publish⟩ }
  | begins {l : Label} (c : Call) (h : Begins s l c) :
      Step s l [] { s with calls := s.calls.create c }
  | goes (n : Nat) (timed_out : Bool) (c : Call) (pc : Pc) (os : List Obs)
      (hc : s.calls.get n = some c) (hgo : Goes s n c timed_out pc os) :
      Step s (.call n timed_out) os (goto s n c pc)
  | start_write (n : Nat) (timed_out : Bool) (c : Call) (r : Nat) (record : ServiceRecord)
      (hc : s.calls.get n = some c) (hpc : c.pc = .start_write r)
      (hr : s.records.get r = some record) :
      Step s (.call n timed_out) [.wrote (.call n) record.name r record.state .STARTING]
        (goto (setState s r record .STARTING) n c (.start_thread r))
  | start_thread (n : Nat) (timed_out : Bool) (c : Call) (r : Nat) (record : ServiceRecord)
      (hc : s.calls.get n = some c) (hpc : c.pc = .start_thread r)
      (hr : s.records.get r = some record) :
      Step s (.call n timed_out) []
        (goto { setRecord s r { record with thread := some s.workers.next } with
          workers := s.workers.create ⟨c.name, r, record.unit.entrypoint, .created⟩ } n c
          (.start_launch r))
  | launch (n : Nat) (timed_out : Bool) (c : Call) (r : Nat) (record : ServiceRecord) (t : Nat)
      (w : Worker) (hc : s.calls.get n = some c) (hpc : c.pc = .start_launch r)
      (hr : s.records.get r = some record) (ht : record.thread = some t)
      (hw : s.workers.get t = some w) (hcreated : w.pc = .created) :
      Step s (.call n timed_out) [.launched n t c.name]
        (goto (advance s t w .launched) n c .returned)
  | stop_write (n : Nat) (timed_out : Bool) (c : Call) (r : Nat) (record : ServiceRecord)
      (hc : s.calls.get n = some c) (hpc : c.pc = .stop_write r)
      (hr : s.records.get r = some record) :
      Step s (.call n timed_out) [.wrote (.call n) record.name r record.state .STOPPING]
        (goto (setState s r record .STOPPING) n c (.stop_alive r))
  | stop_finish (n : Nat) (timed_out : Bool) (c : Call) (r : Nat) (record : ServiceRecord)
      (hc : s.calls.get n = some c) (hpc : c.pc = .stop_finish r)
      (hr : s.records.get r = some record) :
      Step s (.call n timed_out) [.wrote (.call n) record.name r record.state .STOPPED]
        (goto (setState s r record .STOPPED) n c .stop_publish)
  | moves (t : Nat) (isfile raises : Bool) (w : Worker) (pc : WorkerPc) (os : List Obs)
      (hw : s.workers.get t = some w) (hgo : WorkerGoes t w pc os) :
      Step s (.worker t isfile raises) os (advance s t w pc)
  | runs (t : Nat) (isfile raises : Bool) (w : Worker) (record : ServiceRecord)
      (hw : s.workers.get t = some w) (hpc : w.pc = .launched)
      (hr : s.records.get w.record = some record) :
      Step s (.worker t isfile raises)
        [.wrote (.worker t) record.name w.record record.state .RUNNING]
        (advance (setState s w.record record .RUNNING) t w .running)
  | stops (t : Nat) (isfile raises : Bool) (w : Worker) (record : ServiceRecord)
      (hw : s.workers.get t = some w) (hpc : w.pc = .ended)
      (hr : s.records.get w.record = some record) :
      Step s (.worker t isfile raises)
        [.wrote (.worker t) record.name w.record record.state .STOPPED]
        (advance (setState s w.record record .STOPPED) t w .stopped)

theorem lookup_sound {s : State} {l : Label} {name : String} {pc : Nat → Pc}
    (hnone : s.registry.get name = none →
      Begins s l ⟨name, .raised (.unknown_service name)⟩)
    (hsome : ∀ r, s.registry.get name = some r → Begins s l ⟨name, pc r⟩) :
    Step s l [] (lookup s name pc) := by
  unfold lookup
  cases hget : s.registry.get name with
  | none => exact .begins _ (hnone hget)
  | some r => exact .begins _ (hsome r hget)

/-- A call that accesses a record goes on if the record exists. -/
theorem call_step_record {s s' : State} {n : Nat} {c : Call} {timed_out : Bool} {os : List Obs}
    {r : Nat} (hr : c.pc.record = some r) (h : call_step s n c timed_out = some (s', os)) :
    ∃ record, s.records.get r = some record ∧
      (start_step s n c record c.pc).or (stop_step s n c timed_out record c.pc) =
        some (s', os) := by
  unfold call_step at h
  split at h
  · next hpc => simp [hpc, Pc.record] at hr
  · next hpc => simp [hpc, Pc.record] at hr
  · split at h
    · cases h
    · next record hrecord =>
      rw [hr] at hrecord
      exact ⟨record, hrecord, h⟩

theorem start_step_sound {s s' : State} {n : Nat} {c : Call} {timed_out : Bool} {os : List Obs}
    {r : Nat} {record : ServiceRecord} (hc : s.calls.get n = some c)
    (hpc : c.pc.record = some r) (hr : s.records.get r = some record)
    (h : start_step s n c record c.pc = some (s', os)) : Step s (.call n timed_out) os s' := by
  unfold start_step at h
  split at h
  · next r' heq =>
    obtain rfl : r' = r := by simpa [heq, Pc.record] using hpc
    split at h
    · next hstate => cases h; exact .goes _ _ _ _ _ hc (.start_accepted _ _ heq hr hstate)
    · next hstate => cases h; exact .goes _ _ _ _ _ hc (.start_refused _ _ heq hr hstate)
  · next r' heq =>
    cases h
    refine .goes _ _ _ _ _ hc (.start_raises r' _ (Or.inl heq) ?_)
    intro hlaunch
    rw [heq] at hlaunch
    cases hlaunch
  · next r' heq =>
    obtain rfl : r' = r := by simpa [heq, Pc.record] using hpc
    cases h
    exact .start_write n timed_out c _ record hc heq hr
  · next r' heq =>
    obtain rfl : r' = r := by simpa [heq, Pc.record] using hpc
    cases h
    exact .start_thread n timed_out c _ record hc heq hr
  · next r' heq =>
    obtain rfl : r' = r := by simpa [heq, Pc.record] using hpc
    split at h
    · next hthread =>
      cases h
      refine .goes _ _ _ _ _ hc (.start_raises _ _ (Or.inr heq) ?_)
      intro _ record' t w hr' ht
      obtain rfl := Option.some.inj (hr.symm.trans hr')
      rw [hthread] at ht
      cases ht
    · next t hthread =>
      split at h
      · cases h
      · next w hw =>
        split at h
        · next hcreated =>
          cases h
          exact .launch n timed_out c _ record t w hc heq hr hthread hw hcreated
        · next hstarted =>
          cases h
          refine .goes _ _ _ _ _ hc (.start_raises _ _ (Or.inr heq) ?_)
          intro _ record' t' w' hr' ht' hw'
          obtain rfl := Option.some.inj (hr.symm.trans hr')
          obtain rfl := Option.some.inj (hthread.symm.trans ht')
          obtain rfl := Option.some.inj (hw.symm.trans hw')
          exact hstarted
  · cases h

theorem stop_step_sound {s s' : State} {n : Nat} {c : Call} {timed_out : Bool} {os : List Obs}
    {r : Nat} {record : ServiceRecord} (hc : s.calls.get n = some c)
    (hpc : c.pc.record = some r) (hr : s.records.get r = some record)
    (h : stop_step s n c timed_out record c.pc = some (s', os)) :
    Step s (.call n timed_out) os s' := by
  unfold stop_step at h
  split at h
  · next r' heq =>
    obtain rfl : r' = r := by simpa [heq, Pc.record] using hpc
    split at h
    · next hstate => cases h; exact .goes _ _ _ _ _ hc (.stop_accepted _ _ heq hr hstate)
    · cases h; exact .goes _ _ _ _ _ hc (.stop_refused _ heq)
  · next r' heq => cases h; exact .goes _ _ _ _ _ hc (.stop_raises r' _ (Or.inl heq))
  · next r' heq =>
    obtain rfl : r' = r := by simpa [heq, Pc.record] using hpc
    cases h
    exact .stop_write n timed_out c _ record hc heq hr
  · next r' heq =>
    split at h
    · cases h; exact .goes _ _ _ _ _ hc (.stop_alive _ heq)
    · cases h; exact .goes _ _ _ _ _ hc (.stop_joined _ (Or.inl heq))
  · next r' heq =>
    split at h
    · cases h; exact .goes _ _ _ _ _ hc (.stop_raises _ _ (Or.inr heq))
    · next t _ =>
      split at h
      · cases h; exact .goes _ _ _ _ _ hc (.stop_raises _ _ (Or.inr heq))
      · cases h; exact .goes _ _ _ _ _ hc (.stop_wait _ t heq)
  · next r' t heq =>
    split at h
    · cases h; exact .goes _ _ _ _ _ hc (.stop_joined _ (Or.inr ⟨t, heq⟩))
    · cases h
  · next r' heq =>
    obtain rfl : r' = r := by simpa [heq, Pc.record] using hpc
    cases h
    exact .stop_finish n timed_out c _ record hc heq hr
  · cases h

theorem call_step_sound {s s' : State} {n : Nat} {c : Call} {timed_out : Bool} {os : List Obs}
    (hc : s.calls.get n = some c) (h : call_step s n c timed_out = some (s', os)) :
    Step s (.call n timed_out) os s' := by
  -- a call that accesses no record is about to publish
  cases hrecord : c.pc.record with
  | some r =>
    obtain ⟨record, hr, hor⟩ := call_step_record hrecord h
    rcases Option.or_eq_some_iff.mp hor with hstart | ⟨-, hstop⟩
    · exact start_step_sound hc hrecord hr hstart
    · exact stop_step_sound hc hrecord hr hstop
  | none =>
    unfold call_step at h
    split at h
    · next hpc => cases h; exact .goes _ _ _ _ _ hc (.registered hpc)
    · next hpc => cases h; exact .goes _ _ _ _ _ hc (.stop_published hpc)
    · rw [hrecord] at h
      cases h

theorem worker_step_sound {s s' : State} {t : Nat} {w : Worker} {isfile raises : Bool}
    {os : List Obs} (hw : s.workers.get t = some w)
    (h : worker_step s t w isfile = some (s', os)) : Step s (.worker t isfile raises) os s' := by
  unfold worker_step at h
  split at h
  · next hpc =>
    split at h
    · cases h
    · next record hr => cases h; exact .runs t isfile raises w record hw hpc hr
  · next hpc => cases h; exact .moves t isfile raises w _ _ hw (.announces hpc)
  · next hpc =>
    split at h
    · cases h; exact .moves t isfile raises w _ _ hw (.spawns hpc)
    · cases h; exact .moves t isfile raises w _ _ hw (.ends (Or.inl hpc))
  · next hpc => cases h; exact .moves t isfile raises w _ _ hw (.ends (Or.inr hpc))
  · next hpc =>
    split at h
    · cases h
    · next record hr => cases h; exact .stops t isfile raises w record hw hpc hr
  · next hpc => cases h; exact .moves t isfile raises w _ _ hw (.leaves hpc)
  · cases h

theorem step_sound {s s' : State} {l : Label} {os : List Obs}
    (h : machine.step s l = some (s', os)) : Step s l os s' := by
  cases l with
  | register name unit =>
    cases h
    unfold register
    split
    · next hcomplete => exact .register name unit hcomplete
    · next hmissing => exact .begins _ (.missing_keys name unit hmissing)
  | start name =>
    cases h
    exact lookup_sound (.start_unknown name) (.start name)
  | stop name =>
    cases h
    exact lookup_sound (.stop_unknown name) (.stop name)
  | call n timed_out =>
    simp only [machine] at h
    split at h
    · cases h
    · next c hc => exact call_step_sound hc h
  | worker t isfile raises =>
    simp only [machine] at h
    split at h
    · cases h
    · next w hw => exact worker_step_sound hw h

end ServiceManager
