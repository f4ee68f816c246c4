import Aioscpu.Framework.Deque
import Aioscpu.Framework.Json
import Aioscpu.Framework.Objects
import Aioscpu.Kernel.EventBus

/-! # Logging Service

  The log entries of `services/logging_service.py`: the ring buffer that
  `write` and `_on_event` fill, and the file that the flushes append it to.

  A flush reads the ring under the lock and writes the lines without it, so
  several flushes can be under way (a thread that `start` has launched, the
  caller of `stop`), and entries arrive in between. Each access is a step.
  What the file buffers is written in lines here.
-/

/-! ### Entries -/

/-- `LogEntry`. Two entries with the same fields are still two objects, told
    apart by `id`. -/
structure LogEntry (T : Type) where
  id : Nat
  ts : T
  level : String
  source : String
  event : String
  msg : String
  data : Json T

namespace LogEntry

variable {T : Type}

def to_dict (self : LogEntry T) : Json T :=
  .obj [("ts", .float self.ts), ("level", .str self.level), ("source", .str self.source),
    ("event", .str self.event), ("msg", .str self.msg), ("data", self.data)]

/-- `LogEntry.to_json`, with `json.dumps` as a parameter. -/
def to_json (dumps : Json T → String) (self : LogEntry T) : String := dumps self.to_dict

end LogEntry

/-! ### The service -/

structure LoggingService (T : Type) where
  buffer : Deque (LogEntry T)
  running : Bool
  total_written : Nat

namespace LoggingService

variable {T : Type}

/-- What the service leaves to the standard library: `json.dumps`, `str` of a
    payload and `str.upper`. -/
structure Format (T : Type) where
  dumps : Json T → String
  str : Json T → String
  upper : String → String

/-- The event types that `start` subscribes to. -/
def captured : List String :=
  ["SERVICE_REGISTERED", "SERVICE_STARTED", "SERVICE_STOPPED", "SERVICE_RESTARTING",
    "MODE_ACTIVATED", "BOOT_COMPLETE", "SHUTDOWN", "BUILD_COMPLETE", "HEALTH_REPORT",
    "NETWORK_STATUS", "STORAGE_EVENT", "JOB_QUEUED", "JOB_COMPLETE", "JOB_FAILED",
    "INTEGRITY_ALERT", "CAPABILITY_GRANTED", "CAPABILITY_REVOKED", "PERMISSION_REQUEST",
    "PERMISSION_RESPONSE"]

/-- `LoggingService.__init__`. -/
def init (buffer_size : Nat) : LoggingService T := ⟨.empty buffer_size, false, 0⟩

/-- The section under the lock that `write` and `_on_event` share. -/
def append (self : LoggingService T) (entry : LogEntry T) : LoggingService T :=
  { self with buffer := self.buffer.append entry, total_written := self.total_written + 1 }

/-- The entry that `write` makes. The entries are numbered in the order in which
    they reach the ring. -/
def written [Clock T] (fmt : Format T) (self : LoggingService T)
    (msg level source event : String) (data : Json T) (now : T) : LogEntry T where
  id := self.total_written
  ts := now
  level := fmt.upper level
  source := source
  event := event
  msg := msg
  data := data.or (.obj [])

/-- The entry that `_on_event` makes. -/
def captures [Clock T] (fmt : Format T) (self : LoggingService T) (event : Event (Json T))
    (now : T) : LogEntry T where
  id := self.total_written
  ts := now
  level := "INFO"
  source := event.source
  event := event.event_type
  msg := fmt.str event.payload
  data := event.payload.or (.obj [])

@[simp] theorem append_total_written (self : LoggingService T) (entry : LogEntry T) :
    (self.append entry).total_written = self.total_written + 1 := rfl

/-! ### Flushes -/

/-- The lines that a flush has still to write, at least one. -/
structure Flush (T : Type) where
  /-- The thread or the caller of `stop` that writes them. -/
  proc : Nat
  entry : LogEntry T
  rest : List (LogEntry T)

namespace Flush

def entries (f : Flush T) : List (LogEntry T) := f.entry :: f.rest

/-- A flush of these entries, if there are any. -/
def of (proc : Nat) : List (LogEntry T) → List (Flush T)
  | [] => []
  | entry :: rest => [⟨proc, entry, rest⟩]

/-- The entries that the flushes have still to write. -/
def pending (fs : List (Flush T)) : List (LogEntry T) := fs.flatMap entries

/-- `proc` writes its next line: its entry, and the flushes then. -/
def take (proc : Nat) : List (Flush T) → Option (LogEntry T × List (Flush T))
  | [] => none
  | f :: fs =>
    if f.proc = proc then some (f.entry, of proc f.rest ++ fs)
    else (take proc fs).map fun r => (r.1, f :: r.2)

@[simp] theorem pending_nil : pending ([] : List (Flush T)) = [] := rfl

theorem pending_cons (f : Flush T) (fs : List (Flush T)) :
    pending (f :: fs) = f.entry :: (f.rest ++ pending fs) := rfl

@[simp] theorem pending_append (fs gs : List (Flush T)) :
    pending (fs ++ gs) = pending fs ++ pending gs :=
  List.flatMap_append

@[simp] theorem pending_of (proc : Nat) (es : List (LogEntry T)) : pending (of proc es) = es := by
  cases es with
  | nil => rfl
  | cons e es => simp [of, pending, entries]

/-- A written line is one that was to be written. -/
theorem take_perm {proc : Nat} {fs gs : List (Flush T)} {e : LogEntry T}
    (h : take proc fs = some (e, gs)) : (pending fs).Perm (e :: pending gs) := by
  induction fs generalizing gs with
  | nil => cases h
  | cons f fs ih =>
    unfold take at h
    split at h
    · obtain ⟨rfl, rfl⟩ := Prod.mk.inj (Option.some.inj h)
      rw [pending_cons, pending_append, pending_of]
    · obtain ⟨⟨e', gs'⟩, htake, heq⟩ := Option.map_eq_some_iff.mp h
      obtain ⟨rfl, rfl⟩ := Prod.mk.inj heq
      have hperm : (f.rest ++ pending fs).Perm (e' :: (f.rest ++ pending gs')) :=
        ((ih htake).append_left f.rest).trans List.perm_middle
      rw [pending_cons, pending_cons]
      exact (hperm.cons f.entry).trans (List.Perm.swap _ _ _)

/-- It is the first one of these, or one of a later flush. -/
theorem take_cons {proc : Nat} {f : Flush T} {fs gs : List (Flush T)} {e : LogEntry T}
    (h : take proc (f :: fs) = some (e, gs)) :
    (f.proc = proc ∧ pending (f :: fs) = e :: pending gs) ∨ (f.proc ≠ proc ∧ e ∈ pending fs) := by
  unfold take at h
  split at h
  · next hproc =>
    obtain ⟨rfl, rfl⟩ := Prod.mk.inj (Option.some.inj h)
    refine Or.inl ⟨hproc, ?_⟩
    rw [pending_append, pending_of]
    rfl
  · next hproc =>
    obtain ⟨⟨e', gs'⟩, htake, heq⟩ := Option.map_eq_some_iff.mp h
    obtain ⟨rfl, -⟩ := Prod.mk.inj heq
    exact Or.inr ⟨hproc, (take_perm htake).symm.subset List.mem_cons_self⟩

end Flush

/-! ### The machine -/

/-- Where a flush thread or a caller of `stop` stands. -/
inductive Pc where
  /-- At the test of `while self._running`. -/
  | testing
  /-- Inside `time.sleep`. -/
  | asleep
  /-- At `if self._running`. -/
  | woken
  /-- In `_flush_to_disk`, before it reads the ring; with the place where it
      returns to. -/
  | flushing (back : Pc)
  /-- In `_flush_to_disk`, with lines to write. -/
  | writing (back : Pc)
  | ended
deriving DecidableEq, Repr

structure State (T : Type) where
  service : LoggingService T
  procs : Objects Pc
  /-- The flushes under way, in the order in which they have read the ring. -/
  flushes : List (Flush T)
  /-- The lines of the log file. -/
  file : List String

inductive Label (T : Type) where
  | write (msg level source event : String) (data : Json T) (now : T)
  | on_event (event : Event (Json T)) (now : T)
  | start
  | stop
  /-- A thread or a caller of `stop` goes on, up to where it writes lines. -/
  | proceed (proc : Nat)
  /-- It writes its next line. -/
  | line (proc : Nat)
  /-- Its file operation raises an `OSError`, which ends the flush. -/
  | os_error (proc : Nat)

inductive Obs (T : Type) where
  /-- An entry reaches the ring. -/
  | logged (entry : LogEntry T)
  /-- A flush reads the ring. -/
  | flushed (ring : List (LogEntry T))
  /-- The line of the entry reaches the file. -/
  | line (entry : LogEntry T)

/-- A step of a thread or of a caller of `stop`. -/
def proceed (s : State T) (proc : Nat) : Pc → Option (State T × List (Obs T))
  | .testing =>
    some ({ s with procs := s.procs.set proc (if s.service.running then .asleep else .ended) }, [])
  | .asleep => some ({ s with procs := s.procs.set proc .woken }, [])
  | .woken =>
    some ({ s with
      procs := s.procs.set proc (if s.service.running then .flushing .testing else .testing) }, [])
  | .flushing back =>
    let ring := s.service.buffer.items
    some ({ s with
      procs := s.procs.set proc (if ring.isEmpty then back else .writing back)
      flushes := s.flushes ++ Flush.of proc ring }, [.flushed ring])
  | _ => none

/-- The flush of `proc` goes back once it has no lines left. -/
def finish (procs : Objects Pc) (proc : Nat) (flushes : List (Flush T)) : Objects Pc :=
  if flushes.any (·.proc = proc) then procs
  else
    match procs.get proc with
    | some (.writing back) => procs.set proc back
    | _ => procs

/-- The service with its flush threads and the callers of `stop`. -/
def machine [Clock T] (fmt : Format T) : Machine (State T) (Label T) (Obs T) where
  step := fun s l =>
    match l with
    | .write msg level source event data now =>
      let entry := s.service.written fmt msg level source event data now
      some ({ s with service := s.service.append entry }, [.logged entry])
    | .on_event event now =>
      let entry := s.service.captures fmt event now
      some ({ s with service := s.service.append entry }, [.logged entry])
    | .start =>
      if s.service.running then some (s, [])
      else
        some ({ s with
          service := { s.service with running := true }
          procs := s.procs.create .testing }, [])
    | .stop =>
      if s.service.running then
        some ({ s with
          service := { s.service with running := false }
          procs := s.procs.create (.flushing .ended) }, [])
      else some (s, [])
    | .proceed proc =>
      match s.procs.get proc with
      | some pc => proceed s proc pc
      | none => none
    | .line proc =>
      match Flush.take proc s.flushes with
      | some (entry, flushes) =>
        some ({ s with
          procs := finish s.procs proc flushes
          flushes
          file := s.file ++ [entry.to_json fmt.dumps] }, [.line entry])
      | none => none
    | .os_error proc =>
      match Flush.take proc s.flushes with
      | some _ =>
        let flushes := s.flushes.filter (·.proc ≠ proc)
        some ({ s with procs := finish s.procs proc flushes, flushes }, [])
      | none => none

/-- A service that has just been made, beside a log file with these lines. -/
def State.init (buffer_size : Nat) (file : List String) : State T :=
  ⟨.init buffer_size, .empty, [], file⟩

end LoggingService
