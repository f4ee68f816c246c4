import Aioscpu.Framework.Clock
import Aioscpu.Framework.Deque
import Aioscpu.Kernel.EventBus

/-! # Kernel Debugger

  The debugger of `kernel/debug.py` on one kernel. It attaches by assigning to
  `event_bus.publish` and to `loop._tick` a function that calls the one that was there,
  so what stands there is the original method below as many wrappers as were put on it.

  A tick begins and ends in steps of its own, and what happens in it (events are
  published and delivered, the debugger is attached or detached) comes in between. The
  time at which an event was created travels with its publication.
-/

universe u v

/-! ### Event tracer -/

/-- An entry of the trace. -/
structure TraceEntry (T : Type) where
  seq : Nat
  type : String
  source : String
  priority : Int
  timestamp : T
  payload_preview : String
deriving DecidableEq

structure EventTracer (T : Type) where
  buf : Deque (TraceEntry T)
  total : Nat
  active : Bool

namespace EventTracer

variable {T : Type} {P : Type u}

def DEFAULT_TRACE_DEPTH : Nat := 200

/-- `EventTracer.__init__`. -/
def init (max_events : Nat) : EventTracer T := ⟨.empty max_events, 0, false⟩

/-- `_truncate`. -/
def truncate (s : String) (max_len : Nat) : String :=
  if s.length ≤ max_len then s else String.ofList (s.toList.take (max_len - 3)) ++ "..."

/-- `EventTracer._record`, where `repr` is `none` if `repr(payload)` raises. -/
def record (repr : P → Option String) (self : EventTracer T) (event : Event P) (timestamp : T) :
    Option (EventTracer T) :=
  (repr event.payload).map fun payload =>
    let entry : TraceEntry T :=
      { seq := event.seq
        type := event.event_type
        source := event.source
        priority := event.priority
        timestamp
        payload_preview := truncate payload 120 }
    { self with buf := self.buf.append entry, total := self.total + 1 }

end EventTracer

/-! ### Tick profiler -/

structure TickProfiler (T : Type) where
  samples : Deque T
  tick_start : Option T
  total_ticks : Nat
  slow_ticks : Nat

namespace TickProfiler

variable {T : Type}

def DEFAULT_PROFILE_SIZE : Nat := 1000
def SLOW_MS : Int := 100

/-- `TickProfiler.__init__`. -/
def init (max_samples : Nat) : TickProfiler T := ⟨.empty max_samples, none, 0, 0⟩

/-- `TickProfiler.begin_tick`. -/
def begin_tick (self : TickProfiler T) (now : T) : TickProfiler T :=
  { self with tick_start := some now }

/-- `TickProfiler.end_tick`. -/
def end_tick [Timer T] (self : TickProfiler T) (now : T) : TickProfiler T :=
  match self.tick_start with
  | none => self
  | some start =>
    let duration_ms := Timer.toMillis (now - start)
    { samples := self.samples.append duration_ms
      tick_start := none
      total_ticks := self.total_ticks + 1
      slow_ticks :=
        if Timer.ofInt SLOW_MS ≤ duration_ms then self.slow_ticks + 1 else self.slow_ticks }

end TickProfiler

/-! ### The wrapped methods -/

/-- What `event_bus.publish` is. -/
inductive PublishMethod where
  | original
  /-- `_traced_publish`. -/
  | traced (original_publish : PublishMethod)
deriving DecidableEq

/-- What `loop._tick` is. -/
inductive TickMethod where
  | original
  /-- `_profiled_tick`. -/
  | profiled (original_tick : TickMethod)
deriving DecidableEq

namespace PublishMethod

variable {T : Type} {P : Type u} {C : Type v}

def wrappers : PublishMethod → Nat
  | .original => 0
  | .traced original_publish => original_publish.wrappers + 1

/-- A call: the tracer and the bus that it leaves, and whether it returns. -/
def call (repr : P → Option String) (event : Event P) (timestamp : T) :
    PublishMethod → EventTracer T → EventBus P C → EventTracer T × EventBus P C × Bool
  | .original, tracer, bus => (tracer, bus.publish event, true)
  | .traced original_publish, tracer, bus =>
    match tracer.record repr event timestamp with
    | none => (tracer, bus, false)
    | some tracer => original_publish.call repr event timestamp tracer bus

end PublishMethod

namespace TickMethod

variable {T : Type}

def wrappers : TickMethod → Nat
  | .original => 0
  | .profiled original_tick => original_tick.wrappers + 1

/-- What the wrappers do before the original method is called. -/
def enter (clock : Nat → T) : TickMethod → TickProfiler T → TickProfiler T
  | .original, profiler => profiler
  | .profiled original_tick, profiler =>
    -- each inner wrapper reads the clock again, and its time is the one that stays
    original_tick.enter clock (profiler.begin_tick (clock original_tick.wrappers))

/-- What they do after it has returned or raised. -/
def leave [Timer T] (clock : Nat → T) : TickMethod → TickProfiler T → TickProfiler T
  | .original, profiler => profiler
  | .profiled original_tick, profiler =>
    -- the innermost wrapper ends the sample, and the outer ones find none
    (original_tick.leave clock profiler).end_tick (clock original_tick.wrappers)

end TickMethod

/-! ### The debugger -/

structure KernelDebugger (T : Type) where
  tracer : EventTracer T
  profiler : TickProfiler T
  attached : Bool

namespace KernelDebugger

variable {T : Type} {P : Type u} {C : Type v}

/-- `KernelDebugger.__init__`. -/
def init (trace_depth profile_size : Nat) : KernelDebugger T :=
  ⟨.init trace_depth, .init profile_size, false⟩

/-- A tick that has begun: what was called, and whether the debugger was attached
    then. -/
structure Ticking where
  method : TickMethod
  attached : Bool

/-- The debugger, and what it wraps of the kernel. -/
structure State (P : Type u) (C : Type v) (T : Type) where
  debugger : KernelDebugger T
  event_bus : EventBus P C
  /-- The attribute `event_bus.publish`. -/
  publish : PublishMethod
  /-- The attribute `loop._tick`. -/
  tick : TickMethod
  tick_count : Nat
  ticking : Option Ticking

/-- A new debugger, and a kernel that it has not been attached to. -/
def start (debugger : KernelDebugger T) (event_bus : EventBus P C) (tick_count : Nat) :
    State P C T :=
  ⟨debugger, event_bus, .original, .original, tick_count, none⟩

/-- `KernelDebugger.attach`. -/
def attach (s : State P C T) : State P C T :=
  if s.debugger.attached then s
  else
    { s with
      debugger := { s.debugger with
        tracer := { s.debugger.tracer with active := true }
        attached := true }
      publish := .traced s.publish
      tick := .profiled s.tick }

/-- `KernelDebugger.detach`: the wrappers stay. -/
def detach (s : State P C T) : State P C T :=
  { s with debugger := { s.debugger with attached := false } }

inductive Label (P : Type u) (T : Type) where
  | attach
  | detach
  /-- `event_bus.publish(event)`. -/
  | publish (event : Event P) (timestamp : T)
  /-- `loop._tick()` is called. -/
  | tick_begins (clock : Nat → T)
  /-- In the tick, the bus takes an event from its heap. -/
  | drain
  /-- The tick returns, or raises. -/
  | tick_ends (raised : Bool) (clock : Nat → T)

inductive Obs where
  /-- `attach` puts its wrappers on. -/
  | wrapped
  /-- `publish` raises what `repr` raised. -/
  | publish_raised
  /-- The original `_tick` is called. -/
  | ticked
  | tick_raised
deriving DecidableEq

variable [Timer T]

/-- Calls of the debugger and of what it wraps, in any order, with one tick at a time. -/
def machine (repr : P → Option String) : Machine (State P C T) (Label P T) Obs where
  step := fun s l =>
    match l with
    | .attach => some (attach s, if s.debugger.attached then [] else [.wrapped])
    | .detach => some (detach s, [])
    | .publish event timestamp =>
      let r := s.publish.call repr event timestamp s.debugger.tracer s.event_bus
      some ({ s with debugger := { s.debugger with tracer := r.1 }, event_bus := r.2.1 },
        if r.2.2 then [] else [.publish_raised])
    | .tick_begins clock =>
      match s.ticking with
      | some _ => none
      | none =>
        some ({ s with
          debugger := { s.debugger with profiler := s.tick.enter clock s.debugger.profiler }
          tick_count := s.tick_count + 1
          ticking := some ⟨s.tick, s.debugger.attached⟩ }, [.ticked])
    | .drain =>
      match s.ticking, Heapq.pop Event.lt s.event_bus.queue with
      | some _, some (_, queue) =>
        some ({ s with event_bus := { s.event_bus with queue } }, [])
      | _, _ => none
    | .tick_ends raised clock =>
      match s.ticking with
      | none => none
      | some ticking =>
        some ({ s with
          debugger :=
            { s.debugger with profiler := ticking.method.leave clock s.debugger.profiler }
          ticking := none }, if raised then [.tick_raised] else [])

end KernelDebugger
