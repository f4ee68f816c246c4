import Aioscpu.Kernel.EventBus
import Aioscpu.Services.ScheduledQueue

/-! # Kernel Loop

  The loop of `kernel/loop.py` over the event bus and the scheduler, with the
  job queue that the kernel starts on it.

  A tick drains the bus, calls `tick` of the scheduler, and then marks itself
  busy if either of them did anything. The bus and the scheduler are the
  machines of their own modules; the loop calls them and waits for what they
  return. Time passes in the sleep of the loop, and where the environment lets
  it pass.
-/

/-! ### The adaptive tick -/

/-- `AdaptiveTick`, in milliseconds. -/
structure AdaptiveTick where
  base : Int
  max : Int
  factor : Int
  current : Int
  idle_ticks : Nat
deriving DecidableEq, Repr

namespace AdaptiveTick

def IDLE_BACKOFF_FACTOR : Int := 2

/-- `AdaptiveTick.__init__`. -/
def init (base_ms max_ms backoff_factor : Int) : AdaptiveTick :=
  { base := base_ms, max := max_ms, factor := backoff_factor, current := base_ms, idle_ticks := 0 }

/-- `AdaptiveTick.interval_ms`. -/
def interval_ms (self : AdaptiveTick) : Int := self.current

/-- `AdaptiveTick.mark_busy`. -/
def mark_busy (self : AdaptiveTick) : AdaptiveTick :=
  { self with idle_ticks := 0, current := self.base }

/-- `AdaptiveTick.mark_idle`. -/
def mark_idle (self : AdaptiveTick) : AdaptiveTick :=
  let idle_ticks := self.idle_ticks + 1
  { self with
    idle_ticks
    current := if idle_ticks > 3 then min (self.current * self.factor) self.max else self.current }

end AdaptiveTick

/-! ### The loop -/

namespace KernelLoop

variable {T P C F J : Type}

/-- The callbacks on the bus. -/
inductive Callback (C : Type) where
  /-- `KernelLoop._on_shutdown`. -/
  | on_shutdown
  | other (c : C)
deriving DecidableEq, Repr

/-- Where `run` stands. -/
inductive Pc where
  /-- At the test of `while not self._stopping`. -/
  | testing
  /-- Inside `self._event_bus.drain()`. -/
  | draining
  /-- Before the call of `self._scheduler.tick()`. -/
  | drained (events_dispatched : Nat)
  /-- Inside `self._scheduler.tick()`. -/
  | ticking (events_dispatched : Nat)
  /-- Before the tick is marked busy or idle. -/
  | ticked (events_dispatched tasks_ran : Nat)
  /-- Inside `time.sleep`. -/
  | sleeping
  | returned
  /-- `tick` of the scheduler has raised. -/
  | raised
deriving DecidableEq, Repr

structure State (T P C F J : Type) where
  adaptive_tick : AdaptiveTick
  stopping : Bool
  tick_count : Nat
  pc : Pc
  bus : EventBus.State P (Callback C)
  jobs : JobQueue.OnScheduler.State T F J
  /-- What `time.monotonic()` returns. -/
  now : T

inductive Label (T P C F J : Type) where
  /-- `run` goes on, between its calls. -/
  | run
  /-- A step of the bus: the drain goes on, or other code publishes or
      subscribes. -/
  | bus (l : EventBus.Label P (Callback C))
  /-- A step of the job queue and the scheduler: the tick goes on, or other code
      calls them. -/
  | jobs (l : JobQueue.OnScheduler.Label T F J)
  /-- `KernelLoop.stop`. -/
  | stop
  /-- Time passes, up to this reading. -/
  | passes (now : T)

/-- The clock readings that a step of the job queue and the scheduler takes. -/
def readings : JobQueue.OnScheduler.Label T F J → List T
  | .start now => [now]
  | .queue (.submit _ _ _ _ _ _ now) => [now]
  | .queue (.fn_returns t1) => [t1]
  | .queue (.fn_raises _ t1 t2) => [t1, t2]
  | .queue _ => []
  | .sched (.clock t) now t0 => [t, now, t0]
  | .sched (.schedule_job _ _ t) now t0 => [t, now, t0]
  | .sched _ now t0 => [now, t0]

/-- The call of `drain` returns its count. -/
def dispatched : List (EventBus.Obs P (Callback C)) → Option Nat
  | [.returned count _] => some count
  | _ => none

/-- `_on_shutdown` runs in the step in which the bus calls it. -/
def shuts_down : List (EventBus.Obs P (Callback C)) → Bool
  | [.invoked .on_shutdown _] => true
  | _ => false

/-- Where the loop stands after a step of its call of `tick`. -/
def after_tick (events_dispatched : Nat) :
    List (Scheduler.Obs T (JobQueue.OnScheduler.Callable J)) → Pc
  | [.tick_returned ran] => .ticked events_dispatched ran
  | [.tick_raised _] => .raised
  | _ => .ticking events_dispatched

variable [Clock T] [DecidableEq J]

/-- `run` goes on, up to its next call. -/
def run_step (s : State T P C F J) : Option (State T P C F J) :=
  match s.pc with
  | .testing =>
    if s.stopping then some { s with pc := .returned }
    else
      ((EventBus.machine P (Callback C)).step s.bus .drain).map fun r =>
        { s with tick_count := s.tick_count + 1, bus := r.1, pc := .draining }
  | .drained events_dispatched =>
    ((JobQueue.OnScheduler.machine T F J).step s.jobs (.sched .tick s.now s.now)).map fun r =>
      { s with jobs := r.1, pc := .ticking events_dispatched }
  | .ticked events_dispatched tasks_ran =>
    some { s with
      adaptive_tick :=
        if events_dispatched ≠ 0 ∨ tasks_ran ≠ 0 then s.adaptive_tick.mark_busy
        else s.adaptive_tick.mark_idle
      pc := .sleeping }
  | .sleeping =>
    some { s with now := s.now + Clock.ofMillis s.adaptive_tick.interval_ms, pc := .testing }
  | _ => none

/-- The drain of the loop goes on, or other code calls the bus. -/
def bus_step (s : State T P C F J) (l : EventBus.Label P (Callback C)) :
    Option (State T P C F J) :=
  match l with
  | .drain => none
  | l =>
    ((EventBus.machine P (Callback C)).step s.bus l).map fun r =>
      { s with
        bus := r.1
        stopping := s.stopping || shuts_down r.2
        pc :=
          match dispatched r.2 with
          | some count => .drained count
          | none => s.pc }

/-- The tick of the loop goes on, or other code calls the queue or the scheduler. -/
def jobs_step (s : State T P C F J) (l : JobQueue.OnScheduler.Label T F J) :
    Option (State T P C F J) :=
  if ∀ t ∈ readings l, t = s.now then
    match (JobQueue.OnScheduler.machine T F J).step s.jobs l with
    | none => none
    | some (jobs, os) =>
      match s.pc with
      | .ticking events_dispatched =>
        some { s with
          jobs
          pc := if jobs.sched.frames.isEmpty then after_tick events_dispatched os
            else .ticking events_dispatched }
      | _ => if jobs.sched.frames.isEmpty then some { s with jobs } else none
  else none

/-- The kernel loop with all that it calls. -/
def machine (T P C F J : Type) [Clock T] [DecidableEq J] :
    Machine (State T P C F J) (Label T P C F J) Empty where
  step := fun s l =>
    match l with
    | .run => (run_step s).map fun s => (s, [])
    | .bus l => (bus_step s l).map fun s => (s, [])
    | .jobs l => (jobs_step s l).map fun s => (s, [])
    | .stop => some ({ s with stopping := true }, [])
    | .passes now => if s.now ≤ now then some ({ s with now }, []) else none

/-- `KernelLoop.__init__`, on a new bus, over this queue and scheduler. -/
def init (tick_interval_ms : Int) (adaptive : Bool) (max_tick_interval_ms : Int)
    (jobs : JobQueue.OnScheduler.State T F J) (now : T) : State T P C F J where
  adaptive_tick :=
    .init tick_interval_ms (if adaptive then max_tick_interval_ms else tick_interval_ms)
      AdaptiveTick.IDLE_BACKOFF_FACTOR
  stopping := false
  tick_count := 0
  pc := .testing
  bus := ⟨EventBus.init.subscribe "SHUTDOWN" .on_shutdown, .idle⟩
  jobs := jobs
  now := now

end KernelLoop
