import Aioscpu.Framework.Machine
import Aioscpu.Framework.Heapq
import Mathlib.Data.Prod.Lex

/-! # Event Bus

  The in-process publish/subscribe bus of `kernel/event_bus.py`.

  `subscribe` and `publish` are functions on the bus. A call of `drain` runs
  callbacks, and a callback may subscribe and publish again, so `drain` is a
  machine: one internal step per passage of its two loops, and between the
  call and the end of a callback any number of `subscribe` and `publish`
  steps. Whether a callback raises is part of the label that ends it.
-/

universe u v

/-! ### Events -/

namespace Priority

/-- Priority numbers of the bus: lower is more urgent. -/
def CRITICAL : Int := 0
def HIGH : Int := 1
def NORMAL : Int := 2
def LOW : Int := 3

end Priority

/-- A single message travelling on the bus. -/
structure Event (P : Type u) where
  event_type : String
  payload : P
  priority : Int
  source : String
  /-- Tie-breaker, taken from the class counter when the event is created. -/
  seq : Nat
deriving DecidableEq, Repr

namespace Event

variable {P : Type u}

/-- `Event.__init__`: the new event and the new value of `Event._counter`. -/
def create (counter : Nat) (event_type : String) (payload : P) (priority : Int)
    (source : String) : Event P × Nat :=
  (⟨event_type, payload, priority, source, counter + 1⟩, counter + 1)

/-- `Event.__lt__`. -/
def lt (self other : Event P) : Bool :=
  if self.priority ≠ other.priority then self.priority < other.priority
  else self.seq < other.seq

/-- What `__lt__` compares: the priority, then the sequence number. -/
def key (e : Event P) : Int ×ₗ Nat := toLex (e.priority, e.seq)

theorem lt_eq (a b : Event P) : a.lt b = decide (a.key < b.key) := by
  unfold lt key
  by_cases h : a.priority = b.priority
  · simp [Prod.Lex.toLex_lt_toLex, h]
  · simp [Prod.Lex.toLex_lt_toLex, h]

theorem key_le_iff (a b : Event P) :
    a.key ≤ b.key ↔ a.priority < b.priority ∨ (a.priority = b.priority ∧ a.seq ≤ b.seq) :=
  Prod.Lex.toLex_le_toLex

theorem key_lt_iff (a b : Event P) :
    a.key < b.key ↔ a.priority < b.priority ∨ (a.priority = b.priority ∧ a.seq < b.seq) :=
  Prod.Lex.toLex_lt_toLex

end Event

/-! ### The bus -/

/-- The bus. A callback is an identity `C`; what it does is up to the
    environment. A type without subscribers has the empty list. -/
structure EventBus (P : Type u) (C : Type v) where
  subscribers : String → List C
  /-- The heap of pending events. -/
  queue : List (Event P)

namespace EventBus

variable {P : Type u} {C : Type v}

/-- `EventBus.__init__`. -/
def init : EventBus P C := ⟨fun _ => [], []⟩

/-- `EventBus.subscribe`. -/
def subscribe (bus : EventBus P C) (event_type : String) (callback : C) : EventBus P C :=
  { bus with
    subscribers := fun t =>
      if t = event_type then bus.subscribers t ++ [callback] else bus.subscribers t }

/-- `EventBus.publish`. -/
def publish (bus : EventBus P C) (event : Event P) : EventBus P C :=
  { bus with queue := Heapq.push Event.lt bus.queue event }

@[simp] theorem publish_subscribers (bus : EventBus P C) (e : Event P) :
    (bus.publish e).subscribers = bus.subscribers := rfl

@[simp] theorem subscribe_queue (bus : EventBus P C) (t : String) (c : C) :
    (bus.subscribe t c).queue = bus.queue := rfl

theorem publish_queue_perm (bus : EventBus P C) (e : Event P) :
    (bus.publish e).queue.Perm (e :: bus.queue) :=
  Heapq.push_perm _ _ _

/-! ### The drain machine -/

/-- Where a call of `drain` stands. -/
inductive Control (P : Type u) (C : Type v) where
  /-- No call is active. -/
  | idle
  /-- At the test of `while self._queue`. -/
  | looping (count : Nat)
  /-- At the head of the `for` loop, with the callbacks still to run. -/
  | delivering (count : Nat) (event : Event P) (rest : List C)
  /-- Inside `cb(event)`. -/
  | calling (count : Nat) (event : Event P) (rest : List C)
deriving Repr

structure State (P : Type u) (C : Type v) where
  bus : EventBus P C
  control : Control P C

inductive Label (P : Type u) (C : Type v) where
  | subscribe (event_type : String) (callback : C)
  | publish (event : Event P)
  /-- A call of `drain` begins. -/
  | drain
  /-- The active call of `drain` goes on to its next loop test or callback. -/
  | advance
  /-- The callback returns, or raises an `Exception` (caught and logged). -/
  | done (raised : Bool)
deriving Repr

inductive Obs (P : Type u) (C : Type v) where
  /-- An event leaves the heap; with the events pending and the callbacks
      registered for its type at that moment. -/
  | dequeued (event : Event P) (pending : List (Event P)) (registered : List C)
  /-- A callback is called with the event. -/
  | invoked (callback : C) (event : Event P)
  /-- `drain` returns its count; with the events then pending. -/
  | returned (count : Nat) (pending : List (Event P))
deriving DecidableEq, Repr

/-- The code outside `drain` runs while no call is active or inside a callback. -/
def Control.open : Control P C → Bool
  | .idle => true
  | .calling .. => true
  | _ => false

/-- One passage of the loops of `drain`. -/
def advance (s : State P C) : Option (State P C × List (Obs P C)) :=
  match s.control with
  | .looping count =>
    match Heapq.pop Event.lt s.bus.queue with
    | none => some ({ s with control := .idle }, [.returned count s.bus.queue])
    | some (event, queue) =>
      let registered := s.bus.subscribers event.event_type
      some ({ bus := { s.bus with queue := queue }
              control := .delivering (count + 1) event registered },
            [.dequeued event s.bus.queue registered])
  | .delivering count _ [] => some ({ s with control := .looping count }, [])
  | .delivering count event (cb :: rest) =>
    some ({ s with control := .calling count event rest }, [.invoked cb event])
  | _ => none

/-- The bus with one call of `drain` at a time. -/
def machine (P : Type u) (C : Type v) : Machine (State P C) (Label P C) (Obs P C) where
  step := fun s l =>
    match l with
    | .subscribe event_type callback =>
      if s.control.open then some ({ s with bus := s.bus.subscribe event_type callback }, [])
      else none
    | .publish event =>
      if s.control.open then some ({ s with bus := s.bus.publish event }, [])
      else none
    | .drain =>
      match s.control with
      | .idle => some ({ s with control := .looping 0 }, [])
      | _ => none
    | .advance => advance s
    | .done _ =>
      -- the handler of the exception only logs, so both ends go on alike
      match s.control with
      | .calling count event rest => some ({ s with control := .delivering count event rest }, [])
      | _ => none

/-- What a step can do, with one constructor for each case. -/
inductive Step : State P C → Label P C → List (Obs P C) → State P C → Prop where
  | subscribe {s} (t : String) (c : C) (hopen : s.control.open = true) :
      Step s (.subscribe t c) [] { s with bus := s.bus.subscribe t c }
  | publish {s} (e : Event P) (hopen : s.control.open = true) :
      Step s (.publish e) [] { s with bus := s.bus.publish e }
  | drain {s} (hidle : s.control = .idle) :
      Step s .drain [] { s with control := .looping 0 }
  | returns {s} (n : Nat) (hloop : s.control = .looping n) (hnil : s.bus.queue = []) :
      Step s .advance [.returned n []] { s with control := .idle }
  | dequeue {s} (n : Nat) (e : Event P) (q : List (Event P)) (hloop : s.control = .looping n)
      (hpop : Heapq.pop Event.lt s.bus.queue = some (e, q)) :
      Step s .advance [.dequeued e s.bus.queue (s.bus.subscribers e.event_type)]
        { bus := { s.bus with queue := q }
          control := .delivering (n + 1) e (s.bus.subscribers e.event_type) }
  | next {s} (n : Nat) (e : Event P) (hdel : s.control = .delivering n e []) :
      Step s .advance [] { s with control := .looping n }
  | invoke {s} (n : Nat) (e : Event P) (c : C) (rest : List C)
      (hdel : s.control = .delivering n e (c :: rest)) :
      Step s .advance [.invoked c e] { s with control := .calling n e rest }
  | done {s} (b : Bool) (n : Nat) (e : Event P) (rest : List C)
      (hcall : s.control = .calling n e rest) :
      Step s (.done b) [] { s with control := .delivering n e rest }

theorem step_sound {s s' : State P C} {l : Label P C} {os : List (Obs P C)}
    (h : (machine P C).step s l = some (s', os)) : Step s l os s' := by
  cases l with
  | subscribe t c =>
    simp only [machine] at h
    split at h
    · next hopen => cases h; exact .subscribe t c hopen
    · cases h
  | publish e =>
    simp only [machine] at h
    split at h
    · next hopen => cases h; exact .publish e hopen
    · cases h
  | drain =>
    simp only [machine] at h
    split at h
    · next hidle => cases h; exact .drain hidle
    · cases h
  | advance =>
    simp only [machine, advance] at h
    split at h
    · next n hloop =>
      split at h
      · next hpop =>
        have hnil := Heapq.pop_eq_none Event.lt hpop
        rw [hnil] at h
        cases h
        exact .returns n hloop hnil
      · next e q hpop =>
        cases h
        exact .dequeue n e q hloop hpop
    · next n e hdel => cases h; exact .next n e hdel
    · next n e c rest hdel => cases h; exact .invoke n e c rest hdel
    · cases h
  | done b =>
    simp only [machine] at h
    split at h
    · next n e rest hcall => cases h; exact .done b n e rest hcall
    · cases h

/-! ### The heap invariant -/

/-- The pending events form a heap. -/
def Ordered (s : State P C) : Prop := Heapq.IsHeap Event.key s.bus.queue

theorem step_ordered {s s' : State P C} {l : Label P C} {os : List (Obs P C)}
    (h : Step s l os s') (ho : Ordered s) : Ordered s' := by
  cases h with
  | subscribe => exact ho
  | publish e => exact Heapq.push_heap Event.lt_eq ho
  | drain => exact ho
  | returns => exact ho
  | dequeue n e q _ hpop => exact (Heapq.pop_heap Event.lt_eq ho hpop).1
  | next => exact ho
  | invoke => exact ho
  | done => exact ho

/-- The events pending at any time of a run form a heap. -/
theorem run_ordered {s₀ s : State P C} {ls : List (Label P C)} {tr : List (Obs P C)}
    (h₀ : Ordered s₀) (hrun : (machine P C).run s₀ ls = some (s, tr)) : Ordered s :=
  (machine P C).run_invariant h₀ (fun _ _ _ _ ho hs => step_ordered (step_sound hs) ho) hrun

end EventBus
