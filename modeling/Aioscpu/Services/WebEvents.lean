import Aioscpu.Framework.Deque
import Aioscpu.Kernel.EventViews

/-! # The Event Log of the Web Terminal

  `WebTerminalService` subscribes to eight types of events when it is made, and keeps the newest
  of them in a list, which `GET /api/events` sends. The list lives as long as the service: its
  starts and stops, and all the rest of the system, leave it alone.

  Main result (`event_log_newest`): at any time the list has the newest 50 of the events that the
  bus has delivered.
-/

namespace WebTerminalService

open EventBus

variable {T P C : Type}

def MAX_EVENTS : Nat := 50

/-- The types that `__init__` subscribes to. -/
def watched : List String :=
  ["SERVICE_STARTED", "SERVICE_STOPPED", "SHUTDOWN", "BUILD_COMPLETE", "INTEGRITY_ALERT",
    "NETWORK_STATUS", "SERVICE_RESTARTING", "PKG_INSTALLED"]

/-- An entry of the list. -/
structure Entry (T P : Type) where
  type : String
  payload : P
  ts : T
deriving DecidableEq

/-- The entry of an event. `timestamp` is the clock reading that each event took when it was
    made, by its number. -/
def entry (timestamp : Nat → T) (event : Event P) : Entry T P :=
  ⟨event.event_type, event.payload, timestamp event.seq⟩

/-- `_on_system_event`. -/
def on_system_event (timestamp : Nat → T) (event_log : List (Entry T P)) (event : Event P) :
    List (Entry T P) :=
  let event_log := event_log ++ [entry timestamp event]
  if event_log.length > MAX_EVENTS then event_log.tail else event_log

/-- The list, as a view of the bus. Only the callback changes it. -/
def events (timestamp : Nat → T) [DecidableEq C] (callback : C) :
    EventView P C (List (Entry T P)) Empty :=
  .ofCallback callback (on_system_event timestamp) fun event_log _ => event_log

/-- **The log has the newest events**: at any time of any run of the bus, with callbacks that
    publish, subscribe and raise, the list has the newest 50 of the events that it has got, which
    are, with the one that is just delivered and those still pending, all that were published
    since of the eight types, and it has got them in the order in which they left the heap. -/
theorem event_log_newest [DecidableEq C] {timestamp : Nat → T} {callback : C}
    {bus : EventBus P C} (hnew : ∀ t, callback ∉ bus.subscribers t)
    {ls : List (Label P C ⊕ Empty)} (hspares : ∀ l ∈ EventView.onBus ls, l.Spares callback)
    {s : EventBus.State P C} {event_log : List (Entry T P)} {tr : List (Obs P C ⊕ Empty)}
    (hrun : (events timestamp callback).machine.run
      (⟨bus.subscribeAll watched callback, .idle⟩, []) ls = some ((s, event_log), tr)) :
    ∃ got, event_log = (got.map (entry timestamp)).rtake MAX_EVENTS ∧
      got ++ s.control.due callback = delivered watched (EventView.onBus tr) ∧
      (got ++ s.control.due callback ++ pending watched s.bus).Perm (pending watched bus ++
        (published (EventView.onBus ls)).filter fun e => e.event_type ∈ watched) := by
  obtain ⟨hview, -, hlaw, hperm⟩ := EventView.subscribed_run (by decide) hnew hspares hrun
  refine ⟨received callback (EventView.onBus tr), ?_, hlaw, hperm⟩
  rw [hview]
  refine EventView.ofCallback_induction
    (Q := fun got _ event_log => event_log = (got.map (entry timestamp)).rtake MAX_EVENTS)
    rfl ?_ (fun _ _ _ a => nomatch a) tr
  intro got _ event_log event ih
  rw [List.map_append]
  exact Deque.tail_append ih (entry timestamp event)

/-- An event that nobody watches, and two that the bus delivers in the order of their priority. -/
theorem event_log_newest_shutdown :
    ∃ s event_log tr,
      (events (fun seq => seq) 0).machine.run
        (⟨(init : EventBus Unit Nat).subscribeAll watched 0, .idle⟩, [])
        [.inl (.publish ⟨"PKG_INSTALLED", (), 2, "", 1⟩),
          .inl (.publish ⟨"JOB_QUEUED", (), 1, "", 2⟩),
          .inl (.publish ⟨"SHUTDOWN", (), 0, "", 3⟩), .inl .drain, .inl .advance, .inl .advance,
          .inl (.done false), .inl .advance, .inl .advance, .inl .advance, .inl .advance,
          .inl .advance] = some ((s, event_log), tr) ∧
      event_log = [⟨"SHUTDOWN", (), 3⟩, ⟨"PKG_INSTALLED", (), 1⟩] ∧
      ∃ got : List (Event Unit), event_log = (got.map (entry fun seq => seq)).rtake MAX_EVENTS ∧
        got.map Event.seq = [3, 1] := by
  obtain ⟨⟨s, event_log⟩, tr, hrun, htest⟩ := (events (fun seq => seq) 0).machine.exists_run
    (⟨(init : EventBus Unit Nat).subscribeAll watched 0, .idle⟩, [])
    [.inl (.publish ⟨"PKG_INSTALLED", (), 2, "", 1⟩), .inl (.publish ⟨"JOB_QUEUED", (), 1, "", 2⟩),
      .inl (.publish ⟨"SHUTDOWN", (), 0, "", 3⟩), .inl .drain, .inl .advance, .inl .advance,
      .inl (.done false), .inl .advance, .inl .advance, .inl .advance, .inl .advance, .inl .advance]
    (fun s tr => decide (s.2 = [⟨"SHUTDOWN", (), 3⟩, ⟨"PKG_INSTALLED", (), 1⟩] ∧
      s.1.control.due 0 = [] ∧ (delivered watched (EventView.onBus tr)).map Event.seq = [3, 1]))
    (by decide +kernel)
  obtain ⟨hlog, hdue, hdelivered⟩ := of_decide_eq_true htest
  obtain ⟨got, hnewest, hlaw, -⟩ := event_log_newest (by intro t h; cases h) (by decide) hrun
  refine ⟨s, event_log, tr, hrun, hlog, got, hnewest, ?_⟩
  rw [hdue, List.append_nil] at hlaw
  rw [hlaw]
  exact hdelivered

end WebTerminalService
