import Aioscpu.Services.LogDurability
import Aioscpu.Services.LogSubscription
import Aioscpu.Services.ScheduledQueue

/-! # Registration over Restarts

  The logging service and the job queue register with a component that offers no
  removal, in `start`, and leave the registration as it is in `stop`.
-/

namespace Registration

open LoggingService.OnBus (OneEach SubscribedOnce)
open JobQueue.OnScheduler (AtMostOnce FindsNone)

/-- An event that the service captures. -/
def shutdown : Event (Json ℚ) := ⟨"SHUTDOWN", .obj [], Priority.NORMAL, "kernel", 1⟩

/-- A step of the bus at time 0. -/
def bus (l : EventBus.Label (Json ℚ) (LoggingService.OnBus.Callback Unit)) :
    LoggingService.OnBus.Label ℚ Unit := .bus l 0

/-- No call of `drain` is active. -/
def isIdle {P C : Type} : EventBus.Control P C → Bool
  | .idle => true
  | _ => false

theorem eq_idle {P C : Type} {control : EventBus.Control P C} (h : isIdle control = true) :
    control = .idle := by
  cases control with
  | idle => rfl
  | _ => cases h

end Registration
