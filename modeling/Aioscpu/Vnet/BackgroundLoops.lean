import Aioscpu.Framework.Daemon
import Mathlib.Algebra.Order.Floor.Semiring
import Mathlib.Data.Rat.Floor

/-! # Background Loops

  The loops of the health monitor (`_loop` of `services/health_monitor.py`) and
  of the virtual mesh (`_run` of `vnet/mesh.py`). Both classes start and stop
  their thread in the same way, with `_running` and `_thread`. A round is a
  call of `_check_all`, or of `sync_state`.

  A sleep, a wake-up and a reading of `_running` are steps of their own.
-/

/-! ### The health monitor -/

namespace HealthMonitor

/-- Where `_loop` stands. -/
inductive LoopPc where
  /-- Inside `time.sleep(5.0)`. -/
  | settling
  | test
  | check
  /-- At the test of the inner loop. -/
  | test_inner (elapsed : Nat)
  /-- Inside `time.sleep(1.0)`. -/
  | sleeping (elapsed : Nat)
deriving DecidableEq, Repr

/-- A step of `_loop`. `raises` tells whether `_check_all` raises. -/
def loop_step (interval : ℚ) (pc : LoopPc) (running raises : Bool) : Daemon.Next LoopPc :=
  match pc with
  | .settling => .goes .test
  | .test => if running then .goes .check else .ends
  | .check => .round (if raises then none else some (.test_inner 0))
  | .test_inner elapsed =>
    if running ∧ elapsed < interval then .goes (.sleeping elapsed) else .goes .test
  | .sleeping elapsed => .goes (.test_inner (elapsed + 1))

theorem check_reaches (interval : ℚ) (running : Bool) :
    Daemon.Reaches (loop_step interval) running .check :=
  .round _ false _ rfl

theorem test_reaches (interval : ℚ) : Daemon.Reaches (loop_step interval) true .test :=
  .goes _ false _ rfl (check_reaches interval true)

/-- The inner loop ends. -/
theorem test_inner_reaches {interval : ℚ} (n : Nat) {elapsed : Nat}
    (h : interval ≤ (elapsed + n : Nat)) :
    Daemon.Reaches (loop_step interval) true (.test_inner elapsed) := by
  induction n generalizing elapsed with
  | zero =>
    refine .goes _ false .test ?_ (test_reaches interval)
    exact if_neg fun hlt => absurd hlt.2 (not_lt.mpr h)
  | succ n ih =>
    by_cases hlt : (elapsed : ℚ) < interval
    · refine .goes _ false (.sleeping elapsed) (if_pos ⟨rfl, hlt⟩) ?_
      refine .goes _ false (.test_inner (elapsed + 1)) rfl (ih ?_)
      rwa [Nat.add_right_comm]
    · refine .goes _ false .test ?_ (test_reaches interval)
      exact if_neg fun h => hlt h.2

/-- The inner loop ends after the interval. -/
theorem elapses (interval : ℚ) (elapsed : Nat) :
    interval ≤ (elapsed + ⌈interval⌉₊ : Nat) :=
  (Nat.le_ceil interval).trans (Nat.cast_le.mpr (Nat.le_add_left _ _))

/-- `HealthMonitor._loop`. -/
def loop (interval : ℚ) : Daemon.Loop LoopPc Bool where
  entry := .settling
  step := loop_step interval
  committed pc := pc = .check
  entry_free := rfl
  leaves pc raises hfree := by
    cases pc with
    | check => simp at hfree
    | test => exact Or.inl rfl
    | _ => exact Or.inr ⟨_, rfl, rfl⟩
  reaches pc running h := by
    rcases h with hcommitted | rfl
    · obtain rfl := of_decide_eq_true hcommitted
      exact check_reaches interval running
    cases pc with
    | settling => exact .goes _ false .test rfl (test_reaches interval)
    | test => exact test_reaches interval
    | check => exact check_reaches interval true
    | test_inner elapsed => exact test_inner_reaches _ (elapses interval elapsed)
    | sleeping elapsed =>
      exact .goes _ false (.test_inner (elapsed + 1)) rfl
        (test_inner_reaches _ (elapses interval (elapsed + 1)))

/-- `start`, `stop` and the threads of the health monitor. -/
def threads (interval : ℚ) : Machine (Daemon.State LoopPc) (Daemon.Label Bool) Daemon.Obs :=
  Daemon.machine (loop interval)

end HealthMonitor

/-! ### The virtual mesh -/

namespace VirtualMesh

/-- Where `_run` stands. -/
inductive RunPc where
  | test
  /-- Inside `time.sleep(self._sync_interval)`. -/
  | sleeping
  /-- At the test after the sleep. -/
  | test_again
  | sync
deriving DecidableEq, Repr

/-- A step of `_run`. What `sync_state` raises is only logged. -/
def run_step (pc : RunPc) (running : Bool) (_ : Unit) : Daemon.Next RunPc :=
  match pc with
  | .test => if running then .goes .sleeping else .ends
  | .sleeping => .goes .test_again
  | .test_again => if running then .goes .sync else .ends
  | .sync => .round (some .test)

theorem sync_reaches (running : Bool) : Daemon.Reaches run_step running .sync :=
  .round _ () _ rfl

theorem test_again_reaches : Daemon.Reaches run_step true .test_again :=
  .goes _ () _ rfl (sync_reaches true)

theorem sleeping_reaches : Daemon.Reaches run_step true .sleeping :=
  .goes _ () _ rfl test_again_reaches

/-- `VirtualMesh._run`. -/
def run : Daemon.Loop RunPc Unit where
  entry := .test
  step := run_step
  committed pc := pc = .sync
  entry_free := rfl
  leaves pc _ hfree := by
    cases pc with
    | sync => simp at hfree
    | sleeping => exact Or.inr ⟨_, rfl, rfl⟩
    | _ => exact Or.inl rfl
  reaches pc running h := by
    rcases h with hcommitted | rfl
    · obtain rfl := of_decide_eq_true hcommitted
      exact sync_reaches running
    cases pc with
    | test => exact .goes _ () _ rfl sleeping_reaches
    | sleeping => exact sleeping_reaches
    | test_again => exact test_again_reaches
    | sync => exact sync_reaches true

/-- `start`, `stop` and the threads of the mesh. -/
def threads : Machine (Daemon.State RunPc) (Daemon.Label Unit) Daemon.Obs := Daemon.machine run

end VirtualMesh

/-! ### One live loop -/

namespace BackgroundLoops

open Daemon

/-- **One live loop**: throughout a run of calls of `start` and `stop` and of
    the threads of the health monitor, at most one thread can come to another
    `_check_all` without a further call of `start`, if and only if `start` is
    called while at most one thread is alive, and creates its thread while none
    is alive, or when `_running` is `False` and stays so. The same holds for
    the mesh and `sync_state`. -/
theorem one_live_iff_careful (interval : ℚ) :
    (∀ (ls : List (Label Bool)) (s : State HealthMonitor.LoopPc) (tr : List Obs),
      (HealthMonitor.threads interval).run init ls = some (s, tr) →
      ((HealthMonitor.threads interval).Along Careful init ls ↔
        ∀ pre s tr, pre <+: ls → (HealthMonitor.threads interval).run init pre = some (s, tr) →
          OneLive (HealthMonitor.loop interval) s)) ∧
    ∀ (ls : List (Label Unit)) (s : State VirtualMesh.RunPc) (tr : List Obs),
      VirtualMesh.threads.run init ls = some (s, tr) →
      (VirtualMesh.threads.Along Careful init ls ↔
        ∀ pre s tr, pre <+: ls → VirtualMesh.threads.run init pre = some (s, tr) →
          OneLive VirtualMesh.run s) :=
  ⟨fun _ _ _ hrun => careful_iff_oneLive (HealthMonitor.loop interval) hrun,
    fun _ _ _ hrun => careful_iff_oneLive VirtualMesh.run hrun⟩

/-- A call of `start` that nothing else interrupts. -/
def startCall {ε : Type} (n : Nat) : List (Label ε) :=
  [.start, .call n, .call n, .call n, .call n]

theorem one_live_iff_careful_started :
    (∃ s tr, (HealthMonitor.threads 30).run init (startCall 0) = some (s, tr) ∧
      ((HealthMonitor.threads 30).Along Careful init (startCall 0) ↔
        ∀ pre s tr, pre <+: startCall 0 →
          (HealthMonitor.threads 30).run init pre = some (s, tr) →
            OneLive (HealthMonitor.loop 30) s)) ∧
    ∃ s tr, VirtualMesh.threads.run init (startCall 0) = some (s, tr) ∧
      (VirtualMesh.threads.Along Careful init (startCall 0) ↔
        ∀ pre s tr, pre <+: startCall 0 → VirtualMesh.threads.run init pre = some (s, tr) →
          OneLive VirtualMesh.run s) := by
  obtain ⟨s, tr, hrun⟩ : ∃ s tr, (HealthMonitor.threads 30).run init (startCall 0) =
    some (s, tr) := ⟨_, _, rfl⟩
  obtain ⟨s', tr', hrun'⟩ : ∃ s tr, VirtualMesh.threads.run init (startCall 0) =
    some (s, tr) := ⟨_, _, rfl⟩
  exact ⟨⟨s, tr, hrun, (one_live_iff_careful 30).1 _ s tr hrun⟩,
    ⟨s', tr', hrun', (one_live_iff_careful 30).2 _ s' tr' hrun'⟩⟩

/-- The loop is stopped and started again while the first thread sleeps. Both
    threads come to a round then. -/
theorem second_loop_after_restart :
    (∃ s tr, (HealthMonitor.threads 30).run init (startCall 0 ++ .stop :: startCall 1) =
        some (s, tr) ∧ ¬ OneLive (HealthMonitor.loop 30) s) ∧
    ∃ s tr, VirtualMesh.threads.run init
        (startCall 0 ++ .thread 0 () :: .stop :: startCall 1) = some (s, tr) ∧
      ¬ OneLive VirtualMesh.run s := by
  refine ⟨⟨_, _, rfl, fun h => ?_⟩, _, _, rfl, fun h => ?_⟩
  · have := h 0 1 (by decide) (by decide)
      ⟨List.replicate 3 (.thread 0 false), _, _, by simp, rfl, by decide⟩
      ⟨List.replicate 3 (.thread 1 false), _, _, by simp, rfl, by decide⟩
    exact absurd this (by decide)
  · have := h 0 1 (by decide) (by decide)
      ⟨List.replicate 3 (.thread 0 ()), _, _, by simp, rfl, by decide⟩
      ⟨List.replicate 4 (.thread 1 ()), _, _, by simp, rfl, by decide⟩
    exact absurd this (by decide)

end BackgroundLoops
