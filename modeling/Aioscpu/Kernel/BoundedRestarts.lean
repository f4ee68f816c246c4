import Aioscpu.Kernel.OperatorStops
import Aioscpu.Kernel.WatchdogPace
import Mathlib.Data.List.Count

/-! # Bounded Restarts

  A service whose worker ends again and again is started again and again: its
  `start` returns, so no failure is ever recorded. What bounds the calls of
  `start` is how often the service comes to rest, and of a service that is
  left to the watchdog each rest is followed by a call.
-/

namespace KernelWatchdog

open ServiceManager (outstanding callsService step_outstanding)

variable {T : Type}

/-! ### Careful steps -/

/-- The condition on a turn of the thread: at the call of `start` for the
    service, it has come to rest at most `max_failures` times. -/
def BoundedTurn (max_failures : Int) (name : String) (s : State T) (control : Control) : Prop :=
  match control with
  | .calling name' _ => name' = name → (s.rests name : Int) ≤ max_failures
  | _ => True

def Bounded (max_failures : Int) (name : String) (s : State T) : Label T → Prop
  | .watchdog _ => BoundedTurn max_failures name s s.control
  | _ => True

/-! ### Services that are left to the watchdog -/

def registersService (name : String) : Label T → Bool
  | .manager (.register name' _) => name' = name
  | _ => false

def startsService (name : String) : Label T → Bool
  | .manager (.start name') => name' = name
  | _ => false

def stopsService (name : String) : Label T → Bool
  | .manager (.stop name') => name' = name
  | _ => false

/-- The service is registered once and started once, and all else is up to its
    workers and the watchdog. -/
structure Unattended (name : String) (ls : List (Label T)) : Prop where
  registered : ls.countP (registersService name) ≤ 1
  started : ls.countP (startsService name) ≤ 1
  stopped : ls.countP (stopsService name) = 0

theorem Unattended.of_prefix {name : String} {pre ls : List (Label T)} (h : Unattended name ls)
    (hpre : pre <+: ls) : Unattended name pre :=
  ⟨hpre.sublist.countP_le.trans h.registered, hpre.sublist.countP_le.trans h.started,
    Nat.le_zero.mp (hpre.sublist.countP_le.trans h.stopped.le)⟩

/-- Each rest comes of a call, or of another registration. -/
structure Supplied (name : String) (ls : List (Label T)) (s : State T) (count : Nat) : Prop where
  rests : s.rests name + outstanding s.manager name ≤
    ls.countP (startsService name) + ls.countP (stopsService name) +
      (ls.countP (registersService name) - 1) + count
  registered : (s.manager.registry.get name).isSome → 1 ≤ ls.countP (registersService name)

/-- A call that begins in a step of the manager is begun by its label. -/
theorem calls_counted (name : String) (l : ServiceManager.Label) :
    (if callsService name l then 1 else 0) ≤
      [(.manager l : Label T)].countP (startsService name) +
        [(.manager l : Label T)].countP (stopsService name) := by
  cases l with
  | start name' => simp [callsService, startsService, stopsService, List.countP_singleton]
  | stop name' => simp [callsService, startsService, stopsService, List.countP_singleton]
  | _ => simp [callsService]

theorem registersAgain_counted {s : ServiceManager.State} {l : ServiceManager.Label}
    {name : String} (h : registersAgain s l name = true) :
    (s.registry.get name).isSome ∧ [(.manager l : Label T)].countP (registersService name) = 1 := by
  cases l with
  | register name' unit =>
    obtain ⟨hname, -, hsome⟩ := of_decide_eq_true h
    exact ⟨hsome, by simp [registersService, hname]⟩
  | _ => cases h

theorem registered_counted {s s' : ServiceManager.State} {l : ServiceManager.Label}
    {os : List ServiceManager.Obs} (hs : ServiceManager.Step s l os s') {name : String}
    (h : (s'.registry.get name).isSome) :
    (s.registry.get name).isSome ∨ [(.manager l : Label T)].countP (registersService name) = 1 := by
  obtain ⟨r, hr⟩ := Option.isSome_iff_exists.mp h
  rcases ServiceManager.step_registry hs hr with hr | ⟨⟨unit, rfl⟩, -⟩
  · exact Or.inl (Option.isSome_iff_exists.mpr ⟨r, hr⟩)
  · exact Or.inr (by simp [registersService])

/-- The rule for the steps of the manager. -/
theorem manager_supplied {name : String} {ls : List (Label T)} {s s' : State T} {count : Nat}
    (h : Supplied name ls s count) (hwf : ServiceManager.WellFormed s.manager)
    {l : ServiceManager.Label} {manager : ServiceManager.State} {os : List ServiceManager.Obs}
    (hs : ServiceManager.Step s.manager l os manager) (hmanager : s'.manager = manager)
    (hrests : s'.rests name = s.rests name + (ServiceManager.stoppedWrites name os).length +
      (if registersAgain s.manager l name then 1 else 0)) :
    Supplied name (ls ++ [.manager l]) s' count := by
  subst hmanager
  constructor
  · -- a rest was outstanding, or comes of another registration
    have hstep := step_outstanding hs hwf name
    have hcalls := calls_counted (T := T) name l
    have h₀ := h.rests
    rw [hrests, List.countP_append, List.countP_append, List.countP_append]
    by_cases hagain : registersAgain s.manager l name = true
    · obtain ⟨hsome, hone⟩ := registersAgain_counted (T := T) hagain
      have hregistered := h.registered hsome
      rw [if_pos hagain]
      omega
    · rw [if_neg hagain]
      omega
  · intro hsome
    rw [List.countP_append]
    rcases registered_counted (T := T) hs hsome with hsome | hone
    · exact (h.registered hsome).trans (Nat.le_add_right _ _)
    · omega

theorem Supplied.mono {name : String} {ls : List (Label T)} {s : State T} {count : Nat}
    (h : Supplied name ls s count) (l : Label T) : Supplied name (ls ++ [l]) s count := by
  have h₀ := h.rests
  constructor
  · rw [List.countP_append, List.countP_append, List.countP_append]
    omega
  · intro hsome
    rw [List.countP_append]
    exact (h.registered hsome).trans (Nat.le_add_right _ _)

theorem step_supplied {name : String} {ls : List (Label T)} {s s' : State T} {l : Label T}
    {os : List Obs} (hs : Step s l os s') (hwf : ServiceManager.WellFormed s.manager)
    {count : Nat} (h : Supplied name ls s count) :
    Supplied name (ls ++ [l]) s' (count + (restarts name os).length) := by
  cases hs with
  | manager l manager os hs =>
    rw [restarts_manager]
    exact manager_supplied h hwf hs rfl rfl
  | delivers name' =>
    obtain ⟨hrests, hregistered⟩ := h.mono (.deliver name')
    exact ⟨hrests, hregistered⟩
  | moves now control watchdog os hmoves hkeys hos =>
    rw [restarts_quiet name hos]
    obtain ⟨hrests, hregistered⟩ := h.mono (.watchdog now)
    exact ⟨hrests, hregistered⟩
  | restarts now name' todo hcalling =>
    obtain ⟨hrests, hregistered⟩ := h.mono (.watchdog now)
    have hstep := step_outstanding (lookup_step s.manager name') hwf name
    rw [restarts_call]
    constructor
    · simp only [callsService, decide_eq_true_eq, ServiceManager.stoppedWrites,
        List.filterMap_nil, List.length_nil] at hstep
      show s.rests name + outstanding (ServiceManager.lookup s.manager name' .start_check) name ≤ _
      omega
    · intro hsome
      exact hregistered (ServiceManager.lookup_registry s.manager name' _ ▸ hsome)

/-! ### Runs -/

section Runs

variable [Timer T] {max_failures : Int} {auto_restart build_service : Bool}
  {integrity_check_interval : Nat} {ls : List (Label T)} {s : State T} {tr : List Obs}

theorem run_supplied
    (hrun : machine.run
      (init max_failures auto_restart build_service integrity_check_interval) ls =
        some (s, tr)) (name : String) : Supplied name ls s (restarts name tr).length := by
  refine machine.run_induction
    (P := fun ls s tr => Supplied name ls s (restarts name tr).length) ?_ ?_ hrun
  · refine ⟨Nat.le_refl 0, ?_⟩
    intro h
    cases h
  · intro ls s tr l s' os hrun' h hs
    rw [restarts_append, List.length_append]
    exact step_supplied (step_sound hs) (run_known hrun').manager h

/-- A service that is left to the watchdog has come to rest once more than it
    was called, when the next call comes. -/
theorem unattended_rests
    (hrun : machine.run
      (init max_failures auto_restart build_service integrity_check_interval) ls =
        some (s, tr)) {name : String} (hunattended : Unattended name ls) {todo : List String}
    (hcalling : s.control = .calling name todo) :
    s.rests name = (restarts name tr).length + 1 := by
  have hlt := (run_paced hrun name).calling todo hcalling
  have hsupply := (run_supplied hrun name).rests
  obtain ⟨hregistered, hstarted, hstopped⟩ := hunattended
  omega

/-- The calls of the watchdog in a careful run. -/
theorem restarts_le
    (hmax : 0 ≤ max_failures) {name : String}
    (hbounded : machine.Along (Bounded max_failures name)
      (init max_failures auto_restart build_service integrity_check_interval) ls)
    (hrun : machine.run
      (init max_failures auto_restart build_service integrity_check_interval) ls =
        some (s, tr)) : ((restarts name tr).length : Int) ≤ max_failures := by
  refine machine.run_induction_along
    (P := fun _ _ tr => ((restarts name tr).length : Int) ≤ max_failures) hmax ?_ hbounded hrun
  intro ls s tr l s' os hrun' h hc hs
  rw [restarts_append, List.length_append]
  cases step_sound hs with
  | manager l manager os hs =>
    rw [restarts_manager]
    exact h
  | delivers => exact h
  | moves now control watchdog os hmoves hkeys hos =>
    rw [restarts_quiet name hos]
    exact h
  | restarts now name' todo hcalling =>
    rw [restarts_call]
    split
    · next hname =>
      subst hname
      -- the calls so far are fewer than the rests, and these are within the bound
      have hlt := (run_paced hrun' name').calling todo hcalling
      simp only [Bounded, BoundedTurn, hcalling, true_implies] at hc
      omega
    · exact h

/-- The call of `start` is one more. -/
theorem restarts_lt {pre : List (Label T)} {t : State T} {tr' : List Obs} {now : T}
    {name : String} {todo : List String} (hpre : pre ++ [.watchdog now] <+: ls)
    (hrun' : machine.run
      (init max_failures auto_restart build_service integrity_check_interval) pre =
        some (t, tr')) (hcalling : t.control = .calling name todo)
    (hrun : machine.run
      (init max_failures auto_restart build_service integrity_check_interval) ls =
        some (s, tr)) : (restarts name tr').length < (restarts name tr).length := by
  obtain ⟨post, rfl⟩ := hpre
  obtain ⟨u, tr₁, tr₂, hbefore, -, rfl⟩ := machine.run_append_iff.mp hrun
  obtain ⟨t', tr₃, os, hpre, hstep, rfl⟩ := machine.run_snoc_iff.mp hbefore
  obtain ⟨rfl, rfl⟩ := Prod.mk.inj (Option.some.inj (hrun'.symm.trans hpre))
  have hos : os = [.restart name t.manager.calls.next] := by
    have hstep : watchdog_step t now = some (u, os) := hstep
    simp only [watchdog_step, hcalling] at hstep
    exact (Prod.mk.inj (Option.some.inj hstep)).2.symm
  rw [restarts_append, restarts_append, List.length_append, List.length_append, hos,
    restarts_call, if_pos rfl]
  omega

/-- **Bounded restarts**: in a run in which the watchdog calls `start` for a
    service only while it has come to rest at most `max_failures` times, there
    are at most `max_failures` such calls. For a service that is left to the
    watchdog this is the only case. -/
theorem restarts_bounded (hmax : 0 ≤ max_failures)
    (hrun : machine.run
      (init max_failures auto_restart build_service integrity_check_interval) ls =
        some (s, tr)) (name : String) :
    (machine.Along (Bounded max_failures name)
        (init max_failures auto_restart build_service integrity_check_interval) ls →
      ((restarts name tr).length : Int) ≤ max_failures) ∧
    (Unattended name ls → ((restarts name tr).length : Int) ≤ max_failures →
      machine.Along (Bounded max_failures name)
        (init max_failures auto_restart build_service integrity_check_interval) ls) := by
  refine ⟨fun hbounded => restarts_le hmax hbounded hrun, ?_⟩
  intro hunattended hle
  rw [machine.along_iff_forall]
  intro pre l t tr' hpre hrun'
  cases l with
  | watchdog now =>
    show BoundedTurn max_failures name t t.control
    unfold BoundedTurn
    split
    · next name' todo hcalling =>
      rintro rfl
      have hbefore : Unattended name' pre :=
        hunattended.of_prefix ((List.prefix_append _ _).trans hpre)
      -- the call is one more, and there are as many rests as calls with it
      have hrests := unattended_rests hrun' hbefore hcalling
      have hlt := restarts_lt hpre hrun' hcalling hrun
      omega
    · trivial
  | _ => trivial

end Runs

/-! ### Runs, evaluated -/

instance (max_failures : Int) (name : String) (s : State T) (control : Control) :
    Decidable (BoundedTurn max_failures name s control) := by
  unfold BoundedTurn
  split <;> infer_instance

instance (max_failures : Int) (name : String) (s : State T) :
    (l : Label T) → Decidable (Bounded max_failures name s l)
  | .manager _ => isTrue trivial
  | .deliver _ => isTrue trivial
  | .watchdog _ => inferInstanceAs (Decidable (BoundedTurn max_failures name s s.control))

/-- The worker ends, the watchdog starts the service, and the next worker
    executes. -/
def crash (k : Nat) : List (Label ℚ) :=
  ends k ++ restart (k + 2) ++ List.replicate 3 (.manager (.call (k + 2) false)) ++
    List.replicate 3 (.watchdog 10) ++ List.replicate 3 (.manager (.worker (k + 1) true false))

/-- One end of the worker is answered by one call. -/
theorem restarts_bounded_once :
    ∃ s tr, machine.run (init 3 true false 10) (executingRun ++ crash 0) = some (s, tr) ∧
      (restarts "a" tr).length = 1 ∧ ((restarts "a" tr).length : Int) ≤ 3 := by
  obtain ⟨s, tr, hrun, htest⟩ := machine.exists_run (init 3 true false 10)
    (executingRun ++ crash 0) (fun _ tr => (restarts "a" tr).length == 1) (by decide +kernel)
  exact ⟨s, tr, hrun, beq_iff_eq.mp htest,
    (restarts_bounded (by decide) hrun "a").1 (by decide +kernel)⟩

/-- The worker ends after every restart, and the watchdog calls `start` a fourth
    time. -/
theorem restarted_four_times :
    ∃ (ls : List (Label ℚ)) (s : State ℚ) (tr : List Obs),
      machine.run (init 3 true false 10) ls = some (s, tr) ∧ Unattended "a" ls ∧
      s.rests "a" = 4 ∧ (restarts "a" tr).length = 4 ∧
      ((s.watchdog.health.get "a").map ServiceHealth.to_dict) = some ⟨0, 4, false⟩ := by
  obtain ⟨s, tr, hrun, htest⟩ := machine.exists_run (init 3 true false 10)
    (executingRun ++ (List.range 4).flatMap crash)
    (fun s tr => decide (s.rests "a" = 4 ∧ (restarts "a" tr).length = 4 ∧
      ((s.watchdog.health.get "a").map ServiceHealth.to_dict) = some ⟨0, 4, false⟩))
    (by decide +kernel)
  refine ⟨_, s, tr, hrun, ⟨?_, ?_, ?_⟩, of_decide_eq_true htest⟩
  · decide +kernel
  · decide +kernel
  · decide +kernel

end KernelWatchdog
