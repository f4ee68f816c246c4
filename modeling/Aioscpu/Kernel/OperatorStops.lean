import Aioscpu.Kernel.WatchdogFrames

/-! # Operator Stops

  The watchdog sees that a service is stopped, and not why. It does not start a
  service that a call of `stop` has stopped as long as

  - its test of the state does not succeed for such a service, and
  - no call of `stop` stops a service between that test and the write of
    `STARTING`.
-/

namespace KernelWatchdog

variable {T : Type}

/-! ### Careful steps -/

/-- The service whose restart the thread has decided, and which its call has
    not yet written `STARTING` for. -/
def attempted (s : State T) : Option String :=
  match s.control with
  | .calling name _ => some name
  | _ => (pending s).map Prod.fst

/-- The service that a step brings to `stopped` for a call of `stop`: the call
    writes `STOPPED`, or the worker does while the service is stopping. -/
def stoppedBy (s : ServiceManager.State) : ServiceManager.Label → Option String
  | .call n _ =>
    match s.calls.get n with
    | some ⟨name, .stop_finish r⟩ => if s.registry.get name = some r then some name else none
    | _ => none
  | .worker t _ _ =>
    match s.workers.get t with
    | some ⟨name, r, _, .ended⟩ =>
      if s.registry.get name = some r ∧
          (s.records.get r).any (·.state = .STOPPING) then some name else none
    | _ => none
  | _ => none

/-- The call of the watchdog writes `STARTING` for the service in a step from
    this state. -/
def starts (s : State T) (os : List Obs) (name : String) : Bool :=
  match s.control with
  | .starting name' n _ =>
    name' = name ∧ os.any fun
      | .manager (.wrote (.call m) _ _ _ .STARTING) => m = n
      | _ => false
  | _ => false

/-- The condition on a turn of the thread. -/
def CarefulTurn (s : State T) (control : Control) : Prop :=
  match control with
  | .testing name record _ =>
    stateOf s.manager record ∈ [some .STOPPED, some .REGISTERED] → s.held name = false
  | _ => True

/-- The conditions on a step. -/
def Careful (s : State T) : Label T → Prop
  | .manager l => ∀ name ∈ stoppedBy s.manager l, attempted s ≠ some name
  | .deliver _ => True
  | .watchdog _ => CarefulTurn s s.control

/-! ### The invariant -/

/-- The restart that the thread has decided is one of a service that no call of
    `stop` has stopped. -/
def Respectful (s : State T) : Prop := ∀ name ∈ attempted s, s.held name = false

/-- A service that is held after a step of the manager was held before, or the
    step brings it to `stopped` for a call of `stop`. -/
theorem held_step {s s' : ServiceManager.State} {l : ServiceManager.Label}
    {os : List ServiceManager.Obs} (hs : ServiceManager.Step s l os s')
    (hwf : ServiceManager.WellFormed s) {control : Control} {held : String → Bool}
    {name : String} (h : os.foldl (heldAfter s.registry control) held name = true) :
    held name = true ∨ stoppedBy s l = some name := by
  cases hs with
  | start_write n b c r record hc hpc hr =>
    refine Or.inl ?_
    simp only [List.foldl, heldAfter] at h
    split at h
    · exact h
    · rw [Function.update_apply] at h
      split at h
      · cases h
      · exact h
  | stop_finish n b c r record hc hpc hr =>
    have hname := (hwf.calls n c r hc (by rw [hpc]; rfl)).eq hr
    simp only [List.foldl, heldAfter] at h
    split at h
    · next hregistry =>
      rw [Function.update_apply] at h
      split at h
      · next heq =>
        obtain ⟨cname, pc⟩ := c
        obtain rfl : pc = .stop_finish r := hpc
        obtain rfl : record.name = cname := hname
        exact Or.inr (by simp [stoppedBy, hc, hregistry, heq])
      · exact Or.inl h
    · exact Or.inl h
  | stops t _ _ w record hw hpc hr =>
    have hname := (hwf.workers t w hw).eq hr
    simp only [List.foldl, heldAfter] at h
    split at h
    · next hregistry =>
      rw [Function.update_apply] at h
      split at h
      · next heq =>
        obtain ⟨wname, r, entrypoint, pc⟩ := w
        obtain rfl : pc = .ended := hpc
        obtain rfl : record.name = wname := hname
        exact Or.inr (by simpa [stoppedBy, hw, hregistry, heq, hr] using h)
      · exact Or.inl h
    · exact Or.inl h
  | goes n b c pc os hc hgo => cases hgo <;> exact Or.inl h
  | moves t _ _ w pc os hw hgo => cases hgo <;> exact Or.inl h
  | register => exact Or.inl h
  | begins => exact Or.inl h
  | start_thread => exact Or.inl h
  | launch => exact Or.inl h
  | stop_write => exact Or.inl h
  | runs => exact Or.inl h

theorem attempted_iff (s : State T) (name : String) :
    attempted s = some name ↔
      (∃ todo, s.control = .calling name todo) ∨ ∃ r, pending s = some (name, r) := by
  unfold attempted pending
  cases s.control with
  | calling name' todo => simp
  | starting name' n todo => simp only [Option.map_eq_some_iff, Prod.exists, exists_and_right,
      exists_eq_right, reduceCtorEq, exists_false, false_or]
  | _ => simp

/-- The restart that is decided after a step of the manager was decided before. -/
theorem attempted_step {s s' : State T} {name : String} (hname : attempted s' = some name)
    (h : Known s) {l : ServiceManager.Label} {manager : ServiceManager.State}
    {os : List ServiceManager.Obs} (hs : ServiceManager.Step s.manager l os manager)
    (hmanager : s'.manager = manager) (hcontrol : s'.control = s.control) :
    attempted s = some name := by
  rw [attempted_iff] at hname ⊢
  rcases hname with ⟨todo, hcalling⟩ | ⟨r, hpending⟩
  · exact Or.inl ⟨todo, hcontrol ▸ hcalling⟩
  · exact Or.inr ⟨r, pending_step hpending h hs hmanager hcontrol⟩

theorem step_respectful {s s' : State T} {l : Label T} {os : List Obs} (hs : Step s l os s')
    (hknown : Known s) (h : Respectful s) (hcareful : Careful s l) : Respectful s' := by
  cases hs with
  | manager l manager os hs =>
    intro name hname
    have hattempted := attempted_step hname hknown hs rfl rfl
    -- the service is held only if the step stops it, which a careful one does not
    by_contra hheld
    rcases held_step hs hknown.manager (Bool.eq_true_of_not_eq_false hheld) with hold | hstopped
    · exact absurd (h name hattempted) (by simp [hold])
    · exact hcareful name hstopped hattempted
  | delivers => exact h
  | moves now control watchdog os hmoves hkeys hos =>
    intro name hname
    cases hmoves with
    | calls name' record todo hcontrol hstate =>
      -- the test has succeeded
      obtain rfl := Option.some.inj hname
      simp only [Careful, hcontrol] at hcareful
      exact hcareful hstate
    | _ => cases hname
  | restarts now name todo hcontrol =>
    intro name' hname
    rcases (attempted_iff _ name').mp hname with ⟨todo', hcalling⟩ | ⟨r, hpending⟩
    · cases hcalling
    · obtain ⟨q, -, heq⟩ := Option.map_eq_some_iff.mp hpending
      obtain rfl := (Prod.mk.inj heq).1
      exact h name (by simp [attempted, hcontrol])

/-! ### Runs -/

/-- `STARTING` is written by a call of `start` that has tested the state. -/
theorem starting_written {s s' : ServiceManager.State} {l : ServiceManager.Label}
    {os : List ServiceManager.Obs} (hs : ServiceManager.Step s l os s') {n r : Nat}
    {name : String} {old : ServiceManager.ServiceState}
    (h : .wrote (.call n) name r old .STARTING ∈ os) :
    ∃ c, s.calls.get n = some c ∧ c.pc = .start_write r := by
  cases hs with
  | start_write m b c q record hc hpc hr =>
    cases List.mem_singleton.mp h
    exact ⟨c, hc, hpc⟩
  | goes m b c pc os hc hgo => cases hgo <;> simp at h
  | moves t _ _ w pc os hw hgo => cases hgo <;> simp at h
  | _ => simp at h

/-- A service that the watchdog starts is one whose restart it has decided. -/
theorem starts_attempted {s s' : State T} {l : Label T} {os : List Obs} (hs : Step s l os s')
    {name : String} (hstarts : starts s os name = true) : attempted s = some name := by
  unfold starts at hstarts
  split at hstarts
  · next name' n todo hcontrol =>
    obtain ⟨rfl, hany⟩ := of_decide_eq_true hstarts
    obtain ⟨o, ho, htest⟩ := List.any_eq_true.mp hany
    split at htest
    · next m name r old =>
      obtain rfl := of_decide_eq_true htest
      cases hs with
      | manager l manager os hs =>
        obtain ⟨o, ho, heq⟩ := List.mem_map.mp ho
        obtain rfl := Obs.manager.inj heq
        obtain ⟨c, hc, hpc⟩ := starting_written hs ho
        simp [attempted, pending, hcontrol, hc, hpc, ServiceManager.Pc.checking]
      | delivers => cases ho
      | moves now control watchdog os hmoves hkeys hos =>
        exact absurd (hos _ ho) (by simp [Obs.quiet])
      | restarts => simp at ho
    · cases htest
  · cases hstarts

theorem run_respectful [Timer T] {max_failures : Int} {auto_restart build_service : Bool}
    {integrity_check_interval : Nat} {ls : List (Label T)} {s : State T} {tr : List Obs}
    (hcareful : machine.Along Careful
      (init max_failures auto_restart build_service integrity_check_interval) ls)
    (hrun : machine.run
      (init max_failures auto_restart build_service integrity_check_interval) ls =
        some (s, tr)) : Respectful s := by
  refine machine.run_induction_along (P := fun _ s _ => Respectful s) ?_ ?_ hcareful hrun
  · intro name hname
    cases hname
  · intro ls s tr l s' os hrun' h hc hs
    exact step_respectful (step_sound hs) (run_known hrun') h hc

/-- **Operator stops**: after a run whose steps are all careful, the watchdog
    starts no service that a call of `stop` has stopped and that no other call
    has started since. -/
theorem operator_stops_respected [Timer T] {max_failures : Int}
    {auto_restart build_service : Bool} {integrity_check_interval : Nat} {ls : List (Label T)}
    {s s' : State T} {tr os : List Obs} {l : Label T} {name : String}
    (hcareful : machine.Along Careful
      (init max_failures auto_restart build_service integrity_check_interval) ls)
    (hrun : machine.run
      (init max_failures auto_restart build_service integrity_check_interval) ls =
        some (s, tr))
    (hstep : machine.step s l = some (s', os)) (hstarts : starts s os name = true) :
    s.held name = false :=
  run_respectful hcareful hrun name (starts_attempted (step_sound hstep) hstarts)

/-! ### Careful runs, evaluated -/

instance (s : State T) : (control : Control) → Decidable (CarefulTurn s control)
  | .testing name record _ =>
    inferInstanceAs (Decidable (stateOf s.manager record ∈ [some .STOPPED, some .REGISTERED] →
      s.held name = false))
  | .idle => isTrue trivial
  | .scanning _ _ => isTrue trivial
  | .reading _ _ _ _ => isTrue trivial
  | .reporting _ => isTrue trivial
  | .restarting _ => isTrue trivial
  | .calling _ _ => isTrue trivial
  | .starting _ _ _ => isTrue trivial
  | .checking_integrity => isTrue trivial

instance (s : State T) : (l : Label T) → Decidable (Careful s l)
  | .manager l =>
    inferInstanceAs (Decidable (∀ name ∈ stoppedBy s.manager l, attempted s ≠ some name))
  | .deliver _ => isTrue trivial
  | .watchdog _ => inferInstanceAs (Decidable (CarefulTurn s s.control))

/-- The unit of a service. -/
def unitOf (name : String) : Dict String String :=
  (Dict.empty.set "name" name).set "entrypoint" "/services/a.py"

/-- A service is registered and started, and its worker executes. -/
def executingRun : List (Label ℚ) :=
  [.manager (.register "a" (unitOf "a")), .manager (.call 0 false), .deliver "a",
    .manager (.start "a"), .manager (.call 1 false), .manager (.call 1 false),
    .manager (.call 1 false), .manager (.call 1 false), .manager (.worker 0 true false),
    .manager (.worker 0 true false), .manager (.worker 0 true false)]

/-- The worker ends. -/
def ends (t : Nat) : List (Label ℚ) := List.replicate 3 (.manager (.worker t true false))

/-- The service is stopped, and its worker ends while the call waits. -/
def operatorStop : List (Label ℚ) :=
  .manager (.stop "a") :: List.replicate 4 (.manager (.call 2 false)) ++ ends 0 ++
    List.replicate 3 (.manager (.call 2 false))

/-- The watchdog finds the service stopped, and calls `start`, which tests the
    state. -/
def restart (n : Nat) : List (Label ℚ) :=
  List.replicate 8 (.watchdog 10) ++ [.manager (.call n false)]

/-- The watchdog is about to start the service. -/
def startsNext (s : State ℚ) (n : Nat) : Bool :=
  (machine.step s (.manager (.call n false))).any fun r => starts s r.2 "a"

theorem step_of_startsNext {s : State ℚ} {n : Nat} (h : startsNext s n = true) :
    ∃ s' os, machine.step s (.manager (.call n false)) = some (s', os) ∧
      starts s os "a" = true := by
  obtain ⟨r, hr, hstarts⟩ := (Option.any_eq_true ..).mp h
  exact ⟨r.1, r.2, hr, hstarts⟩

/-- The worker ends unexpectedly, and the watchdog starts the service. -/
theorem operator_stops_respected_crashed :
    ∃ s s' tr os, machine.run (init 3 true false 10) (executingRun ++ ends 0 ++ restart 2) =
        some (s, tr) ∧
      machine.step s (.manager (.call 2 false)) = some (s', os) ∧ starts s os "a" = true ∧
      s.held "a" = false := by
  obtain ⟨s, tr, hrun, htest⟩ := machine.exists_run (init 3 true false 10)
    (executingRun ++ ends 0 ++ restart 2) (fun s _ => startsNext s 2) (by decide +kernel)
  obtain ⟨s', os, hstep, hstarts⟩ := step_of_startsNext htest
  exact ⟨s, s', tr, os, hrun, hstep, hstarts,
    operator_stops_respected (by decide +kernel) hrun hstep hstarts⟩

/-- The service is stopped by a call of `stop`, and the watchdog starts it. -/
theorem stopped_service_restarted :
    ∃ (ls : List (Label ℚ)) (s s' : State ℚ) (tr os : List Obs) (l : Label ℚ),
      machine.run (init 3 true false 10) ls = some (s, tr) ∧
      machine.step s l = some (s', os) ∧ starts s os "a" = true ∧ s.held "a" = true := by
  obtain ⟨s, tr, hrun, htest⟩ := machine.exists_run (init 3 true false 10)
    (executingRun ++ operatorStop ++ restart 3) (fun s _ => startsNext s 3 && s.held "a")
    (by decide +kernel)
  obtain ⟨hnext, hheld⟩ := Bool.and_eq_true_iff.mp htest
  obtain ⟨s', os, hstep, hstarts⟩ := step_of_startsNext hnext
  exact ⟨_, s, s', tr, os, _, hrun, hstep, hstarts, hheld⟩

end KernelWatchdog
