import Aioscpu.Kernel.WatchdogFrames

/-! # Pace of the Watchdog

  The watchdog calls `start` for a service that it has found at rest: stopped,
  or registered once more. The service has to come to rest again before the
  next call, so there are at most as many calls as rests.
-/

namespace KernelWatchdog

open ServiceManager (status WellFormed stoppedWrites)

variable {T : Type}

/-! ### Services at rest -/

/-- The calls of `start` for the service that the watchdog has made. -/
def restarts (name : String) (tr : List Obs) : List Nat :=
  tr.filterMap fun
    | .restart name' n => if name' = name then some n else none
    | _ => none

/-- The services that the cycle has found degraded, and has not yet done with. -/
def Control.degraded : Control → List String
  | .scanning _ degraded => degraded
  | .reading _ _ _ degraded => degraded
  | .reporting degraded => degraded
  | .restarting todo => todo
  | .testing name _ todo => name :: todo
  | .calling name todo => name :: todo
  | .starting name _ todo => name :: todo
  | _ => []

theorem Control.degraded_names (control : Control) {name : String}
    (h : name ∈ control.degraded) : name ∈ control.names := by
  cases control with
  | scanning todo degraded => exact List.mem_append_right _ h
  | reading name' record todo degraded => exact List.mem_append_right _ h
  | idle => cases h
  | checking_integrity => cases h
  | _ => exact h

/-- The record of the service that the thread has looked up and not yet read,
    or that its call has not yet started. -/
def lookedUp (s : State T) : Option (String × Option Nat) :=
  match s.control with
  | .reading name record _ _ => some (name, record)
  | .testing name record _ => some (name, record)
  | _ => (pending s).map fun p => (p.1, some p.2)

/-- The service is stopped, or is registered once more while the cycle has it
    for degraded. -/
def Resting (s : State T) (name : String) : Prop :=
  status s.manager name = some .STOPPED ∨
    status s.manager name = some .REGISTERED ∧ name ∈ s.control.degraded

/-- The calls of `start` are not ahead of the rests, and are behind them when
    the next call may come. -/
structure Paced (s : State T) (name : String) (count : Nat) : Prop where
  bound : count ≤ s.rests name
  calling : ∀ todo, s.control = .calling name todo → count < s.rests name
  stale : ∀ record, lookedUp s = some (name, record) →
    s.manager.registry.get name ≠ record → count < s.rests name
  resting : (∀ r, pending s ≠ some (name, r)) → Resting s name → count < s.rests name

/-! ### Steps of the manager -/

/-- A service that is registered gets another record when it is registered
    again. -/
theorem registry_changes {s s' : ServiceManager.State} {l : ServiceManager.Label}
    {os : List ServiceManager.Obs} (hs : ServiceManager.Step s l os s') {name : String}
    (h : (s.registry.get name).isSome) :
    s'.registry.get name = s.registry.get name ∨ registersAgain s l name = true := by
  cases hs with
  | register name' unit hcomplete =>
    rw [Dict.get_set]
    split
    · next heq => exact Or.inr (decide_eq_true ⟨heq.symm, hcomplete, h⟩)
    · exact Or.inl rfl
  | _ => exact Or.inl rfl

/-- The status of the service after a step, with its record. -/
theorem status_eq_some {s : ServiceManager.State} {name : String}
    {state : ServiceManager.ServiceState} (h : status s name = some state) :
    ∃ r record, s.registry.get name = some r ∧ s.records.get r = some record ∧
      record.state = state := by
  obtain ⟨r, hr, hmap⟩ := Option.bind_eq_some_iff.mp h
  obtain ⟨record, hrecord, hstate⟩ := Option.map_eq_some_iff.mp hmap
  exact ⟨r, record, hr, hrecord, hstate⟩

theorem status_of_get {s : ServiceManager.State} {name : String} {r : Nat}
    {record : ServiceManager.ServiceRecord} (hr : s.registry.get name = some r)
    (hrecord : s.records.get r = some record) : status s name = some record.state := by
  unfold status
  rw [hr, Option.bind_some, hrecord, Option.map_some]

/-- A service is at rest after a step that was so before, or whose state the
    step sets to `stopped`, or which the step registers. -/
theorem step_status {s s' : ServiceManager.State} {l : ServiceManager.Label}
    {os : List ServiceManager.Obs} (hs : ServiceManager.Step s l os s') (hwf : WellFormed s)
    {name : String} {state : ServiceManager.ServiceState} (h : status s' name = some state)
    (hstate : state = .STOPPED ∨ state = .REGISTERED) :
    status s name = some state ∨ (stoppedWrites name os).length ≠ 0 ∨
      state = .REGISTERED ∧ s'.registry.get name ≠ s.registry.get name := by
  obtain ⟨r, record', hr', hrecord', rfl⟩ := status_eq_some h
  have hname : record'.name = name :=
    ((ServiceManager.step_wellFormed hs hwf).registry name r hr').eq hrecord'
  have hexists : ∀ record, s.records.get r = some record → s.registry.get name = some r := by
    intro record hrecord
    rcases ServiceManager.step_registry hs hr' with hr | ⟨-, rfl, -⟩
    · exact hr
    · rw [Objects.get_next] at hrecord
      cases hrecord
  rcases ServiceManager.step_state hs hrecord' with
    ⟨record, hrecord, hsame⟩ | ⟨source, old, rfl, hne⟩ | ⟨hregistered, hnew⟩
  · refine Or.inl ?_
    rw [← hsame]
    exact status_of_get (hexists record hrecord) hrecord
  · have hstopped : record'.state = .STOPPED := hstate.resolve_right hne
    exact Or.inr (Or.inl (by simp [stoppedWrites, hname, hstopped]))
  · refine Or.inr (Or.inr ⟨hregistered, ?_⟩)
    rw [hr']
    intro heq
    obtain ⟨record, hrecord, -⟩ := hwf.registry name r heq.symm
    exact absurd hnew (Objects.ne_next hrecord)

theorem lookedUp_names {s : State T} {name : String} {record : Option Nat}
    (h : lookedUp s = some (name, record)) : name ∈ s.control.names := by
  unfold lookedUp pending at h
  cases hc : s.control with
  | reading name' record' todo degraded =>
    rw [hc] at h
    obtain rfl := (Prod.mk.inj (Option.some.inj h)).1
    exact List.mem_cons_self
  | testing name' record' todo =>
    rw [hc] at h
    obtain rfl := (Prod.mk.inj (Option.some.inj h)).1
    exact List.mem_cons_self
  | starting name' n todo =>
    simp only [hc, Option.map_eq_some_iff] at h
    obtain ⟨-, ⟨r, -, rfl⟩, heq⟩ := h
    obtain rfl := (Prod.mk.inj heq).1
    exact List.mem_cons_self
  | _ => simp [hc] at h

theorem lookedUp_of_pending {s : State T} {name : String} {r : Nat}
    (h : pending s = some (name, r)) : lookedUp s = some (name, some r) := by
  unfold lookedUp
  split
  · next hc => simp [pending, hc] at h
  · next hc => simp [pending, hc] at h
  · rw [h]
    rfl

/-- A step of the manager does not look up records for the thread. -/
theorem lookedUp_step {s s' : State T} {name : String} {record : Option Nat}
    (hlooked : lookedUp s' = some (name, record)) (h : Known s) {l : ServiceManager.Label}
    {manager : ServiceManager.State} {os : List ServiceManager.Obs}
    (hs : ServiceManager.Step s.manager l os manager) (hmanager : s'.manager = manager)
    (hcontrol : s'.control = s.control) : lookedUp s = some (name, record) := by
  unfold lookedUp at hlooked
  rw [hcontrol] at hlooked
  split at hlooked
  · next hc => simpa only [lookedUp, hc] using hlooked
  · next hc => simpa only [lookedUp, hc] using hlooked
  · obtain ⟨⟨name', r⟩, hpending, heq⟩ := Option.map_eq_some_iff.mp hlooked
    obtain ⟨rfl, rfl⟩ := Prod.mk.inj heq
    exact lookedUp_of_pending (pending_step hpending h hs hmanager hcontrol)

theorem manager_paced {s s' : State T} {name : String} {count : Nat} (h : Paced s name count)
    (hknown : Known s) {l : ServiceManager.Label} {manager : ServiceManager.State}
    {os : List ServiceManager.Obs} (hs : ServiceManager.Step s.manager l os manager)
    (hmanager : s'.manager = manager) (hcontrol : s'.control = s.control)
    (hrests : s'.rests name = s.rests name + (stoppedWrites name os).length +
      (if registersAgain s.manager l name then 1 else 0)) : Paced s' name count := by
  have hmono : s.rests name ≤ s'.rests name := by omega
  have hbound := h.bound
  -- another record under the name is one more rest
  have hchanged : name ∈ s.control.names →
      manager.registry.get name ≠ s.manager.registry.get name → count < s'.rests name := by
    intro hname hne
    have hagain := (registry_changes hs (hknown.control name hname)).resolve_left hne
    rw [hagain, if_pos rfl] at hrests
    omega
  have hstale : ∀ record, lookedUp s = some (name, record) →
      manager.registry.get name ≠ record → count < s'.rests name := by
    intro record hlooked hne
    by_cases hsame : manager.registry.get name = s.manager.registry.get name
    · exact Nat.lt_of_lt_of_le (h.stale record hlooked (hsame ▸ hne)) hmono
    · exact hchanged (lookedUp_names hlooked) hsame
  constructor
  · exact Nat.le_trans hbound hmono
  · intro todo hcalling
    exact Nat.lt_of_lt_of_le (h.calling todo (hcontrol ▸ hcalling)) hmono
  · intro record hlooked hne
    exact hstale record (lookedUp_step hlooked hknown hs hmanager hcontrol) (hmanager ▸ hne)
  · intro hnot hresting
    unfold Resting at hresting
    rw [hmanager, hcontrol] at hresting
    by_cases hpending : ∃ r, pending s = some (name, r)
    · -- the call has found that it cannot start its record, or has started it
      obtain ⟨r, hpending⟩ := hpending
      have hsettled : pending s' = none := by
        cases hp : pending s' with
        | none => rfl
        | some p =>
          obtain ⟨name', q⟩ := p
          have hsame := pending_step hp hknown hs hmanager hcontrol
          obtain ⟨rfl, rfl⟩ := Prod.mk.inj (Option.some.inj (hpending.symm.trans hsame))
          exact absurd hp (hnot r)
      obtain ⟨record, hrecord, hregistered, hstopped⟩ :=
        pending_settled hpending hknown hs hmanager hcontrol hsettled
      -- so the service is not at rest, unless it is another record that is
      refine hstale (some r) (lookedUp_of_pending hpending) ?_
      intro hr
      have hstatus := status_of_get hr hrecord
      rcases hresting with hrest | ⟨hrest, -⟩
      · exact hstopped (Option.some.inj (hstatus.symm.trans hrest))
      · exact hregistered (Option.some.inj (hstatus.symm.trans hrest))
    · have hfree : ∀ r, pending s ≠ some (name, r) := fun r hr => hpending ⟨r, hr⟩
      have hwrites : (stoppedWrites name os).length ≠ 0 → count < s'.rests name := by
        intro hne
        omega
      rcases hresting with hrest | ⟨hrest, hdegraded⟩
      · rcases step_status hs hknown.manager hrest (Or.inl rfl) with hold | hne | ⟨heq, -⟩
        · exact Nat.lt_of_lt_of_le (h.resting hfree (Or.inl hold)) hmono
        · exact hwrites hne
        · cases heq
      · rcases step_status hs hknown.manager hrest (Or.inr rfl) with hold | hne | ⟨-, hne⟩
        · exact Nat.lt_of_lt_of_le (h.resting hfree (Or.inr ⟨hold, hdegraded⟩)) hmono
        · exact hwrites hne
        · exact hchanged (s.control.degraded_names hdegraded) hne

/-! ### Turns of the thread -/

/-- The service is at rest when the test of `_attempt_restart` succeeds. -/
theorem tested_rests {s : State T} {name : String} {count : Nat} (h : Paced s name count)
    {record : Option Nat} {todo : List String} (hcontrol : s.control = .testing name record todo)
    (hstate : stateOf s.manager record ∈ [some .STOPPED, some .REGISTERED]) :
    count < s.rests name := by
  by_cases hcurrent : s.manager.registry.get name = record
  · -- the record that was tested is the registered one, and so is its state
    subst hcurrent
    have hstatus : stateOf s.manager (s.manager.registry.get name) = status s.manager name := by
      unfold stateOf status
      rw [Option.map_bind]
      rfl
    rw [hstatus] at hstate
    refine h.resting (fun r => by simp [pending, hcontrol]) ?_
    rcases List.mem_cons.mp hstate with hstopped | hregistered
    · exact Or.inl hstopped
    · refine Or.inr ⟨List.mem_singleton.mp hregistered, ?_⟩
      rw [hcontrol]
      exact List.mem_cons_self
  · exact h.stale record (by simp [lookedUp, hcontrol]) hcurrent

/-- A service that is found degraded and is at rest was so before. -/
theorem Moves.resting {s : State T} {control : Control} (hmoves : Moves s control)
    {name : String} {count : Nat} (h : Paced s name count)
    (hresting : status s.manager name = some .STOPPED ∨
      status s.manager name = some .REGISTERED ∧ name ∈ control.degraded) :
    count < s.rests name := by
  have hnone : ∀ r, pending s ≠ some (name, r) := by
    intro r
    rw [hmoves.not_pending]
    exact fun hsome => by cases hsome
  rcases hresting with hstopped | ⟨hregistered, hdegraded⟩
  · exact h.resting hnone (Or.inl hstopped)
  · have hbefore : name ∈ s.control.degraded → count < s.rests name := fun hmem =>
      h.resting hnone (Or.inr ⟨hregistered, hmem⟩)
    cases hmoves with
    | degraded name' record todo degraded hcontrol hstate =>
      rcases List.mem_append.mp hdegraded with hmem | hmem
      · exact hbefore (by rw [hcontrol]; exact hmem)
      · -- the record that was read is not the one that is registered now
        obtain rfl := List.mem_singleton.mp hmem
        refine h.stale record (by simp [lookedUp, hcontrol]) ?_
        rintro rfl
        obtain ⟨r, record, hr, hrecord, hstate'⟩ := status_eq_some hregistered
        simp [stateOf, hr, hrecord, hstate'] at hstate
    | begins => cases hdegraded
    | observes => cases hdegraded
    | restarted => cases hdegraded
    | checked => cases hdegraded
    | scanned _ hcontrol => exact hbefore (by rw [hcontrol]; exact hdegraded)
    | reads _ _ _ hcontrol => exact hbefore (by rw [hcontrol]; exact hdegraded)
    | healthy _ _ _ _ hcontrol => exact hbefore (by rw [hcontrol]; exact hdegraded)
    | reports _ hcontrol => exact hbefore (by rw [hcontrol]; exact hdegraded)
    | tests _ _ hcontrol => exact hbefore (by rw [hcontrol]; exact hdegraded)
    | skips _ _ hcontrol =>
      exact hbefore (by rw [hcontrol]; exact List.mem_cons_of_mem _ hdegraded)
    | calls _ _ _ hcontrol => exact hbefore (by rw [hcontrol]; exact hdegraded)
    | leaves _ _ _ hcontrol =>
      exact hbefore (by rw [hcontrol]; exact List.mem_cons_of_mem _ hdegraded)
    | returns _ _ _ _ hcontrol =>
      exact hbefore (by rw [hcontrol]; exact List.mem_cons_of_mem _ hdegraded)

theorem moves_paced {s s' : State T} {name : String} {count : Nat} (h : Paced s name count)
    {control : Control} (hmoves : Moves s control) (hmanager : s'.manager = s.manager)
    (hcontrol : s'.control = control) (hrests : s'.rests = s.rests) : Paced s' name count := by
  subst hcontrol
  constructor
  · rw [hrests]
    exact h.bound
  · intro todo hcalling
    rw [hrests]
    rw [hcalling] at hmoves
    cases hmoves with
    | calls _ record _ hcontrol hstate => exact tested_rests h hcontrol hstate
  · intro record hlooked hne
    -- what a move looks up is what is registered at the moment
    refine absurd ?_ hne
    rw [hmanager]
    unfold lookedUp pending at hlooked
    generalize s'.control = control at hmoves hlooked
    cases hmoves with
    | reads name' todo degraded =>
      obtain ⟨rfl, rfl⟩ := Prod.mk.inj (Option.some.inj hlooked)
      rfl
    | tests name' todo =>
      obtain ⟨rfl, rfl⟩ := Prod.mk.inj (Option.some.inj hlooked)
      rfl
    | _ => cases hlooked
  · intro _ hresting
    rw [hrests]
    refine hmoves.resting h ?_
    unfold Resting at hresting
    rwa [hmanager] at hresting

/-- The call of `start` is pending on the record that is registered, if there is
    one. -/
theorem called_paced {s s' : State T} {name name' : String} {count : Nat}
    (h : Paced s name count) {todo : List String} (hcalling : s.control = .calling name' todo)
    (hmanager : s'.manager = ServiceManager.lookup s.manager name' .start_check)
    (hcontrol : s'.control = .starting name' s.manager.calls.next todo)
    (hrests : s'.rests = s.rests) :
    Paced s' name (count + if name' = name then 1 else 0) := by
  have hregistry : s'.manager.registry = s.manager.registry := by
    rw [hmanager, ServiceManager.lookup_registry]
  have hrecords : s'.manager.records = s.manager.records := by
    rw [hmanager, ServiceManager.lookup_records]
  have hpending : pending s' = (s.manager.registry.get name').map fun r => (name', r) := by
    unfold pending
    rw [hcontrol, hmanager]
    unfold ServiceManager.lookup
    cases s.manager.registry.get name' with
    | none => simp [ServiceManager.Pc.checking]
    | some r => simp [ServiceManager.Pc.checking]
  have hlooked : lookedUp s' = (pending s').map fun p => (p.1, some p.2) := by
    unfold lookedUp
    rw [hcontrol]
  have hstale : ∀ record, lookedUp s' = some (name, record) →
      s'.manager.registry.get name = record := by
    intro record heq
    rw [hlooked, hpending, Option.map_map] at heq
    obtain ⟨r, hr, heq⟩ := Option.map_eq_some_iff.mp heq
    obtain ⟨rfl, rfl⟩ := Prod.mk.inj heq
    rw [hregistry, hr]
  by_cases hname : name' = name
  · subst hname
    rw [if_pos rfl]
    have hlt := h.calling todo hcalling
    refine ⟨hrests ▸ hlt, ?_, fun record heq hne => absurd (hstale record heq) hne, ?_⟩
    · intro todo' heq
      rw [hcontrol] at heq
      cases heq
    · intro hnot hresting
      -- the call has found no record
      have hnone : s'.manager.registry.get name' = none := by
        cases hr : s'.manager.registry.get name' with
        | none => rfl
        | some r => exact absurd (by rw [hpending, ← hregistry, hr]; rfl) (hnot r)
      have hstatus : status s'.manager name' = none := by
        unfold status
        rw [hnone]
        rfl
      unfold Resting at hresting
      rw [hstatus] at hresting
      rcases hresting with hrest | ⟨hrest, -⟩
      · cases hrest
      · cases hrest
  · rw [if_neg hname, Nat.add_zero]
    refine ⟨hrests ▸ h.bound, ?_, fun record heq hne => absurd (hstale record heq) hne, ?_⟩
    · intro todo' heq
      rw [hcontrol] at heq
      cases heq
    · intro _ hresting
      rw [hrests]
      refine h.resting (fun r => by simp [pending, hcalling]) ?_
      unfold Resting status at hresting ⊢
      rw [hregistry, hrecords, hcontrol] at hresting
      rw [hcalling]
      exact hresting

/-! ### Runs -/

theorem restarts_append (name : String) (tr tr' : List Obs) :
    restarts name (tr ++ tr') = restarts name tr ++ restarts name tr' := List.filterMap_append

theorem restarts_quiet (name : String) {os : List Obs} (h : ∀ o ∈ os, o.quiet = true) :
    restarts name os = [] := by
  refine List.filterMap_eq_nil_iff.mpr ?_
  intro o ho
  have hquiet := h o ho
  cases o with
  | restart => cases hquiet
  | _ => rfl

theorem restarts_manager (name : String) (os : List ServiceManager.Obs) :
    restarts name (os.map .manager) = [] := by
  refine List.filterMap_eq_nil_iff.mpr ?_
  intro o ho
  obtain ⟨o', -, rfl⟩ := List.mem_map.mp ho
  rfl

theorem restarts_call (name name' : String) (n : Nat) :
    (restarts name [.restart name' n]).length = if name' = name then 1 else 0 := by
  unfold restarts
  by_cases h : name' = name <;> simp [h]

theorem init_paced (max_failures : Int) (auto_restart build_service : Bool)
    (integrity_check_interval : Nat) (name : String) :
    Paced (T := T) (init max_failures auto_restart build_service integrity_check_interval)
      name 0 := by
  refine ⟨Nat.le_refl 0, ?_, ?_, ?_⟩
  · intro todo h
    cases h
  · intro record h
    cases h
  · intro _ hresting
    rcases hresting with hrest | ⟨hrest, -⟩
    · cases hrest
    · cases hrest

theorem step_paced {s s' : State T} {l : Label T} {os : List Obs} (hs : Step s l os s')
    (hknown : Known s) {name : String} {count : Nat} (h : Paced s name count) :
    Paced s' name (count + (restarts name os).length) := by
  cases hs with
  | manager l manager os hs =>
    rw [restarts_manager]
    exact manager_paced h hknown hs rfl rfl rfl
  | delivers name' => exact ⟨h.bound, h.calling, h.stale, h.resting⟩
  | moves now control watchdog os hmoves hkeys hos =>
    rw [restarts_quiet name hos]
    exact moves_paced h hmoves rfl rfl rfl
  | restarts now name' todo hcalling =>
    rw [restarts_call]
    exact called_paced h hcalling rfl rfl rfl

/-- In every run, the calls of `start` keep pace with the rests. -/
theorem run_paced [Timer T] {max_failures : Int} {auto_restart build_service : Bool}
    {integrity_check_interval : Nat} {ls : List (Label T)} {s : State T} {tr : List Obs}
    (hrun : machine.run
      (init max_failures auto_restart build_service integrity_check_interval) ls =
        some (s, tr)) (name : String) : Paced s name (restarts name tr).length := by
  refine machine.run_induction (P := fun _ s tr => Paced s name (restarts name tr).length)
    (init_paced _ _ _ _ name) ?_ hrun
  intro ls s tr l s' os hrun' h hs
  rw [restarts_append, List.length_append]
  exact step_paced (step_sound hs) (run_known hrun') h

end KernelWatchdog
