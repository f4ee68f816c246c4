import Aioscpu.Kernel.Watchdog

/-! # Frames of the Watchdog

  What a step of the watchdog over the manager can do, that every service that
  the watchdog has heard of is registered, and what becomes of its call.
-/

namespace KernelWatchdog

variable {T : Type}

/-! ### Inversion of the steps -/

/-- The moves of the thread apart from the call of `start`. -/
inductive Moves (s : State T) : Control → Prop where
  | begins (h : s.control = .idle) : Moves s (.scanning s.watchdog.health.keys [])
  | scanned (degraded : List String) (h : s.control = .scanning [] degraded) :
      Moves s (.reporting degraded)
  | reads (name : String) (todo degraded : List String)
      (h : s.control = .scanning (name :: todo) degraded) :
      Moves s (.reading name (s.manager.registry.get name) todo degraded)
  | degraded (name : String) (record : Option Nat) (todo degraded : List String)
      (h : s.control = .reading name record todo degraded)
      (hstate : stateOf s.manager record ≠ some .REGISTERED) :
      Moves s (.scanning todo (degraded ++ [name]))
  | healthy (name : String) (record : Option Nat) (todo degraded : List String)
      (h : s.control = .reading name record todo degraded) : Moves s (.scanning todo degraded)
  | reports (degraded : List String) (h : s.control = .reporting degraded) :
      Moves s (.restarting degraded)
  | observes (degraded : List String) (h : s.control = .reporting degraded) :
      Moves s .checking_integrity
  | restarted (h : s.control = .restarting []) : Moves s .checking_integrity
  | tests (name : String) (todo : List String) (h : s.control = .restarting (name :: todo)) :
      Moves s (.testing name (s.manager.registry.get name) todo)
  | skips (name : String) (todo : List String) (h : s.control = .restarting (name :: todo)) :
      Moves s (.restarting todo)
  | calls (name : String) (record : Option Nat) (todo : List String)
      (h : s.control = .testing name record todo)
      (hstate : stateOf s.manager record ∈ [some .STOPPED, some .REGISTERED]) :
      Moves s (.calling name todo)
  | leaves (name : String) (record : Option Nat) (todo : List String)
      (h : s.control = .testing name record todo) : Moves s (.restarting todo)
  | returns (name : String) (n : Nat) (todo : List String) (c : ServiceManager.Call)
      (h : s.control = .starting name n todo) (hc : s.manager.calls.get n = some c)
      (hpc : c.pc.checking = none) : Moves s (.restarting todo)
  | checked (h : s.control = .checking_integrity) : Moves s .idle

/-- An observation of the thread other than the call of `start`. -/
def Obs.quiet : Obs → Bool
  | .manager _ => false
  | .restart _ _ => false
  | _ => true

/-- What a step can do. -/
inductive Step (s : State T) : Label T → List Obs → State T → Prop where
  | manager (l : ServiceManager.Label) (manager : ServiceManager.State)
      (os : List ServiceManager.Obs) (hs : ServiceManager.Step s.manager l os manager) :
      Step s (.manager l) (os.map .manager)
        { s with
          manager
          events := s.events ++ registrations os
          held := os.foldl (heldAfter s.manager.registry s.control) s.held
          rests := fun name => s.rests name + (ServiceManager.stoppedWrites name os).length +
            (if registersAgain s.manager l name then 1 else 0) }
  | delivers (name : String) (h : name ∈ s.events) :
      Step s (.deliver name) []
        { s with
          events := s.events.erase name
          watchdog := s.watchdog.on_service_registered name }
  | moves (now : T) (control : Control) (watchdog : KernelWatchdog T) (os : List Obs)
      (h : Moves s control) (hkeys : watchdog.health.keys = s.watchdog.health.keys)
      (hos : ∀ o ∈ os, o.quiet = true) :
      Step s (.watchdog now) os { s with watchdog, control }
  | restarts (now : T) (name : String) (todo : List String)
      (h : s.control = .calling name todo) :
      Step s (.watchdog now) [.restart name s.manager.calls.next]
        { s with
          manager := ServiceManager.lookup s.manager name .start_check
          control := .starting name s.manager.calls.next todo }

theorem watchdog_step_sound [Timer T] {s s' : State T} {now : T} {os : List Obs}
    (h : watchdog_step s now = some (s', os)) : Step s (.watchdog now) os s' := by
  have hquiet : ∀ o ∈ ([] : List Obs), o.quiet = true := by simp
  unfold watchdog_step at h
  split at h
  · next hcontrol => cases h; exact .moves _ _ _ _ (.begins hcontrol) rfl hquiet
  · next degraded hcontrol => cases h; exact .moves _ _ _ _ (.scanned _ hcontrol) rfl hquiet
  · next name todo degraded hcontrol =>
    cases h
    exact .moves _ _ _ _ (.reads _ _ _ hcontrol) rfl hquiet
  · next name record todo degraded hcontrol =>
    simp only [] at h
    split at h
    · next hdegraded =>
      cases h
      have hstate : stateOf s.manager record ≠ some .REGISTERED := by
        intro heq
        simp [heq] at hdegraded
      exact .moves _ _ _ _ (.degraded _ _ _ _ hcontrol hstate) rfl hquiet
    · cases h
      exact .moves _ _ _ _ (.healthy _ _ _ _ hcontrol) rfl hquiet
  · next degraded hcontrol =>
    cases h
    by_cases hauto : s.watchdog.auto_restart
    · simp only [hauto, if_true]
      exact .moves _ _ _ _ (.reports _ hcontrol) rfl (by simp [Obs.quiet])
    · simp only [hauto]
      exact .moves _ _ _ _ (.observes _ hcontrol) rfl (by simp [Obs.quiet])
  · next hcontrol => cases h; exact .moves _ _ _ _ (.restarted hcontrol) rfl hquiet
  · next name todo hcontrol =>
    split at h
    · cases h; exact .moves _ _ _ _ (.tests _ _ hcontrol) rfl hquiet
    · cases h; exact .moves _ _ _ _ (.skips _ _ hcontrol) rfl hquiet
  · next name record todo hcontrol =>
    split at h
    · next hstate => cases h; exact .moves _ _ _ _ (.calls _ _ _ hcontrol hstate) rfl hquiet
    · cases h; exact .moves _ _ _ _ (.leaves _ _ _ hcontrol) rfl hquiet
  · next name todo hcontrol => cases h; exact .restarts _ _ _ hcontrol
  · next name n todo hcontrol =>
    split at h
    · next health hpc hhealth =>
      obtain ⟨c, hc, hreturned⟩ := Option.map_eq_some_iff.mp hpc
      cases h
      exact .moves _ _ _ _ (.returns _ _ _ c hcontrol hc (by rw [hreturned]; rfl))
        (Dict.keys_set_of_get _ hhealth _) (by simp [Obs.quiet])
    · next e health hpc hhealth =>
      obtain ⟨c, hc, hraised⟩ := Option.map_eq_some_iff.mp hpc
      cases h
      exact .moves _ _ _ _ (.returns _ _ _ c hcontrol hc (by rw [hraised]; rfl))
        (Dict.keys_set_of_get _ hhealth _) hquiet
    · cases h
  · next hcontrol =>
    cases h
    refine .moves _ _ _ _ (.checked hcontrol) rfl ?_
    split <;> simp [Obs.quiet]

theorem step_sound [Timer T] {s s' : State T} {l : Label T} {os : List Obs}
    (h : machine.step s l = some (s', os)) : Step s l os s' := by
  cases l with
  | manager l =>
    have h : manager_step s l = some (s', os) := h
    unfold manager_step at h
    split at h
    · cases h
    · next manager os' hs => cases h; exact .manager l manager os' (ServiceManager.step_sound hs)
  | deliver name =>
    simp only [machine] at h
    split at h
    · next hmem => cases h; exact .delivers name hmem
    · cases h
  | watchdog now => exact watchdog_step_sound h

/-! ### Known services -/

/-- The services that the thread is concerned with. -/
def Control.names : Control → List String
  | .scanning todo degraded => todo ++ degraded
  | .reading name _ todo degraded => name :: todo ++ degraded
  | .reporting degraded => degraded
  | .restarting todo => todo
  | .testing name _ todo => name :: todo
  | .calling name todo => name :: todo
  | .starting name _ todo => name :: todo
  | _ => []

/-- The services that the thread has heard of are registered, and its call is
    one of the service. -/
structure Known (s : State T) : Prop where
  manager : ServiceManager.WellFormed s.manager
  publishing : ∀ m c, s.manager.calls.get m = some c → c.pc = .register_publish →
    (s.manager.registry.get c.name).isSome
  events : ∀ name ∈ s.events, (s.manager.registry.get name).isSome
  health : ∀ name ∈ s.watchdog.health.keys, (s.manager.registry.get name).isSome
  control : ∀ name ∈ s.control.names, (s.manager.registry.get name).isSome
  call : ∀ name n todo, s.control = .starting name n todo →
    ∃ c, s.manager.calls.get n = some c ∧ c.name = name

theorem init_known (max_failures : Int) (auto_restart build_service : Bool)
    (integrity_check_interval : Nat) :
    Known (T := T) (init max_failures auto_restart build_service integrity_check_interval) := by
  refine ⟨ServiceManager.init_wellFormed, ?_, ?_, ?_, ?_, ?_⟩
  · intro m c hc
    cases hc
  · intro name hname
    cases hname
  · intro name hname
    cases hname
  · intro name hname
    cases hname
  · intro name n todo h
    cases h

/-- A registration is published by the call that made it. -/
theorem registrations_publishing {s s' : ServiceManager.State} {l : ServiceManager.Label}
    {os : List ServiceManager.Obs} (hs : ServiceManager.Step s l os s') {name : String}
    (hname : name ∈ registrations os) :
    ∃ m c, s.calls.get m = some c ∧ c.pc = .register_publish ∧ c.name = name := by
  cases hs with
  | goes n b c pc os hc hgo =>
    cases hgo with
    | registered h => exact ⟨n, c, hc, h, by simpa [registrations, eq_comm] using hname⟩
    | stop_published => simp [registrations] at hname
    | _ => cases hname
  | moves t _ _ w pc os hw hgo =>
    cases hgo with
    | announces => simp [registrations] at hname
    | leaves => simp [registrations] at hname
    | _ => cases hname
  | _ => cases hname

/-- The thread turns to services that it was concerned with, or has heard of. -/
theorem Moves.names {s : State T} {control : Control} (h : Moves s control) {name : String}
    (hname : name ∈ control.names) :
    name ∈ s.control.names ∨ name ∈ s.watchdog.health.keys := by
  cases h with
  | begins => exact Or.inr (by simpa [Control.names] using hname)
  | restarted => cases hname
  | observes => cases hname
  | checked => cases hname
  | scanned _ h => exact Or.inl (by simpa [h, Control.names] using hname)
  | reads _ _ _ h => exact Or.inl (by simpa [h, Control.names] using hname)
  | degraded _ _ _ _ h =>
    refine Or.inl ?_
    simp only [h, Control.names, List.mem_append, List.mem_cons] at hname ⊢
    tauto
  | healthy _ _ _ _ h =>
    refine Or.inl ?_
    simp only [h, Control.names, List.mem_append, List.mem_cons] at hname ⊢
    tauto
  | reports _ h => exact Or.inl (by simpa [h, Control.names] using hname)
  | tests _ _ h => exact Or.inl (by simpa [h, Control.names] using hname)
  | skips _ _ h => exact Or.inl (h ▸ List.mem_cons_of_mem _ hname)
  | calls _ _ _ h => exact Or.inl (by simpa [h, Control.names] using hname)
  | leaves _ _ _ h => exact Or.inl (h ▸ List.mem_cons_of_mem _ hname)
  | returns _ _ _ _ h => exact Or.inl (h ▸ List.mem_cons_of_mem _ hname)

theorem keys_on_service_registered (w : KernelWatchdog T) (name name' : String)
    (h : name' ∈ (w.on_service_registered name).health.keys) :
    name' ∈ w.health.keys ∨ name' = name := by
  unfold on_service_registered at h
  split at h
  · rw [Dict.keys_set] at h
    split at h
    · exact Or.inl h
    · simpa using h
  · exact Or.inl h

theorem lookup_created (s : ServiceManager.State) (name : String) (pc : Nat → ServiceManager.Pc) :
    ∃ c, (ServiceManager.lookup s name pc).calls.get s.calls.next = some c ∧ c.name = name := by
  unfold ServiceManager.lookup
  split
  · exact ⟨_, Objects.get_create_self .., rfl⟩
  · exact ⟨_, Objects.get_create_self .., rfl⟩

theorem lookup_step (s : ServiceManager.State) (name : String) :
    ServiceManager.Step s (.start name) [] (ServiceManager.lookup s name .start_check) :=
  ServiceManager.lookup_sound (.start_unknown name) (.start name)

/-- The rule for the steps of the manager. -/
theorem Known.manager_step {s : State T} (h : Known s) {l : ServiceManager.Label}
    {manager : ServiceManager.State} {os : List ServiceManager.Obs}
    (hs : ServiceManager.Step s.manager l os manager) {s' : State T}
    (hmanager : s'.manager = manager)
    (hevents : ∀ name ∈ s'.events, name ∈ s.events ∨ name ∈ registrations os)
    (hwatchdog : s'.watchdog = s.watchdog)
    (hcontrol : ∀ name ∈ s'.control.names, name ∈ s.control.names)
    (hcall : ∀ name n todo, s'.control = .starting name n todo →
      ∃ c, manager.calls.get n = some c ∧ c.name = name) : Known s' := by
  subst hmanager
  refine ⟨ServiceManager.step_wellFormed hs h.manager, ?_, ?_, ?_, ?_, hcall⟩
  · intro m c hc hpc
    rcases ServiceManager.step_registering hs hc hpc with hc | hregistered
    · exact ServiceManager.step_registered hs (h.publishing m c hc hpc)
    · exact hregistered
  · intro name hname
    rcases hevents name hname with hname | hname
    · exact ServiceManager.step_registered hs (h.events name hname)
    · obtain ⟨m, c, hc, hpc, rfl⟩ := registrations_publishing hs hname
      exact ServiceManager.step_registered hs (h.publishing m c hc hpc)
  · intro name hname
    exact ServiceManager.step_registered hs (h.health name (hwatchdog ▸ hname))
  · intro name hname
    exact ServiceManager.step_registered hs (h.control name (hcontrol name hname))

theorem step_known {s s' : State T} {l : Label T} {os : List Obs} (hs : Step s l os s')
    (h : Known s) : Known s' := by
  cases hs with
  | manager l manager os hs =>
    refine h.manager_step hs rfl ?_ rfl (fun name hname => hname) ?_
    · -- the events are those before, and those that the step publishes
      intro name hname
      exact List.mem_append.mp hname
    · intro name n todo hcontrol
      obtain ⟨c, hc, hname⟩ := h.call name n todo hcontrol
      obtain ⟨c', hc', hname', -⟩ := ServiceManager.step_call hs hc
      exact ⟨c', hc', hname'.trans hname⟩
  | delivers name hmem =>
    refine ⟨h.manager, h.publishing, ?_, ?_, h.control, h.call⟩
    · intro name' hname'
      exact h.events name' (List.mem_of_mem_erase hname')
    · intro name' hname'
      rcases keys_on_service_registered _ _ _ hname' with hold | rfl
      · exact h.health name' hold
      · exact h.events name' hmem
  | moves now control watchdog os hmoves hkeys =>
    refine ⟨h.manager, h.publishing, h.events, ?_, ?_, ?_⟩
    · intro name hname
      exact h.health name (hkeys ▸ hname)
    · intro name hname
      exact (hmoves.names hname).elim (h.control name) (h.health name)
    · -- no move leads into a call
      intro name n todo hcontrol
      have hcontrol : control = .starting name n todo := hcontrol
      rw [hcontrol] at hmoves
      cases hmoves
  | restarts now name todo hcontrol =>
    refine h.manager_step (lookup_step s.manager name) rfl (fun _ => Or.inl) rfl ?_ ?_
    · intro name' hname'
      rw [hcontrol]
      exact hname'
    · intro name' n todo' heq
      cases heq
      exact lookup_created s.manager name .start_check

theorem run_known [Timer T] {max_failures : Int} {auto_restart build_service : Bool}
    {integrity_check_interval : Nat} {ls : List (Label T)} {s : State T} {tr : List Obs}
    (hrun : machine.run
      (init max_failures auto_restart build_service integrity_check_interval) ls =
        some (s, tr)) : Known s :=
  machine.run_invariant (init_known _ _ _ _) (fun _ _ _ _ h hs => step_known (step_sound hs) h)
    hrun

/-! ### The call of the watchdog -/

/-- The service and the record of the call of the watchdog, until the call has
    written `STARTING` or has found that it cannot start the service. -/
def pending (s : State T) : Option (String × Nat) :=
  match s.control with
  | .starting name n _ => ((s.manager.calls.get n).bind (·.pc.checking)).map fun r => (name, r)
  | _ => none

/-- The thread does not move while its call is pending. -/
theorem Moves.not_pending {s : State T} {control : Control} (h : Moves s control) :
    pending s = none := by
  have hother : (∀ name n todo, s.control ≠ .starting name n todo) → pending s = none := by
    intro hne
    unfold pending
    split
    · next name n todo hcontrol => exact absurd hcontrol (hne name n todo)
    · rfl
  cases h with
  | returns name n todo c hcontrol hc hpc => simp [pending, hcontrol, hc, hpc]
  | begins hcontrol => exact hother (by simp [hcontrol])
  | scanned _ hcontrol => exact hother (by simp [hcontrol])
  | reads _ _ _ hcontrol => exact hother (by simp [hcontrol])
  | degraded _ _ _ _ hcontrol => exact hother (by simp [hcontrol])
  | healthy _ _ _ _ hcontrol => exact hother (by simp [hcontrol])
  | reports _ hcontrol => exact hother (by simp [hcontrol])
  | observes _ hcontrol => exact hother (by simp [hcontrol])
  | restarted hcontrol => exact hother (by simp [hcontrol])
  | tests _ _ hcontrol => exact hother (by simp [hcontrol])
  | skips _ _ hcontrol => exact hother (by simp [hcontrol])
  | calls _ _ _ hcontrol => exact hother (by simp [hcontrol])
  | leaves _ _ _ hcontrol => exact hother (by simp [hcontrol])
  | checked hcontrol => exact hother (by simp [hcontrol])

/-- A step of the manager leaves the pending call on its record. -/
theorem pending_step {s s' : State T} {name : String} {r : Nat}
    (hpending : pending s' = some (name, r)) (h : Known s) {l : ServiceManager.Label}
    {manager : ServiceManager.State} {os : List ServiceManager.Obs}
    (hs : ServiceManager.Step s.manager l os manager) (hmanager : s'.manager = manager)
    (hcontrol : s'.control = s.control) : pending s = some (name, r) := by
  subst hmanager
  unfold pending at hpending ⊢
  rw [hcontrol] at hpending
  cases hc : s.control with
  | starting name' n todo =>
    obtain ⟨c, hget, -⟩ := h.call name' n todo hc
    obtain ⟨c', hget', -⟩ := ServiceManager.step_call hs hget
    have hchecked := ServiceManager.step_checked hs hget hget'
    simp only [hc, hget, hget', Option.bind_some, Option.map_eq_some_iff] at hpending ⊢
    obtain ⟨q, hq, heq⟩ := hpending
    exact ⟨q, hchecked.same q hq, heq⟩
  | _ => simp [hc] at hpending

/-- When the call is not pending any more, the record cannot be started. -/
theorem pending_settled {s s' : State T} {name : String} {r : Nat}
    (hpending : pending s = some (name, r)) (h : Known s) {l : ServiceManager.Label}
    {manager : ServiceManager.State} {os : List ServiceManager.Obs}
    (hs : ServiceManager.Step s.manager l os manager) (hmanager : s'.manager = manager)
    (hcontrol : s'.control = s.control) (hsettled : pending s' = none) :
    ∃ record, manager.records.get r = some record ∧ record.state ≠ .REGISTERED ∧
      record.state ≠ .STOPPED := by
  subst hmanager
  unfold pending at hpending hsettled
  rw [hcontrol] at hsettled
  cases hc : s.control with
  | starting name' n todo =>
    obtain ⟨c, hget, -⟩ := h.call name' n todo hc
    obtain ⟨c', hget', -⟩ := ServiceManager.step_call hs hget
    have hchecked := ServiceManager.step_checked hs hget hget'
    simp only [hc, hget, hget', Option.bind_some, Option.map_eq_some_iff, Prod.mk.injEq,
      Option.map_eq_none_iff] at hpending hsettled
    obtain ⟨q, hq, rfl, rfl⟩ := hpending
    exact hchecked.settled q hq hsettled
  | _ => simp [hc] at hpending

end KernelWatchdog
