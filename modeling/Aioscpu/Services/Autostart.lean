import Aioscpu.Services.LoadOrder

/-! # Autostart

  `start_all_autostart` attempts the services with `auto_start` in load order,
  each once. A service is attempted after the services that it depends on and
  that have `auto_start`; whether these have come up is not looked at, and
  dependencies without `auto_start` stay as they are.
-/

namespace ServiceRegistry

/-! ### The loop -/

theorem start_all_append (attempts : String → Attempt) (order order' : List String)
    (self : ServiceRegistry) :
    start_all attempts (order ++ order') self =
      ((start_all attempts order self).1 ++
          (start_all attempts order' (start_all attempts order self).2.1).1,
        (start_all attempts order' (start_all attempts order self).2.1).2.1,
        (start_all attempts order self).2.2 ++
          (start_all attempts order' (start_all attempts order self).2.1).2.2) := by
  induction order generalizing self with
  | nil => rfl
  | cons name order ih =>
    simp only [List.cons_append, start_all]
    split
    · exact ih self
    · split
      -- the service is attempted, and the rest starts from what that leaves
      · simp only [ih]
        split <;> simp [List.append_assoc]
      · exact ih self

/-- A service that is not attempted stays as it is. -/
theorem start_all_unchanged (attempts : String → Attempt) (order : List String)
    (self : ServiceRegistry) (k : String)
    (h : k ∈ order → ∀ desc, self.registry.get k = some desc → desc.auto_start = false) :
    (start_all attempts order self).2.1.registry.get k = self.registry.get k := by
  induction order generalizing self with
  | nil => rfl
  | cons name order ih =>
    have hrest : k ∈ order → ∀ desc, self.registry.get k = some desc → desc.auto_start = false :=
      fun hmem => h (List.mem_cons_of_mem name hmem)
    simp only [start_all]
    split
    · exact ih self hrest
    · next desc hget =>
      split
      · next hauto =>
        obtain ⟨ok, self', os, desc', heq, -, -, hother⟩ :=
          self.start_service_spec desc (attempts name)
        have hname := self.named name desc hget
        -- the attempt is one of another service
        have hne : k ≠ desc.name := by
          intro heq
          rw [hname] at heq
          subst heq
          rw [h List.mem_cons_self desc hget] at hauto
          cases hauto
        have hsame : self'.registry.get k = self.registry.get k := by rw [hother, if_neg hne]
        simp only [heq]
        rw [ih self' (by rw [hsame]; exact hrest), hsame]
      · exact ih self hrest

/-- A service with `auto_start` is attempted in its turn, with the registry as
    the services before it have left it. -/
theorem start_all_attempted (attempts : String → Attempt) (order order' : List String)
    (self : ServiceRegistry) {name : String} {desc : ServiceDescriptor}
    (hnodup : (order ++ name :: order').Nodup) (hget : self.registry.get name = some desc)
    (hauto : desc.auto_start = true) :
    ∃ ok os desc', (start_all attempts (order ++ name :: order') self).2.2 =
        (start_all attempts order self).2.2 ++
          .attempted name (start_all attempts order self).2.1.registry ok :: os ∧
      (start_all attempts (order ++ name :: order') self).2.1.registry.get name = some desc' ∧
      desc'.toServiceFile = desc.toServiceFile ∧
      desc'.state = if ok then .RUNNING else .FAILED := by
  obtain ⟨-, htail, hdisj⟩ := List.nodup_append'.mp hnodup
  have hbefore : name ∉ order := fun hmem => hdisj hmem List.mem_cons_self
  have hafter : name ∉ order' := (List.nodup_cons.mp htail).1
  have hget' : (start_all attempts order self).2.1.registry.get name = some desc := by
    rw [start_all_unchanged attempts order self name (fun hmem => absurd hmem hbefore), hget]
  -- what comes before and after leaves the descriptor alone
  rw [start_all_append]
  generalize (start_all attempts order self).2.1 = self₁ at hget'
  obtain ⟨ok, self', os, desc', heq, hfile, hstate, hother⟩ :=
    self₁.start_service_spec desc (attempts name)
  have hname := self₁.named name desc hget'
  have hdesc' : self'.registry.get name = some desc' := by rw [hother, if_pos hname.symm]
  have hlast := start_all_unchanged attempts order' self' name fun hmem => absurd hmem hafter
  simp only [start_all, hget', hauto, if_true, heq, hname, List.cons_append]
  exact ⟨ok, _, desc', rfl, by rw [hlast, hdesc'], hfile, hstate⟩

/-! ### The load order of a run -/

/-- The load order is that of the registered services. -/
def Synced (self : ServiceRegistry) : Prop := self.load_order = load_order_of self.registry

/-- The load order depends on the names and their dependencies only. -/
theorem load_order_congr {registry registry' : Registry} (hkeys : registry'.keys = registry.keys)
    (hdeps : dependencies registry' = dependencies registry) :
    load_order_of registry' = load_order_of registry := by
  unfold load_order_of compute_load_order names
  rw [hkeys, hdeps]

/-- A descriptor that changes in place keeps the load order. -/
theorem Synced.put {self : ServiceRegistry} (h : Synced self) {desc desc' : ServiceDescriptor}
    (hget : self.registry.get desc'.name = some desc)
    (hfile : desc'.toServiceFile = desc.toServiceFile) : Synced (self.put desc') := by
  have hdeps : dependencies (self.put desc').registry = dependencies self.registry := by
    funext name
    unfold dependencies
    rw [put_get]
    by_cases heq : name = desc'.name
    · rw [if_pos heq, heq, hget]
      exact congrArg ServiceFile.depends_on hfile
    · rw [if_neg heq]
  have hkeys : (self.put desc').registry.keys = self.registry.keys :=
    self.registry.keys_set_of_get hget desc'
  unfold Synced
  rw [load_order_congr hkeys hdeps]
  exact h

theorem Synced.instantiate {self : ServiceRegistry} (h : Synced self) :
    Synced self.instantiate := h

theorem Synced.start_service {self : ServiceRegistry} (h : Synced self)
    {desc : ServiceDescriptor} (hget : self.registry.get desc.name = some desc)
    (attempt : Attempt) : Synced (self.start_service desc attempt).2.1 := by
  unfold ServiceRegistry.start_service start_failed
  split
  · exact h.put hget rfl
  · split
    · exact h.put hget rfl
    · cases attempt with
      | import_raises => exact h.put hget rfl
      | getattr_raises => exact h.put hget rfl
      | constructor_raises => exact h.put hget rfl
      | start_raises => exact Synced.put h.instantiate hget rfl
      | succeeds => exact Synced.put h.instantiate hget rfl

theorem Synced.start {self : ServiceRegistry} (h : Synced self) (name : String)
    (attempt : Attempt) : Synced (self.start name attempt).2.1 := by
  unfold ServiceRegistry.start
  split
  · exact h
  · next desc hget => exact h.start_service (self.named name desc hget ▸ hget) attempt

theorem Synced.stop {self : ServiceRegistry} (h : Synced self) (name : String)
    (raises : Bool) : Synced (self.stop name raises).2.1 := by
  unfold ServiceRegistry.stop
  split
  · exact h
  · next desc hget =>
    split
    · exact h
    · split
      · exact h
      · have hget' : self.registry.get desc.name = some desc :=
          self.named name desc hget ▸ hget
        exact h.put hget' rfl

theorem Synced.start_all {self : ServiceRegistry} (h : Synced self)
    (attempts : String → Attempt) (order : List String) :
    Synced (ServiceRegistry.start_all attempts order self).2.1 := by
  induction order generalizing self with
  | nil => exact h
  | cons name order ih =>
    simp only [ServiceRegistry.start_all]
    split
    · exact ih h
    · next desc hget =>
      split
      · exact ih (h.start_service (self.named name desc hget ▸ hget) (attempts name))
      · exact ih h

/-- The load order of a reachable registry is that of its services. -/
theorem run_synced {event_bus : Bool} {ls : List Label} {self : ServiceRegistry}
    {tr : List Obs} (hrun : machine.run (init event_bus) ls = some (self, tr)) :
    Synced self := by
  refine machine.run_invariant (I := Synced) ?_ ?_ hrun
  · rfl
  · intro self l self' os h hs
    cases l with
    | discover dir =>
      cases hs
      cases dir with
      | none => exact h
      | some results => rfl
    | start name attempt => cases hs; exact h.start name attempt
    | stop name raises => cases hs; exact h.stop name raises
    | restart name raises attempt => cases hs; exact (h.stop name raises).start name attempt
    | start_all_autostart attempts => cases hs; exact h.start_all attempts _

/-! ### Dependencies at the moment of a start -/

/-- A service that has `auto_start` after the loop had it before. -/
theorem start_all_autostarted {attempts : String → Attempt} {order : List String}
    {self : ServiceRegistry} {name : String} {desc : ServiceDescriptor}
    (hget : (start_all attempts order self).2.1.registry.get name = some desc)
    (hauto : desc.auto_start = true) :
    ∃ desc₀, self.registry.get name = some desc₀ ∧ desc₀.auto_start = true := by
  have hunchanged := start_all_unchanged attempts order self name
  cases hget₀ : self.registry.get name with
  | none =>
    have hsame := hunchanged (by simp [hget₀])
    rw [hget, hget₀] at hsame
    cases hsame
  | some desc₀ =>
    refine ⟨desc₀, rfl, ?_⟩
    by_contra hnot
    have hsame := hunchanged (by simp [hget₀, hnot])
    rw [hget, hget₀] at hsame
    exact hnot (Option.some.inj hsame ▸ hauto)

/-- The dependencies of a service precede it in the load order. -/
theorem load_order_precedes_depends {registry : Registry} (hacyclic : Acyclic registry)
    {name : String} {desc : ServiceDescriptor} (hget : registry.get name = some desc) {d : String}
    (hd : d ∈ desc.depends_on) : Precedes (load_order_of registry) d name := by
  have hedge : DependsOn registry name d := by
    unfold DependsOn DepthFirst.Edge dependencies
    rw [hget]
    exact hd
  exact load_order_precedes_trans hacyclic (.single hedge)

/-- At the moment of the attempt that `before` and `os` describe, the service
    `d`, if it has `auto_start`, had been attempted, and was running unless that
    had failed. -/
def Attempted (before : Registry) (os : List Obs) (d : String) : Prop :=
  ∀ dep, before.get d = some dep → dep.auto_start = true →
    ∃ before' ok, .attempted d before' ok ∈ os ∧ dep.state = if ok then .RUNNING else .FAILED

/-- The services before one in the load order have been attempted in its turn. -/
theorem attempted_of_mem (attempts : String → Attempt) {order : List String}
    {self : ServiceRegistry} (hnodup : order.Nodup) {d : String} (hd : d ∈ order) :
    Attempted (start_all attempts order self).2.1.registry (start_all attempts order self).2.2
      d := by
  intro dep hdep hauto
  obtain ⟨pre, post, rfl⟩ := List.append_of_mem hd
  obtain ⟨desc, hget, hdesc⟩ := start_all_autostarted hdep hauto
  obtain ⟨ok, os, desc', htr, hget', -, hstate⟩ :=
    start_all_attempted attempts pre post self hnodup hget hdesc
  obtain rfl := Option.some.inj (hdep.symm.trans hget')
  refine ⟨(start_all attempts pre self).2.1.registry, ok, ?_, hstate⟩
  rw [htr]
  simp

/-- **Autostart**: a service with `auto_start` that is running after
    `start_all_autostart` on an acyclic registry was started at a moment when
    each registered service it depends on that has `auto_start` had been
    attempted, and was running unless its own attempt had failed. -/
theorem autostart_after_attempts {event_bus : Bool} {ls : List Label} {self : ServiceRegistry}
    {tr : List Obs} (hrun : machine.run (init event_bus) ls = some (self, tr))
    (hacyclic : Acyclic self.registry) (attempts : String → Attempt) {name : String}
    {desc : ServiceDescriptor}
    (hget : (self.start_all_autostart attempts).2.1.registry.get name = some desc)
    (hauto : desc.auto_start = true) (hrunning : desc.state = .RUNNING) :
    ∃ before os os', (self.start_all_autostart attempts).2.2 =
        os ++ .attempted name before true :: os' ∧
      ∀ d ∈ desc.depends_on, Attempted before os d := by
  have hsync := run_synced hrun
  have hnodup := load_order_nodup self.registry
  unfold start_all_autostart at hget ⊢
  unfold Synced at hsync
  rw [hsync] at hget ⊢
  -- the descriptor before the call, and its place in the load order
  obtain ⟨desc₀, hget₀, hauto₀⟩ := start_all_autostarted hget hauto
  have hmem : name ∈ load_order_of self.registry :=
    (load_order_mem_iff _ name).mpr
      ⟨name, (self.registry.mem_keys_iff name).mpr ⟨desc₀, hget₀⟩, .refl⟩
  have hprecedes : ∀ d ∈ desc₀.depends_on, Precedes (load_order_of self.registry) d name :=
    fun _ hd => load_order_precedes_depends hacyclic hget₀ hd
  -- the list splits at the service, whose dependencies are in the first part
  obtain ⟨pre, post, hsplit⟩ := List.append_of_mem hmem
  rw [hsplit] at hnodup hget hprecedes ⊢
  obtain ⟨ok, os, desc', htr, hget', hfile, hstate⟩ :=
    start_all_attempted attempts pre post self hnodup hget₀ hauto₀
  obtain rfl := Option.some.inj (hget.symm.trans hget')
  -- a service whose attempt fails is not running
  have hok : ok = true := by
    cases ok with
    | true => rfl
    | false => rw [hrunning] at hstate; cases hstate
  subst hok
  refine ⟨_, _, os, htr, ?_⟩
  intro d hd
  rw [congrArg ServiceFile.depends_on hfile] at hd
  exact attempted_of_mem attempts hnodup.of_append_left
    (Precedes.mem_of_split hnodup (hprecedes d hd))

def storageFile : ServiceFile :=
  ⟨"storage", "services.storage_service:StorageService", true, []⟩

/-- Logging depends on storage. -/
def loggingFile : ServiceFile :=
  ⟨"logging", "services.logging_service:LoggingService", true, ["storage"]⟩

/-- The registry that has found them. -/
def loggingRegistry : ServiceRegistry :=
  ((init true).discover (some [some loggingFile, some storageFile])).2

/-- Storage cannot be constructed, logging starts. -/
def storageFails (name : String) : Attempt :=
  if name = "storage" then .constructor_raises else .succeeds

def loggingRunning : ServiceDescriptor :=
  { loggingFile with state := .RUNNING, failure_count := 0, inst := some 0 }

theorem loggingRegistry_run :
    machine.run (init true) [.discover (some [some loggingFile, some storageFile])] =
      some (loggingRegistry, [.returned (.count 2)]) := rfl

theorem loggingRegistry_acyclic : Acyclic loggingRegistry.registry :=
  acyclic_of_rank (fun name => if name = "logging" then 1 else 0) (by decide +kernel)

theorem loggingRegistry_get :
    (loggingRegistry.start_all_autostart storageFails).2.1.registry.get "logging" =
      some loggingRunning := by decide +kernel

theorem autostart_after_attempts_logging :
    ∃ before os os', (loggingRegistry.start_all_autostart storageFails).2.2 =
        os ++ .attempted "logging" before true :: os' ∧
      ∀ d ∈ loggingRunning.depends_on, Attempted before os d :=
  autostart_after_attempts loggingRegistry_run loggingRegistry_acyclic storageFails
    loggingRegistry_get rfl rfl

/-- Logging is running, and was started when storage had failed. -/
theorem dependent_started_after_failure :
    ∃ (ls : List Label) (self : ServiceRegistry) (tr : List Obs),
      machine.run (init true) ls = some (self, tr) ∧ Acyclic self.registry ∧
      ∃ (attempts : String → Attempt) (desc dep : ServiceDescriptor) (before : Registry)
        (os os' : List Obs),
        (self.start_all_autostart attempts).2.1.registry.get "logging" = some desc ∧
        desc.state = .RUNNING ∧
        (self.start_all_autostart attempts).2.2 = os ++ .attempted "logging" before true :: os' ∧
        "storage" ∈ desc.depends_on ∧ before.get "storage" = some dep ∧ dep.state ≠ .RUNNING := by
  have horder : loggingRegistry.load_order = ["storage"] ++ "logging" :: [] := by
    decide +kernel
  obtain ⟨ok, os, desc', htr, hget', -, hstate⟩ :=
    start_all_attempted storageFails ["storage"] [] loggingRegistry (by decide)
      (by decide +kernel : loggingRegistry.registry.get "logging" = some loggingFile.parsed) rfl
  have hget := loggingRegistry_get
  rw [start_all_autostart, horder] at hget
  obtain rfl := Option.some.inj (hget.symm.trans hget')
  have hok : ok = true := by
    cases ok with
    | true => rfl
    | false => cases hstate
  subst hok
  -- the attempt of storage is the first, and fails
  have hstorage : (start_all storageFails ["storage"] loggingRegistry).2.1.registry.get
      "storage" = some { storageFile with state := .FAILED, failure_count := 1, inst := none } := by
    decide +kernel
  refine ⟨_, loggingRegistry, _, loggingRegistry_run, loggingRegistry_acyclic, storageFails,
    loggingRunning, _, (start_all storageFails ["storage"] loggingRegistry).2.1.registry,
    (start_all storageFails ["storage"] loggingRegistry).2.2, os, loggingRegistry_get, rfl, ?_,
    by decide, hstorage, by decide⟩
  rw [start_all_autostart, horder]
  exact htr

end ServiceRegistry
