import Aioscpu.Services.Autostart

/-! # Instance Ownership

  An instance is live from its start until it is stopped without an exception.
  The registry can stop the instance that a descriptor holds, and no other.

  - A start of a service whose descriptor holds an instance either replaces it
    or, when it fails, declares a service failed whose instance is live.
  - A discovery that reads the file of such a service again replaces the
    descriptor and loses the instance.

  These are the only ways in which the registry and the live instances come
  apart.
-/

namespace ServiceRegistry

/-! ### Live instances -/

/-- The live instances of the service after an observation. -/
def liveAfter (name : String) (ids : List Nat) : Obs → List Nat
  | .started n id => if n = name then ids ++ [id] else ids
  | .stopped n id => if n = name then ids.filter (· ≠ id) else ids
  | _ => ids

/-- The instances of the service that were started and not stopped. -/
def live (name : String) (tr : List Obs) : List Nat := tr.foldl (liveAfter name) []

theorem live_append (name : String) (tr os : List Obs) :
    live name (tr ++ os) = os.foldl (liveAfter name) (live name tr) := List.foldl_append

@[simp] theorem liveAfter_publish (name : String) (ids : List Nat) (self : ServiceRegistry)
    (event_type service_name : String) :
    (self.publish event_type service_name).foldl (liveAfter name) ids = ids := by
  unfold publish
  split <;> rfl

/-- The descriptor of the service, if there is one, holds the live instances,
    and says that the service is running if and only if it holds one. -/
def OwnedAt (name : String) (self : ServiceRegistry) (ids : List Nat) : Prop :=
  match self.registry.get name with
  | none => ids = []
  | some desc => ids = desc.inst.toList ∧ (desc.state = .RUNNING ↔ desc.inst.isSome = true)

/-- Each service has at most one live instance, which its descriptor holds,
    and it is running if and only if it has one. -/
def Owned (self : ServiceRegistry) (tr : List Obs) : Prop :=
  ∀ name, OwnedAt name self (live name tr)

theorem ownedAt_some {name : String} {self : ServiceRegistry} {ids : List Nat}
    {desc : ServiceDescriptor} (hget : self.registry.get name = some desc) :
    OwnedAt name self ids ↔
      ids = desc.inst.toList ∧ (desc.state = .RUNNING ↔ desc.inst.isSome = true) := by
  unfold OwnedAt
  rw [hget]

/-- A change of another service does not matter. -/
theorem ownedAt_put_of_ne {name : String} {self : ServiceRegistry} {ids : List Nat}
    {desc : ServiceDescriptor} (h : name ≠ desc.name) :
    OwnedAt name (self.put desc) ids ↔ OwnedAt name self ids := by
  unfold OwnedAt
  rw [put_get, if_neg h]

theorem ownedAt_put {self : ServiceRegistry} {ids : List Nat} {desc : ServiceDescriptor} :
    OwnedAt desc.name (self.put desc) ids ↔
      ids = desc.inst.toList ∧ (desc.state = .RUNNING ↔ desc.inst.isSome = true) :=
  ownedAt_some (by rw [put_get, if_pos rfl])

/-! ### The condition -/

/-- The service is not registered, or its descriptor holds no instance. -/
def Unowned (self : ServiceRegistry) (name : String) : Prop :=
  ∀ desc, self.registry.get name = some desc → desc.inst = none

/-- No service is started or read again whose descriptor holds an instance. -/
def Careful (self : ServiceRegistry) : Label → Prop
  | .discover dir => ∀ results ∈ dir, ∀ file ∈ results.reduceOption, Unowned self file.name
  | .start name _ => Unowned self name
  | .stop _ _ => True
  -- the instance of a service that is restarted has to stop first
  | .restart name raises _ => Unowned self name ∨ raises = false
  | .start_all_autostart _ => ∀ name ∈ self.load_order, ∀ desc,
      self.registry.get name = some desc → desc.auto_start = true → desc.inst = none

instance (self : ServiceRegistry) (name : String) : Decidable (Unowned self name) :=
  inferInstanceAs (Decidable (∀ desc ∈ self.registry.get name, desc.inst = none))

instance (self : ServiceRegistry) : (l : Label) → Decidable (Careful self l)
  | .discover dir =>
    inferInstanceAs (Decidable (∀ results ∈ dir, ∀ file ∈ results.reduceOption, _))
  | .start name _ => inferInstanceAs (Decidable (Unowned self name))
  | .stop _ _ => isTrue trivial
  | .restart name raises _ => inferInstanceAs (Decidable (Unowned self name ∨ raises = false))
  | .start_all_autostart _ =>
    inferInstanceAs (Decidable (∀ name ∈ self.load_order, ∀ desc ∈ self.registry.get name,
      desc.auto_start = true → desc.inst = none))

/-- All registered services have a module. -/
def Modular (self : ServiceRegistry) : Prop :=
  ∀ name desc, self.registry.get name = some desc → desc.module ≠ ""

/-- All files that are found in the run name a module. -/
def ModuleServices (ls : List Label) : Prop :=
  ∀ results, .discover (some results) ∈ ls → ∀ file ∈ results.reduceOption, file.module ≠ ""

/-! ### Services with modules -/

theorem Modular.put {self : ServiceRegistry} (h : Modular self) {desc : ServiceDescriptor}
    (hdesc : desc.module ≠ "") : Modular (self.put desc) := by
  intro name desc' hget
  rw [put_get] at hget
  split at hget
  · exact Option.some.inj hget ▸ hdesc
  · exact h name desc' hget

/-- A start leaves the files of the services alone. -/
theorem Modular.start_service {self : ServiceRegistry} (h : Modular self)
    {desc : ServiceDescriptor} (hmodule : desc.module ≠ "") (attempt : Attempt) :
    Modular (self.start_service desc attempt).2.1 := by
  obtain ⟨ok, self', os, desc', heq, hfile, -, hother⟩ := self.start_service_spec desc attempt
  rw [heq]
  intro name desc'' hget
  rw [hother] at hget
  split at hget
  · rw [← Option.some.inj hget, congrArg ServiceFile.module hfile]
    exact hmodule
  · exact h name desc'' hget

theorem Modular.start {self : ServiceRegistry} (h : Modular self) (name : String)
    (attempt : Attempt) : Modular (self.start name attempt).2.1 := by
  unfold ServiceRegistry.start
  split
  · exact h
  · next desc hget => exact h.start_service (h name desc hget) attempt

theorem Modular.stop {self : ServiceRegistry} (h : Modular self) (name : String)
    (raises : Bool) : Modular (self.stop name raises).2.1 := by
  unfold ServiceRegistry.stop
  split
  · exact h
  · next desc hget =>
    split
    · exact h
    · split
      · exact h
      · exact h.put (h name desc hget)

theorem Modular.start_all {self : ServiceRegistry} (h : Modular self)
    (attempts : String → Attempt) (order : List String) :
    Modular (ServiceRegistry.start_all attempts order self).2.1 := by
  induction order generalizing self with
  | nil => exact h
  | cons name order ih =>
    simp only [ServiceRegistry.start_all]
    split
    · exact ih h
    · next desc hget =>
      split
      · exact ih (h.start_service (h name desc hget) (attempts name))
      · exact ih h

theorem Modular.register_all {self : ServiceRegistry} (h : Modular self)
    {files : List ServiceFile} (hfiles : ∀ file ∈ files, file.module ≠ "") :
    Modular (ServiceRegistry.register_all files self) := by
  unfold ServiceRegistry.register_all
  induction files generalizing self with
  | nil => exact h
  | cons file files ih =>
    refine ih ?_ fun f hf => hfiles f (List.mem_cons_of_mem file hf)
    exact h.put (hfiles file List.mem_cons_self)

theorem run_modular {event_bus : Bool} {ls : List Label} (hmodules : ModuleServices ls)
    {self : ServiceRegistry} {tr : List Obs}
    (hrun : machine.run (init event_bus) ls = some (self, tr)) : Modular self := by
  -- the condition on the labels, as one on the steps
  have halong : machine.Along (fun _ l => ∀ results, l = .discover (some results) →
      ∀ file ∈ results.reduceOption, file.module ≠ "") (init event_bus) ls := by
    apply machine.along_of_mem
    rintro l hl _ results rfl
    exact hmodules results hl
  refine machine.run_induction_along (P := fun _ self _ => Modular self) ?_ ?_ halong hrun
  · intro name desc hget
    simp [init] at hget
  · intro _ self _ l self' os _ h hl hs
    cases l with
    | discover dir =>
      cases hs
      cases dir with
      | none => exact h
      | some results => exact h.register_all (hl results rfl)
    | start name attempt => cases hs; exact h.start name attempt
    | stop name raises => cases hs; exact h.stop name raises
    | restart name raises attempt => cases hs; exact (h.stop name raises).start name attempt
    | start_all_autostart attempts => cases hs; exact h.start_all attempts _

/-! ### Steps -/

/-- A start of another service does not matter. -/
theorem start_service_other (self : ServiceRegistry) {desc : ServiceDescriptor}
    (attempt : Attempt) {k : String} (hk : k ≠ desc.name) (ids : List Nat) :
    OwnedAt k (self.start_service desc attempt).2.1
        ((self.start_service desc attempt).2.2.foldl (liveAfter k) ids) ↔
      OwnedAt k self ids := by
  -- what is observed is about the service that is started
  have hlive : (self.start_service desc attempt).2.2.foldl (liveAfter k) ids = ids := by
    unfold start_service start_failed
    split
    · rfl
    · split
      · simp [liveAfter]
      · cases attempt <;> simp [liveAfter, Ne.symm hk]
  obtain ⟨ok, self', os, desc', heq, -, -, hother⟩ := self.start_service_spec desc attempt
  rw [hlive, heq]
  unfold OwnedAt
  rw [hother, if_neg hk]

/-- A failing start keeps the ownership if there is no instance. -/
theorem start_failed_owned {self : ServiceRegistry} {desc : ServiceDescriptor} {ids : List Nat}
    (hget : self.registry.get desc.name = some desc) (h : OwnedAt desc.name self ids) :
    OwnedAt desc.name (self.start_failed desc).2.1
        ((self.start_failed desc).2.2.foldl (liveAfter desc.name) ids) ↔ desc.inst = none := by
  simp only [start_failed, List.foldl_cons, liveAfter, liveAfter_publish]
  rw [ownedAt_some hget] at h
  -- the descriptor says failed, and keeps the instance that it held
  refine ownedAt_put.trans ?_
  cases hinst : desc.inst with
  | none => simp [h.1, hinst]
  | some id => simp

/-- A start keeps the ownership if and only if there is no instance before. -/
theorem start_service_owned {self : ServiceRegistry} {desc : ServiceDescriptor} {ids : List Nat}
    (hget : self.registry.get desc.name = some desc) (hmodule : desc.module ≠ "")
    (attempt : Attempt) (h : OwnedAt desc.name self ids) :
    OwnedAt desc.name (self.start_service desc attempt).2.1
        ((self.start_service desc attempt).2.2.foldl (liveAfter desc.name) ids) ↔
      desc.inst = none := by
  unfold start_service
  rw [if_neg hmodule]
  split
  · exact start_failed_owned hget h
  · cases attempt with
    | import_raises => exact start_failed_owned hget h
    | getattr_raises => exact start_failed_owned hget h
    | constructor_raises => exact start_failed_owned hget h
    | start_raises =>
      have hinst : OwnedAt desc.name self.instantiate ids := h
      exact start_failed_owned hget hinst
    | succeeds =>
      simp only [List.cons_append, List.nil_append, List.foldl_cons, liveAfter,
        liveAfter_publish, if_true]
      rw [ownedAt_some hget] at h
      rw [h.1]
      -- the new instance comes after the one that the descriptor held
      refine ownedAt_put.trans ?_
      cases hinst : desc.inst with
      | none => simp
      | some id => simp

theorem start_owned {self : ServiceRegistry} (hmodular : Modular self) (name : String)
    (attempt : Attempt) {k : String} {ids : List Nat} (h : OwnedAt k self ids) :
    OwnedAt k (self.start name attempt).2.1
        ((self.start name attempt).2.2.foldl (liveAfter k) ids) ↔
      (k = name → Unowned self name) := by
  unfold start Unowned
  cases hget : self.registry.get name with
  | none => exact iff_of_true h fun _ _ hdesc => by cases hdesc
  | some desc =>
    obtain rfl := self.named name desc hget
    by_cases hk : k = desc.name
    · subst hk
      rw [start_service_owned hget (hmodular desc.name desc hget) attempt h]
      simp
    · rw [start_service_other self attempt hk]
      exact iff_of_true h fun heq => absurd heq hk

/-- What a stop does: nothing if there is no instance or the instance does not
    stop, and else it takes the instance out of the descriptor. -/
theorem stop_cases (self : ServiceRegistry) (name : String) (raises : Bool) :
    ((self.stop name raises).2.1 = self ∧ (self.stop name raises).2.2 = [] ∧
      (Unowned self name ∨ raises = true)) ∨
    ∃ desc id, self.registry.get name = some desc ∧ desc.inst = some id ∧ raises = false ∧
      (self.stop name raises).2.1 = self.put { desc with state := .STOPPED, inst := none } ∧
      (self.stop name raises).2.2 = .stopped name id :: self.publish "SERVICE_STOPPED" name := by
  unfold stop
  split
  · next hget => exact Or.inl ⟨rfl, rfl, Or.inl (by simp [Unowned, hget])⟩
  · next desc hget =>
    split
    · next hinst => exact Or.inl ⟨rfl, rfl, Or.inl (by simp [Unowned, hget, hinst])⟩
    · next id hinst =>
      cases raises with
      | true => exact Or.inl ⟨rfl, rfl, Or.inr rfl⟩
      | false => exact Or.inr ⟨desc, id, hget, hinst, rfl, rfl, rfl⟩

theorem stop_owned (self : ServiceRegistry) (name : String) (raises : Bool) {k : String}
    {ids : List Nat} (h : OwnedAt k self ids) :
    OwnedAt k (self.stop name raises).2.1
      ((self.stop name raises).2.2.foldl (liveAfter k) ids) := by
  rcases self.stop_cases name raises with ⟨hself, hos, -⟩ | ⟨desc, id, hget, hinst, -, hself, hos⟩
  · rw [hself, hos]
    exact h
  · rw [hself, hos]
    simp only [List.foldl_cons, liveAfter, liveAfter_publish]
    obtain rfl := self.named name desc hget
    by_cases hk : k = desc.name
    · subst hk
      -- the one live instance is the one that the descriptor held
      rw [ownedAt_some hget, hinst] at h
      rw [if_pos rfl, h.1]
      refine ownedAt_put.mpr ?_
      simp
    · rw [if_neg (fun heq => hk heq.symm), ownedAt_put_of_ne]
      · exact h
      · exact hk

/-- After a stop the descriptor holds no instance, unless it holds one that
    did not stop. -/
theorem stop_unowned_iff (self : ServiceRegistry) (name : String) (raises : Bool) :
    Unowned (self.stop name raises).2.1 name ↔ Unowned self name ∨ raises = false := by
  rcases self.stop_cases name raises with ⟨hself, -, hwhy⟩ | ⟨desc, id, hget, -, hno, hself, -⟩
  · rw [hself]
    rcases hwhy with hunowned | htrue
    · exact iff_of_true hunowned (Or.inl hunowned)
    · simp [htrue]
  · rw [hself]
    refine iff_of_true ?_ (Or.inr hno)
    intro desc' hget'
    rw [put_get, if_pos (self.named name desc hget).symm] at hget'
    exact Option.some.inj hget' ▸ rfl

/-! ### Loops -/

theorem start_all_other (attempts : String → Attempt) (order : List String)
    (self : ServiceRegistry) {k : String} (hk : k ∉ order) (ids : List Nat) :
    OwnedAt k (start_all attempts order self).2.1
        ((start_all attempts order self).2.2.foldl (liveAfter k) ids) ↔
      OwnedAt k self ids := by
  induction order generalizing self ids with
  | nil => exact Iff.rfl
  | cons name order ih =>
    obtain ⟨hne, hrest⟩ := not_or.mp (mt List.mem_cons.mpr hk)
    simp only [start_all]
    split
    · exact ih self hrest ids
    · next desc hget =>
      split
      · rw [List.foldl_append, ih _ hrest]
        exact start_service_other self _ (self.named name desc hget ▸ hne) ids
      · exact ih self hrest ids

/-- The autostart keeps the ownership of a service if and only if it does not
    come upon its instance. -/
theorem start_all_owned {self : ServiceRegistry} (hmodular : Modular self)
    (attempts : String → Attempt) {order : List String} (hnodup : order.Nodup) {k : String}
    {ids : List Nat} (h : OwnedAt k self ids) :
    OwnedAt k (start_all attempts order self).2.1
        ((start_all attempts order self).2.2.foldl (liveAfter k) ids) ↔
      (k ∈ order → ∀ desc, self.registry.get k = some desc → desc.auto_start = true →
        desc.inst = none) := by
  by_cases hmem : k ∈ order
  · -- the services before it and after it do not matter
    obtain ⟨pre, post, rfl⟩ := List.append_of_mem hmem
    obtain ⟨-, htail, hdisj⟩ := List.nodup_append'.mp hnodup
    have hpre : k ∉ pre := fun hk => hdisj hk List.mem_cons_self
    have hpost : k ∉ post := (List.nodup_cons.mp htail).1
    have hget₁ := start_all_unchanged attempts pre self k fun hk => absurd hk hpre
    have h₁ := (start_all_other attempts pre self hpre ids).mpr h
    have hmodular₁ := hmodular.start_all attempts pre
    rw [start_all_append, List.foldl_append]
    simp only [hmem, true_imp_iff, ← hget₁]
    generalize (start_all attempts pre self).2.1 = self₁ at h₁ hmodular₁ hget₁ ⊢
    generalize (start_all attempts pre self).2.2.foldl (liveAfter k) ids = ids₁ at h₁ ⊢
    simp only [start_all]
    cases hget : self₁.registry.get k with
    | none =>
      refine (start_all_other attempts post self₁ hpost ids₁).trans ?_
      exact iff_of_true h₁ fun _ hdesc => by cases hdesc
    | some desc =>
      obtain rfl := self₁.named k desc hget
      simp only [Option.some.injEq, forall_eq']
      split
      · next hauto =>
        simp only [hauto, true_imp_iff]
        rw [List.foldl_append, start_all_other attempts post _ hpost]
        exact start_service_owned hget (hmodular₁ desc.name desc hget) _ h₁
      · next hauto =>
        refine (start_all_other attempts post self₁ hpost ids₁).trans ?_
        exact iff_of_true h₁ fun htrue => absurd htrue hauto
  · rw [start_all_other attempts order self hmem]
    exact iff_of_true h fun hk => absurd hk hmem

/-- A service that is read has a fresh descriptor, the others stay. -/
theorem register_all_get (files : List ServiceFile) (self : ServiceRegistry) (k : String) :
    (k ∈ files.map ServiceFile.name ∧
      ∃ file, (register_all files self).registry.get k = some (ServiceFile.parsed file)) ∨
    (k ∉ files.map ServiceFile.name ∧
      (register_all files self).registry.get k = self.registry.get k) := by
  induction files generalizing self with
  | nil => exact Or.inr ⟨by simp, rfl⟩
  | cons file files ih =>
    rcases ih (self.put file.parsed) with ⟨hmem, hget⟩ | ⟨hout, hget⟩
    · exact Or.inl ⟨List.mem_cons_of_mem _ hmem, hget⟩
    · have hfold : register_all (file :: files) self = register_all files (self.put file.parsed) :=
        rfl
      rw [hfold, hget, put_get]
      by_cases hk : k = file.name
      · exact Or.inl ⟨by simp [hk], file, if_pos hk⟩
      · exact Or.inr ⟨by simpa [hk] using hout, if_neg hk⟩

theorem OwnedAt.nil_iff {k : String} {self : ServiceRegistry} {ids : List Nat}
    (h : OwnedAt k self ids) : ids = [] ↔ Unowned self k := by
  unfold OwnedAt at h
  unfold Unowned
  cases hget : self.registry.get k with
  | none =>
    rw [hget] at h
    simpa using h
  | some desc =>
    rw [hget] at h
    rw [h.1]
    cases hinst : desc.inst with
    | none => simp [hinst]
    | some id => simp [hinst]

theorem register_all_owned (files : List ServiceFile) {self : ServiceRegistry} {k : String}
    {ids : List Nat} (h : OwnedAt k self ids) :
    OwnedAt k (register_all files self) ids ↔
      (k ∈ files.map ServiceFile.name → Unowned self k) := by
  rcases register_all_get files self k with ⟨hmem, file, hget⟩ | ⟨hout, hget⟩
  · -- a fresh descriptor holds nothing, so nothing may be live
    rw [ownedAt_some hget, ← h.nil_iff]
    simp [ServiceFile.parsed, hmem]
  · unfold OwnedAt at h ⊢
    rw [hget]
    exact iff_of_true h fun hmem => absurd hmem hout

/-! ### Runs -/

/-- A step keeps the ownership if and only if it is careful. -/
theorem step_owned_iff {self self' : ServiceRegistry} {l : Label} {tr os : List Obs}
    (hs : machine.step self l = some (self', os)) (hmodular : Modular self)
    (hsync : Synced self) (h : Owned self tr) : Careful self l ↔ Owned self' (tr ++ os) := by
  unfold Owned
  simp only [live_append]
  cases l with
  | discover dir =>
    cases hs
    cases dir with
    | none =>
      refine iff_of_true ?_ h
      intro results hresults
      cases hresults
    | some results =>
      have howned : ∀ k, OwnedAt k (register_all results.reduceOption self) (live k tr) ↔
          (k ∈ results.reduceOption.map ServiceFile.name → Unowned self k) :=
        fun k => register_all_owned results.reduceOption (h k)
      refine Iff.trans ?_ (forall_congr' howned).symm
      constructor
      · intro hcareful k hk
        obtain ⟨file, hfile, rfl⟩ := List.mem_map.mp hk
        exact hcareful results rfl file hfile
      · intro hunowned results' hresults' file hfile
        obtain rfl := Option.some.inj hresults'
        exact hunowned file.name (List.mem_map_of_mem hfile)
  | start name attempt =>
    cases hs
    simp only [List.foldl_append, List.foldl_cons, List.foldl_nil, liveAfter]
    have howned := fun k => start_owned hmodular name attempt (h k)
    refine Iff.trans ?_ (forall_congr' howned).symm
    exact ⟨fun hunowned _ _ => hunowned, fun hall => hall name rfl⟩
  | stop name raises =>
    cases hs
    simp only [List.foldl_append, List.foldl_cons, List.foldl_nil, liveAfter]
    exact iff_of_true trivial fun k => self.stop_owned name raises (h k)
  | restart name raises attempt =>
    have hs : some ((self.restart name raises attempt).2.1,
        (self.restart name raises attempt).2.2 ++
          [.returned (.flag (self.restart name raises attempt).1)]) = some (self', os) := hs
    cases hs
    -- the start meets the descriptor as the stop has left it
    have howned : ∀ k, OwnedAt k (self.restart name raises attempt).2.1
        ((self.restart name raises attempt).2.2.foldl (liveAfter k) (live k tr)) ↔
        (k = name → Unowned (self.stop name raises).2.1 name) := by
      intro k
      simp only [restart, List.foldl_append]
      exact start_owned (hmodular.stop name raises) name attempt (self.stop_owned name raises (h k))
    simp only [List.foldl_append, List.foldl_cons, List.foldl_nil, liveAfter]
    refine Iff.trans ?_ (forall_congr' howned).symm
    refine (self.stop_unowned_iff name raises).symm.trans ?_
    exact ⟨fun hunowned _ _ => hunowned, fun hall => hall name rfl⟩
  | start_all_autostart attempts =>
    cases hs
    simp only [List.foldl_append, List.foldl_cons, List.foldl_nil, liveAfter]
    -- no service is attempted twice in the loop
    have hnodup : self.load_order.Nodup := by
      rw [show self.load_order = _ from hsync]
      exact load_order_nodup _
    have howned := fun k => start_all_owned hmodular attempts hnodup (h k)
    exact (forall_congr' howned).symm

/-- **Instance ownership**: in a run with module services, every state that is
    reached has at most one live instance of each service, the one that the
    descriptor holds, and exactly these services running, if and only if no
    step starts or reads again a service whose descriptor holds an instance. -/
theorem owned_iff_careful {event_bus : Bool} {ls : List Label} {self : ServiceRegistry}
    {tr : List Obs} (hmodules : ModuleServices ls)
    (hrun : machine.run (init event_bus) ls = some (self, tr)) :
    (∀ pre t tr', pre <+: ls → machine.run (init event_bus) pre = some (t, tr') →
      Owned t tr') ↔ machine.Along Careful (init event_bus) ls := by
  refine (machine.along_iff_throughout ?_ ?_ hrun).symm
  · intro name
    simp [OwnedAt, init, live]
  · intro pre l t tr' t' os hpre hrun' h hs
    have hmodules' : ModuleServices pre := by
      intro results hmem
      exact hmodules results (hpre.subset (List.mem_append_left _ hmem))
    exact step_owned_iff hs (run_modular hmodules' hrun') (run_synced hrun') h

/-- Storage stops before it is started again, and logging does not start. -/
def carefulRun : List Label :=
  [.discover (some [some loggingFile, none, some storageFile]), .start "storage" .succeeds,
    .restart "storage" false .succeeds, .start "logging" .start_raises]

theorem moduleServices_of_singleton {results : List (Option ServiceFile)} {ls : List Label}
    (hresults : ∀ file ∈ results.reduceOption, file.module ≠ "")
    (hls : ∀ dir, .discover dir ∉ ls) : ModuleServices (.discover (some results) :: ls) := by
  intro results' hmem file hfile
  rcases List.mem_cons.mp hmem with heq | hmem
  · cases heq
    exact hresults file hfile
  · exact absurd hmem (hls _)

theorem owned_iff_careful_storage :
    ∃ self tr, machine.run (init true) carefulRun = some (self, tr) ∧
      (∀ pre t tr', pre <+: carefulRun → machine.run (init true) pre = some (t, tr') →
        Owned t tr') ∧ live "storage" tr = [1] := by
  obtain ⟨self, tr, hrun, hlive⟩ := machine.exists_run (init true) carefulRun
    (fun _ tr => live "storage" tr = [1]) (by decide +kernel)
  have hmodules : ModuleServices carefulRun :=
    moduleServices_of_singleton (by decide) (by simp)
  refine ⟨self, tr, hrun, ?_, of_decide_eq_true hlive⟩
  exact (owned_iff_careful hmodules hrun).mpr (by decide +kernel)

/-- Storage is started twice, and the first instance cannot be stopped any more. -/
theorem second_start_loses_instance :
    ∃ (ls : List Label) (self : ServiceRegistry) (tr : List Obs),
      ModuleServices ls ∧ machine.run (init true) ls = some (self, tr) ∧ ¬ Owned self tr := by
  obtain ⟨self, tr, hrun, hlive⟩ := machine.exists_run (init true)
    [.discover (some [some storageFile]), .start "storage" .succeeds, .start "storage" .succeeds]
    (fun _ tr => live "storage" tr = [0, 1]) (by decide +kernel)
  refine ⟨_, self, tr, moduleServices_of_singleton (by decide) (by simp), hrun, ?_⟩
  intro howned
  -- two instances are live, and a descriptor holds one at most
  have hat := howned "storage"
  rw [of_decide_eq_true hlive] at hat
  unfold OwnedAt at hat
  split at hat
  · cases hat
  · next desc _ =>
    obtain ⟨hids, -⟩ := hat
    cases hinst : desc.inst with
    | none => simp [hinst] at hids
    | some id => simp [hinst] at hids

end ServiceRegistry
