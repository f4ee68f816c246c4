import Aioscpu.Framework.DepthFirst
import Aioscpu.Framework.Dict
import Aioscpu.Framework.Machine

/-! # Service Registry

  The system service registry of `services/registry.py`: service descriptors
  read from files, their load order, and the life cycle of their instances.

  The operations run one at a time, so each is one step. A label carries what
  the environment decides: the files that are found and whether they parse, how
  far an attempt to start a service gets, whether an instance stops. Instances
  are numbered in the order in which they are created.
-/

namespace ServiceRegistry

/-! ### Descriptors -/

inductive ServiceState where
  | STOPPED
  | STARTING
  | RUNNING
  | FAILED
  | DISABLED
deriving DecidableEq, Repr

/-- What a `.service` file says about a service. -/
structure ServiceFile where
  name : String
  /-- `module:class`, or empty. -/
  module : String
  auto_start : Bool
  depends_on : List String
deriving DecidableEq, Repr

structure ServiceDescriptor extends ServiceFile where
  state : ServiceState
  failure_count : Nat
  /-- `instance`. -/
  inst : Option Nat
deriving DecidableEq, Repr

/-- A descriptor as it is parsed. -/
def ServiceFile.parsed (file : ServiceFile) : ServiceDescriptor :=
  { file with state := .STOPPED, failure_count := 0, inst := none }

abbrev Registry := Dict String ServiceDescriptor

/-! ### Load order -/

/-- What the service depends on, if it is registered. -/
def dependencies (registry : Registry) (name : String) : List String :=
  match registry.get name with
  | some desc => desc.depends_on
  | none => []

/-- `a` has `b` in `depends_on`. -/
abbrev DependsOn (registry : Registry) : String → String → Prop :=
  DepthFirst.Edge (dependencies registry)

/-- `_compute_load_order`, with so many nested calls of `visit` at most. -/
def compute_load_order (depth : Nat) (registry : Registry) : Option (List String) :=
  (DepthFirst.visitAll (dependencies registry) depth registry.keys DepthFirst.start).map (·.order)

/-- The registered names and what they depend on. -/
def names (registry : Registry) : Finset String :=
  registry.keys.toFinset ∪ (registry.keys.flatMap (dependencies registry)).toFinset

/-- The load order; `compute_load_order_eq` says that this depth is enough. -/
def load_order_of (registry : Registry) : List String :=
  (compute_load_order ((names registry).card + 1) registry).getD []

theorem mem_names_of_key {registry : Registry} {a : String} (ha : a ∈ registry.keys) :
    a ∈ names registry :=
  Finset.mem_union_left _ (List.mem_toFinset.mpr ha)

/-- Only registered services have dependencies. -/
theorem key_of_depends {registry : Registry} {a b : String} (h : DependsOn registry a b) :
    a ∈ registry.keys := by
  unfold DependsOn DepthFirst.Edge dependencies at h
  split at h
  · next desc hget => exact (registry.mem_keys_iff a).mpr ⟨desc, hget⟩
  · cases h

theorem mem_names_of_depends {registry : Registry} {a b : String} (h : DependsOn registry a b) :
    b ∈ names registry :=
  Finset.mem_union_right _
    (List.mem_toFinset.mpr (List.mem_flatMap.mpr ⟨a, key_of_depends h, h⟩))

/-- The traversal ends, and its result does not depend on the depth. -/
theorem compute_load_order_eq {registry : Registry} {depth : Nat}
    (h : (names registry).card < depth) :
    compute_load_order depth registry = some (load_order_of registry) := by
  have hcard : (names registry \ (DepthFirst.start : DepthFirst.State String).visited).card <
      (names registry).card + 1 := by
    simp [DepthFirst.start]
  -- every nested call has visited one more of the names
  obtain ⟨s, hs⟩ := DepthFirst.visitAll_total
    (fun a _ b (hb : b ∈ dependencies registry a) => mem_names_of_depends hb)
    (fun a ha => mem_names_of_key ha : ∀ a ∈ registry.keys, a ∈ names registry) hcard
  have hdepth := DepthFirst.visitAll_mono (by omega : (names registry).card + 1 ≤ depth) hs
  simp only [load_order_of, compute_load_order, hs, hdepth, Option.map_some, Option.getD_some]

/-- The traversal whose order the load order is. -/
theorem load_order_visit (registry : Registry) :
    ∃ depth s, DepthFirst.visitAll (dependencies registry) depth registry.keys
      DepthFirst.start = some s ∧ s.order = load_order_of registry := by
  have h := compute_load_order_eq (Nat.lt_succ_self (names registry).card)
  obtain ⟨s, hs, horder⟩ := Option.map_eq_some_iff.mp h
  exact ⟨_, s, hs, horder⟩

theorem load_order_nodup (registry : Registry) : (load_order_of registry).Nodup := by
  obtain ⟨depth, s, hs, horder⟩ := load_order_visit registry
  exact horder ▸ DepthFirst.order_nodup hs

theorem load_order_mem_iff (registry : Registry) (x : String) :
    x ∈ load_order_of registry ↔
      ∃ a ∈ registry.keys, Relation.ReflTransGen (DependsOn registry) a x := by
  obtain ⟨depth, s, hs, horder⟩ := load_order_visit registry
  exact horder ▸ DepthFirst.order_mem_iff hs x

/-- A dependency precedes its dependent, unless it depends on it as well. -/
theorem load_order_precedes {registry : Registry} {a b : String} (h : DependsOn registry a b)
    (hback : ¬ Relation.TransGen (DependsOn registry) b a) :
    Precedes (load_order_of registry) b a := by
  have ha := (load_order_mem_iff registry a).mpr ⟨a, key_of_depends h, .refl⟩
  obtain ⟨depth, s, hs, horder⟩ := load_order_visit registry
  exact horder ▸ DepthFirst.order_precedes hs (horder ▸ ha) h hback

end ServiceRegistry

/-! ### The registry -/

structure ServiceRegistry where
  registry : ServiceRegistry.Registry
  load_order : List String
  /-- Whether an event bus was given. -/
  event_bus : Bool
  /-- The number of instances created so far. -/
  created : Nat
  named : ∀ name desc, registry.get name = some desc → desc.name = name

namespace ServiceRegistry

/-- How far `_start_service` gets with a module. -/
inductive Attempt where
  | import_raises
  | getattr_raises
  | constructor_raises
  | start_raises
  /-- `start()` returns, or the instance has none. -/
  | succeeds
deriving DecidableEq, Repr

/-- What a method returns. -/
inductive Result where
  | count (n : Nat)
  | flag (b : Bool)
  | names (l : List String)
deriving DecidableEq, Repr

inductive Obs where
  /-- `_start_service` was called with this registry, and returned `ok`. -/
  | attempted (name : String) (before : Registry) (ok : Bool)
  /-- The instance has been started. -/
  | started (name : String) (id : Nat)
  /-- The instance has been stopped. -/
  | stopped (name : String) (id : Nat)
  | published (event_type : String) (service_name : String)
  | returned (result : Result)

/-- `ServiceRegistry.__init__`. -/
def init (event_bus : Bool) : ServiceRegistry := ⟨.empty, [], event_bus, 0, by simp⟩

/-- `self._registry[desc.name] = desc`. Descriptors change in place, so a
    changed one is put back the same way. -/
def put (self : ServiceRegistry) (desc : ServiceDescriptor) : ServiceRegistry :=
  { self with
    registry := self.registry.set desc.name desc
    named := by
      intro name desc' h
      rw [Dict.get_set] at h
      split at h
      · next heq => exact Option.some.inj h ▸ heq.symm
      · exact self.named name desc' h }

/-- `ServiceRegistry._publish`; a bus that raises is ignored. -/
def publish (self : ServiceRegistry) (event_type service_name : String) : List Obs :=
  if self.event_bus then [.published event_type service_name] else []

/-- `cls(...)` has returned one more instance. -/
def instantiate (self : ServiceRegistry) : ServiceRegistry :=
  { self with created := self.created + 1 }

/-- The handler of `_start_service`. -/
def start_failed (self : ServiceRegistry) (desc : ServiceDescriptor) :
    Bool × ServiceRegistry × List Obs :=
  (false, self.put { desc with state := .FAILED, failure_count := desc.failure_count + 1 },
    .attempted desc.name self.registry false :: self.publish "SERVICE_FAILED" desc.name)

/-- `ServiceRegistry._start_service`. -/
def start_service (self : ServiceRegistry) (desc : ServiceDescriptor) (attempt : Attempt) :
    Bool × ServiceRegistry × List Obs :=
  if desc.module = "" then
    (true, self.put { desc with state := .RUNNING },
      [.attempted desc.name self.registry true])
  -- without a colon the result of `rsplit` cannot be unpacked
  else if ':' ∉ desc.module.toList then self.start_failed desc
  else
    match attempt with
    | .import_raises => self.start_failed desc
    | .getattr_raises => self.start_failed desc
    | .constructor_raises => self.start_failed desc
    -- the instance was created, and nothing refers to it
    | .start_raises => self.instantiate.start_failed desc
    | .succeeds =>
      (true,
        self.instantiate.put { desc with inst := some self.created, state := .RUNNING },
        [.attempted desc.name self.registry true, .started desc.name self.created] ++
          self.publish "SERVICE_STARTED" desc.name)

/-- `ServiceRegistry.start`. -/
def start (self : ServiceRegistry) (name : String) (attempt : Attempt) :
    Bool × ServiceRegistry × List Obs :=
  match self.registry.get name with
  | none => (false, self, [])
  | some desc => self.start_service desc attempt

/-- `ServiceRegistry.stop`. An instance without a `stop` does not raise. -/
def stop (self : ServiceRegistry) (name : String) (raises : Bool) :
    Bool × ServiceRegistry × List Obs :=
  match self.registry.get name with
  | none => (false, self, [])
  | some desc =>
    match desc.inst with
    | none => (false, self, [])
    | some id =>
      -- the descriptor keeps an instance that does not stop
      if raises then (false, self, [])
      else
        (true, self.put { desc with state := .STOPPED, inst := none },
          .stopped name id :: self.publish "SERVICE_STOPPED" name)

/-- `ServiceRegistry.restart`; what `stop` returns is not looked at. -/
def restart (self : ServiceRegistry) (name : String) (raises : Bool) (attempt : Attempt) :
    Bool × ServiceRegistry × List Obs :=
  let (_, stopped, os) := self.stop name raises
  let (ok, started, os') := stopped.start name attempt
  (ok, started, os ++ os')

/-- The loop of `start_all_autostart`. -/
def start_all (attempts : String → Attempt) :
    List String → ServiceRegistry → List String × ServiceRegistry × List Obs
  | [], self => ([], self, [])
  | name :: order, self =>
    match self.registry.get name with
    | none => start_all attempts order self
    | some desc =>
      if desc.auto_start then
        let (ok, self, os) := self.start_service desc (attempts name)
        let (started, self, os') := start_all attempts order self
        (if ok then name :: started else started, self, os ++ os')
      else start_all attempts order self

/-- `ServiceRegistry.start_all_autostart`. -/
def start_all_autostart (self : ServiceRegistry) (attempts : String → Attempt) :
    List String × ServiceRegistry × List Obs :=
  start_all attempts self.load_order self

/-- The loop of `discover` over the files that parse. -/
def register_all (files : List ServiceFile) (self : ServiceRegistry) : ServiceRegistry :=
  files.foldl (fun self file => self.put file.parsed) self

/-- `ServiceRegistry.discover`, with the services directory, if there is one: its
    `.service` files in the order of their names, those that parse. -/
def discover (self : ServiceRegistry) (dir : Option (List (Option ServiceFile))) :
    Nat × ServiceRegistry :=
  match dir with
  | none => (0, self)
  | some results =>
    let files := results.reduceOption
    let self := register_all files self
    (files.length, { self with load_order := load_order_of self.registry })

/-! ### The machine -/

inductive Label where
  | discover (dir : Option (List (Option ServiceFile)))
  | start (name : String) (attempt : Attempt)
  | stop (name : String) (raises : Bool)
  | restart (name : String) (raises : Bool) (attempt : Attempt)
  | start_all_autostart (attempts : String → Attempt)

/-- A registry whose operations run one at a time. -/
def machine : Machine ServiceRegistry Label Obs where
  step := fun self l =>
    match l with
    | .discover dir =>
      let (n, self) := self.discover dir
      some (self, [.returned (.count n)])
    | .start name attempt =>
      let (ok, self, os) := self.start name attempt
      some (self, os ++ [.returned (.flag ok)])
    | .stop name raises =>
      let (ok, self, os) := self.stop name raises
      some (self, os ++ [.returned (.flag ok)])
    | .restart name raises attempt =>
      let (ok, self, os) := self.restart name raises attempt
      some (self, os ++ [.returned (.flag ok)])
    | .start_all_autostart attempts =>
      let (started, self, os) := self.start_all_autostart attempts
      some (self, os ++ [.returned (.names started)])

/-! ### What the operations change -/

@[simp] theorem put_get (self : ServiceRegistry) (desc : ServiceDescriptor) (name : String) :
    (self.put desc).registry.get name =
      if name = desc.name then some desc else self.registry.get name :=
  Dict.get_set ..

/-- `_start_service` changes one descriptor: its state says what it returned,
    and the instance is a new one if one was started. -/
theorem start_service_spec (self : ServiceRegistry) (desc : ServiceDescriptor)
    (attempt : Attempt) :
    ∃ ok self' os desc', self.start_service desc attempt =
        (ok, self', .attempted desc.name self.registry ok :: os) ∧
      desc'.toServiceFile = desc.toServiceFile ∧
      desc'.state = (if ok then .RUNNING else .FAILED) ∧
      (∀ name, self'.registry.get name =
        if name = desc.name then some desc' else self.registry.get name) := by
  -- one handler for all exceptions, which differ in whether there is an instance
  have hfailed : ∀ self₁ : ServiceRegistry, self₁.registry = self.registry →
      ∃ ok self' os desc', self₁.start_failed desc =
          (ok, self', .attempted desc.name self.registry ok :: os) ∧
        desc'.toServiceFile = desc.toServiceFile ∧
        desc'.state = (if ok then .RUNNING else .FAILED) ∧
        (∀ name, self'.registry.get name =
          if name = desc.name then some desc' else self.registry.get name) := by
    intro self₁ heq
    refine ⟨false, _, _, { desc with state := .FAILED, failure_count := desc.failure_count + 1 },
      by rw [start_failed, heq], rfl, rfl, ?_⟩
    intro name
    rw [put_get, heq]
  unfold start_service
  split
  · exact ⟨true, _, _, { desc with state := .RUNNING }, rfl, rfl, rfl, put_get _ _⟩
  · split
    · exact hfailed self rfl
    · cases attempt with
      | import_raises => exact hfailed self rfl
      | getattr_raises => exact hfailed self rfl
      | constructor_raises => exact hfailed self rfl
      | start_raises => exact hfailed _ rfl
      | succeeds =>
        exact ⟨true, _, _, { desc with state := .RUNNING, inst := some self.created }, rfl, rfl,
          rfl, put_get _ _⟩

end ServiceRegistry
