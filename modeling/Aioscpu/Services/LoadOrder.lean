import Aioscpu.Services.Registry

/-! # Load Order and Autostart

  `_compute_load_order` lists the registered services and all that they depend
  on, dependencies first as far as there are no cycles.

  `start_all_autostart` goes through that list, and neither a dependency that
  is not started automatically nor one that has failed keeps it from starting
  a dependent service.
-/

namespace ServiceRegistry

open Relation

/-- No service depends on itself, directly or not. -/
def Acyclic (registry : Registry) : Prop := ∀ a, ¬ TransGen (DependsOn registry) a a

/-- A relation that is acyclic orders what it relates. -/
theorem Acyclic.not_back {registry : Registry} (h : Acyclic registry) {a b : String}
    (hab : TransGen (DependsOn registry) a b) : ¬ TransGen (DependsOn registry) b a :=
  fun hba => h a (hab.trans hba)

/-- A rank that decreases along the dependencies excludes cycles. -/
theorem acyclic_of_rank {registry : Registry} (rank : String → Nat)
    (h : ∀ a ∈ registry.keys, ∀ b ∈ dependencies registry a, rank b < rank a) :
    Acyclic registry := by
  have hdecreases : ∀ a b, TransGen (DependsOn registry) a b → rank b < rank a := by
    intro a b hab
    induction hab with
    | single hedge => exact h _ (key_of_depends hedge) _ hedge
    | tail _ hedge ih => exact (h _ (key_of_depends hedge) _ hedge).trans ih
  intro a ha
  exact Nat.lt_irrefl _ (hdecreases a a ha)

/-! ### Load order -/

/-- In an acyclic registry every transitive dependency precedes. -/
theorem load_order_precedes_trans {registry : Registry} (hacyclic : Acyclic registry)
    {a b : String} (h : TransGen (DependsOn registry) a b) :
    Precedes (load_order_of registry) b a := by
  induction h with
  | single hedge => exact load_order_precedes hedge (hacyclic.not_back (.single hedge))
  | tail _ hedge ih =>
    have hlast := load_order_precedes hedge (hacyclic.not_back (.single hedge))
    exact hlast.trans (load_order_nodup registry) ih

/-- **Load order**: `_compute_load_order` ends with the same list at every
    depth from some depth on; the list has each registered name, and each name
    reached from one, once and nothing else; a dependency precedes its
    dependent unless it depends on it as well, and in an acyclic registry all
    transitive dependencies precede. -/
theorem load_order_correct (registry : Registry) :
    ∃ order, (∃ bound, ∀ depth, bound ≤ depth →
        compute_load_order depth registry = some order) ∧
      order.Nodup ∧
      (∀ name, name ∈ order ↔
        ∃ a ∈ registry.keys, ReflTransGen (DependsOn registry) a name) ∧
      (∀ a b, DependsOn registry a b → ¬ TransGen (DependsOn registry) b a →
        Precedes order b a) ∧
      (Acyclic registry → ∀ a b, TransGen (DependsOn registry) a b → Precedes order b a) := by
  refine ⟨load_order_of registry, ⟨(names registry).card + 1, ?_⟩, load_order_nodup registry,
    load_order_mem_iff registry, ?_, ?_⟩
  · intro depth hdepth
    exact compute_load_order_eq hdepth
  · intro a b h hback
    exact load_order_precedes h hback
  · intro hacyclic a b h
    exact load_order_precedes_trans hacyclic h

/-- A registry of descriptors, in order. -/
def registryOf (files : List ServiceFile) : ServiceRegistry :=
  ((init false).discover (some (files.map some))).2

/-- A cycle, a service outside that depends on it, and an unregistered name. -/
example : (registryOf [⟨"top", "", true, ["a", "ghost"]⟩, ⟨"a", "", true, ["b"]⟩,
    ⟨"b", "", true, ["a"]⟩]).load_order = ["b", "a", "ghost", "top"] := by
  decide +kernel

end ServiceRegistry
