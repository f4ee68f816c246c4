import Aioscpu.Framework.Dict
import Mathlib.Algebra.BigOperators.Finprod
import Mathlib.Data.Set.Card

/-! # Dictionaries as Finite Maps

  How many keys a dictionary has and what its values sum up to, said of the map from keys to
  values alone.
-/

universe u v

namespace Dict

variable {κ : Type u} {ν : Type v} [DecidableEq κ]

theorem coe_keys (d : Dict κ ν) : (d.keys.toFinset : Set κ) = {k | d.get k ≠ none} := by
  ext k
  simp [mem_keys_iff, Option.ne_none_iff_exists']

/-- A dictionary has as many items as the map has keys. -/
theorem ncard_keys (d : Dict κ ν) : {k | d.get k ≠ none}.ncard = d.items.length := by
  have hnodup : d.keys.Nodup := d.nodup
  rw [← coe_keys, Set.ncard_coe_finset, List.toFinset_card_of_nodup hnodup]
  exact List.length_map ..

/-- The sum over the items is the sum over the map. -/
theorem finsum_get (d : Dict κ ν) (f : ν → Nat) :
    ∑ᶠ k, ((d.get k).map f).getD 0 = (d.values.map f).sum := by
  have hsupport : (Function.support fun k => ((d.get k).map f).getD 0) ⊆ d.keys.toFinset := by
    rw [coe_keys]
    intro k hk hnone
    exact hk (by simp [hnone])
  have hvalues : ∀ item ∈ d.items, ((d.get item.1).map f).getD 0 = f item.2 := by
    intro item hitem
    rw [d.get_of_mem hitem]
    rfl
  have hnodup : d.keys.Nodup := d.nodup
  rw [finsum_eq_sum_of_support_subset _ hsupport, List.sum_toFinset _ hnodup]
  unfold keys values
  rw [List.map_map, List.map_map]
  exact congrArg List.sum (List.map_congr_left hvalues)

end Dict
