import Aioscpu.Framework.Clock

/-! # JSON Values

  What `json.loads` returns, with the truth value that Python gives it. `T` is
  the type of floating-point numbers.
-/

inductive Json (T : Type) where
  | null
  | bool (b : Bool)
  | int (i : Int)
  | float (x : T)
  | str (s : String)
  | arr (items : List (Json T))
  | obj (items : List (String × Json T))

namespace Json

/-- The items of an object. -/
abbrev Fields (T : Type) := List (String × Json T)

variable {T : Type}

mutual

/-- How deep arrays and objects are nested in the value. -/
@[simp] def depth : Json T → Nat
  | .null => 0
  | .bool _ => 0
  | .int _ => 0
  | .float _ => 0
  | .str _ => 0
  | .arr items => depthItems items + 1
  | .obj fields => depthFields fields + 1

@[simp] def depthItems : List (Json T) → Nat
  | [] => 0
  | v :: items => max (depth v) (depthItems items)

@[simp] def depthFields : List (String × Json T) → Nat
  | [] => 0
  | field :: fields => max (depthField field) (depthFields fields)

@[simp] def depthField : String × Json T → Nat
  | (_, v) => depth v

end

theorem depthItems_le_iff (items : List (Json T)) (n : Nat) :
    depthItems items ≤ n ↔ ∀ v ∈ items, v.depth ≤ n := by
  induction items with
  | nil => simp
  | cons v items ih => simp [ih]

theorem depthFields_le_iff (fields : List (String × Json T)) (n : Nat) :
    depthFields fields ≤ n ↔ ∀ field ∈ fields, field.2.depth ≤ n := by
  induction fields with
  | nil => simp
  | cons field fields ih =>
    obtain ⟨key, v⟩ := field
    rw [depthFields, depthField, max_le_iff, ih, List.forall_mem_cons]

theorem depthItems_texts (texts : List String) :
    depthItems (texts.map .str : List (Json T)) = 0 := by
  induction texts with
  | nil => rfl
  | cons text texts ih => simp [ih]

mutual

/-- No object in the value has a key twice. -/
@[simp] def Distinct : Json T → Prop
  | .null => True
  | .bool _ => True
  | .int _ => True
  | .float _ => True
  | .str _ => True
  | .arr items => DistinctItems items
  | .obj fields => (fields.map Prod.fst).Nodup ∧ DistinctFields fields

@[simp] def DistinctItems : List (Json T) → Prop
  | [] => True
  | v :: items => Distinct v ∧ DistinctItems items

@[simp] def DistinctFields : List (String × Json T) → Prop
  | [] => True
  | field :: fields => DistinctField field ∧ DistinctFields fields

@[simp] def DistinctField : String × Json T → Prop
  | (_, v) => Distinct v

end

theorem distinctItems_iff (items : List (Json T)) :
    DistinctItems items ↔ ∀ v ∈ items, v.Distinct := by
  induction items with
  | nil => simp
  | cons v items ih => rw [DistinctItems, ih, List.forall_mem_cons]

theorem distinctFields_iff (fields : List (String × Json T)) :
    DistinctFields fields ↔ ∀ field ∈ fields, field.2.Distinct := by
  induction fields with
  | nil => simp
  | cons field fields ih =>
    obtain ⟨key, v⟩ := field
    rw [DistinctFields, DistinctField, ih, List.forall_mem_cons]

/-- The name of the type of the value. -/
def type_name : Json T → String
  | .null => "NoneType"
  | .bool _ => "bool"
  | .int _ => "int"
  | .float _ => "float"
  | .str _ => "str"
  | .arr _ => "list"
  | .obj _ => "dict"

/-- `bool(v)`. -/
def truthy [Clock T] : Json T → Bool
  | .null => false
  | .bool b => b
  | .int i => i ≠ 0
  | .float x => x ≠ Clock.ofSeconds 0
  | .str s => s ≠ ""
  | .arr items => !items.isEmpty
  | .obj items => !items.isEmpty

/-- `v or w`. -/
def or [Clock T] (v w : Json T) : Json T := if v.truthy then v else w

/-- `w if v is None else v`. -/
def ifNone (v w : Json T) : Json T :=
  match v with
  | .null => w
  | v => v

/-- `int(v)`, which is `none` where it raises. Texts and floating-point numbers
    are left to `parse`. -/
def toInt (parse : Json T → Option Int) : Json T → Option Int
  | .null => none
  | .bool b => some (if b then 1 else 0)
  | .int i => some i
  | .arr _ => none
  | .obj _ => none
  | v => parse v

end Json

/-- A value as `json.load` makes it: no key of an object is there twice. -/
structure JsonDocument (T : Type) where
  value : Json T
  distinct : value.Distinct
