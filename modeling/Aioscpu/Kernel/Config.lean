import Aioscpu.Framework.Dict
import Aioscpu.Framework.Json
import Aioscpu.Framework.PyStr

/-! # Configuration

  The configuration of `kernel/config.py`: the default file, the file of the user, and
  the variables of the environment whose names begin with `AURA_CFG_`.

  `T` is the type of floating-point numbers, and `float` stands for `float(s)`, which is
  `none` where that raises. The names of variables are ASCII texts.
-/

/-! ### Python values -/

namespace Json

variable {T : Type}

/-- `v[key] = value`, or the text of the `TypeError`. -/
def setItem (v : Json T) (key : String) (value : Json T) : Except String (Json T) :=
  match v with
  | .obj fields => .ok (.obj (Dict.assign key value fields))
  | .arr _ => .error "list indices must be integers or slices, not str"
  | v => .error ("'" ++ v.type_name ++ "' object does not support item assignment")

/-- `v.get(key, default)`, or the text of the `AttributeError`. -/
def getItem (v : Json T) (key : String) (default : Json T) : Except String (Json T) :=
  match v with
  | .obj fields => .ok ((fields.lookup key).getD default)
  | v => .error ("'" ++ v.type_name ++ "' object has no attribute 'get'")

def hashable : Json T → Bool
  | .arr _ => false
  | .obj _ => false
  | _ => true

/-- The text of the `ValueError` for an item of `n` elements. -/
def not_a_pair (i n : Nat) : String :=
  "dictionary update sequence element #" ++ toString i ++ " has length " ++ toString n ++
    "; 2 is required"

/-- The key and the value that `dict` takes from the `i`-th item of a list. -/
def pair (i : Nat) : Json T → Except String (Json T × Json T)
  | .arr [key, value] =>
    if key.hashable then .ok (key, value)
    else .error ("unhashable type: '" ++ key.type_name ++ "'")
  | .arr items => .error (not_a_pair i items.length)
  | .str s =>
    match s.toList with
    | [c, d] => .ok (.str (String.ofList [c]), .str (String.ofList [d]))
    | cs => .error (not_a_pair i cs.length)
  | .obj [first, second] => .ok (.str first.1, .str second.1)
  | .obj fields => .error (not_a_pair i fields.length)
  | _ =>
    .error ("cannot convert dictionary update sequence element #" ++ toString i ++
      " to a sequence")

def pairs (i : Nat) : List (Json T) → Except String (List (Json T × Json T))
  | [] => .ok []
  | v :: items => do
    let first ← pair i v
    let rest ← pairs (i + 1) items
    return first :: rest

/-- `dict(v)`: the keys and values in the order of their assignment. -/
def asDict : Json T → Except String (List (Json T × Json T))
  | .obj fields => .ok (fields.map fun field => (.str field.1, field.2))
  | .arr items => pairs 0 items
  | .str s => if s = "" then .ok [] else .error (not_a_pair 0 1)
  | v => .error ("'" ++ v.type_name ++ "' object is not iterable")

end Json

/-! ### Merging -/

namespace Config

open Json

variable {T : Type}

mutual

/-- `_deep_merge`, over the items of `override`. -/
def deep_merge (base : Fields T) : Fields T → Fields T
  | [] => base
  | field :: override => deep_merge (merge_field base field) override

/-- One turn of its loop. -/
def merge_field (base : Fields T) : String × Json T → Fields T
  | (k, v) => Dict.assign k (merged (base.lookup k) v) base

/-- What the turn assigns. -/
def merged (old : Option (Json T)) : Json T → Json T
  | .obj override =>
    match old with
    | some (.obj base) => .obj (deep_merge base override)
    | _ => .obj override
  | .null => .null
  | .bool b => .bool b
  | .int i => .int i
  | .float x => .float x
  | .str s => .str s
  | .arr items => .arr items

end

/-! ### Loading -/

/-- What is at the path of a file. -/
inductive FileContent (T : Type) where
  | missing
  /-- It cannot be opened, or holds no JSON. -/
  | unreadable
  | document (d : JsonDocument T)

/-- `Config._load_file`: what `_deep_merge` raises for a value that is no object is
    logged. -/
def load_file (data : Fields T) : FileContent T → Fields T
  | .missing => data
  | .unreadable => data
  | .document d =>
    match d.value with
    | .obj override => deep_merge data override
    | _ => data

/-- `_parse_env_val`. -/
def parse_env_val (float : String → Option T) (val : String) : Json T :=
  if PyStr.lower val ∈ ["true", "1", "yes"] then .bool true
  else if PyStr.lower val ∈ ["false", "0", "no"] then .bool false
  else
    match PyStr.int val with
    | some i => .int i
    | none =>
      match float val with
      | some x => .float x
      | none => .str val

def env_start : String := "AURA_CFG_"

/-- The section and the key that a variable is for. -/
def env_parts (env_key : String) : Option (String × String) :=
  if PyStr.startswith env_key env_start then
    let remainder :=
      (PyStr.lower (String.ofList (env_key.toList.drop env_start.length))).toList
    if '_' ∈ remainder then
      some (String.ofList (remainder.takeWhile (· ≠ '_')),
        String.ofList (remainder.dropWhile (· ≠ '_')).tail)
    else none
  else none

/-- `Config._apply_env_overrides`; the error is the text of a `TypeError`. -/
def apply_env_overrides (float : String → Option T) (data : Fields T) :
    List (String × String) → Except String (Fields T)
  | [] => .ok data
  | (env_key, env_val) :: env =>
    match env_parts env_key with
    | none => apply_env_overrides float data env
    | some (sect, key) =>
      match data.lookup sect with
      | none => apply_env_overrides float data env
      | some v =>
        match v.setItem key (parse_env_val float env_val) with
        | .error text => .error text
        | .ok v' => apply_env_overrides float (Dict.assign sect v' data) env

end Config

/-! ### The configuration -/

structure Config (T : Type) where
  data : Json.Fields T

namespace Config

open Json

variable {T : Type}

/-- The data after the files are loaded. -/
def load_files (default user : FileContent T) : Fields T := load_file (load_file [] default) user

/-- `Config.__init__`, with the file at `config_path` or of the user. -/
def init (float : String → Option T) (default user : FileContent T)
    (environ : Dict String String) : Except String (Config T) :=
  (apply_env_overrides float (load_files default user) environ.items).map .mk

/-- `Config.get`. -/
def get (self : Config T) (sect key : String) (default : Json T) : Except String (Json T) :=
  ((self.data.lookup sect).getD (.obj [])).getItem key default

/-- `Config.get_section`. -/
def get_section (self : Config T) (sect : String) : Except String (List (Json T × Json T)) :=
  ((self.data.lookup sect).getD (.obj [])).asDict

/-- `Config.set`. -/
def set (self : Config T) (sect key : String) (value : Json T) :
    Except String Unit × Config T :=
  match ((self.data.lookup sect).getD (.obj [])).setItem key value with
  | .ok v => (.ok (), ⟨Dict.assign sect v self.data⟩)
  | .error text => (.error text, self)

/-- `self._data.setdefault(sect, {})[key] = mobile.get(key', default)`. -/
def set_mobile (self : Config T) (mobile : Json T) (sect key key' : String) (default : Int) :
    Except String Unit × Config T :=
  match mobile.getItem key' (.int default) with
  | .ok value => self.set sect key value
  | .error text => (.error text, self)

/-- `Config.apply_mobile_profile`. -/
def apply_mobile_profile (self : Config T) : Except String Unit × Config T :=
  let mobile := (self.data.lookup "mobile").getD (.obj [])
  match self.set_mobile mobile "kernel" "tick_interval_ms" "tick_interval_ms" 100 with
  | (.error text, self) => (.error text, self)
  | (.ok (), self) =>
    match self.set_mobile mobile "hal" "max_memory_mb" "max_memory_mb" 256 with
    | (.error text, self) => (.error text, self)
    | (.ok (), self) => self.set_mobile mobile "kernel" "max_task_queue" "max_task_queue" 256

end Config
