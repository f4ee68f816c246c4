import Aioscpu.Framework.Dict
import Aioscpu.Framework.Machine
import Aioscpu.Framework.PyStr
import Aioscpu.Framework.Rounding

/-! # Model Manager

  `models/model_manager.py`: models are registered with the size of their file,
  loaded within the memory budget, and unloaded. One engine is active at a
  time, of a model or of a remote backend. The registry is saved to a file that
  the next manager reads.

  Sizes in MB are exact, as floats are for files below 2^53 bytes.
-/

namespace ModelManager

/-! ### Models -/

/-- The `size_mb` of a model: the size in bytes over 1024 * 1024, rounded by `to_dict` or not. -/
structure SizeMb where
  bytes : Nat
  rounded : Bool
deriving DecidableEq

/-- `os.path.getsize(path) / (1024 * 1024)`. -/
def SizeMb.of (bytes : Nat) : SizeMb := ⟨bytes, false⟩

/-- The number. -/
def SizeMb.value (size : SizeMb) : ℚ :=
  if size.rounded then roundTo 2 (size.bytes / (1024 * 1024)) else size.bytes / (1024 * 1024)

/-- `round(size_mb, 2)`. -/
def SizeMb.round (size : SizeMb) : SizeMb := { size with rounded := true }

theorem SizeMb.value_round (size : SizeMb) : size.round.value = roundTo 2 size.value := by
  obtain ⟨bytes, rounded⟩ := size
  cases rounded with
  | false => rfl
  | true => exact (roundTo_roundTo 2 _).symm

structure ModelInfo where
  name : String
  path : String
  model_type : String
  size_mb : SizeMb
  description : String
  loaded : Bool
deriving DecidableEq

/-- `to_dict`: an entry of the saved registry. -/
def ModelInfo.to_dict (info : ModelInfo) : ModelInfo :=
  { info with size_mb := info.size_mb.round }

/-! ### Engines -/

inductive Engine
  | stub
  | llama_cpp (path : String)
  | onnx (path : String)
  | ollama (model base_url : String)
  | openai (api_key api_base model : String)
deriving DecidableEq

/-- `s.rstrip("/")`. -/
def rstrip_slash (s : String) : String := String.ofList (s.toList.rdropWhile (· = '/'))

/-- `a or b`, for a text that may be `None`. -/
def orElse (a : Option String) (b : String) : String :=
  match a with
  | some text => if text = "" then b else text
  | none => b

def Engine.newOllama (model : String) (base_url : Option String) : Engine :=
  .ollama model (rstrip_slash (orElse base_url "http://localhost:11434"))

/-- `environ_key` is `os.environ.get("OPENAI_API_KEY", "")`. -/
def Engine.newOpenai (model api_key api_base : Option String) (environ_key : String) : Engine :=
  .openai (orElse api_key environ_key)
    (rstrip_slash (orElse api_base "https://api.openai.com/v1")) (orElse model "gpt-4o-mini")

/-- `infer`, `none` where it raises. `ctx_summary` shows the first items of the context, and `reply`
    is what the library or the server answers, if it does. -/
def Engine.infer (repr : String → String) (engine : Engine) (prompt ctx_summary : String)
    (reply : Option String) : Option String :=
  match engine with
  | .stub => some ("[AURA stub — no model loaded]\n" ++ "Query: " ++ repr prompt ++ "\n" ++
      "Context: " ++ (if ctx_summary = "" then "none yet" else ctx_summary) ++ "\n" ++
      "Load a model with:  model load <name>")
  | .llama_cpp _ => reply.map PyStr.strip
  | .onnx _ => some ("[ONNX model] Processed: " ++ prompt)
  | .ollama .. => reply.map PyStr.strip
  | .openai api_key .. => if api_key = "" then none else reply.map PyStr.strip

/-! ### State -/

/-- What is in the file of the registry. -/
inductive Saved
  | missing
  | unreadable
  | models (entries : List ModelInfo)

/-- How an attempt to save the registry ends. -/
inductive Save
  | written
  | failed
  /-- The file has been opened, and its text is cut off. -/
  | cut
deriving DecidableEq

/-- The size in bytes of the file at a path, where there is one. -/
abbrev Disk := String → Option Nat

/-- The manager and what is on the disk. -/
structure State where
  models_dir : String
  max_memory_mb : Int
  registry : Dict String ModelInfo
  active : Option String
  engine : Engine
  saved : Saved
  disk : Disk

def isabs (path : String) : Bool := path.toList.head? = some '/'

/-- `os.path.join(dir, path)`. -/
def join (dir path : String) : String :=
  if isabs path || dir = "" then path
  else if PyStr.endswith dir "/" then dir ++ path
  else dir ++ "/" ++ path

/-! ### Persistence -/

/-- `_load_registry`. -/
def load_registry : Saved → Dict String ModelInfo
  | .missing => .empty
  | .unreadable => .empty
  | .models entries =>
    -- no engine is left from the last run
    entries.foldl (fun registry entry => registry.set entry.name { entry with loaded := false })
      .empty

/-- `_save_registry`. -/
def save_registry (registry : Dict String ModelInfo) (saved : Saved) : Save → Saved
  | .written => .models (registry.values.map ModelInfo.to_dict)
  | .failed => saved
  | .cut => .unreadable

/-- `ModelManager(models_dir, max_memory_mb)`. -/
def new (models_dir : String) (max_memory_mb : Int) (saved : Saved) (disk : Disk) : State :=
  { models_dir, max_memory_mb, registry := load_registry saved, active := none, engine := .stub,
    saved, disk }

/-! ### Operations -/

def register (s : State) (name path model_type description : String) (save : Save) : State :=
  let path := if isabs path then path else join s.models_dir path
  let size_mb := SizeMb.of ((s.disk path).getD 0)
  let info := { name, path, model_type, size_mb, description, loaded := false }
  let registry := s.registry.set name info
  { s with registry, saved := save_registry registry s.saved save }

/-- `_try_load_engine`. `starts` tells whether the library is there and can load the file. -/
def try_load_engine (info : ModelInfo) (starts : Bool) : Option Engine :=
  if info.model_type = "gguf" ∨ info.model_type = "ggml" then
    if starts then some (.llama_cpp info.path) else none
  else if info.model_type = "onnx" then if starts then some (.onnx info.path) else none
  else none

/-- `load`, and what it returns. -/
def load (s : State) (name : String) (starts : Bool) : State × Bool :=
  match s.registry.get name with
  | none => (s, false)
  | some info =>
    if s.disk info.path = none then (s, false)
    else if (s.max_memory_mb : ℚ) < info.size_mb.value then (s, false)
    else
      ({ s with
          engine := (try_load_engine info starts).getD .stub
          active := some name
          registry := s.registry.set name { info with loaded := true } }, true)

/-- The flag of the active entry, when there is one, is taken back. -/
def clear_loaded (registry : Dict String ModelInfo) (active : Option String) :
    Dict String ModelInfo :=
  match active with
  | none => registry
  | some name =>
    if name = "" then registry
    else
      match registry.get name with
      | none => registry
      | some info => registry.set name { info with loaded := false }

def unload (s : State) : State :=
  { s with registry := clear_loaded s.registry s.active, active := none, engine := .stub }

/-- A file in `models_dir`, as `os.scandir` gives it. -/
structure DirEntry where
  name : String
  is_file : Bool
  /-- What becomes of the registry that is saved when the file is registered. -/
  save : Save

def MODEL_EXTENSIONS : List String := [".gguf", ".bin", ".pt", ".ggml", ".onnx"]

/-- `os.path.splitext(name)[1]`: from the last dot on, unless only dots are before it. -/
def splitext (name : String) : String :=
  let last := name.toList.reverse.takeWhile (· ≠ '.')
  let front := (name.toList.reverse.dropWhile (· ≠ '.')).drop 1
  if front.all (· = '.') then "" else String.ofList ('.' :: last.reverse)

/-- `name.rsplit(".", 1)[0]`. -/
def stem (name : String) : String :=
  if '.' ∈ name.toList then
    String.ofList ((name.toList.reverse.dropWhile (· ≠ '.')).drop 1).reverse
  else name

/-- The body of the loop of `scan_models_dir`. -/
def scan_entry (s : State) (entry : DirEntry) : State :=
  let ext := PyStr.lower (splitext entry.name)
  if ¬ entry.is_file then s
  else if ext ∉ MODEL_EXTENSIONS then s
  else if s.registry.get (stem entry.name) ≠ none then s
  else
    register s (stem entry.name) (join s.models_dir entry.name) (PyStr.lstrip ext '.') ""
      entry.save

def scan_models_dir (s : State) (entries : List DirEntry) : State := entries.foldl scan_entry s

/-- `load_ollama`, and what it returns. -/
def load_ollama (s : State) (model : String) (base_url : Option String) (is_available : Bool) :
    State × Bool :=
  if is_available then
    ({ s with engine := .newOllama model base_url, active := some ("ollama:" ++ model) }, true)
  else (s, false)

def load_openai (s : State) (model api_key api_base : Option String) (environ_key : String) :
    State :=
  { s with
    engine := .newOpenai model api_key api_base environ_key
    active := some ("openai:" ++ orElse model "gpt-4o-mini") }

/-! ### Runs -/

/-- What happens to the manager. A call that raises before it changes anything is no step. -/
inductive Label
  | register (name path model_type description : String) (save : Save)
  | scan_models_dir (entries : List DirEntry)
  | load (name : String) (starts : Bool)
  | unload
  | load_ollama (model : String) (base_url : Option String) (is_available : Bool)
  | load_openai (model api_key api_base : Option String) (environ_key : String)
  /-- Files appear, grow, shrink and go. -/
  | change (disk : Disk)
  /-- A new manager for the directory takes over. -/
  | restart (max_memory_mb : Int)

/-- A call of `load`: the size of the file at that moment, the budget, and what is returned. -/
structure Loading where
  name : String
  size : Option Nat
  max_memory_mb : Int
  returned : Bool

/-- The file of a registered model. -/
def file_size (s : State) (name : String) : Option Nat :=
  (s.registry.get name).bind fun info => s.disk info.path

def step (s : State) : Label → State × List Loading
  | .register name path model_type description save =>
    (register s name path model_type description save, [])
  | .scan_models_dir entries => (scan_models_dir s entries, [])
  | .load name starts =>
    let (s', returned) := load s name starts
    (s', [⟨name, file_size s name, s.max_memory_mb, returned⟩])
  | .unload => (unload s, [])
  | .load_ollama model base_url is_available => ((load_ollama s model base_url is_available).1, [])
  | .load_openai model api_key api_base environ_key =>
    (load_openai s model api_key api_base environ_key, [])
  | .change disk => ({ s with disk }, [])
  | .restart max_memory_mb => (new s.models_dir max_memory_mb s.saved s.disk, [])

/-- The manager over time. -/
def machine : Machine State Label Loading where
  step s l := some (step s l)

/-! ### What the operations do -/

theorem machine_step {s s' : State} {l : Label} {os : List Loading}
    (h : machine.step s l = some (s', os)) : s' = (step s l).1 ∧ os = (step s l).2 := by
  have hstep : step s l = (s', os) := Option.some.inj h
  rw [hstep]
  exact ⟨rfl, rfl⟩

/-- **When a model is loaded**: it is registered, its file is there, and its recorded size is
    within the budget. -/
theorem load_iff {s : State} {name : String} {starts : Bool} :
    (load s name starts).2 = true ↔ ∃ info, s.registry.get name = some info ∧
      s.disk info.path ≠ none ∧ ¬ (s.max_memory_mb : ℚ) < info.size_mb.value := by
  unfold load
  cases s.registry.get name with
  | none => simp
  | some info =>
    dsimp only
    split
    · next hnone => simp [hnone]
    · next hsome =>
      split
      · next hover => simp [hover]
      · next hwithin => simpa using ⟨hsome, not_lt.mp hwithin⟩

theorem load_of_false {s : State} {name : String} {starts : Bool}
    (h : (load s name starts).2 = false) : (load s name starts).1 = s := by
  unfold load at h ⊢
  cases hget : s.registry.get name with
  | none => rfl
  | some info =>
    rw [hget] at h
    dsimp only at h ⊢
    split at h
    · next hnone => rw [if_pos hnone]
    · next hsome =>
      rw [if_neg hsome]
      split at h
      · next hover => rw [if_pos hover]
      · cases h

theorem load_of_true {s : State} {name : String} {starts : Bool}
    (h : (load s name starts).2 = true) : ∃ info, s.registry.get name = some info ∧
      (load s name starts).1.active = some name ∧
      (load s name starts).1.registry = s.registry.set name { info with loaded := true } := by
  obtain ⟨info, hget, hfile, hsize⟩ := load_iff.mp h
  refine ⟨info, hget, ?_⟩
  unfold load
  rw [hget]
  dsimp only
  rw [if_neg hfile, if_neg hsize]
  exact ⟨rfl, rfl⟩

/-- What is read from a saved registry is not loaded. -/
theorem load_registry_get {saved : Saved} {name : String} {info : ModelInfo}
    (h : (load_registry saved).get name = some info) :
    info.loaded = false ∧ ∃ entries, saved = .models entries ∧
      ∃ entry ∈ entries, info = { entry with loaded := false } := by
  cases saved with
  | missing => cases h
  | unreadable => cases h
  | models entries =>
    have hfold : ∀ registry : Dict String ModelInfo, (∀ name info, registry.get name = some info →
        ∃ entry ∈ entries, info = { entry with loaded := false }) → ∀ rest, rest ⊆ entries →
        ∀ name info, (rest.foldl (fun registry entry =>
          registry.set entry.name { entry with loaded := false }) registry).get name = some info →
            ∃ entry ∈ entries, info = { entry with loaded := false } := by
      intro registry hregistry rest
      induction rest generalizing registry with
      | nil => exact fun _ => hregistry
      | cons entry rest ih =>
        intro hsub
        refine ih _ (fun name info hget => ?_) fun e he => hsub (List.mem_cons_of_mem _ he)
        rw [Dict.get_set] at hget
        split at hget
        · exact ⟨entry, hsub List.mem_cons_self, (Option.some.inj hget).symm⟩
        · exact hregistry name info hget
    obtain ⟨entry, hentry, rfl⟩ :=
      hfold .empty (fun name info hget => by cases hget) entries (List.Subset.refl _) name info h
    exact ⟨rfl, entries, rfl, entry, hentry, rfl⟩

end ModelManager
