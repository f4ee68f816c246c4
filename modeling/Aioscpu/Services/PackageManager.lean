import Aioscpu.Framework.Dict
import Aioscpu.Framework.Machine
import Aioscpu.Framework.PyStr

/-! # Package Manager

  The package manager of `services/package_manager.py`, with the registry file that it
  keeps. All writes of the file succeed, and the file holds the document that
  `json.load` reads back. How a call of pip ends is up to the environment.

  `T` is the type of clock readings. None of them is zero, so `installed_at or time.time()`
  reads the clock only where `installed_at` is missing.
-/

structure PackageRecord (T : Type) where
  name : String
  version : String
  description : String
  installed_at : T

/-- An object of the document, with the fields that it has. -/
structure PackageEntry (T : Type) where
  name : Option String
  version : Option String
  description : Option String
  installed_at : Option T

/-- The document in `packages.json`. -/
structure PackageDocument (T : Type) where
  updated : T
  packages : List (PackageEntry T)

namespace PackageRecord

variable {T : Type}

/-- `PackageRecord.to_dict`. -/
def to_dict (self : PackageRecord T) : PackageEntry T :=
  { name := some self.name
    version := some self.version
    description := some self.description
    installed_at := some self.installed_at }

/-- `PackageRecord.from_dict`, with the reading of the clock. -/
def from_dict (d : PackageEntry T) (now : T) : PackageRecord T :=
  { name := d.name.getD ""
    version := d.version.getD ""
    description := d.description.getD ""
    installed_at := d.installed_at.getD now }

@[simp] theorem from_to_dict (self : PackageRecord T) (now : T) :
    from_dict self.to_dict now = self := rfl

end PackageRecord

/-- The records by the names of their packages. -/
structure Packages (T : Type) where
  records : Dict String (PackageRecord T)
  named : ∀ name rec, records.get name = some rec → rec.name = name

namespace Packages

variable {T : Type}

def empty : Packages T := ⟨.empty, fun _ _ h => (nomatch h)⟩

def get (self : Packages T) (name : String) : Option (PackageRecord T) := self.records.get name

/-- `self._registry[rec.name] = rec`. -/
def put (self : Packages T) (rec : PackageRecord T) : Packages T where
  records := self.records.set rec.name rec
  named := by
    intro name rec' h
    rw [Dict.get_set] at h
    split at h
    · next heq => exact Option.some.inj h ▸ heq.symm
    · exact self.named name rec' h

/-- `self._registry.pop(name, None)`. -/
def pop (self : Packages T) (name : String) : Packages T where
  records := self.records.erase name
  named := by
    intro name' rec h
    rw [Dict.get_erase] at h
    split at h
    · exact (nomatch h)
    · exact self.named name' rec h

/-- `[r.to_dict() for r in self._registry.values()]`. -/
def to_list (self : Packages T) : List (PackageEntry T) :=
  self.records.values.map PackageRecord.to_dict

@[simp] theorem get_empty (name : String) : (empty : Packages T).get name = none := rfl

theorem get_put (self : Packages T) (rec : PackageRecord T) (name : String) :
    (self.put rec).get name = if name = rec.name then some rec else self.get name :=
  Dict.get_set ..

theorem get_pop (self : Packages T) (name name' : String) :
    (self.pop name).get name' = if name' = name then none else self.get name' :=
  Dict.get_erase ..

/-- A package that is not there is not taken away. -/
theorem pop_eq_self_iff (self : Packages T) (name : String) :
    self.pop name = self ↔ self.get name = none := by
  constructor
  · intro h
    have hget := self.get_pop name name
    rw [h, if_pos rfl] at hget
    exact hget
  · intro hnone
    obtain ⟨records, named⟩ := self
    have hrecords : records.erase name = records := Dict.erase_of_get_eq_none hnone
    unfold pop
    congr

end Packages

/-- The manager with its file, if that exists. -/
structure PackageManager (T : Type) where
  /-- Whether there is an event bus. -/
  event_bus : Bool
  registry : Packages T
  file : Option (PackageDocument T)

namespace PackageManager

variable {T : Type}

/-- How `subprocess.run` ends for pip. -/
inductive PipRun where
  | completed (returncode : Int) (stderr stdout : String)
  /-- It raises `TimeoutExpired`. -/
  | timed_out (text : String)
  /-- It raises another `Exception`. -/
  | raised (text : String)

/-- What `pip show` prints, for the version and for the summary; `none` where the
    call raises. -/
structure Shown where
  version : Option String
  summary : Option String

/-- The readings of the clock for a record and for the document. -/
structure Stamps (T : Type) where
  installed_at : T
  updated : T

structure Result where
  success : Bool
  message : String
  package : String
deriving DecidableEq

inductive Obs where
  /-- pip is called, with the time that it has. -/
  | pip (args : List String) (timeout : Nat)
  /-- An event is handed to the bus. -/
  | published (event_type : String) (payload : List (String × String))
  | returned (result : Result)
deriving DecidableEq

/-! ### Persistence -/

/-- `PackageManager._load_registry`, with the readings of the clock for what is
    missing. -/
def load_registry (file : Option (PackageDocument T)) (clock : Nat → T) : Packages T :=
  match file with
  | none => .empty
  | some data =>
    (data.packages.zipIdx.map fun entry => PackageRecord.from_dict entry.1 (clock entry.2)).foldl
      Packages.put .empty

/-- `PackageManager._save_registry`. -/
def save_registry (self : PackageManager T) (updated : T) : PackageManager T :=
  { self with file := some ⟨updated, self.registry.to_list⟩ }

/-- `PackageManager.__init__` on this file. -/
def init (event_bus : Bool) (file : Option (PackageDocument T)) (clock : Nat → T) :
    PackageManager T := ⟨event_bus, load_registry file clock, file⟩

/-! ### Calls of pip -/

/-- The field of that name in what `pip show` prints. -/
def pip_show (field default : String) : Option String → String
  | none => default
  | some stdout =>
    match (PyStr.splitlines stdout).find? (PyStr.startswith · field) with
    | none => default
    | some line => PyStr.strip (String.ofList ((line.toList.dropWhile (· ≠ ':')).tail))

/-- `PackageManager._pip_show_version`. -/
def pip_show_version (stdout : Option String) : String := pip_show "Version:" "unknown" stdout

/-- `PackageManager._pip_show_description`. -/
def pip_show_description (stdout : Option String) : String := pip_show "Summary:" "" stdout

/-- What is said of a call that pip ends with another code than 0. -/
def failure (stderr stdout : String) : String :=
  let err := if PyStr.strip stderr = "" then PyStr.strip stdout else PyStr.strip stderr
  "pip failed: " ++ String.ofList (err.toList.take 300)

def install_args (package : String) (upgrade : Bool) : List String :=
  ["-m", "pip", "install", package, "--quiet", "--no-input"] ++
    if upgrade then ["--upgrade"] else []

def uninstall_args (package : String) : List String :=
  ["-m", "pip", "uninstall", package, "-y", "--quiet"]

/-- `PackageManager._publish_event`; what the bus raises is logged. -/
def publish_event (self : PackageManager T) (event_type : String)
    (payload : List (String × String)) : List Obs :=
  if self.event_bus then [.published event_type payload] else []

/-! ### Operations -/

section operations

-- `str.lower`
variable (lower : String → String)

/-- `PackageManager.install`. -/
def install (self : PackageManager T) (package : String) (upgrade : Bool) (pip : PipRun)
    (shown : Shown) (now : Stamps T) : PackageManager T × List Obs :=
  let run := Obs.pip (install_args package upgrade) 120
  match pip with
  | .completed returncode stderr stdout =>
    if returncode = 0 then
      let version := pip_show_version shown.version
      let rec' : PackageRecord T :=
        { name := lower package
          version
          description := pip_show_description shown.summary
          installed_at := now.installed_at }
      let installed := { self with registry := self.registry.put rec' }
      (installed.save_registry now.updated,
        run :: self.publish_event "PKG_INSTALLED" [("name", package), ("version", version)] ++
          [.returned ⟨true, package ++ " " ++ version ++ " installed successfully.", package⟩])
    else (self, [run, .returned ⟨false, failure stderr stdout, package⟩])
  | .timed_out _ => (self, [run, .returned ⟨false, "pip timed out.", package⟩])
  | .raised text => (self, [run, .returned ⟨false, text, package⟩])

/-- `PackageManager.upgrade`. -/
def upgrade (self : PackageManager T) (package : String) (pip : PipRun) (shown : Shown)
    (now : Stamps T) : PackageManager T × List Obs :=
  self.install lower package true pip shown now

/-- `PackageManager.uninstall`. -/
def uninstall (self : PackageManager T) (package : String) (pip : PipRun) (updated : T) :
    PackageManager T × List Obs :=
  let run := Obs.pip (uninstall_args package) 60
  match pip with
  | .completed returncode stderr stdout =>
    -- the package goes whatever pip says
    let removed :=
      save_registry { self with registry := self.registry.pop (lower package) } updated
    if returncode = 0 then
      (removed, run :: self.publish_event "PKG_REMOVED" [("name", package)] ++
        [.returned ⟨true, package ++ " removed.", package⟩])
    else (removed, [run, .returned ⟨false, failure stderr stdout, package⟩])
  | .timed_out text => (self, [run, .returned ⟨false, text, package⟩])
  | .raised text => (self, [run, .returned ⟨false, text, package⟩])

/-- `PackageManager.is_installed`. -/
def is_installed (self : PackageManager T) (package : String) : Bool :=
  (self.registry.get (lower package)).isSome

/-! ### Runs -/

inductive Label (T : Type) where
  | install (package : String) (upgrade : Bool) (pip : PipRun) (shown : Shown) (now : Stamps T)
  | upgrade (package : String) (pip : PipRun) (shown : Shown) (now : Stamps T)
  | uninstall (package : String) (pip : PipRun) (updated : T)
  /-- A new manager is made on the file. -/
  | restart (clock : Nat → T)

/-- The operations and restarts, one after the other. -/
def machine : Machine (PackageManager T) (Label T) Obs where
  step := fun s l =>
    match l with
    | .install package upgrade pip shown now => some (s.install lower package upgrade pip shown now)
    | .upgrade package pip shown now => some (s.upgrade lower package pip shown now)
    | .uninstall package pip updated => some (s.uninstall lower package pip updated)
    | .restart clock => some (init s.event_bus s.file clock, [])

end operations

end PackageManager
