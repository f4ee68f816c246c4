import Aioscpu.Framework.Dict
import Aioscpu.Framework.FileTree

/-! # Build Manifest

  `build_manifest`, `write_manifest`, `load_manifest` and `verify_manifest` of
  `tools/manifest.py`, and `cmd_verify` of `tools/aura_cli.py`.

  A relative path is the list of its names, and the root filesystem is a tree.
  SHA-256, the JSON texts and what the host tells about itself are parameters.
-/

structure Environment where
  python : String
  platform : String
  arch : String
deriving DecidableEq, Repr

/-- What `build_manifest` returns. `T` is the type of the timestamps. -/
structure Manifest (T : Type) where
  version : String
  timestamp : T
  timestamp_note : String
  rootfs : String
  commit : String
  environment : Environment
  file_count : Nat
  total_size : Nat
  files : Dict (List String) String

namespace Manifest

open FileTree (File Listing)

variable {T β : Type}

/-- The host, with contents of files in `β`. -/
structure Host (T β : Type) where
  sha256 : β → String
  getsize : β → Nat
  rootfs : String
  commit : String
  environment : Environment
  /-- `json.dump`. -/
  dumps : Manifest T → β
  /-- `json.load`, which is `none` where it raises. -/
  loads : β → Option (Manifest T)

def MANIFEST_VERSION : String := "1.0"

/-- The default path, below the root filesystem. -/
def MANIFEST_PATH : List String := ["system", "manifest.json"]

def EXCLUDE_PATTERNS : List String :=
  ["aura.db", "aura.db-shm", "aura.db-wal", "boot.log", "override_audit.jsonl",
    "aura_events.log", ".write_probe", ".aura_probe", ".aura_write_probe"]

def EXCLUDE_DIRS : List String := ["tmp", "overlay", "mnt"]

/-- `rel_dir.split(os.sep)[0]`; the root itself is `"."`. -/
def top_dir : List String → String
  | [] => "."
  | name :: _ => name

/-- `top_dir in _EXCLUDE_DIRS`, where both walks clear the directory names and
    go on. -/
def excluded_dir (dirpath : List String) : Bool := EXCLUDE_DIRS.contains (top_dir dirpath)

/-- The text of a relative path. -/
def join (path : List String) : String := "/".intercalate path

/-! ### Building -/

/-- `sorted(filenames)`. -/
def sorted_files (files : List (String × File β)) : List (String × File β) :=
  files.mergeSort fun a b => decide (a.1 ≤ b.1)

/-- The body of the inner loop of `build_manifest`, for a file that is not
    excluded: `files[rel_path] = digest` and `total_size += ...`. -/
def record (host : Host T β) (acc : Dict (List String) String × Nat) (rel_path : List String)
    (f : File β) : Dict (List String) String × Nat :=
  if f.readable then
    (acc.1.set rel_path (host.sha256 f.content), acc.2 + host.getsize f.content)
  else acc

/-- The body of the walk of `build_manifest`. -/
def build_dir (host : Host T β) (acc : Dict (List String) String × Nat)
    (dir : List String × List (String × File β)) : Dict (List String) String × Nat :=
  if excluded_dir dir.1 then acc
  else
    (sorted_files dir.2).foldl
      (fun acc entry =>
        if EXCLUDE_PATTERNS.contains entry.1 then acc
        else record host acc (dir.1 ++ [entry.1]) entry.2)
      acc

/-- What the walk of `build_manifest` collects. -/
def build_files (host : Host T β) (tree : FileTree β) : Dict (List String) String × Nat :=
  (tree.listing.walk excluded_dir).foldl (build_dir host) (.empty, 0)

/-- The order of the items of a dictionary of paths. -/
def item_le (a b : List String × String) : Bool :=
  decide (join a.1 < join b.1 ∨ join a.1 = join b.1 ∧ a.2 ≤ b.2)

/-- `build_manifest`, at the time `now`. -/
def build_manifest (host : Host T β) (now : T) (tree : FileTree β) : Manifest T :=
  let r := build_files host tree
  { version := MANIFEST_VERSION
    timestamp := now
    timestamp_note := "timestamps are the only non-deterministic field"
    rootfs := host.rootfs
    commit := host.commit
    environment := host.environment
    file_count := r.1.items.length
    total_size := r.2
    files := r.1.sort item_le }

/-! ### Verifying -/

inductive Diff where
  | MISSING (rel_path : List String)
  | MODIFIED (rel_path : List String) (expected_hash actual_hash : String)
  | NEW (rel_path : List String)
deriving DecidableEq, Repr

namespace Diff

/-- The path that a discrepancy names. -/
def path : Diff → List String
  | MISSING rel_path => rel_path
  | MODIFIED rel_path _ _ => rel_path
  | NEW rel_path => rel_path

/-- The first 16 characters of a digest. -/
def short (digest : String) : String := String.ofList (digest.toList.take 16)

/-- The text that `verify_manifest` returns. -/
def text : Diff → String
  | MISSING rel_path => s!"MISSING  {join rel_path}"
  | MODIFIED rel_path expected_hash actual_hash =>
    s!"MODIFIED {join rel_path}\n  expected {short expected_hash}...\n" ++
      s!"  actual   {short actual_hash}..."
  | NEW rel_path => s!"NEW      {join rel_path}"

end Diff

inductive Error where
  /-- The file cannot be opened. -/
  | os_error (rel_path : List String)
  /-- The file holds no manifest. -/
  | json_error
deriving DecidableEq, Repr

/-- What `verify_manifest` says about a recorded file. -/
def check (host : Host T β) (tree : FileTree β) (rel_path : List String) (expected_hash : String) :
    Except Error (List Diff) :=
  match tree.lookup rel_path with
  | none => .ok [.MISSING rel_path]
  | some f =>
    if f.readable then
      let actual_hash := host.sha256 f.content
      .ok (if actual_hash ≠ expected_hash then [.MODIFIED rel_path expected_hash actual_hash]
        else [])
    else .error (.os_error rel_path)

/-- The loop of `verify_manifest` over the recorded files. -/
def check_all (host : Host T β) (tree : FileTree β) :
    List (List String × String) → Except Error (List Diff)
  | [] => .ok []
  | item :: items => do
    let diffs ← check host tree item.1 item.2
    let rest ← check_all host tree items
    return diffs ++ rest

/-- The walk of `verify_manifest`: the files that are not recorded. -/
def new_files (expected : Dict (List String) String) (tree : FileTree β) : List Diff :=
  (tree.listing.walk excluded_dir).flatMap fun dir =>
    if excluded_dir dir.1 then []
    else
      dir.2.filterMap fun entry =>
        if EXCLUDE_PATTERNS.contains entry.1 then none
        else if expected.keys.contains (dir.1 ++ [entry.1]) then none
        else some (.NEW (dir.1 ++ [entry.1]))

/-- `verify_manifest`, of this tree. -/
def verify_manifest (host : Host T β) (manifest : Manifest T) (tree : FileTree β) :
    Except Error (Bool × List Diff) := do
  let diffs ← check_all host tree manifest.files.items
  let diffs := diffs ++ new_files manifest.files tree
  return (diffs.length = 0, diffs)

/-! ### Writing and loading -/

/-- `write_manifest` to the default path. -/
def write_manifest (host : Host T β) (manifest : Manifest T) (tree : FileTree β) :
    Except Error (FileTree β) :=
  match tree.write (host.dumps manifest) MANIFEST_PATH with
  | none => .error (.os_error MANIFEST_PATH)
  | some tree => .ok tree

/-- `load_manifest` from the default path. -/
def load_manifest (host : Host T β) (tree : FileTree β) : Except Error (Manifest T) :=
  match tree.lookup MANIFEST_PATH with
  | none => .error (.os_error MANIFEST_PATH)
  | some f =>
    if f.readable then
      match host.loads f.content with
      | none => .error .json_error
      | some manifest => .ok manifest
    else .error (.os_error MANIFEST_PATH)

/-- The manifest of a tree is built at `now`, written into the tree, loaded again
    and verified. -/
def build_and_verify (host : Host T β) (now : T) (tree : FileTree β) :
    Except Error (Bool × List Diff) := do
  let tree ← write_manifest host (build_manifest host now tree) tree
  let manifest ← load_manifest host tree
  verify_manifest host manifest tree

/-- The exit code of `cmd_verify`. -/
def cmd_verify (host : Host T β) (tree : FileTree β) : Nat :=
  match tree.lookup MANIFEST_PATH with
  | none => 1
  | some _ =>
    match load_manifest host tree >>= fun manifest => verify_manifest host manifest tree with
    | .ok (true, _) => 0
    | .ok (false, _) => 1
    | .error _ => 2

/-- The exit code of `aura build --verify`, once the build script has succeeded.
    What goes wrong with the manifest is only reported. -/
def cmd_build_verify (host : Host T β) (now : T) (tree : FileTree β) : Nat :=
  match write_manifest host (build_manifest host now tree) tree with
  | .ok tree => cmd_verify host tree
  | .error _ => cmd_verify host tree

end Manifest
