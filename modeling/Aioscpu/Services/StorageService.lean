import Aioscpu.Framework.FileSystem
import Aioscpu.Framework.Machine
import Aioscpu.Framework.PyStr

/-! # Storage Service

  The storage service of `services/storage_service.py` over a file system
  without symbolic links. A path is the list of its components from the top,
  as the code joins it: `..` and empty components are still in it.

  A file operation fails where the file system has no place for it. Whatever
  else happens to the files, by other programs, is a label of its own.
-/

namespace StorageService

/-- `PARTITIONS`, with `writable`. -/
def PARTITIONS : List (String × Bool) :=
  [("boot", false), ("system", false), ("user", true), ("overlay", true), ("aura", true),
    ("services", true), ("var", true), ("tmp", true), ("etc", false), ("bin", false),
    ("home", true), ("mnt", true)]

/-- `PARTITIONS.get(partition, {}).get("writable", True)`. -/
def writable (partition : String) : Bool := (PARTITIONS.lookup partition).getD true

/-! ### Paths -/

/-- `os.path.isabs`. -/
def isabs (path : String) : Bool := path.toList.head? = some '/'

/-- Where a path starts. -/
def base (cwd : Dir) (path : String) : Dir := if isabs path then Dir.top else cwd

/-- `os.path.abspath`. -/
def abspath (cwd : Dir) (path : String) : Dir := (base cwd path).walk (PyStr.split path '/')

/-- `os.path.join(self._rootfs, rel_path)`: an absolute path drops the prefix. -/
def join (rootfs : Dir) (rel_path : String) : List String :=
  if isabs rel_path then PyStr.split rel_path '/'
  else rootfs.names ++ PyStr.split rel_path '/'

/-- `rel_path.lstrip("/").split("/")`. -/
def parts (rel_path : String) : List String := PyStr.split (PyStr.lstrip rel_path '/') '/'

/-- `os.path.join(self._rootfs, "overlay", rel_path.lstrip("/"))`. -/
def overlay (rootfs : Dir) (rel_path : String) : List String :=
  rootfs.names ++ "overlay" :: parts rel_path

/-! ### The service -/

variable {β : Type}

structure State (β : Type) where
  fs : FileSystem β
  cwd : Dir
  rootfs : Dir
  layout_path : List String
  running : Bool

inductive Access where
  | read
  | created
  | overwritten
  | deleted
deriving DecidableEq, Repr

inductive Obs (β : Type) where
  /-- The service has accessed a file, with its rootfs at that time. -/
  | accessed (rootfs : Dir) (access : Access) (d : Dir)
  /-- `write_file` has returned. -/
  | wrote (rel_path : String) (data : β)
  /-- `read_file` has returned. -/
  | got (rel_path : String) (data : β)
  /-- `mount_sd_rootfs` has returned. -/
  | mounted (ok : Bool)
  | raised
deriving DecidableEq

/-- `StorageService.__init__`. -/
def init (fs : FileSystem β) (cwd : Dir) (rootfs_path : String) : State β where
  fs := fs
  cwd := cwd
  rootfs := abspath cwd rootfs_path
  layout_path := (abspath cwd rootfs_path).names ++ ["layout.json"]
  running := false

/-- `open(path, "wb")` with a write; `none` where it raises. -/
def store (s : State β) (path : List String) (data : β) : Option (State β × List (Obs β)) :=
  (s.fs.write path data).map fun r =>
    ({ s with fs := r.1 },
      [.accessed s.rootfs (if (s.fs.file r.2).isSome then .overwritten else .created) r.2])

/-- `_ensure_partitions`, and whether it returns. -/
def ensure_partitions (rootfs : Dir) :
    FileSystem β → List (String × Bool) → FileSystem β × Bool
  | fs, [] => (fs, true)
  | fs, (name, _) :: partitions =>
    match fs.makedirs Dir.top (rootfs.names ++ [name]) with
    | (fs', true) => ensure_partitions rootfs fs' partitions
    | (fs', false) => (fs', false)

/-- The files below a directory. -/
def filesBelow (fs : FileSystem β) (d : Dir) : List Dir :=
  fs.entries.keys.filter fun x => x.Below d ∧ (fs.file x).isSome

/-- `_clear_tmp`. -/
def clear_tmp (s : State β) : State β × List (Obs β) :=
  let tmp := s.rootfs.enter "tmp"
  if s.fs.lookup Dir.top (s.rootfs.names ++ ["tmp"]) = some tmp ∧ s.fs.isdir tmp then
    ({ s with fs := s.fs.clear tmp },
      (filesBelow s.fs tmp).map (.accessed s.rootfs .deleted))
  else (s, [])

/-- `_write_layout`, which skips a file system that it cannot write to. -/
def write_layout (s : State β) (layout : β) : State β × List (Obs β) :=
  (store s s.layout_path layout).getD (s, [])

/-- `start`, with the text of the layout. -/
def start (s : State β) (layout : β) : State β × List (Obs β) :=
  if s.running then (s, [])
  else
    match ensure_partitions s.rootfs s.fs PARTITIONS with
    | (fs, false) => ({ s with fs, running := true }, [.raised])
    | (fs, true) =>
      let cleared := clear_tmp { s with fs, running := true }
      let written := write_layout cleared.1 layout
      (written.1, cleared.2 ++ written.2)

/-- `stop`. -/
def stop (s : State β) : State β := { s with running := false }

/-- `ensure_writable`; no path where it raises. -/
def ensure_writable (s : State β) (rel_path : String) : State β × Option (List String) :=
  if writable ((parts rel_path).headD "") then (s, some (join s.rootfs rel_path))
  else
    match s.fs.makedirs Dir.top (overlay s.rootfs rel_path).dropLast with
    | (fs, true) => ({ s with fs }, some (overlay s.rootfs rel_path))
    | (fs, false) => ({ s with fs }, none)

/-- The file that `read_file` opens: the overlay comes first. -/
def find (s : State β) (rel_path : String) : Option (Dir × β) :=
  (s.fs.read (overlay s.rootfs rel_path)).or (s.fs.read (join s.rootfs rel_path))

/-- `read_file`. -/
def read_file (s : State β) (rel_path : String) : List (Obs β) :=
  match find s rel_path with
  | some (d, data) => [.accessed s.rootfs .read d, .got rel_path data]
  | none => [.raised]

/-- The end of `write_file`: the directory of the file is made, and the file is written. -/
def write_to (s : State β) (rel_path : String) (data : β) (dest : List String) :
    State β × List (Obs β) :=
  match s.fs.makedirs Dir.top dest.dropLast with
  | (fs, false) => ({ s with fs }, [.raised])
  | (fs, true) =>
    match store { s with fs } dest data with
    | some (s, os) => (s, os ++ [.wrote rel_path data])
    | none => ({ s with fs }, [.raised])

/-- `write_file`. -/
def write_file (s : State β) (rel_path : String) (data : β) (force_overlay : Bool) :
    State β × List (Obs β) :=
  if force_overlay then write_to s rel_path data (overlay s.rootfs rel_path)
  else
    match ensure_writable s rel_path with
    | (s, some dest) => write_to s rel_path data dest
    | (s, none) => (s, [.raised])

/-- `mount_sd_rootfs`. -/
def mount_sd_rootfs (s : State β) (sd_path : String) : State β × List (Obs β) :=
  let marker := PyStr.split sd_path '/' ++ ["etc", "aura.conf"]
  if ((s.fs.lookup (base s.cwd sd_path) marker).bind s.fs.file).isNone then (s, [.mounted false])
  else
    let rootfs := abspath s.cwd sd_path
    match ensure_partitions rootfs s.fs PARTITIONS with
    | (fs, true) => ({ s with fs, rootfs }, [.mounted true])
    | (fs, false) => ({ s with fs, rootfs }, [.raised])

inductive Label (β : Type) where
  | start (layout : β)
  | stop
  | mount_sd_rootfs (sd_path : String)
  | write_file (rel_path : String) (data : β) (force_overlay : Bool)
  | read_file (rel_path : String)
  /-- Other programs change the files. -/
  | world (fs : FileSystem β)

/-- What a call does. -/
def call (s : State β) : Label β → State β × List (Obs β)
  | .start layout => start s layout
  | .stop => (stop s, [])
  | .mount_sd_rootfs sd_path => mount_sd_rootfs s sd_path
  | .write_file rel_path data force_overlay => write_file s rel_path data force_overlay
  | .read_file rel_path => (s, read_file s rel_path)
  | .world fs => ({ s with fs }, [])

def machine : Machine (State β) (Label β) (Obs β) where
  step := fun s l => some (call s l)

/-! ### Writes -/

/-- Where `write_file` writes. -/
def destination (rootfs : Dir) (rel_path : String) (force_overlay : Bool) : List String :=
  if ¬ force_overlay ∧ writable ((parts rel_path).headD "") then join rootfs rel_path
  else overlay rootfs rel_path

/-- Whether the directories of a file can be made, and the file opened. -/
def reachable (fs : FileSystem β) (dest : List String) : Bool :=
  let (fs, ok) := fs.makedirs Dir.top dest.dropLast
  ok && fs.opens dest

/-- What a call of `write_file` can do: it raises, and makes directories at most, or the file
    is where its destination leads. -/
inductive Writes (s : State β) (rel_path : String) (data : β) (dest : List String) :
    State β → List (Obs β) → Prop where
  | raises (fs : FileSystem β) (hext : s.fs.Extends fs)
      (hunreachable : reachable s.fs dest = false) :
      Writes s rel_path data dest { s with fs } [.raised]
  | writes (fs : FileSystem β) (access : Access) (hreachable : reachable s.fs dest = true)
      (hdirs : s.fs.DirsIn fs)
      (hfile : ∀ x, fs.file x = if x = Dir.top.walk dest then some data else s.fs.file x)
      (hread : fs.read dest = some (Dir.top.walk dest, data)) :
      Writes s rel_path data dest { s with fs }
        [.accessed s.rootfs access (Dir.top.walk dest), .wrote rel_path data]

theorem write_to_sound (s : State β) (rel_path : String) (data : β) (dest : List String) :
    Writes s rel_path data dest (write_to s rel_path data dest).1
      (write_to s rel_path data dest).2 := by
  unfold write_to
  cases hmake : s.fs.makedirs Dir.top dest.dropLast with
  | mk fs ok =>
    obtain ⟨hext, -⟩ := FileSystem.makedirs_spec (FileSystem.isdir_top _) hmake
    cases ok with
    | false => exact .raises fs hext (by simp [reachable, hmake])
    | true =>
      have hreach : reachable s.fs dest = fs.opens dest := by simp [reachable, hmake]
      simp only [store]
      cases hwrite : fs.write dest data with
      | none =>
        exact .raises fs hext (hreach.trans (FileSystem.write_eq_none_iff.mp hwrite))
      | some r =>
        obtain ⟨fs', d⟩ := r
        obtain ⟨rfl, -, hdirs, hfile, hread⟩ := FileSystem.write_spec hwrite
        refine .writes fs' _ ?_ (hext.dirs.trans hdirs) (fun x => ?_) hread
        · rw [hreach, ← Bool.not_eq_false]
          intro hfalse
          rw [FileSystem.write_eq_none_iff.mpr hfalse] at hwrite
          cases hwrite
        · rw [hfile, hext.files]

/-- The directories that `ensure_writable` makes are those that the write needs. -/
theorem write_file_eq (s : State β) (rel_path : String) (data : β) (force_overlay : Bool) :
    write_file s rel_path data force_overlay =
      write_to s rel_path data (destination s.rootfs rel_path force_overlay) := by
  unfold write_file destination
  cases force_overlay with
  | true => rfl
  | false =>
    unfold ensure_writable
    by_cases hwritable : writable ((parts rel_path).headD "") = true
    · simp only [hwritable, if_true, Bool.false_eq_true, if_false, not_false_eq_true, and_self]
    · simp only [hwritable, Bool.false_eq_true, not_false_eq_true, and_false, if_false]
      cases hmake : s.fs.makedirs Dir.top (overlay s.rootfs rel_path).dropLast with
      | mk fs ok =>
        obtain ⟨-, hok⟩ := FileSystem.makedirs_spec (FileSystem.isdir_top _) hmake
        cases ok with
        | false => simp [write_to, hmake]
        | true =>
          obtain ⟨hlookup, hdir⟩ := hok rfl
          -- the second call of `makedirs` finds all of them
          simp [write_to, hmake, FileSystem.makedirs_of_lookup hlookup hdir]

theorem write_file_sound (s : State β) (rel_path : String) (data : β) (force_overlay : Bool) :
    Writes s rel_path data (destination s.rootfs rel_path force_overlay)
      (write_file s rel_path data force_overlay).1
      (write_file s rel_path data force_overlay).2 := by
  rw [write_file_eq]
  exact write_to_sound ..

end StorageService
