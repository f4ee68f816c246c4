import Aioscpu.Build.Assembly

/-! # Build Service

  `_do_rebuild` and `verify_integrity` of `services/build_service.py`. A build
  that fails, or that finds another one going on, is `none`.
-/

namespace BuildService

open Build

variable {T β : Type}

/-! ### Rebuild -/

/-- `_required_dirs`, below the target. -/
def required_dirs : List Dir :=
  ["bin", "etc", "home", "tmp", "usr/bin", "usr/lib", "var/log", "var/run"].map fun d =>
    rootfs_dst.walk (PyStr.split d '/')

/-- The files that `_copy_tree` does not copy. -/
def skip (name : String) : Bool := PyStr.endswith name ".pyc"

/-- `shutil.ignore_patterns("__pycache__", "*.pyc")`. -/
def ignore (name : String) : Bool := name = "__pycache__" || PyStr.endswith name ".pyc"

def docstring : String := "\"\"\"AURA-AIOSCPU launcher.\"\"\"\n"

/-- `rootfs_dst/bin/aura`. -/
def entry_point : Dir := (rootfs_dst.enter "bin").enter "aura"

/-- The entry points, with their texts. -/
def launchers (host : Host T β) : List (Dir × β) :=
  [(dist_dir.enter "aura", host.encode (launcher docstring
      ("sys.path.insert(0, os.path.join(" ++ "os.path.dirname(os.path.abspath(__file__))," ++
        " 'rootfs', 'usr', 'lib', 'aura'))"))),
    (entry_point, host.encode (launcher docstring "sys.path.insert(0, '/usr/lib/aura')"))]

/-- `_do_rebuild`, at a time. -/
def do_rebuild (host : Host T β) (build_time : String) (fs : FileSystem β) :
    Option (FileSystem β) := do
  let fs ← fs.mkdirs dist_dir
  let fs ← assemble required_dirs skip ignore (launchers host) fs
  write_manifest host build_time none fs

theorem required_within : ∀ d ∈ dist_dir :: required_dirs, d.Within dist_dir := by decide

theorem launchers_nodup (host : Host T β) : ((launchers host).map Prod.fst).Nodup := by
  show [dist_dir.enter "aura", entry_point].Nodup
  decide

theorem launchers_within (host : Host T β) : ∀ file ∈ launchers host, file.1.Within dist_dir := by
  intro file hfile
  have hmem : file.1 ∈ [dist_dir.enter "aura", entry_point] :=
    List.mem_map_of_mem (f := Prod.fst) hfile
  have hall : ∀ d ∈ [dist_dir.enter "aura", entry_point], d.Within dist_dir := by decide
  exact hall _ hmem

/-- The directory `dist/` is one of those that are made. -/
theorem assemble_cons (d : Dir) (required : List Dir) (skip ignore : String → Bool)
    (files : List (Dir × β)) (fs : FileSystem β) :
    assemble (d :: required) skip ignore files fs =
      (fs.mkdirs d).bind fun fs => assemble required skip ignore files fs := by
  unfold assemble layout
  rw [List.foldlM_cons]
  cases fs.mkdirs d with
  | none => rfl
  | some fs => rfl

/-- **What a rebuild leaves**: the assembly, and the manifest of the sources. -/
theorem do_rebuild_spec {host : Host T β} {build_time : String} {before fs : FileSystem β}
    (h : do_rebuild host build_time before = some fs) :
    ∃ assembled, Assembled (dist_dir :: required_dirs) skip ignore (launchers host) before
        assembled ∧
      (∃ manifest : Manifest T, checksums host.sha256 assembled = some manifest.files ∧
        fs.file manifest_path = some (host.dumps manifest)) ∧
      ∀ x, x ≠ manifest_path → fs.get x = assembled.get x := by
  obtain ⟨fs₁, hmake, h⟩ := Option.bind_eq_some_iff.mp h
  obtain ⟨assembled, hassemble, hwrite⟩ := Option.bind_eq_some_iff.mp h
  refine ⟨assembled, assemble_spec required_within (launchers_nodup host)
    (launchers_within host) ?_, write_manifest_spec hwrite⟩
  rw [assemble_cons, hmake]
  exact hassemble

/-! ### Integrity -/

/-- What `verify_integrity` returns. -/
structure Report where
  total_files : Nat
  changed_files : List Dir
  has_baseline : Bool
  integrity_ok : Bool
deriving DecidableEq

/-- `last_manifest`: nothing when there is no manifest. -/
def last_manifest (host : Host T β) (fs : FileSystem β) : Dict Dir String :=
  ((fs.file manifest_path).bind host.loads).getD .empty

/-- `rel in last_manifest and last_manifest[rel] != chk`. -/
def changed (last : Dict Dir String) (item : Dir × String) : Bool :=
  match last.get item.1 with
  | some chk => chk ≠ item.2
  | none => false

/-- `verify_integrity`; `none` where it raises. -/
def verify_integrity (host : Host T β) (fs : FileSystem β) : Option Report :=
  (checksums host.sha256 fs).map fun files =>
    let last := last_manifest host fs
    let changed_files := (files.items.filter (changed last)).map Prod.fst
    { total_files := files.items.length
      changed_files
      has_baseline := !last.items.isEmpty
      integrity_ok := !last.items.isEmpty && changed_files.isEmpty }

/-- What is listed as changed: the sources for which the manifest has another checksum. -/
theorem verify_integrity_spec {host : Host T β} {fs : FileSystem β} {report : Report}
    (h : verify_integrity host fs = some report) :
    (∀ p, p ∈ report.changed_files ↔ Checked p ∧ ∃ content hash, fs.file p = some content ∧
      (last_manifest host fs).get p = some hash ∧ hash ≠ host.sha256 content) ∧
    report.changed_files.Nodup ∧
    (report.integrity_ok = true ↔
      (∃ p hash, (last_manifest host fs).get p = some hash) ∧ report.changed_files = []) := by
  obtain ⟨files, hfiles, rfl⟩ := Option.map_eq_some_iff.mp h
  dsimp only
  refine ⟨fun p => ?_, files.nodup.sublist (List.filter_sublist.map Prod.fst), ?_⟩
  · rw [List.mem_map]
    constructor
    · rintro ⟨⟨p, chk⟩, hmem, rfl⟩
      obtain ⟨hitem, hchanged⟩ := List.mem_filter.mp hmem
      have hget := Dict.get_of_mem hitem
      rw [checksums_get hfiles] at hget
      split at hget
      · next hchecked =>
        obtain ⟨content, hfile, rfl⟩ := Option.map_eq_some_iff.mp hget
        refine ⟨hchecked, content, ?_⟩
        unfold changed at hchanged
        split at hchanged
        · next hash hlast => exact ⟨hash, hfile, hlast, of_decide_eq_true hchanged⟩
        · cases hchanged
      · cases hget
    · rintro ⟨hchecked, content, hash, hfile, hlast, hne⟩
      have hget : files.get p = some (host.sha256 content) := by
        rw [checksums_get hfiles, if_pos hchecked, hfile]
        rfl
      refine ⟨(p, host.sha256 content), List.mem_filter.mpr ⟨Dict.mem_of_get hget, ?_⟩, rfl⟩
      unfold changed
      rw [hlast]
      exact decide_eq_true hne
  · rw [Bool.and_eq_true, List.isEmpty_iff]
    refine and_congr ?_ Iff.rfl
    rw [Bool.not_eq_true', List.isEmpty_eq_false_iff_exists_mem]
    constructor
    · rintro ⟨⟨p, hash⟩, hmem⟩
      exact ⟨p, hash, Dict.get_of_mem hmem⟩
    · rintro ⟨p, hash, hget⟩
      exact ⟨(p, hash), Dict.mem_of_get hget⟩

theorem verify_integrity_isSome {host : Host T β} {fs : FileSystem β} :
    (∃ report, verify_integrity host fs = some report) ↔
      ∀ p, Checked p → fs.isdir p = false := by
  refine Iff.trans ?_ (checksums_isSome : (∃ files, checksums host.sha256 fs = some files) ↔ _)
  unfold verify_integrity
  cases checksums host.sha256 fs with
  | none => simp
  | some files => simp

end BuildService
