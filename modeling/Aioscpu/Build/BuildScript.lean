import Aioscpu.Build.Assembly

/-! # Build Script

  `build.py`: the phases of a build, and `verify_build`. The manifest has the
  checksums of the sources, by their paths from the top of the repository;
  `verify_build` looks the paths up from `dist/`.

  Main result (`verifies_iff_verifiable`): which repositories pass the
  verification of their own build, and fail it after a change.
-/

namespace BuildScript

open Build

variable {T β : Type}

/-! ### Phases -/

def REQUIRED_ROOTFS_DIRS : List String :=
  ["bin", "etc", "home", "tmp", "usr/bin", "usr/lib/aura", "var/log", "var/run"]

/-- The name of a tool, and its module. -/
def TOOLS : List (String × String) :=
  [("aura-sys-info", "tools.aura_sys_info"), ("aura-logs", "tools.aura_logs"),
    ("aura-service-status", "tools.aura_service_status"),
    ("aura-check", "tools.check_requirements"), ("aura-validate", "tools.validate_system")]

def required_dirs : List Dir :=
  REQUIRED_ROOTFS_DIRS.map fun d => rootfs_dst.walk (PyStr.split d '/')

/-- The files that `_copy_tree` does not copy. -/
def skip (name : String) : Bool := PyStr.endswith name ".pyc" || PyStr.endswith name ".pyo"

/-- `shutil.ignore_patterns("__pycache__", "*.pyc", "*.pyo")`. -/
def ignore (name : String) : Bool :=
  name = "__pycache__" || PyStr.endswith name ".pyc" || PyStr.endswith name ".pyo"

def build_rootfs (fs : FileSystem β) : Option (FileSystem β) := layout required_dirs skip fs

/-- `pkg_dir/__init__.py`. -/
def package_root : Dir := pkg_dir.enter "__init__.py"

def package_text (host : Host T β) : β := host.encode "# AURA-AIOSCPU package root\n"

def package_source (host : Host T β) (fs : FileSystem β) : Option (FileSystem β) := do
  let fs ← packages ignore fs
  fs.putFile package_root (package_text host)

def docstring : String := "\"\"\"AURA-AIOSCPU auto-generated launcher.\"\"\"\n"

/-- The entry point of a tool. -/
def tool_launcher (module : String) : String :=
  "#!/usr/bin/env python\n" ++ "import sys; sys.path.insert(0, '/usr/lib/aura')\n" ++
    "from " ++ module ++ " import main\n" ++ "if __name__ == '__main__':\n    main()\n"

/-- The places of the entry points. -/
def launcher_paths : List Dir :=
  [dist_dir.enter "aura", (rootfs_dst.enter "bin").enter "aura"] ++
    TOOLS.map fun tool => ((rootfs_dst.enter "usr").enter "bin").enter tool.1

/-- Their texts. -/
def launcher_texts : List String :=
  [launcher docstring ("sys.path.insert(0, os.path.join(" ++
      "os.path.dirname(os.path.abspath(__file__))," ++ " 'rootfs', 'usr', 'lib', 'aura'))"),
    launcher docstring "sys.path.insert(0, '/usr/lib/aura')"] ++
    TOOLS.map fun tool => tool_launcher tool.2

def launchers (host : Host T β) : List (Dir × β) :=
  launcher_paths.zip (launcher_texts.map host.encode)

def write_launchers (host : Host T β) (fs : FileSystem β) : Option (FileSystem β) :=
  write_files (launchers host) fs

/-- The phases of `main`. -/
def build (host : Host T β) (build_time : String) (build_epoch : T) (fs : FileSystem β) :
    Option (FileSystem β) := do
  let fs ← build_rootfs fs
  let fs ← package_source host fs
  let fs ← write_launchers host fs
  write_manifest host build_time (some build_epoch) fs

/-! ### Verification -/

/-- The body of the loop of `verify_build`; `none` where it raises. -/
def check (host : Host T β) (fs : FileSystem β) (bad : List String) (item : Dir × String) :
    Option (List String) :=
  let full := dist_dir.join item.1
  if fs.get full = none then some (bad ++ ["MISSING: " ++ text item.1])
  else (fs.file full).map fun content =>
    if host.sha256 content ≠ item.2 then bad ++ ["CHANGED: " ++ text item.1] else bad

/-- `verify_build`; `none` where it raises. -/
def verify_build (host : Host T β) (fs : FileSystem β) : Option Bool :=
  if fs.get manifest_path = none then some false
  else do
    let files ← (fs.file manifest_path).bind host.loads
    let bad ← files.items.foldlM (check host fs) []
    return bad.isEmpty

/-! ### What a build leaves -/

/-- What the phases before the manifest write. -/
def written (host : Host T β) : List (Dir × β) :=
  (package_root, package_text host) :: launchers host

theorem written_paths (host : Host T β) :
    (written host).map Prod.fst = package_root :: launcher_paths := by
  show package_root :: (launcher_paths.zip (launcher_texts.map host.encode)).map Prod.fst = _
  rw [List.map_fst_zip]
  rw [List.length_map]
  decide

theorem build_eq (host : Host T β) (build_time : String) (build_epoch : T) (fs : FileSystem β) :
    build host build_time build_epoch fs =
      (assemble required_dirs skip ignore (written host) fs).bind
        (write_manifest host build_time (some build_epoch)) := by
  unfold build assemble build_rootfs package_source
  cases layout required_dirs skip fs with
  | none => rfl
  | some fs =>
    show ((packages ignore fs).bind _).bind _ = ((packages ignore fs).bind _).bind _
    cases packages ignore fs with
    | none => rfl
    | some fs =>
      show (fs.putFile package_root (package_text host)).bind _ =
        (write_files (written host) fs).bind _
      unfold written write_files
      rw [List.foldlM_cons]
      cases fs.putFile package_root (package_text host) <;> rfl

/-- **What a build leaves**: the assembly, and the checksums of the sources. -/
theorem build_spec {host : Host T β} {build_time : String} {build_epoch : T}
    {before fs : FileSystem β} (h : build host build_time build_epoch before = some fs) :
    ∃ assembled, Assembled required_dirs skip ignore (written host) before assembled ∧
      (∃ manifest : Manifest T, checksums host.sha256 assembled = some manifest.files ∧
        fs.file manifest_path = some (host.dumps manifest)) ∧
      ∀ x, x ≠ manifest_path → fs.get x = assembled.get x := by
  rw [build_eq] at h
  obtain ⟨assembled, hassemble, hwrite⟩ := Option.bind_eq_some_iff.mp h
  refine ⟨assembled, assemble_spec (by decide) ?_ (fun file hfile => ?_) hassemble,
    write_manifest_spec hwrite⟩
  · rw [written_paths]
    decide
  · have hmem := List.mem_map_of_mem (f := Prod.fst) hfile
    rw [written_paths] at hmem
    have hall : ∀ d ∈ package_root :: launcher_paths, d.Within dist_dir := by decide
    exact hall _ hmem

/-! ### What the verification looks at -/

/-- The file is in `dist/` with the checksum of the manifest. -/
def Verified (host : Host T β) (fs : FileSystem β) (item : Dir × String) : Prop :=
  ∃ content, fs.file (dist_dir.join item.1) = some content ∧ host.sha256 content = item.2

theorem check_spec {host : Host T β} {fs : FileSystem β} {bad bad' : List String}
    {item : Dir × String} (h : check host fs bad item = some bad') :
    bad' = [] ↔ bad = [] ∧ Verified host fs item := by
  unfold check at h
  dsimp only at h
  split at h
  · next hnone =>
    obtain rfl := Option.some.inj h
    refine iff_of_false (by simp) ?_
    rintro ⟨-, content, hfile, -⟩
    rw [FileSystem.file_eq_some_iff.mp hfile] at hnone
    cases hnone
  · obtain ⟨content, hfile, rfl⟩ := Option.map_eq_some_iff.mp h
    unfold Verified
    rw [hfile]
    split
    · next hne =>
      refine iff_of_false (by simp) ?_
      rintro ⟨-, content', heq, hhash⟩
      obtain rfl := Option.some.inj heq
      exact hne hhash
    · next heq => simpa using fun _ => not_not.mp heq

/-- The loop has found nothing bad when every file is as the manifest says. -/
theorem checks_spec {host : Host T β} {fs : FileSystem β} {items : List (Dir × String)}
    {bad : List String} (h : items.foldlM (check host fs) [] = some bad) :
    bad = [] ↔ ∀ item ∈ items, Verified host fs item := by
  refine foldlM_induction (P := fun pre bad => bad = [] ↔ ∀ item ∈ pre, Verified host fs item) h
    (by simp) ?_
  intro pre item bad bad' _ hbad hround
  rw [check_spec hround, hbad]
  simp [or_imp, forall_and]

/-- The loop ends unless a directory is where a file is looked for. -/
theorem exists_checks (host : Host T β) {fs : FileSystem β} {items : List (Dir × String)}
    (h : ∀ item ∈ items, fs.isdir (dist_dir.join item.1) = false) :
    ∃ bad, items.foldlM (check host fs) [] = some bad := by
  refine exists_foldlM (fun item hitem bad => ?_) _
  unfold check
  dsimp only
  split
  · exact ⟨_, rfl⟩
  · next hsome =>
    cases hget : fs.get (dist_dir.join item.1) with
    | none => exact absurd hget hsome
    | some e =>
      cases e with
      | dir =>
        have hdir := h item hitem
        rw [FileSystem.isdir_iff.mpr hget] at hdir
        cases hdir
      | file content =>
        rw [FileSystem.file_eq_some_iff.mpr hget]
        exact ⟨_, rfl⟩

theorem verify_build_eq {host : Host T β} {fs : FileSystem β} {content : β}
    {files : Dict Dir String} (hfile : fs.file manifest_path = some content)
    (hloads : host.loads content = some files) :
    verify_build host fs = (files.items.foldlM (check host fs) []).map List.isEmpty := by
  have hsome : fs.get manifest_path ≠ none := by
    rw [FileSystem.file_eq_some_iff.mp hfile]
    exact Option.some_ne_none _
  unfold verify_build
  rw [if_neg hsome, hfile]
  show (host.loads content).bind _ = _
  rw [hloads]
  show (files.items.foldlM (check host fs) []).bind _ = _
  cases files.items.foldlM (check host fs) [] <;> rfl

/-- When the verification succeeds. -/
theorem verify_build_iff {host : Host T β} {fs : FileSystem β} {content : β}
    {files : Dict Dir String} (hfile : fs.file manifest_path = some content)
    (hloads : host.loads content = some files) :
    verify_build host fs = some true ↔
      ∀ p hash, files.get p = some hash → Verified host fs (p, hash) := by
  have hitems : (∀ item ∈ files.items, Verified host fs item) ↔
      ∀ p hash, files.get p = some hash → Verified host fs (p, hash) :=
    ⟨fun h p hash hget => h _ (Dict.mem_of_get hget),
      fun h item hmem => h item.1 item.2 (Dict.get_of_mem hmem)⟩
  rw [verify_build_eq hfile hloads, ← hitems, Option.map_eq_some_iff]
  constructor
  · rintro ⟨bad, hbad, hempty⟩
    exact (checks_spec hbad).mp (List.isEmpty_iff.mp hempty)
  · intro h
    have hfiles : ∀ item ∈ files.items, fs.isdir (dist_dir.join item.1) = false := by
      intro item hitem
      obtain ⟨content, hcontent, -⟩ := h item hitem
      exact FileSystem.isdir_of_file hcontent
    obtain ⟨bad, hbad⟩ := exists_checks host hfiles
    exact ⟨bad, hbad, List.isEmpty_iff.mpr ((checks_spec hbad).mpr h)⟩

/-- When it fails, and does not raise. -/
theorem verify_build_false {host : Host T β} {fs : FileSystem β} {content : β}
    {files : Dict Dir String} (hfile : fs.file manifest_path = some content)
    (hloads : host.loads content = some files)
    (hfiles : ∀ p hash, files.get p = some hash → fs.isdir (dist_dir.join p) = false)
    {p : Dir} {hash : String} (hget : files.get p = some hash)
    (hbad : ¬ Verified host fs (p, hash)) : verify_build host fs = some false := by
  have hitems : ∀ item ∈ files.items, fs.isdir (dist_dir.join item.1) = false :=
    fun item hitem => hfiles item.1 item.2 (Dict.get_of_mem hitem)
  obtain ⟨bad, hchecks⟩ := exists_checks host hitems
  rw [verify_build_eq hfile hloads, hchecks, Option.map_some, List.isEmpty_eq_false_iff.mpr]
  intro hnil
  exact hbad ((checks_spec hchecks).mp hnil _ (Dict.mem_of_get hget))

/-! ### Packaged sources -/

/-- The place of a Python source of a package. -/
def PackagedSource (before : FileSystem β) (x : Dir) : Prop :=
  ∃ pkg r content, Present before pkg ∧ x = (pkg_dir.enter pkg).join r ∧
    r.names.any ignore = false ∧ PyStr.endswith x.basename ".py" = true ∧
    before.file ((Dir.top.enter pkg).join r) = some content

/-- After the build some packaged sources have been altered or removed, and nothing else. -/
structure Tampered (before built later : FileSystem β) : Prop where
  elsewhere : ∀ x, ¬ PackagedSource before x → later.get x = built.get x
  files : ∀ x, later.isdir x = true → built.isdir x = true
  differs : ∃ x, PackagedSource before x ∧ later.file x ≠ built.file x

/-- Among the contents before and after no two have one checksum. -/
def NoCollision (host : Host T β) (fs fs' : FileSystem β) (place : Dir → Dir) : Prop :=
  ∀ p content content', fs.file p = some content → fs'.file (place p) = some content' →
    host.sha256 content = host.sha256 content' → content = content'

/-- The build passes its own verification, and fails it after a change of what it has packaged. -/
structure Verifies (host : Host T β) (before built : FileSystem β) : Prop where
  accepts : verify_build host built = some true
  rejects : ∀ later, Tampered before built later → NoCollision host built later id →
    verify_build host later = some false

/-- The source is found in `dist/` under the path that it has from the top. -/
structure Found (host : Host T β) (before : FileSystem β) (p : Dir) (content : β) : Prop where
  /-- Outside the base layout: an earlier build, or something else, has left it there. -/
  outside : ¬ p.Within rootfs_src → before.file (mirror p) = some content
  root : mirror p = package_root → content = package_text host
  /-- In the place of a package: it is also in the package. -/
  packaged : ∀ pkg r, Present before pkg → mirror p = (pkg_dir.enter pkg).join r →
    r.names.any ignore = false ∧ before.file ((Dir.top.enter pkg).join r) = some content
  /-- Otherwise the base layout has it, and no directory is at its place. -/
  laid : p.Within rootfs_src → mirror p ≠ package_root → ¬ Hidden before (mirror p) →
    into required_dirs before (mirror p) = false

/-- Which repositories verify their own builds. -/
structure Verifiable (host : Host T β) (before : FileSystem β) : Prop where
  found : ∀ p content, Checked p → before.file p = some content → Found host before p content
  /-- Each packaged source is a source of the base layout, too. -/
  covered : ∀ x, PackagedSource before x →
    ∃ p content, mirror p = x ∧ Checked p ∧ before.file p = some content

/-! ### Where the verification finds the sources -/

theorem python_not_skipped {name : String} (h : PyStr.endswith name ".py" = true) :
    skip name = false := by
  have hsuffix : ".py".toList <:+ name.toList := List.isSuffixOf_iff_suffix.mp h
  have hends : ∀ suffix, suffix ∈ [".pyc", ".pyo"] → PyStr.endswith name suffix = false := by
    intro suffix hmem
    rw [← Bool.not_eq_true]
    intro hother
    have hother : suffix.toList <:+ name.toList := List.isSuffixOf_iff_suffix.mp hother
    have hlength : ".py".toList.length ≤ suffix.toList.length := by
      have hall : ∀ suffix ∈ [".pyc", ".pyo"], ".py".toList.length ≤ suffix.toList.length := by
        decide
      exact hall suffix hmem
    -- the shorter one would be a suffix of the longer one
    have hin := List.suffix_of_suffix_length_le hsuffix hother hlength
    have hall : ∀ suffix ∈ [".pyc", ".pyo"], ¬ ".py".toList <:+ suffix.toList := by decide
    exact hall suffix hmem hin
  unfold skip
  rw [hends ".pyc" (by decide), hends ".pyo" (by decide)]
  rfl

theorem copied_of_checked {before : FileSystem β} {p : Dir} {content : β} (h : Checked p)
    (hfile : before.file p = some content) (hin : p.Within rootfs_src) :
    Copied skip before p := by
  refine ⟨⟨content, hfile⟩, ⟨hin, ?_⟩, fun hmem => ?_, python_not_skipped h.1⟩
  · rintro rfl
    exact absurd h.1 (by decide)
  · have hword : "__pycache__" ∈ [".git", "__pycache__", "dist", "/tmp"] := by decide
    exact h.not_mem hword (List.mem_of_mem_dropLast hmem)

/-- A Python source has no place among the launchers. -/
theorem python_not_written {host : Host T β} {x : Dir}
    (h : PyStr.endswith x.basename ".py" = true) (hne : x ≠ package_root) :
    x ∉ (written host).map Prod.fst := by
  rw [written_paths, List.mem_cons, not_or]
  refine ⟨hne, fun hmem => ?_⟩
  have hall : ∀ d ∈ launcher_paths, PyStr.endswith d.basename ".py" = false := by decide
  rw [hall x hmem] at h
  cases h

theorem basename_mirror {p : Dir} (h : p ≠ Dir.top) : (mirror p).basename = p.basename := by
  have hne : p.names ≠ [] := fun hnil => h (Dir.ext hnil)
  unfold Dir.basename mirror
  rw [Dir.join_names, List.getLastD_eq_getLast?, List.getLastD_eq_getLast?,
    List.getLast?_append_of_ne_nil _ hne]

theorem package_root_shown (fs : FileSystem β) : ¬ Hidden fs package_root := by
  rintro ⟨pkg, hpkg, -, hin⟩
  have hall : ∀ pkg ∈ PACKAGES, ¬ package_root.Within (pkg_dir.enter pkg) := by decide
  exact hall pkg hpkg hin

theorem pkg_dir_not_written (host : Host T β) : pkg_dir ∉ (written host).map Prod.fst := by
  rw [written_paths]
  decide

/-- What is at the place of a source of the base layout. -/
theorem found_below {host : Host T β} {before fs : FileSystem β}
    (h : Assembled required_dirs skip ignore (written host) before fs) {p : Dir} {content : β}
    (hchecked : Checked p) (hfile : before.file p = some content) (hin : p.Within rootfs_src)
    (hroot : mirror p ≠ package_root) (hshown : ¬ Hidden before (mirror p)) :
    fs.file (mirror p) = some content ↔ into required_dirs before (mirror p) = false := by
  have hcopied := copied_of_checked hchecked hfile hin
  have hpython : PyStr.endswith (mirror p).basename ".py" = true := by
    rw [basename_mirror hchecked.ne_top]
    exact hchecked.1
  cases hinto : into required_dirs before (mirror p) with
  | false =>
    have hplace : target required_dirs before p = mirror p := if_neg (by rw [hinto]; decide)
    have hlaid := h.laid p hcopied
    rw [hplace] at hlaid
    rw [hlaid (python_not_written hpython hroot) hshown, hfile]
    exact iff_of_true rfl rfl
  | true =>
    have hout : (mirror p).enter p.basename ∉ (written host).map Prod.fst := by
      have hname := isName_basename hchecked.ne_top
      refine python_not_written (by rw [Dir.basename_enter _ hname]; exact hchecked.1) fun heq => ?_
      have hparent := congrArg Dir.parent heq
      rw [Dir.parent_enter _ hname] at hparent
      rw [hparent] at hpython
      exact absurd hpython (by decide)
    rw [h.not_file hcopied hinto hshown (pkg_dir_not_written host) hout]
    exact iff_of_false (by simp) (by simp)

/-- At the place of the package root there is its own text. -/
theorem found_at_root {host : Host T β} {before fs : FileSystem β}
    (h : Assembled required_dirs skip ignore (written host) before fs) {p : Dir} {content : β}
    (hin : p.Within rootfs_src) (hroot : mirror p = package_root) :
    Found host before p content ↔ fs.file (mirror p) = some content := by
  rw [hroot, h.written _ (List.mem_cons_self (a := (package_root, package_text host)))]
  constructor
  · intro hfound
    rw [hfound.root hroot]
  · intro heq
    refine ⟨fun hout => absurd hin hout, fun _ => (Option.some.inj heq).symm,
      fun pkg r hpresent hpkg => ?_, fun _ hne => absurd hroot hne⟩
    -- the file of the package root lies in no package
    refine absurd ⟨pkg, hpresent.1, hpresent.2, ?_⟩ (package_root_shown before)
    rw [← hroot, hpkg]
    exact Dir.within_join _ r

/-- In the place of a package there is what the package has. -/
theorem found_in_package {host : Host T β} {before fs : FileSystem β}
    (h : Assembled required_dirs skip ignore (written host) before fs) {p : Dir} {content : β}
    (hpython : PyStr.endswith (mirror p).basename ".py" = true) (hin : p.Within rootfs_src)
    (hroot : mirror p ≠ package_root) (hhidden : Hidden before (mirror p)) :
    Found host before p content ↔ fs.file (mirror p) = some content := by
  obtain ⟨pkg, hpkg, hpresent, hwithin⟩ := hhidden
  obtain ⟨r, hr⟩ := Dir.within_iff.mp hwithin
  have hpacked := h.packed pkg ⟨hpkg, hpresent⟩ r
  rw [← hr] at hpacked
  rw [hpacked (python_not_written hpython hroot)]
  constructor
  · intro hfound
    obtain ⟨hwanted, hsource⟩ := hfound.packaged pkg r ⟨hpkg, hpresent⟩ hr
    rw [hwanted]
    exact hsource
  · intro hsource
    refine ⟨fun hout => absurd hin hout, fun heq => absurd heq hroot,
      fun pkg' r' hpresent' hr' => ?_, fun _ _ hshown =>
        absurd ⟨pkg, hpkg, hpresent, hwithin⟩ hshown⟩
    have hwithin' : (mirror p).Within (pkg_dir.enter pkg') := by
      rw [hr']
      exact Dir.within_join _ r'
    obtain rfl := pkg_apart hpkg hpresent'.1 hwithin hwithin'
    obtain rfl := Dir.join_inj.mp (hr.symm.trans hr')
    split at hsource
    · cases hsource
    · next hwanted => exact ⟨by simpa using hwanted, hsource⟩

/-- Nothing is put at the place of a source outside the base layout. -/
theorem found_outside {host : Host T β} {before fs : FileSystem β}
    (h : Assembled required_dirs skip ignore (written host) before fs) {p : Dir} {content : β}
    (hpython : PyStr.endswith (mirror p).basename ".py" = true) (hout : ¬ p.Within rootfs_src) :
    Found host before p content ↔ fs.file (mirror p) = some content := by
  have hplace : ¬ (mirror p).Within rootfs_dst := by
    rw [← mirror_src, mirror_within_mirror]
    exact hout
  have hroot : mirror p ≠ package_root := by
    intro heq
    rw [heq] at hplace
    exact hplace (by decide)
  have hbelow : pkg_dir.Within rootfs_dst := by decide
  have hkept : fs.file (mirror p) = before.file (mirror p) := by
    refine h.kept _ (python_not_written hpython hroot) ?_ fun f hf heq => hplace ?_
    · exact fun hhidden => hplace ((hidden_below hhidden).trans hbelow)
    · rw [← heq, ← mirror_src]
      refine (target_within_mirror hf.ne_top).trans ?_
      exact mirror_within_mirror.mpr hf.below.1
  rw [hkept]
  constructor
  · intro hfound
    exact hfound.outside hout
  · intro hthere
    refine ⟨fun _ => hthere, fun heq => absurd heq hroot, fun pkg r hpresent hr => ?_,
      fun habs => absurd habs hout⟩
    refine absurd ?_ hplace
    rw [hr]
    exact (pkg_within hpresent.1 r).trans hbelow

/-- **Where the verification finds a source.** -/
theorem found_iff {host : Host T β} {before fs : FileSystem β}
    (h : Assembled required_dirs skip ignore (written host) before fs) {p : Dir} {content : β}
    (hchecked : Checked p) (hfile : before.file p = some content) :
    Found host before p content ↔ fs.file (mirror p) = some content := by
  have hpython : PyStr.endswith (mirror p).basename ".py" = true := by
    rw [basename_mirror hchecked.ne_top]
    exact hchecked.1
  by_cases hin : p.Within rootfs_src
  · by_cases hroot : mirror p = package_root
    · exact found_at_root h hin hroot
    by_cases hhidden : Hidden before (mirror p)
    · exact found_in_package h hpython hin hroot hhidden
    rw [found_below h hchecked hfile hin hroot hhidden]
    constructor
    · intro hfound
      exact hfound.laid hin hroot hhidden
    · intro hfree
      refine ⟨fun hout => absurd hin hout, fun heq => absurd heq hroot,
        fun pkg r hpresent hr => ?_, fun _ _ _ => hfree⟩
      refine absurd ⟨pkg, hpresent.1, hpresent.2, ?_⟩ hhidden
      rw [hr]
      exact Dir.within_join _ r
  · exact found_outside h hpython hin

/-! ### The verification of a build -/

/-- The manifest has the checksums that the sources had before the build. -/
theorem manifest_of_build {host : Host T β} {before assembled : FileSystem β}
    (h : Assembled required_dirs skip ignore (written host) before assembled)
    {manifest : Manifest T} (hchecksums : checksums host.sha256 assembled = some manifest.files)
    (p : Dir) :
    manifest.files.get p = if Checked p then (before.file p).map host.sha256 else none := by
  rw [checksums_get hchecksums]
  refine if_ctx_congr Iff.rfl (fun hchecked => ?_) fun _ => rfl
  rw [FileSystem.file_congr (h.outside p hchecked.outside)]

theorem PackagedSource.below {before : FileSystem β} {x : Dir} (h : PackagedSource before x) :
    x.Within pkg_dir := by
  obtain ⟨pkg, r, -, hpresent, rfl, -⟩ := h
  exact pkg_within hpresent.1 r

theorem PackagedSource.ne_manifest {before : FileSystem β} {x : Dir}
    (h : PackagedSource before x) : ¬ manifest_path.Within x := by
  intro hin
  exact absurd (hin.trans h.below) (by decide)

theorem mirror_ne_manifest {p : Dir} (h : Checked p) : mirror p ≠ manifest_path := by
  intro heq
  have hbasename := basename_mirror h.ne_top
  have hpython := h.1
  rw [← hbasename, heq] at hpython
  exact absurd hpython (by decide)

/-- The copy of a packaged source. -/
theorem packaged_file {host : Host T β} {before fs : FileSystem β}
    (h : Assembled required_dirs skip ignore (written host) before fs) {x : Dir}
    (hx : PackagedSource before x) : ∃ content, fs.file x = some content := by
  obtain ⟨pkg, r, content, hpresent, rfl, hwanted, hpython, hfile⟩ := hx
  refine ⟨content, ?_⟩
  rw [h.packed pkg hpresent r, hwanted]
  · exact hfile
  · refine python_not_written hpython fun heq => package_root_shown before ?_
    exact ⟨pkg, hpresent.1, hpresent.2, heq ▸ Dir.within_join _ r⟩

/-- The removal of one packaged source. -/
theorem tampered_remove {before built : FileSystem β} {x : Dir} {content : β}
    (hx : PackagedSource before x) (hfile : built.file x = some content) :
    Tampered before built (built.remove x) := by
  have htop := FileSystem.file_ne_top hfile
  refine ⟨fun y hy => ?_, fun y hdir => ?_, x, hx, ?_⟩
  · rw [FileSystem.get_remove htop]
    split
    · next hin =>
      cases hget : built.get y with
      | none => rfl
      | some e =>
        -- nothing lies below a file
        obtain rfl := FileSystem.not_within_file hfile hget hin
        exact absurd hx hy
    · rfl
  · rw [FileSystem.isdir_iff, FileSystem.get_remove htop] at hdir
    split at hdir
    · cases hdir
    · exact FileSystem.isdir_iff.mpr hdir
  · rw [hfile]
    unfold FileSystem.file
    rw [FileSystem.get_remove htop, if_pos (Dir.within_refl _)]
    exact (Option.some_ne_none content).symm

/-- What a build leaves for its verification: a manifest of the sources that were there, and the
    sources in `dist/`. -/
structure Recorded (host : Host T β) (before built : FileSystem β) (files : Dict Dir String) :
    Prop where
  manifest : ∃ content, built.file manifest_path = some content ∧ host.loads content = some files
  listed : ∀ p hash, files.get p = some hash ↔
    Checked p ∧ ∃ content, before.file p = some content ∧ host.sha256 content = hash
  found : ∀ p content, Checked p → before.file p = some content →
    (Found host before p content ↔ built.file (mirror p) = some content)
  packaged : ∀ x, PackagedSource before x → ∃ content, built.file x = some content

theorem build_recorded {host : Host T β} {build_time : String} {build_epoch : T}
    {before built : FileSystem β} (hbuild : build host build_time build_epoch before = some built)
    (hloads : ∀ manifest, host.loads (host.dumps manifest) = some manifest.files) :
    ∃ files, Recorded host before built files := by
  obtain ⟨assembled, hassembled, ⟨manifest, hchecksums, hwritten⟩, hget⟩ := build_spec hbuild
  have hfiles := manifest_of_build hassembled hchecksums
  have hbuilt : ∀ x, x ≠ manifest_path → built.file x = assembled.file x := fun x hx =>
    FileSystem.file_congr (hget x hx)
  refine ⟨manifest.files, ⟨_, hwritten, hloads manifest⟩, fun p hash => ?_,
    fun p content hchecked hfile => ?_, fun x hx => ?_⟩
  · rw [hfiles]
    split
    · next hchecked => rw [Option.map_eq_some_iff, and_iff_right hchecked]
    · next hnot => exact iff_of_false (by simp) fun h => hnot h.1
  · rw [hbuilt _ (mirror_ne_manifest hchecked)]
    exact found_iff hassembled hchecked hfile
  · have hne : x ≠ manifest_path := by
      rintro rfl
      exact hx.ne_manifest (Dir.within_refl _)
    rw [hbuilt x hne]
    exact packaged_file hassembled hx

section Recorded

variable {host : Host T β} {before built : FileSystem β} {files : Dict Dir String}

theorem Recorded.verify_iff (h : Recorded host before built files) :
    verify_build host built = some true ↔
      ∀ p hash, files.get p = some hash → Verified host built (p, hash) := by
  obtain ⟨content, hfile, hloads⟩ := h.manifest
  exact verify_build_iff hfile hloads

/-- The verification passes if and only if it finds the sources in `dist/`. -/
theorem Recorded.accepts_iff (h : Recorded host before built files)
    (hcollision : NoCollision host before built mirror) :
    verify_build host built = some true ↔
      ∀ p content, Checked p → before.file p = some content → Found host before p content := by
  rw [h.verify_iff]
  constructor
  · intro hverified p content hchecked hfile
    obtain ⟨content', hthere, hhash⟩ :=
      hverified p _ ((h.listed p _).mpr ⟨hchecked, content, hfile, rfl⟩)
    obtain rfl := hcollision p content content' hfile hthere hhash.symm
    exact (h.found p content hchecked hfile).mpr hthere
  · intro hfound p hash hhash
    obtain ⟨hchecked, content, hfile, rfl⟩ := (h.listed p hash).mp hhash
    exact ⟨content, (h.found p content hchecked hfile).mp (hfound p content hchecked hfile), rfl⟩

/-- The removal of a source that is not looked at stays unnoticed. -/
theorem Recorded.removed_unnoticed (h : Recorded host before built files)
    (haccept : verify_build host built = some true) {x : Dir} (hx : PackagedSource before x)
    (hnot : ¬ ∃ p content, mirror p = x ∧ Checked p ∧ before.file p = some content) :
    verify_build host (built.remove x) = some true := by
  obtain ⟨content, hfile⟩ := h.packaged x hx
  have hkept : ∀ y, ¬ y.Within x → (built.remove x).file y = built.file y := fun y hy =>
    FileSystem.file_congr (by
      rw [FileSystem.get_remove (FileSystem.file_ne_top hfile), if_neg hy])
  obtain ⟨text, hwritten, hloads⟩ := h.manifest
  refine (verify_build_iff ((hkept _ hx.ne_manifest).trans hwritten) hloads).mpr
    fun p hash hhash => ?_
  obtain ⟨content', hthere, hsame⟩ := h.verify_iff.mp haccept p hash hhash
  refine ⟨content', ?_, hsame⟩
  rw [hkept _ fun hin => hnot ?_]
  · exact hthere
  · obtain ⟨hchecked, source, hsource, -⟩ := (h.listed p hash).mp hhash
    have heq := FileSystem.not_within_file hfile (FileSystem.file_eq_some_iff.mp hthere) hin
    exact ⟨p, source, heq, hchecked, hsource⟩

/-- A change of a source that is looked at is noticed. -/
theorem Recorded.rejects (h : Recorded host before built files)
    (haccept : verify_build host built = some true) {later : FileSystem β}
    (hlater : Tampered before built later) (hdistinct : NoCollision host built later id)
    {p : Dir} {content : β} (hchecked : Checked p) (hsource : before.file p = some content)
    (hthere : built.file (mirror p) = some content)
    (hdiffers : later.file (mirror p) ≠ built.file (mirror p)) :
    verify_build host later = some false := by
  obtain ⟨text, hwritten, hloads⟩ := h.manifest
  have hmanifest : later.file manifest_path = some text := by
    rw [← hwritten]
    exact FileSystem.file_congr (hlater.elsewhere _ fun hx => hx.ne_manifest (Dir.within_refl _))
  have hlist := (h.listed p (host.sha256 content)).mpr ⟨hchecked, content, hsource, rfl⟩
  refine verify_build_false hmanifest hloads (fun q hash hq => ?_) hlist ?_
  · -- no directory has come to the place of a file
    obtain ⟨content', hq', -⟩ := h.verify_iff.mp haccept q hash hq
    rw [Bool.eq_false_iff]
    intro hdir
    have hbuilt_dir := hlater.files _ hdir
    rw [FileSystem.isdir_of_file hq'] at hbuilt_dir
    cases hbuilt_dir
  · rintro ⟨content', hafter, hhash⟩
    have heq := hdistinct _ content content' hthere hafter hhash.symm
    exact hdiffers (by rw [hthere, heq]; exact hafter)

end Recorded

/-- **The build verifies itself**: it passes its own verification, and fails it when a packaged
    source has been altered or removed, exactly when the verification finds the sources in
    `dist/`, and the packaged ones among them. -/
theorem verifies_iff_verifiable {host : Host T β} {build_time : String} {build_epoch : T}
    {before built : FileSystem β} (hbuild : build host build_time build_epoch before = some built)
    (hloads : ∀ manifest, host.loads (host.dumps manifest) = some manifest.files)
    (hcollision : NoCollision host before built mirror) :
    Verifies host before built ↔ Verifiable host before := by
  obtain ⟨files, h⟩ := build_recorded hbuild hloads
  have haccepts := h.accepts_iff hcollision
  constructor
  · rintro ⟨haccept, hreject⟩
    refine ⟨haccepts.mp haccept, fun x hx => ?_⟩
    by_contra hnot
    obtain ⟨content, hfile⟩ := h.packaged x hx
    have hremoved := hreject _ (tampered_remove hx hfile) fun p content content' hp hp' _ => by
      rw [FileSystem.file_eq_some_iff, FileSystem.get_remove (FileSystem.file_ne_top hfile)] at hp'
      split at hp'
      · cases hp'
      · rw [← FileSystem.file_eq_some_iff] at hp'
        exact Option.some.inj (hp.symm.trans hp')
    rw [h.removed_unnoticed haccept hx hnot] at hremoved
    cases hremoved
  · rintro ⟨hfound, hcovered⟩
    have haccept := haccepts.mpr hfound
    refine ⟨haccept, fun later hlater hdistinct => ?_⟩
    obtain ⟨x, hx, hdiffers⟩ := hlater.differs
    obtain ⟨p, content, rfl, hchecked, hsource⟩ := hcovered x hx
    have hthere := (h.found p content hchecked hsource).mp (hfound p content hchecked hsource)
    exact h.rejects haccept hlater hdistinct hchecked hsource hthere hdiffers

/-- A repository with one package. -/
def onePackage : FileSystem Content := texts [(["kernel", "loop.py"], "loop")]

theorem verifies_iff_verifiable_onePackage :
    ∃ built, build plain "" () onePackage = some built ∧
      (Verifies plain onePackage built ↔ Verifiable plain onePackage) := by
  have hsome : (build plain "" () onePackage).isSome = true := by decide +kernel
  have htexts : textsTest onePackage = true := by decide +kernel
  obtain ⟨built, hbuild⟩ := Option.isSome_iff_exists.mp hsome
  exact ⟨built, hbuild, verifies_iff_verifiable hbuild plain_loads
    fun _ _ _ hfile _ hhash => plain_collision htexts hfile hhash⟩

/-- The first build of a repository with one package fails its verification. -/
theorem build_not_verified :
    ∃ built, build plain "" () onePackage = some built ∧
      verify_build plain built = some false ∧ ¬ Verifies plain onePackage built := by
  have hfalse : (build plain "" () onePackage).bind (verify_build plain) = some false := by
    decide +kernel
  obtain ⟨built, hbuild, hverify⟩ := Option.bind_eq_some_iff.mp hfalse
  refine ⟨built, hbuild, hverify, fun h => ?_⟩
  have haccepts := h.accepts
  rw [hverify] at haccepts
  cases haccepts

end BuildScript
