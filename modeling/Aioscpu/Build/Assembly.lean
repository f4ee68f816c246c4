import Aioscpu.Framework.FileCopy

/-! # Assembling the Root Filesystem

  What `build.py` and `_do_rebuild` of `services/build_service.py` share: the
  base layout is laid over what `dist/rootfs` holds, the packages are copied
  below it, and some files are written. The top of the file system is the root
  of the repository. A step is `none` where it raises.

  `assemble_spec` says which file is where in the result.
-/

namespace Build

variable {β : Type}

/-! ### Places -/

def PACKAGES : List String :=
  ["kernel", "hal", "aura", "services", "shell", "host_bridge", "models", "tools", "config",
    "launch"]

def dist_dir : Dir := Dir.top.enter "dist"

def rootfs_src : Dir := Dir.top.enter "rootfs"

def rootfs_dst : Dir := dist_dir.enter "rootfs"

/-- `os.path.join(rootfs_dst, "usr", "lib", "aura")`. -/
def pkg_dir : Dir := ((rootfs_dst.enter "usr").enter "lib").enter "aura"

/-- `str(path)`, for a path below the root of the repository. -/
def text (path : Dir) : String := "/".intercalate path.names

/-! ### Steps -/

/-- The body of the inner loop of `_copy_tree`. -/
def copy_file (skip : String → Bool) (dest_dir : Dir) (fs : FileSystem β) (f : Dir) :
    Option (FileSystem β) :=
  if skip f.basename then some fs else fs.copy2 f (dest_dir.enter f.basename)

/-- The body of the outer loop of `_copy_tree`. -/
def copy_dir (skip : String → Bool) (src dst : Dir) (fs : FileSystem β)
    (entry : Dir × List Dir) : Option (FileSystem β) := do
  let rel ← src.rel entry.1
  let fs ← fs.mkdirs (dst.join rel)
  entry.2.foldlM (copy_file skip (dst.join rel)) fs

/-- `_copy_tree`. -/
def copy_tree (skip : String → Bool) (src dst : Dir) (fs : FileSystem β) :
    Option (FileSystem β) :=
  (fs.walk (fun name => name = "__pycache__") src).foldlM (copy_dir skip src dst) fs

/-- The required directories, and the base layout over what is there. -/
def layout (required : List Dir) (skip : String → Bool) (fs : FileSystem β) :
    Option (FileSystem β) := do
  let fs ← required.foldlM FileSystem.mkdirs fs
  if fs.get rootfs_src = none then some fs else copy_tree skip rootfs_src rootfs_dst fs

/-- The body of the loop over the packages. -/
def package (ignore : String → Bool) (fs : FileSystem β) (pkg : String) :
    Option (FileSystem β) :=
  if fs.get (Dir.top.enter pkg) = none then some fs
  else
    (if fs.get (pkg_dir.enter pkg) = none then some fs else fs.rmtree (pkg_dir.enter pkg)).bind
      fun fs => fs.copytree ignore (Dir.top.enter pkg) (pkg_dir.enter pkg)

/-- The packages, each in the place of what was there of it. -/
def packages (ignore : String → Bool) (fs : FileSystem β) : Option (FileSystem β) := do
  let fs ← fs.mkdirs pkg_dir
  PACKAGES.foldlM (package ignore) fs

/-- `open(path, "w")` with a write, for each of some files. -/
def write_files (files : List (Dir × β)) (fs : FileSystem β) : Option (FileSystem β) :=
  files.foldlM (fun fs file => fs.putFile file.1 file.2) fs

/-- The steps of both builds up to the manifest. -/
def assemble (required : List Dir) (skip ignore : String → Bool) (files : List (Dir × β))
    (fs : FileSystem β) : Option (FileSystem β) := do
  let fs ← layout required skip fs
  let fs ← packages ignore fs
  write_files files fs

/-! ### Checksums -/

/-- `any(p in rel for p in (".git", "__pycache__", "dist", "/tmp"))`. -/
def excluded (rel : Dir) : Bool :=
  [".git", "__pycache__", "dist", "/tmp"].any fun p => PyStr.contains (text rel) p

/-- The body of the loop over the Python sources. -/
def record (sha256 : β → String) (fs : FileSystem β) (checksums : Dict Dir String) (py_file : Dir) :
    Option (Dict Dir String) :=
  if excluded py_file then some checksums
  else (fs.file py_file).map fun content => checksums.set py_file (sha256 content)

/-- The checksums of the Python sources; `none` where a directory has such a name. -/
def checksums (sha256 : β → String) (fs : FileSystem β) : Option (Dict Dir String) :=
  (fs.rglob ".py").foldlM (record sha256 fs) .empty

/-- `dist/manifest.json`. `T` is the type of the timestamps. -/
structure Manifest (T : Type) where
  build_time : String
  /-- In the manifest of `build.py` only. -/
  build_epoch : Option T
  version : String
  total_files : Nat
  files : Dict Dir String

/-- What is outside the repository. -/
structure Host (T β : Type) where
  sha256 : β → String
  /-- What a text is in a file. -/
  encode : String → β
  /-- `json.dump`. -/
  dumps : Manifest T → β
  /-- `json.load`, and `files` of it; `none` where there is no manifest in the file. -/
  loads : β → Option (Dict Dir String)

def VERSION : String := "0.1.0"

def manifest_path : Dir := dist_dir.enter "manifest.json"

/-- `_write_launcher`: the text of a launcher. -/
def launcher (docstring sys_path_stmt : String) : String :=
  "#!/usr/bin/env python\n" ++ docstring ++ "import os, sys\n" ++ sys_path_stmt ++ "\n" ++
    "from launch.launcher import main\n" ++ "if __name__ == '__main__':\n    main()\n"

/-- The manifest is written last. -/
def write_manifest {T : Type} (host : Host T β) (build_time : String) (build_epoch : Option T)
    (fs : FileSystem β) : Option (FileSystem β) := do
  let files ← checksums host.sha256 fs
  fs.putFile manifest_path (host.dumps
    { build_time, build_epoch, version := VERSION, total_files := files.items.length, files })

/-! ### Where things go -/

/-- The place of a file of the base layout below `dist/`. -/
def mirror (f : Dir) : Dir := dist_dir.join f

/-- The files that `_copy_tree` copies. -/
structure Copied (skip : String → Bool) (fs : FileSystem β) (f : Dir) : Prop where
  file : ∃ content, fs.file f = some content
  below : f.Below rootfs_src
  walked : "__pycache__" ∉ f.parent.names
  wanted : skip f.basename = false

/-- What is at the place is a directory when the base layout is copied. -/
def into (required : List Dir) (fs : FileSystem β) (x : Dir) : Bool :=
  fs.isdir x || required.any fun d => decide (d.Within x)

/-- Where a file of the base layout is copied to: below a directory of its own name, if there is
    one at its place. -/
def target (required : List Dir) (fs : FileSystem β) (f : Dir) : Dir :=
  if into required fs (mirror f) then (mirror f).enter f.basename else mirror f

/-- The place lies in the copy of a package. -/
def Hidden (fs : FileSystem β) (x : Dir) : Prop :=
  ∃ pkg ∈ PACKAGES, fs.get (Dir.top.enter pkg) ≠ none ∧ x.Within (pkg_dir.enter pkg)

theorem isName_basename {d : Dir} (h : d ≠ Dir.top) : IsName d.basename := by
  have hne : d.names ≠ [] := fun hnil => h (Dir.ext hnil)
  unfold Dir.basename
  rw [List.getLastD_eq_getLast?, List.getLast?_eq_some_getLast hne]
  exact d.isName _ (List.getLast_mem hne)

theorem mirror_within (f : Dir) : (mirror f).Within dist_dir := Dir.within_join dist_dir f

theorem mirror_inj {f f' : Dir} : mirror f = mirror f' ↔ f = f' := Dir.join_inj

theorem mirror_within_mirror {f f' : Dir} : (mirror f).Within (mirror f') ↔ f.Within f' :=
  Dir.join_within_join

theorem mirror_enter (f : Dir) {c : String} (h : IsName c) :
    (mirror f).enter c = mirror (f.enter c) := (dist_dir.join_enter f h).symm

theorem mirror_src : mirror rootfs_src = rootfs_dst := by decide

/-- Only the top is above `dist/`. -/
theorem above_dist {x d : Dir} (hin : d.Within x) (hd : d.Within dist_dir)
    (hx : ¬ x.Within dist_dir) : x = Dir.top := by
  rcases Dir.within_or_within hin hd with hdist | hdist
  · exact absurd hdist hx
  · have hnames : x.names <+: ["dist"] := by
      have hdist_names : dist_dir.names = ["dist"] := by decide
      rw [← hdist_names]
      exact hdist
    rcases List.prefix_cons_iff.mp hnames with hnil | ⟨t, ht, hpre⟩
    · exact Dir.ext hnil
    · refine absurd ?_ hx
      rw [List.prefix_nil.mp hpre] at ht
      show dist_dir.names <+: x.names
      rw [ht]
      decide

theorem target_within_mirror {required : List Dir} {fs : FileSystem β} {f : Dir}
    (h : f ≠ Dir.top) : (target required fs f).Within (mirror f) := by
  unfold target
  split
  · show (mirror f).names <+: ((mirror f).enter f.basename).names
    rw [Dir.enter_name _ (isName_basename h)]
    exact List.prefix_append _ _
  · exact Dir.within_refl _

theorem target_within {required : List Dir} {fs : FileSystem β} {f : Dir} (h : f ≠ Dir.top) :
    (target required fs f).Within dist_dir := (target_within_mirror h).trans (mirror_within f)

theorem Copied.ne_top {skip : String → Bool} {fs : FileSystem β} {f : Dir}
    (h : Copied skip fs f) : f ≠ Dir.top := by
  rintro rfl
  exact Dir.not_top_below _ h.below

/-- What is copied does not lie below another file. -/
theorem Copied.not_parent {skip skip' : String → Bool} {fs : FileSystem β} {f f' : Dir}
    (h : Copied skip fs f) (h' : Copied skip' fs f') : f' ≠ f.enter f.basename := by
  rintro rfl
  obtain ⟨content, hfile⟩ := h.file
  obtain ⟨content', hfile'⟩ := h'.file
  have hparent := FileSystem.isdir_parent (FileSystem.file_eq_some_iff.mp hfile')
  rw [Dir.parent_enter _ (isName_basename h.ne_top)] at hparent
  rw [FileSystem.isdir_of_file hfile] at hparent
  cases hparent

theorem Copied.mirror_ne {skip : String → Bool} {required : List Dir} {fs fs' : FileSystem β}
    {f f' : Dir} (h : Copied skip fs f) (h' : Copied skip fs f')
    (heq : mirror f' = target required fs' f) :
    f' = f ∧ into required fs' (mirror f) = false := by
  unfold target at heq
  split at heq
  · rw [mirror_enter f (isName_basename h.ne_top), mirror_inj] at heq
    exact absurd heq (h.not_parent h')
  · next hnot => exact ⟨mirror_inj.mp heq, by simpa using hnot⟩

/-- Two files are copied to two places. -/
theorem target_inj {skip : String → Bool} {required : List Dir} {fs fs' : FileSystem β}
    {f f' : Dir} (h : Copied skip fs f) (h' : Copied skip fs f')
    (heq : target required fs' f = target required fs' f') : f = f' := by
  by_cases hinto : into required fs' (mirror f') = true
  · by_cases hinto' : into required fs' (mirror f) = true
    · unfold target at heq
      rw [if_pos hinto, if_pos hinto'] at heq
      have hparent := congrArg Dir.parent heq
      rw [Dir.parent_enter _ (isName_basename h.ne_top),
        Dir.parent_enter _ (isName_basename h'.ne_top)] at hparent
      exact mirror_inj.mp hparent
    · have hf : target required fs' f = mirror f := if_neg hinto'
      rw [hf] at heq
      exact (h'.mirror_ne h heq).1
  · have hf' : target required fs' f' = mirror f' := if_neg hinto
    rw [hf'] at heq
    exact (h.mirror_ne h' heq.symm).1.symm

/-! ### The base layout -/

/-- What `_copy_tree` has done when it has copied some files: they are at their places, and
    everything else is as before. -/
structure Laid (skip : String → Bool) (before : FileSystem β) (done : List Dir)
    (fs : FileSystem β) : Prop where
  placed : ∀ f ∈ done, fs.file (target [] before f) = before.file f
  kept : ∀ x, (∀ f ∈ done, target [] before f ≠ x) → fs.file x = before.file x
  outside : ∀ x, ¬ x.Within dist_dir → fs.get x = before.get x
  dirs : ∀ f, Copied skip before f → fs.isdir (mirror f) = before.isdir (mirror f)

theorem into_nil (fs : FileSystem β) (x : Dir) : into [] fs x = fs.isdir x := by
  simp [into]

theorem laid_mkdirs {skip : String → Bool} {before fs fs' : FileSystem β} {done : List Dir}
    {d : Dir} (h : Laid skip before done fs) (hd : before.get d = some .dir)
    (hmake : fs.mkdirs (mirror d) = some fs') : Laid skip before done fs' := by
  obtain ⟨hget, hfile⟩ := FileSystem.mkdirs_get hmake
  refine ⟨fun f hf => ?_, fun x hx => ?_, fun x hx => ?_, fun f hf => ?_⟩
  · rw [hfile, h.placed f hf]
  · rw [hfile, h.kept x hx]
  · rw [hget]
    split
    · next hin =>
      rw [above_dist hin (mirror_within d) hx, FileSystem.get_top]
    · exact h.outside x hx
  · rw [← h.dirs f hf]
    refine FileSystem.isdir_congr ?_
    rw [hget, if_neg]
    rw [mirror_within_mirror]
    intro hin
    obtain ⟨content, hcontent⟩ := hf.file
    have heq := FileSystem.not_within_file hcontent hd hin
    rw [heq, FileSystem.file_eq_some_iff.mp hcontent] at hd
    cases hd

theorem laid_copy {skip : String → Bool} {before fs fs' : FileSystem β} {done : List Dir}
    {f : Dir} (h : Laid skip before done fs) (hdone : ∀ f' ∈ done, Copied skip before f')
    (hf : Copied skip before f) (hcopy : fs.copy2 f (mirror f) = some fs') :
    Laid skip before (done ++ [f]) fs' := by
  obtain ⟨content, hread, hput⟩ := Option.bind_eq_some_iff.mp hcopy
  have htarget : (if fs.isdir (mirror f) then (mirror f).enter f.basename else mirror f) =
      target [] before f := by
    unfold target
    rw [into_nil, h.dirs f hf]
  rw [htarget] at hput
  have hsource : ¬ f.Within dist_dir := by
    intro hin
    have hsrc := hf.below.1
    rcases Dir.within_or_within hin hsrc with hbad | hbad
    · exact absurd hbad (by decide)
    · exact absurd hbad (by decide)
  have hcontent : before.file f = some content := by
    rw [← hread]
    exact (FileSystem.file_congr (h.outside f hsource)).symm
  obtain ⟨hfree, hget⟩ := FileSystem.putFile_get hput
  have hfile := FileSystem.putFile_file hput
  refine ⟨fun f' hf' => ?_, fun x hx => ?_, fun x hx => ?_, fun f' hf' => ?_⟩
  · rw [hfile]
    split
    · next heq =>
      have hcopied' : Copied skip before f' := by
        rcases List.mem_append.mp hf' with hf' | hf'
        · exact hdone f' hf'
        · exact List.mem_singleton.mp hf' ▸ hf
      rw [target_inj hcopied' hf heq, hcontent]
    · next hne =>
      rcases List.mem_append.mp hf' with hf' | hf'
      · exact h.placed f' hf'
      · exact absurd (by rw [List.mem_singleton.mp hf']) hne
  · rw [hfile, if_neg (fun heq => hx f (by simp) heq.symm)]
    exact h.kept x fun f' hf' => hx f' (List.mem_append_left _ hf')
  · rw [hget, if_neg, h.outside x hx]
    rintro rfl
    exact hx (target_within hf.ne_top)
  · rw [← h.dirs f' hf']
    by_cases heq : mirror f' = target [] before f
    · obtain ⟨rfl, hnot⟩ := hf.mirror_ne hf' heq
      rw [into_nil] at hnot
      rw [h.dirs f' hf', hnot]
      have hplaced : fs'.file (mirror f') = some content := by rw [hfile, if_pos heq]
      exact FileSystem.isdir_of_file hplaced
    · exact FileSystem.isdir_congr (by rw [hget, if_neg heq])

/-- A file in a directory of the walk is copied, unless it is skipped. -/
theorem copied_of_walk {skip : String → Bool} {fs : FileSystem β} {entry : Dir × List Dir}
    (hentry : entry ∈ fs.walk (fun name => name = "__pycache__") rootfs_src) {f : Dir}
    (hf : f ∈ entry.2) (hskip : skip f.basename = false) : Copied skip fs f := by
  obtain ⟨hnames, r, hd, -, hwalked⟩ := FileSystem.mem_walk.mp hentry
  rw [hnames] at hf
  obtain ⟨hparent, content, hfile⟩ := FileSystem.mem_filesIn.mp hf
  refine ⟨⟨content, hfile⟩, Dir.within_parent ?_ (FileSystem.file_ne_top hfile), ?_, hskip⟩
  · rw [hparent, hd]
    exact Dir.within_join _ r
  · rw [hparent, hd, Dir.join_names, List.mem_append, not_or]
    rw [List.any_eq_false] at hwalked
    exact ⟨by decide, fun hmem => hwalked _ hmem (decide_eq_true rfl)⟩

/-- A file that is copied is found by the walk. -/
theorem walk_of_copied {skip : String → Bool} {fs : FileSystem β} {f : Dir}
    (h : Copied skip fs f) :
    ∃ entry ∈ fs.walk (fun name => name = "__pycache__") rootfs_src, f ∈ entry.2 := by
  obtain ⟨content, hfile⟩ := h.file
  obtain ⟨r, hr⟩ := Dir.within_iff.mp h.below.1
  have hne : r ≠ Dir.top := by
    rintro rfl
    exact h.below.2 (hr.trans (Dir.join_top _))
  have hparent : f.parent = rootfs_src.join r.parent := by rw [hr, Dir.parent_join _ hne]
  have hdir := FileSystem.isdir_parent (FileSystem.file_eq_some_iff.mp hfile)
  refine ⟨(f.parent, fs.filesIn f.parent), FileSystem.mem_walk.mpr
    ⟨rfl, r.parent, hparent, hdir, ?_⟩, FileSystem.mem_filesIn.mpr ⟨rfl, content, hfile⟩⟩
  rw [List.any_eq_false]
  intro c hc hcache
  rw [decide_eq_true_eq] at hcache
  refine h.walked ?_
  rw [hparent, Dir.join_names, ← hcache]
  exact List.mem_append_right _ hc

theorem copy_tree_laid {skip : String → Bool} {before fs : FileSystem β}
    (h : copy_tree skip rootfs_src rootfs_dst before = some fs) :
    ∃ done, (∀ f, f ∈ done ↔ Copied skip before f) ∧ Laid skip before done fs := by
  -- the files of the directories that have been walked
  let wanted (entries : List (Dir × List Dir)) : List Dir :=
    entries.flatMap fun entry => entry.2.filter fun f => !skip f.basename
  have hwanted : ∀ {entries : List (Dir × List Dir)} {f : Dir}, f ∈ wanted entries ↔
      ∃ entry ∈ entries, f ∈ entry.2 ∧ skip f.basename = false := by
    intro entries f
    simp [wanted]
  refine ⟨wanted (before.walk (fun name => name = "__pycache__") rootfs_src), fun f => ?_, ?_⟩
  · rw [hwanted]
    constructor
    · rintro ⟨entry, hentry, hf, hskip⟩
      exact copied_of_walk hentry hf hskip
    · intro hf
      obtain ⟨entry, hentry, hmem⟩ := walk_of_copied hf
      exact ⟨entry, hentry, hmem, hf.wanted⟩
  · refine foldlM_induction (P := fun pre u => Laid skip before (wanted pre) u) h
      ⟨fun f hf => absurd hf List.not_mem_nil, fun x _ => rfl, fun x _ => rfl, fun f _ => rfl⟩ ?_
    intro pre entry u u' hpre hlaid hround
    have hentry : entry ∈ before.walk (fun name => name = "__pycache__") rootfs_src :=
      hpre.subset (by simp)
    have hbefore : ∀ f ∈ wanted pre, Copied skip before f := by
      intro f hf
      obtain ⟨entry', hentry', hmem, hskip⟩ := hwanted.mp hf
      exact copied_of_walk (hpre.subset (List.mem_append_left _ hentry')) hmem hskip
    obtain ⟨hnames, r, hd, hdir, -⟩ := FileSystem.mem_walk.mp hentry
    obtain ⟨rel, hrel, hround⟩ := Option.bind_eq_some_iff.mp hround
    obtain ⟨u₁, hmake, hfiles⟩ := Option.bind_eq_some_iff.mp hround
    have hplace : rootfs_dst.join rel = mirror entry.1 := by
      rw [Dir.rel_eq_some_iff.mp hrel, ← mirror_src]
      exact Dir.join_assoc ..
    rw [hplace] at hmake hfiles
    have hmade := laid_mkdirs hlaid (FileSystem.isdir_iff.mp hdir) hmake
    have hall : wanted (pre ++ [entry]) =
        wanted pre ++ entry.2.filter fun f => !skip f.basename := by
      simp [wanted]
    rw [hall]
    refine foldlM_induction (P := fun files u =>
      Laid skip before (wanted pre ++ files.filter fun f => !skip f.basename) u) hfiles
      (by simpa using hmade) ?_
    intro files f v v' hfpre hv hcopy
    have hf : f ∈ entry.2 := hfpre.subset (by simp)
    unfold copy_file at hcopy
    split at hcopy
    · next hskip =>
      obtain rfl := Option.some.inj hcopy
      simpa [hskip] using hv
    · next hskip =>
      have hskip : skip f.basename = false := by simpa using hskip
      have hcopied := copied_of_walk hentry hf hskip
      have hdest : (mirror entry.1).enter f.basename = mirror f := by
        have hparent : f.parent = entry.1 := by
          rw [hnames] at hf
          exact (FileSystem.mem_filesIn.mp hf).1
        rw [← hparent, mirror_enter _ (isName_basename hcopied.ne_top),
          Dir.enter_basename hcopied.ne_top]
      rw [hdest] at hcopy
      have hnext := laid_copy hv (fun f' hf' => ?_) hcopied hcopy
      · rw [List.filter_append, ← List.append_assoc]
        simpa [hskip] using hnext
      · rcases List.mem_append.mp hf' with hf' | hf'
        · exact hbefore f' hf'
        · obtain ⟨hf', hskip'⟩ := List.mem_filter.mp hf'
          exact copied_of_walk hentry (hfpre.subset (List.mem_append_left _ hf'))
            (by simpa using hskip')

/-- **The base layout**: the files it copies are at their targets, and the rest is as before. -/
theorem layout_spec {required : List Dir} {skip : String → Bool} {before fs : FileSystem β}
    (hrequired : ∀ d ∈ required, d.Within dist_dir) (h : layout required skip before = some fs) :
    (∀ f, Copied skip before f → fs.file (target required before f) = before.file f) ∧
    (∀ x, (∀ f, Copied skip before f → target required before f ≠ x) →
      fs.file x = before.file x) ∧
    ∀ x, ¬ x.Within dist_dir → fs.get x = before.get x := by
  obtain ⟨fs₁, hmake, hlay⟩ := Option.bind_eq_some_iff.mp h
  obtain ⟨hget, hfile⟩ := FileSystem.mkdirs_all_get hmake
  have houtside : ∀ x, ¬ x.Within dist_dir → fs₁.get x = before.get x := by
    intro x hx
    rw [hget]
    split
    · next hin =>
      obtain ⟨d, hd, hin⟩ := hin
      rw [above_dist hin (hrequired d hd) hx, FileSystem.get_top]
    · rfl
  have hcopied : ∀ f, Copied skip fs₁ f ↔ Copied skip before f := by
    intro f
    constructor
    · rintro ⟨⟨content, hc⟩, hbelow, hwalked, hwanted⟩
      exact ⟨⟨content, by rw [← hfile, hc]⟩, hbelow, hwalked, hwanted⟩
    · rintro ⟨⟨content, hc⟩, hbelow, hwalked, hwanted⟩
      exact ⟨⟨content, by rw [hfile, hc]⟩, hbelow, hwalked, hwanted⟩
  have htarget : ∀ f, target [] fs₁ f = target required before f := by
    intro f
    unfold target
    refine if_congr ?_ rfl rfl
    rw [into_nil]
    unfold into
    rw [Bool.or_eq_true, List.any_eq_true, FileSystem.isdir_iff, FileSystem.isdir_iff, hget]
    simp only [decide_eq_true_eq]
    split
    · next hin => exact iff_of_true rfl (Or.inr hin)
    · next hout => exact ⟨Or.inl, fun hor => hor.resolve_right hout⟩
  split at hlay
  · next hnone =>
    obtain rfl := Option.some.inj hlay
    refine ⟨fun f hf => ?_, fun x _ => hfile x, houtside⟩
    -- without a base layout nothing is copied
    obtain ⟨content, hc⟩ := ((hcopied f).mpr hf).file
    have hdir := FileSystem.isdir_above (FileSystem.file_eq_some_iff.mp hc) hf.below.1 hf.below.2
    rw [hnone] at hdir
    cases hdir
  · obtain ⟨done, hdone, hlaid⟩ := copy_tree_laid hlay
    refine ⟨fun f hf => ?_, fun x hx => ?_, fun x hx => ?_⟩
    · rw [← htarget, hlaid.placed f ((hdone f).mpr ((hcopied f).mpr hf)), hfile]
    · rw [hlaid.kept x, hfile]
      intro f hf
      rw [htarget]
      exact hx f ((hcopied f).mp ((hdone f).mp hf))
    · rw [hlaid.outside x hx, houtside x hx]

/-! ### Packages and files -/

/-- The package is in the sources. -/
def Present (fs : FileSystem β) (pkg : String) : Prop :=
  pkg ∈ PACKAGES ∧ fs.get (Dir.top.enter pkg) ≠ none

theorem pkg_isName {pkg : String} (h : pkg ∈ PACKAGES) : IsName pkg := by
  have hall : ∀ pkg ∈ PACKAGES, IsName pkg := by decide
  exact hall pkg h

theorem pkg_dir_within : pkg_dir.Within dist_dir := by decide

theorem pkg_within {pkg : String} (h : pkg ∈ PACKAGES) (r : Dir) :
    ((pkg_dir.enter pkg).join r).Within pkg_dir := by
  refine (Dir.within_join _ r).trans ?_
  show pkg_dir.names <+: (pkg_dir.enter pkg).names
  rw [Dir.enter_name _ (pkg_isName h)]
  exact List.prefix_append _ _

/-- The sources of a package lie outside `dist/`. -/
theorem pkg_source_outside {pkg : String} (h : pkg ∈ PACKAGES) (r : Dir) :
    ¬ ((Dir.top.enter pkg).join r).Within dist_dir := by
  intro hin
  have hall : ∀ pkg ∈ PACKAGES, pkg ≠ "dist" := by decide
  have hdist_names : dist_dir.names = ["dist"] := by decide
  have hpre : dist_dir.names <+: ((Dir.top.enter pkg).join r).names := hin
  rw [hdist_names, Dir.join_names, Dir.enter_name _ (pkg_isName h)] at hpre
  exact hall pkg h (List.cons_prefix_cons.mp hpre).1.symm

/-- The copies of two packages have no place in common. -/
theorem pkg_apart {pkg pkg' : String} (h : pkg ∈ PACKAGES) (h' : pkg' ∈ PACKAGES) {x : Dir}
    (hin : x.Within (pkg_dir.enter pkg)) (hin' : x.Within (pkg_dir.enter pkg')) : pkg = pkg' := by
  have hbegin : ∀ {a b : String}, IsName a → IsName b →
      (pkg_dir.enter a).Within (pkg_dir.enter b) → b = a := by
    intro a b ha hb hpre
    unfold Dir.Within at hpre
    rw [Dir.enter_name _ ha, Dir.enter_name _ hb] at hpre
    have heq := hpre.eq_of_length (by simp)
    exact List.singleton_inj.mp (List.append_cancel_left heq)
  rcases Dir.within_or_within hin hin' with hw | hw
  · exact (hbegin (pkg_isName h) (pkg_isName h') hw).symm
  · exact hbegin (pkg_isName h') (pkg_isName h) hw

/-- What the loop has done after some packages. -/
structure Packed (ignore : String → Bool) (before : FileSystem β) (done : List String)
    (fs : FileSystem β) : Prop where
  copied : ∀ pkg ∈ done, Present before pkg → ∀ r,
    fs.file ((pkg_dir.enter pkg).join r) =
      if r.names.any ignore then none else before.file ((Dir.top.enter pkg).join r)
  kept : ∀ x, (∀ pkg ∈ done, Present before pkg → ¬ x.Within (pkg_dir.enter pkg)) →
    fs.get x = before.get x

theorem package_step {ignore : String → Bool} {before fs fs' : FileSystem β}
    {done : List String} {pkg : String} (h : Packed ignore before done fs)
    (hdone : ∀ pkg' ∈ done, pkg' ∈ PACKAGES) (hpkg : pkg ∈ PACKAGES)
    (hstep : package ignore fs pkg = some fs') : Packed ignore before (done ++ [pkg]) fs' := by
  have houtside : ∀ {x}, ¬ x.Within dist_dir → fs.get x = before.get x := fun {x} hx =>
    h.kept x fun pkg' hpkg' _ hin => hx ((hin.trans (by
      simpa using pkg_within (hdone pkg' hpkg') Dir.top)).trans pkg_dir_within)
  have hsource : ∀ r, fs.get ((Dir.top.enter pkg).join r) =
      before.get ((Dir.top.enter pkg).join r) := fun r => houtside (pkg_source_outside hpkg r)
  have htop := hsource Dir.top
  rw [Dir.join_top] at htop
  unfold package at hstep
  rw [htop] at hstep
  split at hstep
  · next hnone =>
    -- a package that is not there is passed over
    obtain rfl := Option.some.inj hstep
    refine ⟨fun pkg' hpkg' hpresent => ?_, fun x hx => h.kept x fun pkg' hpkg' =>
      hx pkg' (List.mem_append_left _ hpkg')⟩
    rcases List.mem_append.mp hpkg' with hpkg' | hpkg'
    · exact h.copied pkg' hpkg' hpresent
    · rw [List.mem_singleton.mp hpkg'] at hpresent
      exact absurd hnone hpresent.2
  · next hsome =>
    obtain ⟨fs₁, hclear, hcopy⟩ := Option.bind_eq_some_iff.mp hstep
    have hcleared : ∀ x, ¬ x.Within (pkg_dir.enter pkg) → fs₁.get x = fs.get x := by
      have hne : pkg_dir.enter pkg ≠ Dir.top := by
        intro heq
        have hnames := congrArg Dir.names heq
        rw [Dir.enter_name _ (pkg_isName hpkg)] at hnames
        exact List.append_ne_nil_of_right_ne_nil _ (List.cons_ne_nil _ _) hnames
      intro x hx
      split at hclear
      · rw [Option.some.inj hclear]
      · unfold FileSystem.rmtree at hclear
        split at hclear
        · rw [← Option.some.inj hclear, FileSystem.get_remove hne, if_neg hx]
        · cases hclear
    obtain ⟨-, -, hget⟩ := FileSystem.copytree_get hcopy
    have hfar : ∀ x, ¬ x.Within (pkg_dir.enter pkg) → fs'.get x = fs.get x := fun x hx => by
      rw [hget, Dir.rel_eq_none_iff.mpr hx]
      exact hcleared x hx
    refine ⟨fun pkg' hpkg' hpresent r => ?_, fun x hx => ?_⟩
    · by_cases heq : pkg' = pkg
      · subst heq
        have hr := hget ((pkg_dir.enter pkg').join r)
        rw [Dir.rel_join] at hr
        dsimp only at hr
        have hfrom : fs₁.get ((Dir.top.enter pkg').join r) =
            before.get ((Dir.top.enter pkg').join r) := by
          rw [hcleared, hsource]
          intro hin
          refine pkg_source_outside hpkg r ((hin.trans ?_).trans pkg_dir_within)
          simpa using pkg_within hpkg Dir.top
        rw [hfrom] at hr
        unfold FileSystem.file
        rw [hr]
        cases r.names.any ignore <;> rfl
      · have hmem : pkg' ∈ done := by
          rcases List.mem_append.mp hpkg' with hmem | hmem
          · exact hmem
          · exact absurd (List.mem_singleton.mp hmem) heq
        rw [← h.copied pkg' hmem hpresent r]
        exact FileSystem.file_congr (hfar _ fun hin =>
          heq (pkg_apart (hdone pkg' hmem) hpkg (Dir.within_join _ r) hin))
    · rw [hfar x (hx pkg (by simp) ⟨hpkg, hsome⟩)]
      exact h.kept x fun pkg' hpkg' => hx pkg' (List.mem_append_left _ hpkg')

/-- **The packages**: each that is in the sources is copied, without what is ignored, and the
    rest is as before. -/
theorem packages_spec {ignore : String → Bool} {before fs : FileSystem β}
    (h : packages ignore before = some fs) :
    before.file pkg_dir = none ∧
    (∀ pkg, Present before pkg → ∀ r, fs.file ((pkg_dir.enter pkg).join r) =
      if r.names.any ignore then none else before.file ((Dir.top.enter pkg).join r)) ∧
    (∀ x, ¬ Hidden before x → fs.file x = before.file x) ∧
    ∀ x, ¬ x.Within dist_dir → fs.get x = before.get x := by
  obtain ⟨fs₁, hmake, hpack⟩ := Option.bind_eq_some_iff.mp h
  obtain ⟨hget, hfile⟩ := FileSystem.mkdirs_get hmake
  have hfree : before.file pkg_dir = none := by
    rw [← hfile]
    exact FileSystem.file_of_isdir (FileSystem.isdir_iff.mpr (by
      rw [hget, if_pos (Dir.within_refl _)]))
  have houtside : ∀ x, ¬ x.Within dist_dir → fs₁.get x = before.get x := by
    intro x hx
    rw [hget]
    split
    · next hin => rw [above_dist hin pkg_dir_within hx, FileSystem.get_top]
    · rfl
  have hpresent : ∀ pkg, Present fs₁ pkg ↔ Present before pkg := by
    intro pkg
    refine and_congr_right fun hpkg => ?_
    have hsource := pkg_source_outside hpkg Dir.top
    rw [Dir.join_top] at hsource
    rw [houtside _ hsource]
  have hpacked : Packed ignore fs₁ PACKAGES fs :=
    foldlM_induction (P := fun pre u => Packed ignore fs₁ pre u) hpack
      ⟨fun _ hmem => absurd hmem List.not_mem_nil, fun _ _ => rfl⟩
      fun pre pkg u u' hpre hu hstep => package_step hu
        (fun pkg' hpkg' => hpre.subset (List.mem_append_left _ hpkg'))
        (hpre.subset (by simp)) hstep
  refine ⟨hfree, fun pkg hpkg r => ?_, fun x hx => ?_, fun x hx => ?_⟩
  · rw [hpacked.copied pkg hpkg.1 ((hpresent pkg).mpr hpkg), hfile]
  · rw [← hfile]
    refine FileSystem.file_congr (hpacked.kept x fun pkg hpkg hin hwithin => hx ?_)
    have hsome := (hpresent pkg).mp hin
    exact ⟨pkg, hpkg, hsome.2, hwithin⟩
  · rw [← houtside x hx]
    refine hpacked.kept x fun pkg hpkg _ hin => hx ((hin.trans ?_).trans pkg_dir_within)
    simpa using pkg_within hpkg Dir.top

theorem write_files_spec {files : List (Dir × β)} {before fs : FileSystem β}
    (hnodup : (files.map Prod.fst).Nodup) (h : write_files files before = some fs) :
    (∀ file ∈ files, fs.file file.1 = some file.2) ∧
    ∀ x, x ∉ files.map Prod.fst → fs.get x = before.get x := by
  refine foldlM_induction (P := fun pre u =>
    (∀ file ∈ pre, u.file file.1 = some file.2) ∧
      ∀ x, x ∉ pre.map Prod.fst → u.get x = before.get x) h
    ⟨fun _ hmem => absurd hmem List.not_mem_nil, fun _ _ => rfl⟩ ?_
  rintro pre file u u' hpre ⟨hwritten, hkept⟩ hput
  have hfile := FileSystem.putFile_file hput
  obtain ⟨-, hget⟩ := FileSystem.putFile_get hput
  have hsub : ((pre ++ [file]).map Prod.fst).Nodup :=
    hnodup.sublist (hpre.sublist.map Prod.fst)
  rw [List.map_append, List.nodup_append'] at hsub
  refine ⟨fun file' hmem => ?_, fun x hx => ?_⟩
  · rcases List.mem_append.mp hmem with hmem | hmem
    · rw [hfile, if_neg, hwritten file' hmem]
      intro heq
      exact hsub.2.2 (List.mem_map_of_mem hmem) (by simp [heq])
    · rw [List.mem_singleton.mp hmem, hfile, if_pos rfl]
  · rw [List.map_append, List.mem_append, not_or] at hx
    rw [hget, if_neg (fun heq => hx.2 (by simp [heq])), hkept x hx.1]

/-! ### The assembly -/

/-- What is where after the steps of a build, in terms of what was there before. -/
structure Assembled (required : List Dir) (skip ignore : String → Bool)
    (files : List (Dir × β)) (before fs : FileSystem β) : Prop where
  outside : ∀ x, ¬ x.Within dist_dir → fs.get x = before.get x
  written : ∀ file ∈ files, fs.file file.1 = some file.2
  packed : ∀ pkg, Present before pkg → ∀ r, (pkg_dir.enter pkg).join r ∉ files.map Prod.fst →
    fs.file ((pkg_dir.enter pkg).join r) =
      if r.names.any ignore then none else before.file ((Dir.top.enter pkg).join r)
  laid : ∀ f, Copied skip before f → target required before f ∉ files.map Prod.fst →
    ¬ Hidden before (target required before f) →
    fs.file (target required before f) = before.file f
  kept : ∀ x, x ∉ files.map Prod.fst → ¬ Hidden before x →
    (∀ f, Copied skip before f → target required before f ≠ x) → fs.file x = before.file x
  free : pkg_dir ∉ files.map Prod.fst → fs.file pkg_dir = none

/-- The directory of the packages lies in the copy of none of them. -/
theorem pkg_dir_shown (fs : FileSystem β) : ¬ Hidden fs pkg_dir := by
  rintro ⟨pkg, hpkg, -, hin⟩
  have hlength := List.IsPrefix.length_le hin
  rw [Dir.enter_name _ (pkg_isName hpkg), List.length_append, List.length_singleton] at hlength
  omega

theorem hidden_below {fs : FileSystem β} {x : Dir} (h : Hidden fs x) : x.Within pkg_dir := by
  obtain ⟨pkg, hpkg, -, hin⟩ := h
  have hpkg_dir := pkg_within hpkg Dir.top
  rw [Dir.join_top] at hpkg_dir
  exact hin.trans hpkg_dir

/-- Below a place outside the packages only the directory of the packages has a place in them. -/
theorem hidden_enter {before : FileSystem β} {x : Dir} {c : String} (hname : IsName c)
    (h : Hidden before (x.enter c)) : Hidden before x ∨ x = pkg_dir := by
  obtain ⟨pkg, hpkg, hpresent, hin⟩ := h
  unfold Dir.Within at hin
  rw [Dir.enter_name _ hname, Dir.enter_name _ (pkg_isName hpkg)] at hin
  rcases List.prefix_concat_iff.mp hin with heq | hpre
  · exact Or.inr (Dir.ext (List.append_inj' heq rfl).1.symm)
  · refine Or.inl ⟨pkg, hpkg, hpresent, ?_⟩
    unfold Dir.Within
    rw [Dir.enter_name _ (pkg_isName hpkg)]
    exact hpre

theorem hidden_of_above {before : FileSystem β} {x y : Dir} (h : Hidden before x)
    (hin : y.Within x) : Hidden before y := by
  obtain ⟨pkg, hpkg, hpresent, hx⟩ := h
  exact ⟨pkg, hpkg, hpresent, hin.trans hx⟩

/-- Where a directory is in the way of a file of the base layout, no file is in the end. -/
theorem Assembled.not_file {required : List Dir} {skip ignore : String → Bool}
    {files : List (Dir × β)} {before fs : FileSystem β}
    (h : Assembled required skip ignore files before fs) {f : Dir} (hf : Copied skip before f)
    (hinto : into required before (mirror f) = true) (hshown : ¬ Hidden before (mirror f))
    (hfree : pkg_dir ∉ files.map Prod.fst)
    (hout : (mirror f).enter f.basename ∉ files.map Prod.fst) : fs.file (mirror f) = none := by
  by_cases hpkg : mirror f = pkg_dir
  · rw [hpkg, h.free hfree]
  have hplace : target required before f = (mirror f).enter f.basename := if_pos hinto
  have hname := isName_basename hf.ne_top
  obtain ⟨content, hcontent⟩ := hf.file
  -- the file lies below its place, which is a directory therefore
  have hplaced : fs.file (target required before f) = some content := by
    rw [h.laid f hf (by rw [hplace]; exact hout), hcontent]
    rw [hplace]
    exact fun hh => (hidden_enter hname hh).elim hshown hpkg
  rw [hplace, FileSystem.file_eq_some_iff] at hplaced
  have hdir := FileSystem.isdir_parent hplaced
  rw [Dir.parent_enter _ hname] at hdir
  exact FileSystem.file_of_isdir hdir

/-- **The assembly**: what the steps of a build leave. -/
theorem assemble_spec {required : List Dir} {skip ignore : String → Bool}
    {files : List (Dir × β)} {before fs : FileSystem β}
    (hrequired : ∀ d ∈ required, d.Within dist_dir) (hnodup : (files.map Prod.fst).Nodup)
    (hfiles : ∀ file ∈ files, file.1.Within dist_dir)
    (h : assemble required skip ignore files before = some fs) :
    Assembled required skip ignore files before fs := by
  obtain ⟨fs₁, hlayout, h⟩ := Option.bind_eq_some_iff.mp h
  obtain ⟨fs₂, hpackages, hwrite⟩ := Option.bind_eq_some_iff.mp h
  obtain ⟨hlaid, hkept, houtside⟩ := layout_spec hrequired hlayout
  obtain ⟨hfree, hpacked, hkept', houtside'⟩ := packages_spec hpackages
  obtain ⟨hwritten, hkept''⟩ := write_files_spec hnodup hwrite
  have hfar : ∀ x, ¬ x.Within dist_dir → x ∉ files.map Prod.fst := by
    intro x hx hmem
    obtain ⟨file, hfile, rfl⟩ := List.mem_map.mp hmem
    exact hx (hfiles file hfile)
  -- the packages are those of the sources
  have hsource : ∀ pkg ∈ PACKAGES, ∀ r, fs₁.get ((Dir.top.enter pkg).join r) =
      before.get ((Dir.top.enter pkg).join r) := fun pkg hpkg r =>
    houtside _ (pkg_source_outside hpkg r)
  have hpresent : ∀ pkg ∈ PACKAGES,
      fs₁.get (Dir.top.enter pkg) = before.get (Dir.top.enter pkg) := by
    intro pkg hpkg
    have htop := hsource pkg hpkg Dir.top
    rwa [Dir.join_top] at htop
  have hhidden : ∀ x, Hidden fs₁ x ↔ Hidden before x := by
    intro x
    refine exists_congr fun pkg => and_congr_right fun hpkg => ?_
    rw [hpresent pkg hpkg]
  refine ⟨fun x hx => ?_, hwritten, fun pkg hpkg r hout => ?_, fun f hf hout hshown => ?_,
    fun x hout hshown hx => ?_, fun hout => ?_⟩
  · rw [hkept'' x (hfar x hx), houtside' x hx, houtside x hx]
  · rw [FileSystem.file_congr (hkept'' _ hout),
      hpacked pkg ⟨hpkg.1, by rw [hpresent pkg hpkg.1]; exact hpkg.2⟩,
      FileSystem.file_congr (hsource pkg hpkg.1 r)]
  · rw [FileSystem.file_congr (hkept'' _ hout), hkept' _ (fun hh => hshown ((hhidden _).mp hh)),
      hlaid f hf]
  · rw [FileSystem.file_congr (hkept'' _ hout), hkept' _ (fun hh => hshown ((hhidden _).mp hh)),
      hkept x hx]
  · rw [FileSystem.file_congr (hkept'' _ hout), hkept' _ (pkg_dir_shown fs₁), hfree]

/-! ### Checksums -/

/-- A path that is looked at for a Python source. -/
def Checked (p : Dir) : Prop := PyStr.endswith p.basename ".py" = true ∧ excluded p = false

instance (p : Dir) : Decidable (Checked p) := inferInstanceAs (Decidable (_ ∧ _))

theorem Checked.ne_top {p : Dir} (h : Checked p) : p ≠ Dir.top := by
  rintro rfl
  exact absurd h.1 (by decide)

/-- A name in a path is part of its text. -/
theorem infix_text {p : Dir} {c : String} (h : c ∈ p.names) : c.toList <:+: (text p).toList := by
  unfold text
  generalize p.names = names at h
  induction names with
  | nil => cases h
  | cons name names ih =>
    by_cases hnil : names = []
    · subst hnil
      rw [String.intercalate_singleton, List.mem_singleton.mp h]
    · rw [String.intercalate_cons_of_ne_nil hnil, String.toList_append, String.toList_append]
      rcases List.mem_cons.mp h with rfl | h
      · rw [List.append_assoc]
        exact List.infix_append' [] _ _
      · exact (ih h).trans (List.infix_append_of_infix_right (List.infix_refl _))

theorem Checked.not_mem {p : Dir} (h : Checked p) {c : String}
    (hc : c ∈ [".git", "__pycache__", "dist", "/tmp"]) : c ∉ p.names := by
  intro hmem
  have hexcluded := h.2
  unfold excluded at hexcluded
  rw [List.any_eq_false] at hexcluded
  exact hexcluded c hc (decide_eq_true (infix_text hmem))

theorem Checked.outside {p : Dir} (h : Checked p) : ¬ p.Within dist_dir := by
  intro hin
  refine h.not_mem (c := "dist") (by decide) ?_
  have hmem : "dist" ∈ dist_dir.names := by decide
  exact List.IsPrefix.subset hin hmem

/-- **The checksums**: each Python source that is looked at has one. -/
theorem checksums_get {sha256 : β → String} {fs : FileSystem β} {files : Dict Dir String}
    (h : checksums sha256 fs = some files) (p : Dir) :
    files.get p = if Checked p then (fs.file p).map sha256 else none := by
  have hloop : ∀ p, files.get p =
      if p ∈ fs.rglob ".py" ∧ excluded p = false then (fs.file p).map sha256 else none := by
    refine foldlM_induction (P := fun pre (u : Dict Dir String) => ∀ p, u.get p =
      if p ∈ pre ∧ excluded p = false then (fs.file p).map sha256 else none) h
      (fun p => by simp) ?_
    rintro pre a u u' - hu hround p
    unfold record at hround
    split at hround
    · next hexcluded =>
      obtain rfl := Option.some.inj hround
      rw [hu]
      refine if_congr ?_ rfl rfl
      refine and_congr_left fun hp => ?_
      rw [List.mem_append, List.mem_singleton, or_iff_left]
      rintro rfl
      rw [hexcluded] at hp
      cases hp
    · next hkept =>
      obtain ⟨content, hfile, rfl⟩ := Option.map_eq_some_iff.mp hround
      rw [Dict.get_set]
      by_cases heq : p = a
      · subst heq
        rw [if_pos rfl, if_pos ⟨by simp, by simpa using hkept⟩, hfile]
        rfl
      · rw [if_neg heq, hu]
        simp [heq]
  rw [hloop]
  by_cases hchecked : Checked p
  · rw [if_pos hchecked]
    split
    · rfl
    · next hnot =>
      have hnone : fs.get p = none := by
        by_contra hsome
        exact hnot ⟨(FileSystem.mem_rglob hchecked.ne_top).mpr ⟨hsome, hchecked.1⟩, hchecked.2⟩
      unfold FileSystem.file
      rw [hnone]
      rfl
  · rw [if_neg hchecked, if_neg]
    rintro ⟨hmem, hexcluded⟩
    have hends := ((FileSystem.mem_rglob (FileSystem.rglob_ne_top hmem)).mp hmem).2
    exact hchecked ⟨hends, hexcluded⟩

/-- The checksums are taken unless a directory is where a source is looked for. -/
theorem checksums_isSome {sha256 : β → String} {fs : FileSystem β} :
    (∃ files, checksums sha256 fs = some files) ↔ ∀ p, Checked p → fs.isdir p = false := by
  constructor
  · rintro ⟨files, h⟩ p hp
    have hread : ∀ p ∈ fs.rglob ".py", excluded p = false → fs.file p ≠ none := by
      refine foldlM_induction (P := fun pre (_ : Dict Dir String) =>
        ∀ p ∈ pre, excluded p = false → fs.file p ≠ none) h
        (fun _ hmem => absurd hmem List.not_mem_nil) ?_
      rintro pre a u u' - hu hround p hmem hkept
      rcases List.mem_append.mp hmem with hmem | hmem
      · exact hu p hmem hkept
      · obtain rfl := List.mem_singleton.mp hmem
        unfold record at hround
        rw [hkept] at hround
        obtain ⟨content, hfile, -⟩ := Option.map_eq_some_iff.mp hround
        rw [hfile]
        exact Option.some_ne_none _
    by_contra hdir
    rw [Bool.not_eq_false] at hdir
    have hmem : p ∈ fs.rglob ".py" := by
      rw [FileSystem.mem_rglob hp.ne_top, FileSystem.isdir_iff.mp hdir]
      exact ⟨Option.some_ne_none _, hp.1⟩
    exact hread p hmem hp.2 (FileSystem.file_of_isdir hdir)
  · intro h
    refine exists_foldlM (fun p hmem acc => ?_) _
    unfold record
    split
    · exact ⟨acc, rfl⟩
    · next hkept =>
      obtain ⟨hsome, hends⟩ :=
        (FileSystem.mem_rglob (FileSystem.rglob_ne_top hmem)).mp hmem
      have hchecked : Checked p := ⟨hends, by simpa using hkept⟩
      -- what is there is a file
      cases hget : fs.get p with
      | none => exact absurd hget hsome
      | some e =>
        cases e with
        | dir =>
          have hdir := h p hchecked
          rw [FileSystem.isdir_iff.mpr hget] at hdir
          cases hdir
        | file content =>
          rw [FileSystem.file_eq_some_iff.mpr hget]
          exact ⟨_, rfl⟩

theorem checksums_keys {sha256 : β → String} {fs : FileSystem β} {files : Dict Dir String}
    (h : checksums sha256 fs = some files) {p : Dir} (hp : p ∈ files.keys) :
    Checked p ∧ ∃ content, fs.file p = some content := by
  obtain ⟨hash, hget⟩ := (files.mem_keys_iff p).mp hp
  rw [checksums_get h] at hget
  split at hget
  · next hchecked =>
    obtain ⟨content, hfile, -⟩ := Option.map_eq_some_iff.mp hget
    exact ⟨hchecked, content, hfile⟩
  · cases hget

/-- What the manifest records, of the files before the build. -/
theorem write_manifest_spec {T : Type} {host : Host T β} {build_time : String}
    {build_epoch : Option T} {fs fs' : FileSystem β}
    (h : write_manifest host build_time build_epoch fs = some fs') :
    (∃ manifest : Manifest T, checksums host.sha256 fs = some manifest.files ∧
      fs'.file manifest_path = some (host.dumps manifest)) ∧
    ∀ x, x ≠ manifest_path → fs'.get x = fs.get x := by
  obtain ⟨files, hfiles, hput⟩ := Option.bind_eq_some_iff.mp h
  refine ⟨⟨{ build_time, build_epoch, version := VERSION, total_files := files.items.length,
             files }, hfiles, ?_⟩, fun x hx => ?_⟩
  · rw [FileSystem.putFile_file hput, if_pos rfl]
  · rw [(FileSystem.putFile_get hput).2, if_neg hx]

/-! ### A host -/

/-- What a file holds: a text, or the checksums of a manifest. -/
abbrev Content := String ⊕ Dict Dir String

/-- A host on which a text is its own checksum. -/
def plain : Host Unit Content where
  sha256 := Sum.elim id fun _ => ""
  encode := .inl
  dumps := fun manifest => .inr manifest.files
  loads := Sum.elim (fun _ => none) some

theorem plain_loads (manifest : Manifest Unit) :
    plain.loads (plain.dumps manifest) = some manifest.files := rfl

/-- A tree with some texts. -/
def texts (files : List (List String × String)) : FileSystem Content :=
  files.foldl (fun fs file =>
    ((fs.mkdirs (Dir.top.walk file.1.dropLast)).bind fun fs =>
      fs.putFile (Dir.top.walk file.1) (.inl file.2)).getD fs) .empty

/-- The tree holds non-empty texts. -/
def textsTest (fs : FileSystem Content) : Bool :=
  fs.entries.items.all fun entry =>
    match entry.2 with
    | .dir => true
    | .file (.inl text) => text ≠ ""
    | .file (.inr _) => false

/-- No other content has the checksum of a non-empty text. -/
theorem plain_collision {fs : FileSystem Content} (h : textsTest fs = true) {p : Dir}
    {content content' : Content} (hfile : fs.file p = some content)
    (hhash : plain.sha256 content = plain.sha256 content') : content = content' := by
  have hget := FileSystem.file_eq_some_iff.mp hfile
  rw [FileSystem.get_of_entry (FileSystem.file_ne_top hfile)] at hget
  have htext := List.all_eq_true.mp h _ (Dict.mem_of_get hget)
  dsimp only at htext
  cases content with
  | inr files => cases htext
  | inl text =>
    cases content' with
    | inl text' => exact congrArg Sum.inl hhash
    | inr files => exact absurd hhash (of_decide_eq_true htext)

end Build
