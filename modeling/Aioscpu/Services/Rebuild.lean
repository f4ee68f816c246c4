import Aioscpu.Services.BuildService

/-! # Reproducible Rebuild

  Two rebuilds of the same sources, over two earlier contents of `dist/`. The
  packages are replaced and the base layout is only laid over what is there, so
  a file of an earlier build may stay.

  Main result (`reproducible_iff`): when the results are the same, and come
  from the sources.
-/

namespace BuildService

open Build

variable {T β : Type}

/-! ### What a rebuild leaves below the root filesystem -/

/-- Where the rebuild puts a file of the base layout. -/
def place (before : FileSystem β) (f : Dir) : Dir := target (dist_dir :: required_dirs) before f

/-- A directory is at the place of the file when the base layout is copied. -/
def occupied (before : FileSystem β) (f : Dir) : Bool :=
  into (dist_dir :: required_dirs) before (mirror f)

/-- The text of `bin/aura`. -/
def entry_text (host : Host T β) : β :=
  host.encode (launcher docstring "sys.path.insert(0, '/usr/lib/aura')")

/-- What is where below `dist/rootfs` after a rebuild. -/
structure Rebuilt (host : Host T β) (before fs : FileSystem β) : Prop where
  launcher : fs.file entry_point = some (entry_text host)
  packed : ∀ pkg, Present before pkg → ∀ r, fs.file ((pkg_dir.enter pkg).join r) =
    if r.names.any ignore then none else before.file ((Dir.top.enter pkg).join r)
  laid : ∀ f, Copied skip before f → place before f ≠ entry_point →
    ¬ Hidden before (place before f) → fs.file (place before f) = before.file f
  kept : ∀ x, x.Within rootfs_dst → x ≠ entry_point → ¬ Hidden before x →
    (∀ f, Copied skip before f → place before f ≠ x) → fs.file x = before.file x
  /-- Where a directory is in the way, the result has one too, unless the place is in a package. -/
  not_file : ∀ f, Copied skip before f → occupied before f = true → ¬ Hidden before (mirror f) →
    fs.file (mirror f) = none

theorem mem_launchers {host : Host T β} {x : Dir} :
    x ∈ (launchers host).map Prod.fst ↔ x = dist_dir.enter "aura" ∨ x = entry_point := by
  show x ∈ [dist_dir.enter "aura", entry_point] ↔ _
  rw [List.mem_cons, List.mem_singleton]

/-- Outside `dist/rootfs` there is only one other launcher. -/
theorem not_mem_launchers {host : Host T β} {x : Dir} (hin : x.Within rootfs_dst)
    (hne : x ≠ entry_point) : x ∉ (launchers host).map Prod.fst := by
  rw [mem_launchers, not_or]
  refine ⟨?_, hne⟩
  rintro rfl
  exact absurd hin (by decide)

theorem pkg_dir_below : pkg_dir.Within rootfs_dst := by decide

theorem package_below {pkg : String} (hpkg : pkg ∈ PACKAGES) (r : Dir) :
    ((pkg_dir.enter pkg).join r).Within rootfs_dst := (pkg_within hpkg r).trans pkg_dir_below

theorem copied_below {before : FileSystem β} {f : Dir} (h : Copied skip before f) :
    (mirror f).Within rootfs_dst := by
  rw [← mirror_src, mirror_within_mirror]
  exact h.below.1

theorem place_below {before : FileSystem β} {f : Dir} (h : Copied skip before f) :
    (place before f).Within rootfs_dst := (target_within_mirror h.ne_top).trans (copied_below h)

theorem place_of_occupied {before : FileSystem β} {f : Dir} (h : occupied before f = true) :
    place before f = (mirror f).enter f.basename := if_pos h

theorem place_of_free {before : FileSystem β} {f : Dir} (h : occupied before f = false) :
    place before f = mirror f := if_neg (by rw [← Bool.not_eq_true] at h; exact h)

/-- The file of a directory's own name in it is not `bin/aura`. -/
theorem enter_ne_entry_point {before : FileSystem β} {f : Dir} (h : Copied skip before f) :
    (mirror f).enter f.basename ≠ entry_point := by
  intro heq
  have hparent := congrArg Dir.parent heq
  rw [Dir.parent_enter _ (isName_basename h.ne_top)] at hparent
  have hf : mirror f = mirror (rootfs_src.enter "bin") := hparent.trans (by decide)
  rw [mirror_inj] at hf
  subst hf
  exact absurd heq (by decide)

theorem rebuilt_of_rebuild {host : Host T β} {build_time : String} {before fs : FileSystem β}
    (h : do_rebuild host build_time before = some fs) : Rebuilt host before fs := by
  obtain ⟨assembled, hassembled, -, hget⟩ := do_rebuild_spec h
  have hfile : ∀ x, x.Within rootfs_dst → fs.file x = assembled.file x := by
    intro x hin
    refine FileSystem.file_congr (hget x ?_)
    rintro rfl
    exact absurd hin (by decide)
  have hfree : pkg_dir ∉ (launchers host).map Prod.fst :=
    not_mem_launchers pkg_dir_below (by decide)
  refine ⟨?_, fun pkg hpkg r => ?_, fun f hf hne hshown => ?_, fun x hin hne hshown hx => ?_,
    fun f hf hoccupied hshown => ?_⟩
  · rw [hfile _ (by decide)]
    exact hassembled.written _ (List.mem_cons_of_mem _ List.mem_cons_self)
  · rw [hfile _ (package_below hpkg.1 r)]
    refine hassembled.packed pkg hpkg r (not_mem_launchers (package_below hpkg.1 r) fun heq => ?_)
    have hin := pkg_within hpkg.1 r
    rw [heq] at hin
    exact absurd hin (by decide)
  · rw [hfile _ (place_below hf)]
    exact hassembled.laid f hf (not_mem_launchers (place_below hf) hne) hshown
  · rw [hfile x hin]
    exact hassembled.kept x (not_mem_launchers hin hne) hshown hx
  · rw [hfile _ (copied_below hf)]
    refine hassembled.not_file hf hoccupied hshown hfree (not_mem_launchers ?_ ?_)
    · rw [← place_of_occupied hoccupied]
      exact place_below hf
    · exact enter_ne_entry_point hf

/-! ### Sources -/

/-- A file of the result that comes from the launchers, a package or the base layout. -/
inductive FromSources (host : Host T β) (before : FileSystem β) : Dir → β → Prop
  | launcher : FromSources host before entry_point (entry_text host)
  | packaged {pkg : String} {r : Dir} {content : β} (hpkg : Present before pkg)
      (hwanted : r.names.any ignore = false)
      (hfile : before.file ((Dir.top.enter pkg).join r) = some content) :
      FromSources host before ((pkg_dir.enter pkg).join r) content
  | laid {f x : Dir} {content : β} (hcopied : Copied skip before f)
      (hfile : before.file f = some content)
      (hplace : x = mirror f ∨ x = (mirror f).enter f.basename) :
      FromSources host before x content

/-- Every file that an earlier build has left is written again. -/
def Clean (before : FileSystem β) : Prop :=
  ∀ x content, x.Within rootfs_dst → before.file x = some content →
    x = entry_point ∨ Hidden before x ∨ ∃ f, Copied skip before f ∧ place before f = x

variable {host : Host T β}

/-- **Where the files come from**: all of them come from the sources if and only if none is left
    from an earlier build. -/
theorem fromSources_iff_clean {before fs : FileSystem β} (h : Rebuilt host before fs) :
    (∀ x content, x.Within rootfs_dst → fs.file x = some content →
      FromSources host before x content) ↔ Clean before := by
  constructor
  · intro hsources x content hin hfile
    by_contra hnot
    rw [not_or, not_or, not_exists] at hnot
    obtain ⟨hne, hshown, hplace⟩ := hnot
    have hplace : ∀ f, Copied skip before f → place before f ≠ x := fun f hf heq =>
      hplace f ⟨hf, heq⟩
    -- the file is still there, so it must have a source
    have hkept := (h.kept x hin hne hshown hplace).trans hfile
    cases hsources x content hin hkept with
    | launcher => exact hne rfl
    | packaged hpkg _ _ => exact hshown ⟨_, hpkg.1, hpkg.2, Dir.within_join _ _⟩
    | @laid f _ _ hcopied _ hat =>
      rcases hat with rfl | rfl
      · -- a directory is at the place of the file, so the file is not
        have hoccupied : occupied before f = true := by
          by_contra hfree
          exact hplace f hcopied (place_of_free (by simpa using hfree))
        rw [h.not_file f hcopied hoccupied hshown] at hkept
        cases hkept
      · have hdir := FileSystem.isdir_parent (FileSystem.file_eq_some_iff.mp hfile)
        rw [Dir.parent_enter _ (isName_basename hcopied.ne_top)] at hdir
        have hoccupied : occupied before f = true := by
          unfold occupied into
          rw [hdir, Bool.true_or]
        exact hplace f hcopied (place_of_occupied hoccupied)
  · intro hclean x content hin hfile
    by_cases hentry : x = entry_point
    · subst hentry
      rw [h.launcher] at hfile
      obtain rfl := Option.some.inj hfile
      exact .launcher
    by_cases hhidden : Hidden before x
    · obtain ⟨pkg, hpkg, hpresent, hwithin⟩ := hhidden
      obtain ⟨r, rfl⟩ := Dir.within_iff.mp hwithin
      rw [h.packed pkg ⟨hpkg, hpresent⟩] at hfile
      split at hfile
      · cases hfile
      · next hwanted => exact .packaged ⟨hpkg, hpresent⟩ (by simpa using hwanted) hfile
    by_cases hplace : ∃ f, Copied skip before f ∧ place before f = x
    · obtain ⟨f, hf, rfl⟩ := hplace
      rw [h.laid f hf hentry hhidden] at hfile
      refine .laid hf hfile ?_
      cases hoccupied : occupied before f with
      | false => exact Or.inl (place_of_free hoccupied)
      | true => exact Or.inr (place_of_occupied hoccupied)
    · have hfile' : before.file x = some content := by
        rw [← h.kept x hin hentry hhidden fun f hf heq => hplace ⟨f, hf, heq⟩, hfile]
      rcases hclean x content hin hfile' with hx | hx | hx
      · exact absurd hx hentry
      · exact absurd hx hhidden
      · exact absurd hx hplace

/-! ### Two runs -/

/-- The trees have the same sources: they differ at most below `dist/`. -/
def SameSources (before before' : FileSystem β) : Prop :=
  ∀ x, ¬ x.Within dist_dir → before.get x = before'.get x

theorem SameSources.symm {before before' : FileSystem β} (h : SameSources before before') :
    SameSources before' before := fun x hx => (h x hx).symm

theorem copied_outside {f : Dir} (h : f.Within rootfs_src) :
    ¬ f.Within dist_dir := by
  intro hin
  rcases Dir.within_or_within hin h with hbad | hbad
  · exact absurd hbad (by decide)
  · exact absurd hbad (by decide)

theorem SameSources.file {before before' : FileSystem β} (h : SameSources before before') {f : Dir}
    (hf : f.Within rootfs_src) : before.file f = before'.file f :=
  FileSystem.file_congr (h f (copied_outside hf))

theorem SameSources.copied {before before' : FileSystem β} (h : SameSources before before')
    {f : Dir} (hf : Copied skip before f) : Copied skip before' f := by
  obtain ⟨content, hfile⟩ := hf.file
  refine ⟨⟨content, ?_⟩, hf.below, hf.walked, hf.wanted⟩
  rw [← h.file hf.below.1, hfile]

theorem SameSources.package {before before' : FileSystem β} (h : SameSources before before')
    {pkg : String} (hpkg : pkg ∈ PACKAGES) (r : Dir) :
    before.get ((Dir.top.enter pkg).join r) = before'.get ((Dir.top.enter pkg).join r) :=
  h _ (pkg_source_outside hpkg r)

theorem SameSources.hidden {before before' : FileSystem β} (h : SameSources before before')
    {x : Dir} (hx : Hidden before x) : Hidden before' x := by
  obtain ⟨pkg, hpkg, hpresent, hin⟩ := hx
  have hsame := h.package hpkg Dir.top
  rw [Dir.join_top] at hsame
  exact ⟨pkg, hpkg, by rwa [← hsame], hin⟩

/-- No file of the base layout finds a directory at its place in the one tree and none in the
    other. -/
def Agree (before before' : FileSystem β) : Prop :=
  ∀ f, Copied skip before f → ¬ Hidden before (mirror f) → occupied before f = occupied before' f

theorem SameSources.agree {before before' : FileSystem β} (h : SameSources before before')
    (hagree : Agree before before') : Agree before' before := fun f hf hshown =>
  (hagree f (h.symm.copied hf) fun hh => hshown (h.hidden hh)).symm

/-- The results have the same files. -/
def SameFiles (fs fs' : FileSystem β) : Prop := ∀ x, x.Within rootfs_dst → fs.file x = fs'.file x

/-- One of two runs finds a directory at the place of a file: the results differ. -/
theorem differ_of_occupied {before before' fs fs' : FileSystem β}
    (hsources : SameSources before before') (h : Rebuilt host before fs)
    (h' : Rebuilt host before' fs') (hsame : SameFiles fs fs') {f : Dir}
    (hf : Copied skip before f) (hshown : ¬ Hidden before (mirror f))
    (hoccupied : occupied before f = true) : occupied before' f = true := by
  by_contra hfree
  have hplace : place before' f = mirror f := place_of_free (by simpa using hfree)
  have hnone := h.not_file f hf hoccupied hshown
  rw [hsame _ (copied_below hf)] at hnone
  by_cases hentry : mirror f = entry_point
  · rw [hentry, h'.launcher] at hnone
    cases hnone
  · -- the second run has put the file there
    have hlaid := h'.laid f (hsources.copied hf)
    rw [hplace] at hlaid
    rw [hlaid hentry fun hh => hshown (hsources.symm.hidden hh)] at hnone
    obtain ⟨content, hcontent⟩ := (hsources.copied hf).file
    rw [hcontent] at hnone
    cases hnone

/-- The places of the base layout are the same in both runs, as far as they can be seen. -/
theorem Agree.place_eq {before before' : FileSystem β} (hagree : Agree before before') {f : Dir}
    (hf : Copied skip before f) (hshown : ¬ Hidden before (place before f)) :
    place before' f = place before f := by
  have hmirror : ¬ Hidden before (mirror f) := fun hh =>
    hshown (hidden_of_above hh (target_within_mirror hf.ne_top))
  unfold place target
  refine if_congr ?_ rfl rfl
  show occupied before' f = true ↔ occupied before f = true
  rw [hagree f hf hmirror]

/-- What one run leaves is in the result of the other. -/
theorem same_file_of_agree {before before' fs fs' : FileSystem β}
    (hsources : SameSources before before') (h : Rebuilt host before fs)
    (h' : Rebuilt host before' fs') (hclean : Clean before) (hagree : Agree before before')
    {x : Dir} {content : β} (hin : x.Within rootfs_dst) (hfile : fs.file x = some content) :
    fs'.file x = some content := by
  cases (fromSources_iff_clean h).mpr hclean x content hin hfile with
  | launcher => exact h'.launcher
  | @packaged pkg r _ hpkg hwanted hfile =>
    have hpkg' : Present before' pkg := by
      have htop := hsources.package hpkg.1 Dir.top
      rw [Dir.join_top] at htop
      exact ⟨hpkg.1, by rw [← htop]; exact hpkg.2⟩
    rw [h'.packed pkg hpkg', hwanted, ← FileSystem.file_congr (hsources.package hpkg.1 r)]
    exact hfile
  | laid _ _ _ =>
    by_cases hentry : x = entry_point
    · rw [hentry, h.launcher] at hfile
      rw [hentry, h'.launcher, hfile]
    by_cases hhidden : Hidden before x
    · obtain ⟨pkg, hpkg, hpresent, hwithin⟩ := hhidden
      obtain ⟨r, rfl⟩ := Dir.within_iff.mp hwithin
      have htop := hsources.package hpkg Dir.top
      rw [Dir.join_top] at htop
      rw [h.packed pkg ⟨hpkg, hpresent⟩] at hfile
      rw [h'.packed pkg ⟨hpkg, by rwa [← htop]⟩,
        ← FileSystem.file_congr (hsources.package hpkg r), hfile]
    -- otherwise the file is at its place, or it would have been left by an earlier build
    have hplaced : ∃ f, Copied skip before f ∧ place before f = x := by
      by_contra hplace
      have hkept := h.kept x hin hentry hhidden fun f hf heq => hplace ⟨f, hf, heq⟩
      rw [hfile] at hkept
      rcases hclean x content hin hkept.symm with hx | hx | hx
      · exact hentry hx
      · exact hhidden hx
      · exact hplace hx
    obtain ⟨f, hf, rfl⟩ := hplaced
    have hplace := hagree.place_eq hf hhidden
    have hlaid := h'.laid f (hsources.copied hf)
    rw [hplace] at hlaid
    rw [hlaid hentry fun hh => hhidden (hsources.symm.hidden hh), ← hsources.file hf.below.1,
      ← h.laid f hf hentry hhidden, hfile]

/-- The results are the same, and all that is in them comes from the sources. -/
structure Reproducible (host : Host T β) (before fs fs' : FileSystem β) : Prop where
  same : SameFiles fs fs'
  sources : ∀ x content, x.Within rootfs_dst → fs.file x = some content →
    FromSources host before x content

/-- What comes from the sources of one tree comes from those of the other. -/
theorem SameSources.fromSources {before before' : FileSystem β} (h : SameSources before before')
    {x : Dir} {content : β} (hfrom : FromSources host before x content) :
    FromSources host before' x content := by
  cases hfrom with
  | launcher => exact .launcher
  | @packaged pkg r _ hpkg hwanted hfile =>
    have htop := h.package hpkg.1 Dir.top
    rw [Dir.join_top] at htop
    refine .packaged ⟨hpkg.1, by rw [← htop]; exact hpkg.2⟩ hwanted ?_
    rw [← FileSystem.file_congr (h.package hpkg.1 r), hfile]
  | laid hcopied hfile hat =>
    exact .laid (h.copied hcopied) (by rw [← h.file hcopied.below.1, hfile]) hat

/-- **Reproducible rebuild**: two rebuilds of the same sources have the same result, all of it from
    the sources, if and only if every file that the earlier builds have left is written again,
    and no file of the base layout finds a directory at its place in only one of the trees. -/
theorem reproducible_iff {build_time build_time' : String} {before before' fs fs' : FileSystem β}
    (hsources : SameSources before before') (hbuild : do_rebuild host build_time before = some fs)
    (hbuild' : do_rebuild host build_time' before' = some fs') :
    Reproducible host before fs fs' ↔ Clean before ∧ Clean before' ∧ Agree before before' := by
  have h := rebuilt_of_rebuild hbuild
  have h' := rebuilt_of_rebuild hbuild'
  constructor
  · rintro ⟨hsame, hfrom⟩
    have hsame' : SameFiles fs' fs := fun x hx => (hsame x hx).symm
    have hclean' : Clean before' := (fromSources_iff_clean h').mp fun x content hin hfile =>
      hsources.fromSources (hfrom x content hin ((hsame x hin).trans hfile))
    refine ⟨(fromSources_iff_clean h).mp hfrom, hclean', fun f hf hshown => ?_⟩
    rw [Bool.eq_iff_iff]
    exact ⟨differ_of_occupied hsources h h' hsame hf hshown, differ_of_occupied hsources.symm h' h
      hsame' (hsources.copied hf) fun hh => hshown (hsources.symm.hidden hh)⟩
  · rintro ⟨hclean, hclean', hagree⟩
    refine ⟨fun x hin => ?_, (fromSources_iff_clean h).mpr hclean⟩
    cases hfile : fs.file x with
    | some content => exact (same_file_of_agree hsources h h' hclean hagree hin hfile).symm
    | none =>
      cases hfile' : fs'.file x with
      | none => rfl
      | some content =>
        have hother := same_file_of_agree hsources.symm h' h hclean' (hsources.agree hagree) hin
          hfile'
        rw [hfile] at hother
        cases hother

/-- A repository with a base layout and a package. -/
def repository : FileSystem Content :=
  texts [(["rootfs", "etc", "motd"], "hello"), (["kernel", "loop.py"], "loop")]

/-- The place of a file that is not in the sources any more. -/
def old_motd : Dir := (rootfs_dst.enter "etc").enter "old"

/-- The repository after an earlier build that has left another file. -/
def stale : FileSystem Content :=
  ((repository.mkdirs old_motd.parent).bind fun fs => fs.putFile old_motd (.inl "old")).getD
    repository

theorem repository_sameSources_stale : SameSources repository stale := by
  have hsome : ((repository.mkdirs old_motd.parent).bind fun fs =>
      fs.putFile old_motd (.inl "old")).isSome = true := by decide +kernel
  obtain ⟨fs, hfs⟩ := Option.isSome_iff_exists.mp hsome
  have hstale : stale = fs := by
    unfold stale
    rw [hfs]
    rfl
  obtain ⟨made, hmake, hput⟩ := Option.bind_eq_some_iff.mp hfs
  intro x hx
  have hne : x ≠ old_motd := by
    rintro rfl
    exact hx (by decide)
  rw [hstale, (FileSystem.putFile_get hput).2, if_neg hne, (FileSystem.mkdirs_get hmake).1]
  split
  · next hin => rw [above_dist hin (by decide) hx, FileSystem.get_top]
  · rfl

/-- A rebuild of the repository, and one over its result. -/
theorem reproducible_iff_again :
    ∃ fs fs', do_rebuild plain "" repository = some fs ∧ do_rebuild plain "" fs = some fs' ∧
      (Reproducible plain repository fs fs' ↔
        Clean repository ∧ Clean fs ∧ Agree repository fs) := by
  have htwice : ((do_rebuild plain "" repository).bind (do_rebuild plain "")).isSome = true := by
    decide +kernel
  obtain ⟨fs', htwice⟩ := Option.isSome_iff_exists.mp htwice
  obtain ⟨fs, hbuild, hbuild'⟩ := Option.bind_eq_some_iff.mp htwice
  obtain ⟨assembled, hassembled, -, hget⟩ := do_rebuild_spec hbuild
  refine ⟨fs, fs', hbuild, hbuild', reproducible_iff (fun x hx => ?_) hbuild hbuild'⟩
  rw [hget x, hassembled.outside x hx]
  rintro rfl
  exact hx (by decide)

/-- A file of an earlier build stays. -/
theorem not_reproducible_stale :
    SameSources repository stale ∧ ∃ fs fs', do_rebuild plain "" repository = some fs ∧
      do_rebuild plain "" stale = some fs' ∧ ¬ Reproducible plain repository fs fs' := by
  refine ⟨repository_sameSources_stale, ?_⟩
  have hfresh : ((do_rebuild plain "" repository).map fun fs => fs.file old_motd) = some none := by
    decide +kernel
  have hover : ((do_rebuild plain "" stale).map fun fs => fs.file old_motd) =
      some (some (.inl "old")) := by decide +kernel
  obtain ⟨fs, hbuild, hnone⟩ := Option.map_eq_some_iff.mp hfresh
  obtain ⟨fs', hbuild', hsome⟩ := Option.map_eq_some_iff.mp hover
  refine ⟨fs, fs', hbuild, hbuild', fun h => ?_⟩
  have hsame := h.same old_motd (by decide)
  rw [hnone, hsome] at hsame
  cases hsame

end BuildService
