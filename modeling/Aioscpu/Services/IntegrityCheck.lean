import Aioscpu.Services.BuildService

/-! # Integrity Check

  After a build files are modified, removed and added, and `verify_integrity`
  looks at what is there. It looks for the sources that are there now, and only
  where no part of the path contains one of the excluded words.

  Main result (`detects_iff_sees`): when the report is right, for any manifest
  that is found, and for the one of the build.
-/

namespace BuildService

open Build

variable {T β : Type}

/-! ### Changes -/

/-- A Python source at build time, outside the directories that hold none. -/
structure Source (before : FileSystem β) (p : Dir) (content : β) : Prop where
  there : before.file p = some content
  python : PyStr.endswith p.basename ".py" = true
  outside : ∀ c ∈ p.parent.names, c ∉ [".git", "__pycache__", "dist"]

/-- The source is there with another content. -/
def Modified (before later : FileSystem β) (p : Dir) : Prop :=
  ∃ content content', Source before p content ∧ later.file p = some content' ∧ content' ≠ content

/-- The source is not there any more. -/
def Removed (before later : FileSystem β) (p : Dir) : Prop :=
  ∃ content, Source before p content ∧ later.file p = none

/-- Every source is there with the same content. -/
def Intact (before later : FileSystem β) : Prop :=
  ∀ p content, Source before p content → later.file p = some content

theorem intact_iff {before later : FileSystem β} :
    Intact before later ↔
      (∀ p, ¬ Modified before later p) ∧ ∀ p, ¬ Removed before later p := by
  constructor
  · intro h
    refine ⟨fun p hmodified => ?_, fun p hremoved => ?_⟩
    · obtain ⟨content, content', hsource, hfile, hne⟩ := hmodified
      have hsame := h p content hsource
      rw [hfile] at hsame
      exact hne (Option.some.inj hsame)
    · obtain ⟨content, hsource, hfile⟩ := hremoved
      have hsame := h p content hsource
      rw [hfile] at hsame
      cases hsame
  · rintro ⟨hmodified, hremoved⟩ p content hsource
    cases hfile : later.file p with
    | none => exact absurd ⟨content, hsource, hfile⟩ (hremoved p)
    | some content' =>
      by_contra hne
      exact hmodified p ⟨content, content', hsource, hfile, fun heq => hne (by rw [heq])⟩

/-- A path that is looked at lies outside the directories that hold no sources. -/
theorem source_of_checked {before : FileSystem β} {p : Dir} {content : β} (h : Checked p)
    (hfile : before.file p = some content) : Source before p content := by
  refine ⟨hfile, h.1, fun c hc hword => ?_⟩
  have hexcluded : c ∈ [".git", "__pycache__", "dist", "/tmp"] := by
    have hall : ∀ c ∈ [".git", "__pycache__", "dist"],
        c ∈ [".git", "__pycache__", "dist", "/tmp"] := by
      decide
    exact hall c hword
  exact h.not_mem hexcluded (List.mem_of_mem_dropLast hc)

/-! ### Detection -/

/-- The report is right: it is good if and only if the sources are intact, and it lists exactly
    the modified ones. -/
structure Detected (before later : FileSystem β) (report : Report) : Prop where
  integrity_ok : report.integrity_ok = true ↔ Intact before later
  changed_files : ∀ p, p ∈ report.changed_files ↔ Modified before later p
  nodup : report.changed_files.Nodup

/-- `verify_integrity` returns, and its report is right. -/
def Detects (host : Host T β) (before later : FileSystem β) : Prop :=
  ∃ report, verify_integrity host later = some report ∧ Detected before later report

/-- When the report is right, in terms of the manifest that is found. -/
structure Sees (host : Host T β) (before later : FileSystem β) : Prop where
  /-- Every path that is looked at can be read. -/
  readable : ∀ p, Checked p → later.isdir p = false
  looked_at : ∀ p, Modified before later p → Checked p
  /-- The manifest has another checksum for the modified sources, and for no other file. -/
  recorded : ∀ p content, Checked p → later.file p = some content →
    ((∃ hash, (last_manifest host later).get p = some hash ∧ hash ≠ host.sha256 content) ↔
      Modified before later p)
  /-- A removal is noticed only with a modification, or when there is no baseline. -/
  removals : (∃ p, Modified before later p) ∨
    ((∃ p hash, (last_manifest host later).get p = some hash) ↔ ∀ p, ¬ Removed before later p)

/-- When the report is right, with the manifest that the build has left. -/
structure Noticed (before later : FileSystem β) : Prop where
  readable : ∀ p, Checked p → later.isdir p = false
  looked_at : ∀ p, Modified before later p → Checked p
  removals : (∃ p, Modified before later p) ∨
    ((∃ p content, Checked p ∧ before.file p = some content) ↔ ∀ p, ¬ Removed before later p)

theorem detects_iff {host : Host T β} {before later : FileSystem β} :
    Detects host before later ↔ Sees host before later := by
  constructor
  · rintro ⟨report, hreport, hdetected⟩
    obtain ⟨hchanged, -, hok⟩ := verify_integrity_spec hreport
    have hmodified : ∀ p, Modified before later p ↔ Checked p ∧ ∃ content hash,
        later.file p = some content ∧ (last_manifest host later).get p = some hash ∧
          hash ≠ host.sha256 content := fun p =>
      (hdetected.changed_files p).symm.trans (hchanged p)
    refine ⟨verify_integrity_isSome.mp ⟨report, hreport⟩, fun p hp => ((hmodified p).mp hp).1,
      fun p content hchecked hfile => ?_, ?_⟩
    · rw [hmodified]
      constructor
      · rintro ⟨hash, hget, hne⟩
        exact ⟨hchecked, content, hash, hfile, hget, hne⟩
      · rintro ⟨-, content', hash, hfile', hget, hne⟩
        rw [hfile] at hfile'
        obtain rfl := Option.some.inj hfile'
        exact ⟨hash, hget, hne⟩
    · by_cases hany : ∃ p, Modified before later p
      · exact Or.inl hany
      · have hnone : ∀ p, ¬ Modified before later p := not_exists.mp hany
        have hnil : report.changed_files = [] := by
          rw [List.eq_nil_iff_forall_not_mem]
          intro p hp
          exact hnone p ((hdetected.changed_files p).mp hp)
        -- nothing is listed, so the report is good when there is a baseline
        have hbaseline := hok.symm.trans (hdetected.integrity_ok.trans intact_iff)
        exact Or.inr ⟨fun hb => (hbaseline.mp ⟨hb, hnil⟩).2,
          fun hr => (hbaseline.mpr ⟨hnone, hr⟩).1⟩
  · intro h
    obtain ⟨report, hreport⟩ := verify_integrity_isSome.mpr h.readable
    obtain ⟨hchanged, hnodup, hok⟩ := verify_integrity_spec hreport
    have hmodified : ∀ p, p ∈ report.changed_files ↔ Modified before later p := by
      intro p
      rw [hchanged]
      constructor
      · rintro ⟨hchecked, content, hash, hfile, hget, hne⟩
        exact (h.recorded p content hchecked hfile).mp ⟨hash, hget, hne⟩
      · intro hp
        obtain ⟨-, content, -, hfile, -⟩ := id hp
        obtain ⟨hash, hget, hne⟩ := (h.recorded p content (h.looked_at p hp) hfile).mpr hp
        exact ⟨h.looked_at p hp, content, hash, hfile, hget, hne⟩
    refine ⟨report, hreport, ?_, hmodified, hnodup⟩
    rw [hok, intact_iff]
    rcases h.removals with ⟨p, hp⟩ | hiff
    · refine iff_of_false (fun hgood => ?_) fun hintact => hintact.1 p hp
      have hmem := (hmodified p).mpr hp
      rw [hgood.2] at hmem
      cases hmem
    · constructor
      · rintro ⟨hb, hnil⟩
        refine ⟨fun p hp => ?_, hiff.mp hb⟩
        have hmem := (hmodified p).mpr hp
        rw [hnil] at hmem
        cases hmem
      · rintro ⟨hnone, hr⟩
        refine ⟨hiff.mpr hr, List.eq_nil_iff_forall_not_mem.mpr fun p hp => ?_⟩
        exact hnone p ((hmodified p).mp hp)

/-- What the build has recorded: the checksums that the sources had before it. -/
theorem last_manifest_of_build {host : Host T β} {build_time : String}
    {before built later : FileSystem β} (hbuild : do_rebuild host build_time before = some built)
    (hloads : ∀ manifest, host.loads (host.dumps manifest) = some manifest.files)
    (hsame : later.file manifest_path = built.file manifest_path) (p : Dir) :
    (last_manifest host later).get p =
      if Checked p then (before.file p).map host.sha256 else none := by
  obtain ⟨assembled, hassembled, ⟨manifest, hchecksums, hwritten⟩, -⟩ := do_rebuild_spec hbuild
  unfold last_manifest
  rw [hsame, hwritten]
  show ((host.loads (host.dumps manifest)).getD .empty).get p = _
  rw [hloads, Option.getD_some, checksums_get hchecksums]
  refine if_ctx_congr Iff.rfl (fun hchecked => ?_) fun _ => rfl
  rw [FileSystem.file_congr (hassembled.outside p hchecked.outside)]

/-- With the manifest of the build the checksums tell the modified files. -/
theorem sees_iff_noticed {host : Host T β} {before later : FileSystem β}
    (hlast : ∀ p, (last_manifest host later).get p =
      if Checked p then (before.file p).map host.sha256 else none)
    (hcollision : ∀ p content content', before.file p = some content →
      later.file p = some content' → host.sha256 content = host.sha256 content' →
        content = content') :
    Sees host before later ↔ Noticed before later := by
  have hbaseline : (∃ p hash, (last_manifest host later).get p = some hash) ↔
      ∃ p content, Checked p ∧ before.file p = some content := by
    refine exists_congr fun p => ?_
    rw [hlast]
    constructor
    · rintro ⟨hash, hget⟩
      split at hget
      · next hchecked =>
        obtain ⟨content, hfile, -⟩ := Option.map_eq_some_iff.mp hget
        exact ⟨content, hchecked, hfile⟩
      · cases hget
    · rintro ⟨content, hchecked, hfile⟩
      exact ⟨host.sha256 content, by rw [if_pos hchecked, hfile]; rfl⟩
  constructor
  · rintro ⟨hreadable, hlooked, -, hremovals⟩
    rw [hbaseline] at hremovals
    exact ⟨hreadable, hlooked, hremovals⟩
  · rintro ⟨hreadable, hlooked, hremovals⟩
    rw [← hbaseline] at hremovals
    refine ⟨hreadable, hlooked, fun p content hchecked hfile => ?_, hremovals⟩
    rw [hlast, if_pos hchecked]
    constructor
    · rintro ⟨hash, hget, hne⟩
      obtain ⟨content', hbefore, rfl⟩ := Option.map_eq_some_iff.mp hget
      refine ⟨content', content, source_of_checked hchecked hbefore, hfile, ?_⟩
      rintro rfl
      exact hne rfl
    · rintro ⟨content', content'', hsource, hfile', hne⟩
      rw [hfile] at hfile'
      obtain rfl := Option.some.inj hfile'
      refine ⟨host.sha256 content', by rw [hsource.there]; rfl, fun heq => ?_⟩
      exact hne (hcollision p content' content hsource.there hfile heq).symm

/-- Two sources. -/
def twoSources : FileSystem Content := texts [(["a.py"], "a"), (["b.py"], "b")]

theorem twoSources_builds : (do_rebuild plain "" twoSources).isSome = true := by decide +kernel

end BuildService
