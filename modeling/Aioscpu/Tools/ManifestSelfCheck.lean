import Aioscpu.Tools.ManifestExactness

/-! # A Manifest in the Tree that it Describes

  `aura build` writes the manifest to `system/manifest.json` of the root
  filesystem, after it has recorded what is there. That path is not excluded, so
  the verification finds a new file, or one whose recorded digest is that of the
  manifest before.
-/

namespace Manifest

open FileTree (File Listing)

variable {T β : Type}

theorem manifest_path_included : ¬ Excluded MANIFEST_PATH := by
  rintro (⟨name, hname, hmem⟩ | ⟨top, name, rest, hpath, hmem⟩)
  · obtain rfl : "manifest.json" = name := Option.some.inj hname
    exact absurd hmem (by decide)
  · obtain rfl : "system" = top := (List.cons.inj hpath).1
    exact absurd hmem (by decide)

/-- The manifest that is on disk before the build, if it can be read, has the
    digest of the one that the build writes. -/
def SameDigest (host : Host T β) (now : T) (tree : FileTree β) : Prop :=
  ∃ old, tree.lookup MANIFEST_PATH = some old ∧ old.readable = true ∧
    host.sha256 old.content = host.sha256 (host.dumps (build_manifest host now tree))

/-- What is not excluded can be read. -/
def ReadableIncluded (tree : FileTree β) : Prop :=
  ∀ path f, tree.lookup path = some f → ¬ Excluded path → f.readable = true

/-- The manifest is the only file that `write_manifest` changes. -/
theorem write_manifest_lookup {host : Host T β} {manifest : Manifest T} {tree tree' : FileTree β}
    (h : write_manifest host manifest tree = .ok tree') (path : List String) :
    tree'.lookup path =
      if path = MANIFEST_PATH then
        some ⟨host.dumps manifest, ((tree.lookup MANIFEST_PATH).map File.readable).getD true⟩
      else tree.lookup path := by
  unfold write_manifest at h
  split at h
  · cases h
  · next hwrite =>
    cases h
    exact FileTree.lookup_write hwrite path

/-- A manifest that can be read is loaded as it was written. -/
theorem load_manifest_ok_iff {host : Host T β} (hjson : ∀ m, host.loads (host.dumps m) = some m)
    {manifest manifest' : Manifest T} {tree tree' : FileTree β}
    (h : write_manifest host manifest tree = .ok tree') :
    load_manifest host tree' = .ok manifest' ↔
      ((tree.lookup MANIFEST_PATH).map File.readable).getD true = true ∧ manifest' = manifest := by
  unfold load_manifest
  rw [write_manifest_lookup h, if_pos rfl]
  dsimp only
  split
  · next hread =>
    rw [hjson]
    simp [hread, eq_comm]
  · next hread => simp [hread]

/-- What is recorded can be read after the manifest was written. -/
theorem recorded_checkable {host : Host T β} {now : T} {tree tree' : FileTree β}
    (h : write_manifest host (build_manifest host now tree) tree = .ok tree')
    (hread : ((tree.lookup MANIFEST_PATH).map File.readable).getD true = true) :
    Checkable tree' (build_manifest host now tree).files.items := by
  rintro ⟨path, digest⟩ hitem f hlookup
  rw [write_manifest_lookup h] at hlookup
  split at hlookup
  · obtain rfl := Option.some.inj hlookup
    exact hread
  · obtain ⟨f', hlookup', -, hread', -⟩ := (mem_build_manifest_iff ..).mp hitem
    obtain rfl := Option.some.inj (hlookup'.symm.trans hlookup)
    exact hread'

/-- What the verification reports after the manifest was written: files that
    could not be read, and the manifest itself, unless it was recorded with the
    digest that it has now. -/
theorem reported_iff {host : Host T β} {now : T} {tree tree' : FileTree β}
    (h : write_manifest host (build_manifest host now tree) tree = .ok tree')
    (path : List String) :
    path ∈ (discrepancies host (build_manifest host now tree) tree').map Diff.path ↔
      ¬ Excluded path ∧
        if path = MANIFEST_PATH then ¬ SameDigest host now tree
        else ∃ f, tree.lookup path = some f ∧ f.readable = false := by
  rw [mem_discrepancies_iff, mem_keys_iff, write_manifest_lookup h]
  simp only [mem_build_manifest_iff]
  by_cases hpath : path = MANIFEST_PATH
  · rw [hpath, if_pos rfl, if_pos rfl, and_iff_right manifest_path_included]
    unfold SameDigest
    -- the path itself does not matter from here on
    have hincluded := manifest_path_included
    generalize MANIFEST_PATH = manifest_path at hincluded ⊢
    cases tree.lookup manifest_path with
    | none => simp [hincluded]
    | some old =>
      cases hread : old.readable with
      | false => simp [hread, hincluded]
      | true =>
        have hsymm : host.sha256 (host.dumps (build_manifest host now tree)) =
            host.sha256 old.content ↔
            host.sha256 old.content = host.sha256 (host.dumps (build_manifest host now tree)) :=
          eq_comm
        simp [hread, hincluded, hsymm]
  · simp only [if_neg hpath]
    cases tree.lookup path with
    | none => simp
    | some f =>
      cases hread : f.readable with
      | false => simp [hread]
      | true => simp [hread]

/-- What the three operations return together, if the manifest can be written and
    read. -/
theorem build_and_verify_eq {host : Host T β} (hjson : ∀ m, host.loads (host.dumps m) = some m)
    {now : T} {tree tree' : FileTree β}
    (h : write_manifest host (build_manifest host now tree) tree = .ok tree')
    (hread : ((tree.lookup MANIFEST_PATH).map File.readable).getD true = true) :
    build_and_verify host now tree =
      .ok (decide ((discrepancies host (build_manifest host now tree) tree').length = 0),
        discrepancies host (build_manifest host now tree) tree') := by
  have hload := (load_manifest_ok_iff hjson h).mpr ⟨hread, rfl⟩
  unfold build_and_verify
  rw [h]
  change load_manifest host tree' >>= _ = _
  rw [hload]
  exact verify_manifest_eq (recorded_checkable h hread)

/-- What returns at all has written the manifest and read it. -/
theorem build_and_verify_ok {host : Host T β} (hjson : ∀ m, host.loads (host.dumps m) = some m)
    {now : T} {tree : FileTree β} {r : Bool × List Diff}
    (h : build_and_verify host now tree = .ok r) :
    ((tree.lookup MANIFEST_PATH).map File.readable).getD true = true ∧
      ∃ tree', write_manifest host (build_manifest host now tree) tree = .ok tree' := by
  unfold build_and_verify at h
  cases hwrite : write_manifest host (build_manifest host now tree) tree with
  | error e =>
    rw [hwrite] at h
    cases h
  | ok tree' =>
    rw [hwrite] at h
    change load_manifest host tree' >>= _ = _ at h
    cases hload : load_manifest host tree' with
    | error e =>
      rw [hload] at h
      cases h
    | ok manifest => exact ⟨((load_manifest_ok_iff hjson hwrite).mp hload).1, tree', rfl⟩

/-- Nothing is reported if the manifest was recorded with the digest that it has
    now, and all else could be read. -/
theorem discrepancies_nil_iff {host : Host T β} {now : T} {tree tree' : FileTree β}
    (h : write_manifest host (build_manifest host now tree) tree = .ok tree') :
    discrepancies host (build_manifest host now tree) tree' = [] ↔
      SameDigest host now tree ∧ ReadableIncluded tree := by
  rw [← List.map_eq_nil_iff (f := Diff.path), List.eq_nil_iff_forall_not_mem]
  simp only [reported_iff h]
  constructor
  · intro hnone
    -- the manifest is not reported, and nothing else is
    have hsame : SameDigest host now tree := by
      by_contra hnot
      refine hnone MANIFEST_PATH ⟨manifest_path_included, ?_⟩
      rwa [if_pos rfl]
    refine ⟨hsame, fun path f hlookup hincluded => ?_⟩
    by_cases hpath : path = MANIFEST_PATH
    · obtain ⟨old, hold, hread, -⟩ := hsame
      rw [hpath, hold] at hlookup
      cases hlookup
      exact hread
    · by_contra hread
      refine hnone path ⟨hincluded, ?_⟩
      rw [if_neg hpath]
      exact ⟨f, hlookup, by simpa using hread⟩
  · rintro ⟨hsame, hread⟩ path ⟨hincluded, hreported⟩
    split at hreported
    · exact hreported hsame
    · obtain ⟨f, hlookup, hunreadable⟩ := hreported
      rw [hread path f hlookup hincluded] at hunreadable
      cases hunreadable

/-- **Building, writing and verifying returns `ok` if and only if** there is a
    manifest before with the digest of the one that is written, and all files that
    are not excluded can be read. -/
theorem build_and_verify_ok_iff {host : Host T β}
    (hjson : ∀ m, host.loads (host.dumps m) = some m) (now : T) (tree : FileTree β) :
    (∃ diffs, build_and_verify host now tree = .ok (true, diffs)) ↔
      SameDigest host now tree ∧ ReadableIncluded tree := by
  constructor
  · rintro ⟨diffs, hok⟩
    obtain ⟨hread, tree', hwrite⟩ := build_and_verify_ok hjson hok
    rw [build_and_verify_eq hjson hwrite hread] at hok
    have hlength := of_decide_eq_true (Prod.mk.inj (Except.ok.inj hok)).1
    exact (discrepancies_nil_iff hwrite).mp (List.eq_nil_of_length_eq_zero hlength)
  · intro h
    obtain ⟨old, hold, hread, -⟩ := h.1
    obtain ⟨tree', hwrite⟩ :=
      FileTree.exists_write (host.dumps (build_manifest host now tree)) hold
    have hwrite' : write_manifest host (build_manifest host now tree) tree = .ok tree' := by
      unfold write_manifest
      rw [hwrite]
    -- nothing is reported then
    refine ⟨[], ?_⟩
    rw [build_and_verify_eq hjson hwrite' (by rw [hold]; exact hread),
      (discrepancies_nil_iff hwrite').mpr h]
    rfl

/-- Where only the manifest stands in the way, it is what is reported. -/
theorem build_and_verify_reports {host : Host T β}
    (hjson : ∀ m, host.loads (host.dumps m) = some m) {now : T} {tree tree' : FileTree β}
    (h : write_manifest host (build_manifest host now tree) tree = .ok tree')
    (hread : ReadableIncluded tree) (hsame : ¬ SameDigest host now tree) :
    ∃ diffs, build_and_verify host now tree = .ok (false, diffs) ∧
      diffs.map Diff.path = [MANIFEST_PATH] := by
  have hmanifest : ((tree.lookup MANIFEST_PATH).map File.readable).getD true = true := by
    cases hlookup : tree.lookup MANIFEST_PATH with
    | none => rfl
    | some old => exact hread MANIFEST_PATH old hlookup manifest_path_included
  have hpaths : (discrepancies host (build_manifest host now tree) tree').map Diff.path =
      [MANIFEST_PATH] := by
    refine List.perm_singleton.mp ((List.perm_ext_iff_of_nodup
      (discrepancies_nodup host _ tree') (List.nodup_singleton _)).mpr fun path => ?_)
    rw [reported_iff h, List.mem_singleton]
    constructor
    · rintro ⟨hincluded, hreported⟩
      by_contra hpath
      rw [if_neg hpath] at hreported
      obtain ⟨f, hlookup, hunreadable⟩ := hreported
      rw [hread path f hlookup hincluded] at hunreadable
      cases hunreadable
    · rintro rfl
      exact ⟨manifest_path_included, by rwa [if_pos rfl]⟩
  refine ⟨_, ?_, hpaths⟩
  rw [build_and_verify_eq hjson h hmanifest]
  have hlength := congrArg List.length hpaths
  rw [List.length_map] at hlength
  rw [hlength]
  rfl

/-! ### The commands -/

theorem cmd_verify_eq_zero_iff (host : Host T β) (tree : FileTree β) :
    cmd_verify host tree = 0 ↔ ∃ diffs,
      (load_manifest host tree >>= fun manifest => verify_manifest host manifest tree) =
        .ok (true, diffs) := by
  unfold cmd_verify
  split
  · next hnone =>
    refine iff_of_false (by decide) ?_
    rintro ⟨diffs, hok⟩
    unfold load_manifest at hok
    rw [hnone] at hok
    cases hok
  · split
    · next diffs hok => exact iff_of_true rfl ⟨diffs, hok⟩
    · next diffs hok =>
      refine iff_of_false (by decide) ?_
      rintro ⟨diffs', hok'⟩
      cases hok.symm.trans hok'
    · next e herror =>
      refine iff_of_false (by decide) ?_
      rintro ⟨diffs, hok⟩
      cases herror.symm.trans hok

/-- `aura build --verify` succeeds exactly if the three operations return `ok`. -/
theorem cmd_build_verify_eq_zero_iff (host : Host T β) (now : T) (tree : FileTree β) :
    cmd_build_verify host now tree = 0 ↔
      ∃ diffs, build_and_verify host now tree = .ok (true, diffs) := by
  unfold cmd_build_verify build_and_verify
  cases hwrite : write_manifest host (build_manifest host now tree) tree with
  | ok tree' => exact cmd_verify_eq_zero_iff host tree'
  | error e =>
    refine iff_of_false ?_ ?_
    · -- a manifest that is there could have been written, so there is none
      unfold cmd_verify
      cases hlookup : tree.lookup MANIFEST_PATH with
      | none => exact Nat.one_ne_zero
      | some old =>
        obtain ⟨tree', h⟩ :=
          FileTree.exists_write (host.dumps (build_manifest host now tree)) hlookup
        unfold write_manifest at hwrite
        rw [h] at hwrite
        cases hwrite
    · rintro ⟨diffs, hok⟩
      cases hok

/-! ### The two cases on a host -/

/-- Contents of files: texts, and what `json.dump` writes. -/
inductive Blob where
  | text (s : String)
  | json (m : Manifest ℚ)

/-- SHA-256 and the sizes of the contents below. -/
def disk : Host ℚ Blob where
  sha256
    | .text _ => "44136fa355b3678a1146ad16f7e8649e94fb4fc21fe77e8310c060f61caaff8a"
    | .json m =>
      if m.file_count = 0 then "c1bda2c6b7fd6485ee838f1f44f17bfa9e566f159b8a49dabb0ca88ab46dac6c"
      else "0297176ba1af6d919fcf8e87938191e080a8cedde23181191a567bab4c15ae76"
  getsize
    | .text s => s.length
    | .json m => if m.file_count = 0 then 306 else 404
  rootfs := "/rootfs"
  commit := "unknown"
  environment := ⟨"3.12.0", "Linux", "x86_64"⟩
  dumps := .json
  loads
    | .text _ => none
    | .json m => some m

/-- A root filesystem without files. -/
def bare : FileTree Blob := ⟨.nil, trivial⟩

theorem earlier_unique (c : Blob) :
    (Listing.dir "system" (.file "manifest.json" ⟨c, true⟩ .nil) .nil).Unique :=
  ⟨List.not_mem_nil, ⟨List.not_mem_nil, trivial⟩, trivial⟩

/-- A root filesystem with an earlier manifest. -/
def earlier : FileTree Blob :=
  ⟨.dir "system" (.file "manifest.json" ⟨.text "{}", true⟩ .nil) .nil, earlier_unique _⟩

/-- The written manifest is reported as new, or as modified. -/
theorem manifest_reported :
    build_and_verify disk 0 bare = .ok (false, [.NEW MANIFEST_PATH]) ∧
    build_and_verify disk 0 earlier = .ok (false, [.MODIFIED MANIFEST_PATH
      "44136fa355b3678a1146ad16f7e8649e94fb4fc21fe77e8310c060f61caaff8a"
      "0297176ba1af6d919fcf8e87938191e080a8cedde23181191a567bab4c15ae76"]) :=
  ⟨by decide +kernel, by decide +kernel⟩

/-- The earlier manifest has another digest. -/
theorem build_and_verify_ok_iff_earlier :
    ¬ ∃ diffs, build_and_verify disk 0 earlier = .ok (true, diffs) := by
  have hjson : ∀ m, disk.loads (disk.dumps m) = some m := fun _ => rfl
  rw [build_and_verify_ok_iff hjson 0 earlier]
  rintro ⟨⟨old, hold, -, hsha⟩, -⟩
  have hlookup : earlier.lookup MANIFEST_PATH = some ⟨.text "{}", true⟩ := rfl
  obtain rfl := Option.some.inj (hlookup.symm.trans hold)
  exact absurd hsha (by decide +kernel)

end Manifest
