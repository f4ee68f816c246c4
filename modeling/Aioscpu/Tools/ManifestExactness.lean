import Aioscpu.Tools.Manifest
import Mathlib.Data.List.Perm.Basic
import Mathlib.Data.Rat.Defs

/-! # What a Manifest Says

  Which files `build_manifest` records and which `verify_manifest` looks for. The
  two have their own loops over a walk of the tree, with the same exclusions.
-/

namespace Manifest

open FileTree (File Listing)

variable {T β : Type}

/-! ### Excluded paths -/

/-- The base name is one of the patterns. -/
def Pattern (path : List String) : Prop := ∃ name ∈ path.getLast?, name ∈ EXCLUDE_PATTERNS

/-- The path lies below an excluded top-level directory. -/
def BelowExcluded (path : List String) : Prop :=
  ∃ top name rest, path = top :: name :: rest ∧ top ∈ EXCLUDE_DIRS

/-- What the manifest leaves out. -/
def Excluded (path : List String) : Prop := Pattern path ∨ BelowExcluded path

instance (path : List String) : Decidable (Pattern path) :=
  inferInstanceAs (Decidable (∃ name ∈ path.getLast?, name ∈ EXCLUDE_PATTERNS))

theorem excluded_dir_append {path : List String} (hpath : path ≠ []) (tail : List String) :
    excluded_dir (path ++ tail) = excluded_dir path := by
  cases path with
  | nil => exact absurd rfl hpath
  | cons top path => rfl

theorem excluded_dir_iff (top : String) (tail : List String) :
    excluded_dir (top :: tail) = true ↔ top ∈ EXCLUDE_DIRS :=
  List.contains_iff_mem

/-- Below a directory that is not excluded no directory is. -/
theorem open_of_not_excluded {path : List String} (hpath : path ≠ [])
    (hdir : excluded_dir path = false) (q : List String) :
    Listing.Open excluded_dir path q := by
  induction q generalizing path with
  | nil => trivial
  | cons name tail ih =>
    cases tail with
    | nil => trivial
    | cons name' tail =>
      have hnext : excluded_dir (path ++ [name]) = false := by
        rw [excluded_dir_append hpath, hdir]
      exact ⟨hnext, ih (by simp) hnext⟩

/-- The walks come to what is not below an excluded top-level directory. -/
theorem open_iff (path : List String) :
    Listing.Open excluded_dir [] path ↔ ¬ BelowExcluded path := by
  cases path with
  | nil =>
    refine iff_of_true trivial ?_
    rintro ⟨top, name, rest, hpath, -⟩
    cases hpath
  | cons top tail =>
    cases tail with
    | nil =>
      refine iff_of_true trivial ?_
      rintro ⟨top, name, rest, hpath, -⟩
      cases hpath
    | cons name rest =>
      have hbelow : BelowExcluded (top :: name :: rest) ↔ top ∈ EXCLUDE_DIRS := by
        constructor
        · rintro ⟨top', name', rest', hpath, hmem⟩
          exact (List.cons.inj hpath).1 ▸ hmem
        · intro hmem
          exact ⟨top, name, rest, rfl, hmem⟩
      rw [hbelow, ← excluded_dir_iff top [], Bool.not_eq_true]
      constructor
      · exact fun hopen => hopen.1
      · exact fun hdir => ⟨hdir, open_of_not_excluded (by simp) hdir _⟩

/-! ### The files of a walk -/

/-- The files that the body of a walk goes through in a directory, in the order
    that the body gives them. -/
def candidates_in (order : List (String × File β) → List (String × File β))
    (dir : List String × List (String × File β)) : List (List String × File β) :=
  if excluded_dir dir.1 then []
  else
    ((order dir.2).filter fun entry => !EXCLUDE_PATTERNS.contains entry.1).map
      fun entry => (dir.1 ++ [entry.1], entry.2)

def candidates (order : List (String × File β) → List (String × File β)) (tree : FileTree β) :
    List (List String × File β) :=
  (tree.listing.walk excluded_dir).flatMap (candidates_in order)

theorem pattern_append (path : List String) (name : String) :
    Pattern (path ++ [name]) ↔ name ∈ EXCLUDE_PATTERNS := by
  simp [Pattern]

variable {order : List (String × File β) → List (String × File β)}

theorem candidates_in_perm (horder : ∀ files, (order files).Perm files)
    (dir : List String × List (String × File β)) :
    (candidates_in order dir).Perm
      ((Listing.visit excluded_dir dir).filter fun entry => decide (¬ Pattern entry.1)) := by
  unfold candidates_in Listing.visit
  split
  · exact List.Perm.refl _
  · rw [List.filter_map]
    refine List.Perm.map _ ?_
    -- the code tests the name, the specification the last name of the path
    have hpattern : (fun entry : String × File β => !EXCLUDE_PATTERNS.contains entry.1) =
        (fun entry => decide (¬ Pattern entry.1)) ∘ fun entry => (dir.1 ++ [entry.1], entry.2) := by
      funext entry
      simp [pattern_append]
    rw [hpattern]
    exact (horder dir.2).filter _

/-- The files that a walk goes through, in another order. -/
theorem candidates_perm (horder : ∀ files, (order files).Perm files) (tree : FileTree β) :
    (candidates order tree).Perm
      ((tree.listing.collect excluded_dir []).filter fun entry => decide (¬ Pattern entry.1)) := by
  refine List.Perm.trans ?_ ((Listing.walk_perm rfl tree.listing).filter _)
  rw [List.filter_flatMap]
  exact List.Perm.flatMap_left _ fun dir _ => candidates_in_perm horder dir

/-- A walk goes through the files that are not excluded. -/
theorem mem_candidates_iff (horder : ∀ files, (order files).Perm files) (tree : FileTree β)
    (path : List String) (f : File β) :
    (path, f) ∈ candidates order tree ↔ tree.lookup path = some f ∧ ¬ Excluded path := by
  rw [(candidates_perm horder tree).mem_iff, List.mem_filter,
    Listing.mem_collect_iff tree.unique]
  simp only [List.nil_append, decide_eq_true_eq, Excluded, not_or]
  constructor
  · rintro ⟨⟨q, rfl, hlookup, hopen⟩, hpattern⟩
    exact ⟨hlookup, hpattern, (open_iff path).mp hopen⟩
  · rintro ⟨hlookup, hpattern, hbelow⟩
    exact ⟨⟨path, rfl, hlookup, (open_iff path).mpr hbelow⟩, hpattern⟩

theorem id_perm (files : List (String × File β)) : (id files).Perm files := List.Perm.refl _

/-- A walk goes through each file once. -/
theorem candidates_nodup (horder : ∀ files, (order files).Perm files) (tree : FileTree β) :
    ((candidates order tree).map Prod.fst).Nodup := by
  rw [((candidates_perm horder tree).map Prod.fst).nodup_iff]
  exact (Listing.collect_nodup tree.unique).sublist (List.filter_sublist.map _)

/-! ### What is recorded -/

theorem sorted_files_perm (files : List (String × File β)) : (sorted_files files).Perm files :=
  List.mergeSort_perm _ _

/-- The loops of `build_manifest` are one loop over the files of its walk. -/
theorem build_files_eq (host : Host T β) (tree : FileTree β) :
    build_files host tree = (candidates sorted_files tree).foldl
      (fun acc entry => record host acc entry.1 entry.2) (.empty, 0) := by
  unfold build_files candidates
  rw [List.foldl_flatMap]
  congr 1
  funext acc dir
  unfold build_dir candidates_in
  split
  · rfl
  · rw [List.foldl_map, List.foldl_filter]
    congr 1
    funext acc entry
    cases EXCLUDE_PATTERNS.contains entry.1 <;> rfl

/-- The loop records the digests of the files that can be read. -/
theorem foldl_record_get (host : Host T β) (files : List (List String × File β))
    (hnodup : (files.map Prod.fst).Nodup) (acc : Dict (List String) String × Nat)
    (hnew : ∀ path ∈ files.map Prod.fst, acc.1.get path = none) (path : List String)
    (digest : String) :
    (files.foldl (fun acc entry => record host acc entry.1 entry.2) acc).1.get path = some digest ↔
      (∃ f, (path, f) ∈ files ∧ f.readable = true ∧ host.sha256 f.content = digest) ∨
        acc.1.get path = some digest := by
  induction files generalizing acc with
  | nil => simp
  | cons entry files ih =>
    obtain ⟨hnot, hnodup⟩ := List.nodup_cons.mp hnodup
    have hget : ∀ p, (record host acc entry.1 entry.2).1.get p =
        if p = entry.1 ∧ entry.2.readable = true then some (host.sha256 entry.2.content)
        else acc.1.get p := by
      intro p
      unfold record
      cases entry.2.readable with
      | false => simp
      | true => simp [Dict.get_set]
    have hnew' : ∀ p ∈ files.map Prod.fst, (record host acc entry.1 entry.2).1.get p = none := by
      intro p hp
      rw [hget, if_neg, hnew p (List.mem_cons_of_mem _ hp)]
      rintro ⟨rfl, -⟩
      exact hnot hp
    rw [List.foldl_cons, ih hnodup _ hnew', hget]
    -- the path comes once, so no later file overwrites its digest
    have hfirst : acc.1.get entry.1 = none := hnew _ List.mem_cons_self
    constructor
    · rintro (⟨f, hmem, hread, hdigest⟩ | hacc)
      · exact Or.inl ⟨f, List.mem_cons_of_mem _ hmem, hread, hdigest⟩
      · split at hacc
        · next heq =>
          refine Or.inl ⟨entry.2, ?_, heq.2, Option.some.inj hacc⟩
          rw [heq.1]
          exact List.mem_cons_self
        · exact Or.inr hacc
    · rintro (⟨f, hmem, hread, hdigest⟩ | hacc)
      · rcases List.mem_cons.mp hmem with heq | hmem
        · obtain ⟨rfl, rfl⟩ := Prod.mk.inj heq
          exact Or.inr (by rw [if_pos ⟨rfl, hread⟩, hdigest])
        · exact Or.inl ⟨f, hmem, hread, hdigest⟩
      · refine Or.inr ?_
        rw [if_neg, hacc]
        rintro ⟨rfl, -⟩
        rw [hfirst] at hacc
        cases hacc

/-- `build_manifest` records the digest of each file that is not excluded and can
    be read. -/
theorem mem_build_manifest_iff (host : Host T β) (now : T) (tree : FileTree β)
    (path : List String) (digest : String) :
    (path, digest) ∈ (build_manifest host now tree).files.items ↔
      ∃ f, tree.lookup path = some f ∧ ¬ Excluded path ∧ f.readable = true ∧
        host.sha256 f.content = digest := by
  have hget : (path, digest) ∈ (build_files host tree).1.items ↔
      (build_files host tree).1.get path = some digest :=
    ⟨Dict.get_of_mem, Dict.mem_of_get⟩
  show (path, digest) ∈ ((build_files host tree).1.sort item_le).items ↔ _
  rw [Dict.mem_sort, hget, build_files_eq, foldl_record_get host _
    (candidates_nodup sorted_files_perm tree) _ (fun _ _ => rfl)]
  simp only [mem_candidates_iff sorted_files_perm, Dict.get_empty, reduceCtorEq, or_false,
    and_assoc]

/-! ### What is reported -/

/-- What `check` says of a file that can be read, if it is there. -/
def differs (host : Host T β) (tree : FileTree β) (item : List String × String) : List Diff :=
  match tree.lookup item.1 with
  | none => [.MISSING item.1]
  | some f =>
    if host.sha256 f.content ≠ item.2 then [.MODIFIED item.1 item.2 (host.sha256 f.content)]
    else []

/-- The recorded files that are there can be read. -/
def Checkable (tree : FileTree β) (items : List (List String × String)) : Prop :=
  ∀ item ∈ items, ∀ f, tree.lookup item.1 = some f → f.readable = true

theorem check_all_eq (host : Host T β) (tree : FileTree β) (items : List (List String × String))
    (hread : Checkable tree items) :
    check_all host tree items = .ok (items.flatMap (differs host tree)) := by
  induction items with
  | nil => rfl
  | cons item items ih =>
    have hcheck : check host tree item.1 item.2 = .ok (differs host tree item) := by
      unfold check differs
      cases hlookup : tree.lookup item.1 with
      | none => rfl
      | some f =>
        have hf := hread item List.mem_cons_self f hlookup
        simp only [hf, if_true]
    have hrest := ih fun item' hmem => hread item' (List.mem_cons_of_mem _ hmem)
    unfold check_all
    rw [hcheck, hrest]
    rfl

theorem new_files_eq (expected : Dict (List String) String) (tree : FileTree β) :
    new_files expected tree = ((candidates id tree).filter
      fun entry => !expected.keys.contains entry.1).map fun entry => .NEW entry.1 := by
  unfold new_files candidates
  rw [List.filter_flatMap, List.map_flatMap]
  congr 1
  funext dir
  unfold candidates_in
  split
  · rfl
  · induction dir.2 with
    | nil => rfl
    | cons entry files ih =>
      simp only [id, List.filterMap_cons, List.filter_cons] at ih ⊢
      rw [ih]
      cases EXCLUDE_PATTERNS.contains entry.1 with
      | true => rfl
      | false =>
        by_cases hkey : dir.1 ++ [entry.1] ∈ expected.keys
        · simp [hkey]
        · simp [hkey]

/-- What `verify_manifest` returns if it can read what is recorded. -/
def discrepancies (host : Host T β) (manifest : Manifest T) (tree : FileTree β) : List Diff :=
  manifest.files.items.flatMap (differs host tree) ++ new_files manifest.files tree

theorem verify_manifest_eq {host : Host T β} {manifest : Manifest T} {tree : FileTree β}
    (hread : Checkable tree manifest.files.items) :
    verify_manifest host manifest tree =
      .ok (decide ((discrepancies host manifest tree).length = 0),
        discrepancies host manifest tree) := by
  unfold verify_manifest
  rw [check_all_eq host tree _ hread]
  rfl

theorem differs_path {host : Host T β} {tree : FileTree β} {item : List String × String} :
    (differs host tree item).map Diff.path =
      if (tree.lookup item.1).map (fun f => host.sha256 f.content) = some item.2 then []
      else [item.1] := by
  unfold differs
  cases tree.lookup item.1 with
  | none => rfl
  | some f =>
    by_cases heq : host.sha256 f.content = item.2
    · simp [heq]
    · simp [heq, Diff.path]

/-- The paths of the recorded files that are reported, in the order of the record. -/
theorem flatMap_differs_path (host : Host T β) (tree : FileTree β)
    (items : List (List String × String)) :
    (items.flatMap (differs host tree)).map Diff.path =
      (items.filter fun item => decide ((tree.lookup item.1).map
        (fun f => host.sha256 f.content) ≠ some item.2)).map Prod.fst := by
  induction items with
  | nil => rfl
  | cons item items ih =>
    rw [List.flatMap_cons, List.map_append, ih, differs_path, List.filter_cons]
    by_cases heq : (tree.lookup item.1).map (fun f => host.sha256 f.content) = some item.2
    · simp [heq]
    · simp [heq]

/-- A path is reported if its recorded digest is not that of the file there, or if
    there is a file that is not excluded and not recorded. -/
theorem mem_discrepancies_iff (host : Host T β) (manifest : Manifest T) (tree : FileTree β)
    (path : List String) :
    path ∈ (discrepancies host manifest tree).map Diff.path ↔
      (∃ digest, (path, digest) ∈ manifest.files.items ∧
        (tree.lookup path).map (fun f => host.sha256 f.content) ≠ some digest) ∨
      (path ∉ manifest.files.keys ∧ ¬ Excluded path ∧ ∃ f, tree.lookup path = some f) := by
  unfold discrepancies
  rw [List.map_append, List.mem_append, flatMap_differs_path, new_files_eq, List.map_map]
  refine or_congr ?_ ?_
  · simp only [List.mem_map, List.mem_filter, decide_eq_true_eq, Prod.exists, exists_and_right,
      exists_eq_right]
  · have hmem := fun f => mem_candidates_iff id_perm tree path f
    constructor
    · intro h
      obtain ⟨⟨p, f⟩, hfile, rfl⟩ := List.mem_map.mp h
      obtain ⟨hcand, hkey⟩ := List.mem_filter.mp hfile
      obtain ⟨hlookup, hexcluded⟩ := (hmem f).mp hcand
      have hnot : p ∉ manifest.files.keys := by simpa using hkey
      exact ⟨hnot, hexcluded, f, hlookup⟩
    · rintro ⟨hkey, hexcluded, f, hlookup⟩
      refine List.mem_map.mpr ⟨(path, f), List.mem_filter.mpr ⟨?_, by simpa using hkey⟩, rfl⟩
      exact (hmem f).mpr ⟨hlookup, hexcluded⟩

/-- Each path is reported once. -/
theorem discrepancies_nodup (host : Host T β) (manifest : Manifest T) (tree : FileTree β) :
    ((discrepancies host manifest tree).map Diff.path).Nodup := by
  unfold discrepancies
  rw [List.map_append, flatMap_differs_path, new_files_eq, List.map_map]
  refine List.Nodup.append ?_ ?_ ?_
  · exact manifest.files.nodup.sublist (List.filter_sublist.map _)
  · have hnodup := candidates_nodup id_perm tree
    exact hnodup.sublist (List.filter_sublist.map _)
  · intro path hrecorded hnew
    obtain ⟨item, hitem, rfl⟩ := List.mem_map.mp hrecorded
    obtain ⟨entry, hentry, heq⟩ := List.mem_map.mp hnew
    have hkey := (List.mem_filter.mp hentry).2
    have hmem : item.1 ∈ manifest.files.keys :=
      List.mem_map.mpr ⟨item, (List.mem_filter.mp hitem).1, rfl⟩
    change entry.1 = item.1 at heq
    rw [heq] at hkey
    simp [hmem] at hkey

/-! ### Exactness -/

/-- Every file can be read. -/
def Readable (tree : FileTree β) : Prop :=
  ∀ path f, tree.lookup path = some f → f.readable = true

/-- The content is that of a file of the tree. -/
def Holds (tree : FileTree β) (c : β) : Prop := ∃ path f, tree.lookup path = some f ∧ f.content = c

/-- Both trees have a file with the same content at the path, or both have none. -/
def SameAt (tree tree' : FileTree β) (path : List String) : Prop :=
  (tree.lookup path).map File.content = (tree'.lookup path).map File.content

theorem mem_keys_iff (host : Host T β) (now : T) (tree : FileTree β) (path : List String) :
    path ∈ (build_manifest host now tree).files.keys ↔
      ∃ f, tree.lookup path = some f ∧ ¬ Excluded path ∧ f.readable = true := by
  constructor
  · intro hmem
    obtain ⟨⟨p, digest⟩, hitem, rfl⟩ := List.mem_map.mp hmem
    obtain ⟨f, hlookup, hexcluded, hread, -⟩ := (mem_build_manifest_iff ..).mp hitem
    exact ⟨f, hlookup, hexcluded, hread⟩
  · rintro ⟨f, hlookup, hexcluded, hread⟩
    exact List.mem_map.mpr ⟨(path, host.sha256 f.content),
      (mem_build_manifest_iff ..).mpr ⟨f, hlookup, hexcluded, hread, rfl⟩, rfl⟩

/-- The reported paths are those at which the trees differ. -/
theorem discrepancies_exact (host : Host T β) (now : T) {tree tree' : FileTree β}
    (hread : Readable tree)
    (hsha : ∀ c c', Holds tree c ∨ Holds tree' c → Holds tree c' ∨ Holds tree' c' →
      host.sha256 c = host.sha256 c' → c = c') (path : List String) :
    path ∈ (discrepancies host (build_manifest host now tree) tree').map Diff.path ↔
      ¬ Excluded path ∧ ¬ SameAt tree tree' path := by
  rw [mem_discrepancies_iff, mem_keys_iff]
  simp only [mem_build_manifest_iff, SameAt]
  -- missing, new, or there in both trees
  cases hlookup : tree.lookup path with
  | none => cases hlookup' : tree'.lookup path <;> simp
  | some f =>
    have hf := hread path f hlookup
    cases hlookup' : tree'.lookup path with
    | none => simp [hf]
    | some f' =>
      have hdigest : host.sha256 f'.content = host.sha256 f.content ↔ f.content = f'.content := by
        constructor
        · intro heq
          have hc : Holds tree f.content := ⟨path, f, hlookup, rfl⟩
          have hc' : Holds tree' f'.content := ⟨path, f', hlookup', rfl⟩
          exact hsha _ _ (Or.inl hc) (Or.inr hc') heq.symm
        · intro heq
          rw [heq]
      by_cases hexcluded : Excluded path
      · simp [hexcluded]
      · simp [hexcluded, hf, hdigest]

/-- **The manifest of a tree, verified against another one, names exactly the
    paths at which they differ**, each once, and is accepted if there are none.
    All files can be read, and no two contents have the same digest. -/
theorem verify_build_exact (host : Host T β) (now : T) {tree tree' : FileTree β}
    (hread : Readable tree) (hread' : Readable tree')
    (hsha : ∀ c c', Holds tree c ∨ Holds tree' c → Holds tree c' ∨ Holds tree' c' →
      host.sha256 c = host.sha256 c' → c = c') :
    ∃ ok diffs, verify_manifest host (build_manifest host now tree) tree' = .ok (ok, diffs) ∧
      (ok = true ↔ ∀ path, ¬ Excluded path → SameAt tree tree' path) ∧
      (diffs.map Diff.path).Nodup ∧
      ∀ path, path ∈ diffs.map Diff.path ↔ ¬ Excluded path ∧ ¬ SameAt tree tree' path := by
  have hexact := discrepancies_exact host now hread hsha
  refine ⟨_, _, verify_manifest_eq fun item _ f => hread' item.1 f, ?_,
    discrepancies_nodup host _ tree', hexact⟩
  rw [decide_eq_true_eq, List.length_eq_zero_iff, ← List.map_eq_nil_iff (f := Diff.path),
    List.eq_nil_iff_forall_not_mem]
  refine forall_congr' fun path => ?_
  rw [hexact path, not_and, not_not]

/-- A tree with one file. -/
theorem single_unique (name : String) (f : File β) :
    (Listing.file name f .nil).Unique :=
  ⟨List.not_mem_nil, trivial⟩

def single (name : String) (f : File β) : FileTree β := ⟨.file name f .nil, single_unique name f⟩

theorem single_lookup {name : String} {f f' : File β} {path : List String}
    (h : (single name f).lookup path = some f') : f' = f := by
  change (if path = [name] then some f else none) = some f' at h
  split at h
  · exact (Option.some.inj h).symm
  · cases h

/-- SHA-256 of two contents. -/
def sample : Host ℚ String where
  sha256 c :=
    if c = "hello" then "2cf24dba5fb0a30e26e83b2ac5b9e29e1b161e5c1fa7425e73043362938b9824"
    else "e3b0c44298fc1c149afbf4c8996fb92427ae41e4649b934ca495991b7852b855"
  getsize c := c.length
  rootfs := "/rootfs"
  commit := "unknown"
  environment := ⟨"3.12.0", "Linux", "x86_64"⟩
  dumps _ := ""
  loads _ := none

/-- A file whose content is lost. -/
theorem verify_build_exact_lost : ∃ ok diffs,
    verify_manifest sample (build_manifest sample 0 (single "a" ⟨"hello", true⟩))
      (single "a" ⟨"", true⟩) = .ok (ok, diffs) ∧
    (ok = true ↔ ∀ path, ¬ Excluded path →
      SameAt (single "a" ⟨"hello", true⟩) (single "a" ⟨"", true⟩) path) ∧
    (diffs.map Diff.path).Nodup ∧
    ∀ path, path ∈ diffs.map Diff.path ↔ ¬ Excluded path ∧
      ¬ SameAt (single "a" ⟨"hello", true⟩) (single "a" ⟨"", true⟩) path := by
  have hread : ∀ c, Readable (single "a" (⟨c, true⟩ : File String)) := by
    intro c path f hlookup
    rw [single_lookup hlookup]
  have hholds : ∀ c, Holds (single "a" (⟨"hello", true⟩ : File String)) c ∨
      Holds (single "a" ⟨"", true⟩) c → c = "hello" ∨ c = "" := by
    rintro c (⟨path, f, hlookup, rfl⟩ | ⟨path, f, hlookup, rfl⟩)
    · rw [single_lookup hlookup]
      exact Or.inl rfl
    · rw [single_lookup hlookup]
      exact Or.inr rfl
  refine verify_build_exact sample 0 (hread _) (hread _) fun c c' hc hc' hsha => ?_
  rcases hholds c hc with rfl | rfl
  · rcases hholds c' hc' with rfl | rfl
    · rfl
    · exact absurd hsha (by decide)
  · rcases hholds c' hc' with rfl | rfl
    · exact absurd hsha (by decide)
    · rfl

end Manifest
