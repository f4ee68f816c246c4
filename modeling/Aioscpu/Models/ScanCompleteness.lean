import Aioscpu.Models.ActiveModel
import Aioscpu.Services.StorageService

/-! # Scans of the Models Directory

  A scan registers the model files of the directory under their names without the extension.
  Files that share such a name are taken for one model, and a name that is registered is taken
  for the file.

  Paths are resolved from the current directory, in a file system without symbolic links.
-/

namespace ModelManager

/-- A regular file with the extension of a model. -/
def ModelFile (entry : DirEntry) : Prop :=
  entry.is_file = true ∧ PyStr.lower (splitext entry.name) ∈ MODEL_EXTENSIONS

instance : DecidablePred ModelFile := fun _ => inferInstanceAs (Decidable (_ ∧ _))

/-- What `os.scandir` lists, in the order of the system. -/
structure Directory where
  entries : List DirEntry
  isName : ∀ entry ∈ entries, IsName entry.name ∧ '/' ∉ entry.name.toList
  nodup : (entries.map DirEntry.name).Nodup

/-! ### The scan -/

/-- The body of the loop of `scan_models_dir`, with `found`. -/
def scan_step (r : State × List String) (entry : DirEntry) : State × List String :=
  let ext := PyStr.lower (splitext entry.name)
  if ¬ entry.is_file then r
  else if ext ∉ MODEL_EXTENSIONS then r
  else if r.1.registry.get (stem entry.name) ≠ none then r
  else
    (register r.1 (stem entry.name) (join r.1.models_dir entry.name) (PyStr.lstrip ext '.') ""
      entry.save, r.2 ++ [stem entry.name])

/-- `scan_models_dir`, with what it returns. -/
def scan (s : State) (entries : List DirEntry) : State × List String :=
  entries.foldl scan_step (s, [])

/-- The path under which `register` keeps a path. -/
def registered_path (s : State) (path : String) : String :=
  if isabs path then path else join s.models_dir path

/-- The entry that a scan makes of a file. -/
def scanned (s : State) (entry : DirEntry) : ModelInfo :=
  { name := stem entry.name
    path := registered_path s (join s.models_dir entry.name)
    model_type := PyStr.lstrip (PyStr.lower (splitext entry.name)) '.'
    size_mb := SizeMb.of ((s.disk (registered_path s (join s.models_dir entry.name))).getD 0)
    description := ""
    loaded := false }

/-- The file that is first with the name. -/
def firstFile (name : String) (entries : List DirEntry) : Option DirEntry :=
  entries.find? fun entry => ModelFile entry ∧ stem entry.name = name

theorem scan_step_eq (r : State × List String) (entry : DirEntry) :
    scan_step r entry =
      if ModelFile entry ∧ r.1.registry.get (stem entry.name) = none then
        (register r.1 (stem entry.name) (join r.1.models_dir entry.name)
          (PyStr.lstrip (PyStr.lower (splitext entry.name)) '.') "" entry.save,
          r.2 ++ [stem entry.name])
      else r := by
  unfold scan_step ModelFile
  by_cases hfile : entry.is_file = true
  · by_cases hext : PyStr.lower (splitext entry.name) ∈ MODEL_EXTENSIONS
    · by_cases hnone : r.1.registry.get (stem entry.name) = none
      · simp [hfile, hext, hnone]
      · simp [hfile, hext, hnone]
    · simp [hfile, hext]
  · simp [hfile]

theorem scan_step_fst (r : State × List String) (entry : DirEntry) :
    (scan_step r entry).1 = scan_entry r.1 entry := by
  have hwanted : ModelFile entry ∧ r.1.registry.get (stem entry.name) = none ↔
      Wanted r.1 entry := and_assoc
  rw [scan_step_eq]
  split
  · next h => rw [scan_entry_of_wanted (hwanted.mp h)]
  · next h => rw [scan_entry_of_not_wanted fun hw => h (hwanted.mpr hw)]

/-- The scan of the other results. -/
theorem scan_fst (s : State) (entries : List DirEntry) :
    (scan s entries).1 = scan_models_dir s entries := by
  have hfold : ∀ r : State × List String,
      (entries.foldl scan_step r).1 = entries.foldl scan_entry r.1 := by
    induction entries with
    | nil =>
      intro r
      rfl
    | cons entry entries ih =>
      intro r
      rw [List.foldl_cons, List.foldl_cons, ih, scan_step_fst]
  exact hfold (s, [])

/-- One entry leaves all else as it is. -/
theorem scan_step_get (r : State × List String) (entry : DirEntry) (name : String) :
    (scan_step r entry).1.registry.get name =
      (r.1.registry.get name).or
        (if ModelFile entry ∧ stem entry.name = name then some (scanned r.1 entry) else none) := by
  rw [scan_step_eq]
  by_cases hfile : ModelFile entry
  · by_cases hname : stem entry.name = name
    · subst hname
      cases hget : r.1.registry.get (stem entry.name) with
      | none =>
        rw [if_pos ⟨hfile, rfl⟩, if_pos ⟨hfile, rfl⟩]
        exact Dict.get_set_self ..
      | some info =>
        have hknown : ¬ (ModelFile entry ∧ (some info : Option ModelInfo) = none) :=
          fun h => Option.some_ne_none info h.2
        rw [if_neg hknown, hget]
        rfl
    · have hother : ¬ (ModelFile entry ∧ stem entry.name = name) := fun h => hname h.2
      rw [if_neg hother, Option.or_none]
      split
      · exact Dict.get_set_of_ne (Ne.symm hname) _
      · rfl
  · rw [if_neg fun h => hfile h.1, if_neg fun h => hfile h.1, Option.or_none]

theorem scan_step_frame (r : State × List String) (entry : DirEntry) :
    (scan_step r entry).1.models_dir = r.1.models_dir ∧
      (scan_step r entry).1.disk = r.1.disk := by
  rw [scan_step_eq]
  split
  · exact ⟨rfl, rfl⟩
  · exact ⟨rfl, rfl⟩

theorem firstFile_cons (name : String) (entry : DirEntry) (entries : List DirEntry) :
    firstFile name (entry :: entries) =
      if ModelFile entry ∧ stem entry.name = name then some entry else firstFile name entries := by
  unfold firstFile
  rw [List.find?_cons]
  by_cases hfirst : ModelFile entry ∧ stem entry.name = name
  · rw [if_pos hfirst, decide_eq_true hfirst]
  · rw [if_neg hfirst, decide_eq_false hfirst]

theorem firstFile_spec {name : String} {entries : List DirEntry} {entry : DirEntry}
    (h : firstFile name entries = some entry) :
    entry ∈ entries ∧ ModelFile entry ∧ stem entry.name = name :=
  ⟨List.mem_of_find?_eq_some h, of_decide_eq_true (List.find?_some
    (p := fun entry => decide (ModelFile entry ∧ stem entry.name = name)) h)⟩

/-- What is registered under a name after a scan: what was, or the first of its files. -/
theorem fold_get (entries : List DirEntry) (r : State × List String) (name : String) :
    (entries.foldl scan_step r).1.registry.get name =
      (r.1.registry.get name).or ((firstFile name entries).map (scanned r.1)) := by
  induction entries generalizing r with
  | nil => rw [firstFile, List.find?_nil, Option.map_none, Option.or_none, List.foldl_nil]
  | cons entry entries ih =>
    obtain ⟨hdir, hdisk⟩ := scan_step_frame r entry
    have hscanned : scanned (scan_step r entry).1 = scanned r.1 := by
      funext entry'
      unfold scanned registered_path
      rw [hdir, hdisk]
    rw [List.foldl_cons, ih, scan_step_get, hscanned, Option.or_assoc, firstFile_cons]
    split
    · rfl
    · rw [Option.none_or]

theorem scan_get (s : State) (entries : List DirEntry) (name : String) :
    (scan s entries).1.registry.get name =
      (s.registry.get name).or ((firstFile name entries).map (scanned s)) :=
  fold_get entries (s, []) name

/-! ### What is returned -/

/-- The names that are returned are new. -/
theorem fold_found (entries : List DirEntry) (r : State × List String)
    (hknown : ∀ name ∈ r.2, r.1.registry.get name ≠ none) (hnodup : r.2.Nodup) :
    (entries.foldl scan_step r).2.Nodup ∧
      ∀ name, name ∈ (entries.foldl scan_step r).2 ↔ name ∈ r.2 ∨
        r.1.registry.get name = none ∧ (firstFile name entries).isSome = true := by
  induction entries generalizing r with
  | nil =>
    refine ⟨hnodup, fun name => ?_⟩
    simp [firstFile]
  | cons entry entries ih =>
    rw [List.foldl_cons]
    by_cases hnew : ModelFile entry ∧ r.1.registry.get (stem entry.name) = none
    · have hstep : (scan_step r entry).2 = r.2 ++ [stem entry.name] := by
        rw [scan_step_eq, if_pos hnew]
      have hknown' : ∀ name ∈ (scan_step r entry).2,
          (scan_step r entry).1.registry.get name ≠ none := by
        intro name hname
        rw [scan_step_get]
        rw [hstep] at hname
        rcases List.mem_append.mp hname with hname | hname
        · obtain ⟨info, hinfo⟩ := Option.ne_none_iff_exists'.mp (hknown name hname)
          rw [hinfo]
          exact Option.some_ne_none info
        · rw [List.mem_singleton.mp hname, hnew.2, if_pos ⟨hnew.1, rfl⟩]
          exact Option.some_ne_none _
      have hnodup' : (scan_step r entry).2.Nodup := by
        rw [hstep]
        refine hnodup.append (List.nodup_singleton _) fun name hname hname' => ?_
        rw [List.mem_singleton.mp hname'] at hname
        exact hknown _ hname hnew.2
      obtain ⟨hrest, hmem⟩ := ih _ hknown' hnodup'
      refine ⟨hrest, fun name => ?_⟩
      rw [hmem, hstep, firstFile_cons, scan_step_get, List.mem_append, List.mem_singleton]
      by_cases hname : name = stem entry.name
      · rw [if_pos ⟨hnew.1, hname.symm⟩, if_pos ⟨hnew.1, hname.symm⟩, hname]
        exact iff_of_true (Or.inl (Or.inr rfl)) (Or.inr ⟨hnew.2, rfl⟩)
      · have hother : ¬ (ModelFile entry ∧ stem entry.name = name) := fun h => hname h.2.symm
        rw [if_neg hother, if_neg hother, or_iff_left hname, Option.or_none]
    · have hstep : scan_step r entry = r := by rw [scan_step_eq, if_neg hnew]
      rw [hstep]
      obtain ⟨hrest, hmem⟩ := ih r hknown hnodup
      refine ⟨hrest, fun name => ?_⟩
      rw [hmem, firstFile_cons]
      refine or_congr_right (and_congr_right fun hnone => ?_)
      -- the file is no new one
      have hother : ¬ (ModelFile entry ∧ stem entry.name = name) := by
        rintro ⟨hfile, rfl⟩
        exact hnew ⟨hfile, hnone⟩
      rw [if_neg hother]

/-- The names that a scan returns are those that are registered then and were not. -/
theorem scan_found (s : State) (entries : List DirEntry) :
    (scan s entries).2.Nodup ∧ ∀ name, name ∈ (scan s entries).2 ↔
      s.registry.get name = none ∧ (scan s entries).1.registry.get name ≠ none := by
  obtain ⟨hnodup, hmem⟩ := fold_found entries (s, []) (fun _ h => (nomatch h)) List.nodup_nil
  refine ⟨hnodup, fun name => (hmem name).trans ?_⟩
  rw [or_iff_right List.not_mem_nil]
  refine and_congr_right fun hnone => ?_
  have hnone : s.registry.get name = none := hnone
  rw [scan_get, hnone, Option.none_or]
  cases firstFile name entries with
  | none => simp
  | some entry => simp

/-! ### Paths -/

/-- The place that a path leads to. -/
def resolve (cwd : Dir) (path : String) : Dir := StorageService.abspath cwd path

/-- The place of a file in the directory. -/
def place (cwd : Dir) (s : State) (entry : DirEntry) : Dir :=
  resolve cwd (join s.models_dir entry.name)

theorem walk_append_slash (dir : Dir) (path path' : String) :
    dir.walk (PyStr.split (path ++ "/" ++ path') '/') =
      (dir.walk (PyStr.split path '/')).walk (PyStr.split path' '/') := by
  have hchars : (path ++ "/" ++ path').toList = path.toList ++ '/' :: path'.toList := by
    rw [String.toList_append, String.toList_append]
    simp
  have hsplit : PyStr.split (path ++ "/" ++ path') '/' =
      PyStr.split path '/' ++ PyStr.split path' '/' := by
    unfold PyStr.split
    rw [hchars, List.splitOn_append_cons_self, List.map_append]
  rw [hsplit, Dir.walk_append]

theorem isabs_append {dir : String} (h : dir ≠ "") (path : String) :
    isabs (dir ++ path) = isabs dir := by
  unfold isabs
  rw [String.toList_append]
  cases hchars : dir.toList with
  | nil => exact absurd (String.toList_eq_nil_iff.mp hchars) h
  | cons c cs => rfl

/-- The walk of no components. -/
theorem walk_split_empty (dir : Dir) : dir.walk (PyStr.split "" '/') = dir := by
  have hsplit : PyStr.split "" '/' = [""] := by decide
  have hname : ¬ IsName "" := by decide
  rw [hsplit, Dir.walk_cons, Dir.walk_nil]
  unfold Dir.enter
  rw [dif_neg hname, if_neg (by decide)]

theorem join_empty (path : String) : join "" path = path := by
  unfold join
  rw [if_pos (by simp)]

/-- A join has one slash in between. -/
theorem join_of_ne {dir path : String} (hdir : dir ≠ "") (h : isabs path = false) :
    (∃ front, dir = front ++ "/" ∧ join dir path = front ++ "/" ++ path) ∨
      join dir path = dir ++ "/" ++ path := by
  have htest : ¬ (isabs path || decide (dir = "")) = true := by simp [h, hdir]
  unfold join
  rw [if_neg htest]
  split
  · next hends =>
    obtain ⟨front, hfront⟩ := List.isSuffixOf_iff_suffix.mp hends
    have hfront : dir = String.ofList front ++ "/" := by
      refine String.toList_injective ?_
      rw [String.toList_append, String.toList_ofList, hfront]
    exact Or.inl ⟨_, hfront, by rw [← hfront]⟩
  · exact Or.inr rfl

/-- An absolute path stays so when something is joined to it. -/
theorem isabs_join {dir path : String} (hdir : dir ≠ "") (h : isabs path = false) :
    isabs (join dir path) = isabs dir := by
  rcases join_of_ne hdir h with ⟨front, hfront, hjoin⟩ | hjoin
  · rw [hjoin, ← hfront, isabs_append hdir]
  · rw [hjoin, String.append_assoc, isabs_append hdir]

theorem walk_join (start : Dir) {dir path : String} (hdir : dir ≠ "") (h : isabs path = false) :
    start.walk (PyStr.split (join dir path) '/') =
      (start.walk (PyStr.split dir '/')).walk (PyStr.split path '/') := by
  rcases join_of_ne hdir h with ⟨front, hfront, hjoin⟩ | hjoin
  · -- the slash is there already
    have hsplit : PyStr.split dir '/' = PyStr.split (front ++ "/" ++ "") '/' := by
      rw [hfront, String.append_empty]
    rw [hjoin, hsplit, walk_append_slash, walk_append_slash, walk_split_empty]
  · rw [hjoin, walk_append_slash]

/-- A path that is joined to a directory starts from there. -/
theorem resolve_join (cwd : Dir) (dir : String) {path : String} (h : isabs path = false) :
    resolve cwd (join dir path) = (resolve cwd dir).walk (PyStr.split path '/') := by
  have hresolve : ∀ path, resolve cwd path =
      (if isabs path then Dir.top else cwd).walk (PyStr.split path '/') := fun _ => rfl
  rw [hresolve, hresolve]
  by_cases hempty : dir = ""
  · have hrel : ¬ isabs "" = true := by decide
    rw [hempty, join_empty, h, if_neg hrel, if_neg Bool.false_ne_true, walk_split_empty]
  · rw [isabs_join hempty h, walk_join _ hempty h]

theorem split_of_name {name : String} (h : '/' ∉ name.toList) : PyStr.split name '/' = [name] := by
  unfold PyStr.split
  rw [List.splitOn_eq_singleton h, List.map_singleton, String.ofList_toList]

theorem isabs_of_name {name : String} (h : '/' ∉ name.toList) : isabs name = false := by
  refine decide_eq_false fun hhead => h ?_
  exact List.mem_of_mem_head? hhead

/-- The models directory joined to itself is the models directory, as it is when its path is
    absolute. -/
def Rooted (cwd : Dir) (s : State) : Prop :=
  resolve cwd (join s.models_dir s.models_dir) = resolve cwd s.models_dir

theorem place_eq (cwd : Dir) (s : State) {entry : DirEntry} (h : '/' ∉ entry.name.toList) :
    place cwd s entry = (resolve cwd s.models_dir).enter entry.name := by
  unfold place
  rw [resolve_join _ _ (isabs_of_name h), split_of_name h, Dir.walk_cons, Dir.walk_nil]

/-- Where the path leads that is registered for a file. -/
theorem resolve_scanned (cwd : Dir) (s : State) {entry : DirEntry} (h : '/' ∉ entry.name.toList) :
    resolve cwd (scanned s entry).path =
      (resolve cwd (join s.models_dir s.models_dir)).enter entry.name := by
  have hname := isabs_of_name h
  show resolve cwd (registered_path s (join s.models_dir entry.name)) = _
  unfold registered_path
  by_cases hempty : s.models_dir = ""
  · have hplace := place_eq cwd s h
    unfold place at hplace
    rw [hempty, join_empty] at hplace
    rw [hempty, join_empty, hname, if_neg Bool.false_ne_true, join_empty, join_empty]
    exact hplace
  · rw [isabs_join hempty hname]
    by_cases habs : isabs s.models_dir = true
    · -- an absolute path is joined once
      have hself : join s.models_dir s.models_dir = s.models_dir := by
        unfold join
        rw [habs, Bool.true_or, if_pos rfl]
      rw [if_pos habs, hself]
      exact place_eq cwd s h
    · have hrel : isabs s.models_dir = false := by simpa using habs
      have hjoined : isabs (join s.models_dir entry.name) = false :=
        (isabs_join hempty hname).trans hrel
      rw [if_neg habs, resolve_join _ _ hjoined, resolve_join _ _ hrel, walk_join _ hempty hname,
        split_of_name h, Dir.walk_cons, Dir.walk_nil]

/-! ### Completeness -/

/-- The law of a scan. -/
structure Complete (cwd : Dir) (s : State) (dir : Directory) : Prop where
  /-- Every model file has an entry that leads to it. -/
  covers : ∀ entry ∈ dir.entries, ModelFile entry → ∃ name info,
    (scan s dir.entries).1.registry.get name = some info ∧ resolve cwd info.path = place cwd s entry
  kept : ∀ name info, s.registry.get name = some info →
    (scan s dir.entries).1.registry.get name = some info
  found : (scan s dir.entries).2.Nodup ∧ ∀ name, name ∈ (scan s dir.entries).2 ↔
    s.registry.get name = none ∧ (scan s dir.entries).1.registry.get name ≠ none

/-- An entry leads to the file before the scan. -/
def Known (cwd : Dir) (s : State) (entry : DirEntry) : Prop :=
  ∃ name info, s.registry.get name = some info ∧ resolve cwd info.path = place cwd s entry

/-- No model file with the same name comes before the file. -/
def First (dir : Directory) (entry : DirEntry) : Prop :=
  ∃ before after, dir.entries = before ++ entry :: after ∧
    ∀ entry' ∈ before, ModelFile entry' → stem entry'.name ≠ stem entry.name

/-- The file that is first with its name is the one that is found for it. -/
theorem first_iff {dir : Directory} {entry : DirEntry} (h : ModelFile entry) :
    First dir entry ↔ firstFile (stem entry.name) dir.entries = some entry := by
  unfold firstFile
  rw [List.find?_eq_some_iff_append]
  constructor
  · rintro ⟨before, after, heq, hbefore⟩
    refine ⟨decide_eq_true ⟨h, rfl⟩, before, after, heq, fun entry' hmem => ?_⟩
    rw [Bool.not_eq_true', decide_eq_false_iff_not]
    rintro ⟨hfile, hname⟩
    exact hbefore entry' hmem hfile hname
  · rintro ⟨-, before, after, heq, hbefore⟩
    refine ⟨before, after, heq, fun entry' hmem hfile hname => ?_⟩
    have hnot := hbefore entry' hmem
    rw [Bool.not_eq_true', decide_eq_false_iff_not] at hnot
    exact hnot ⟨hfile, hname⟩

/-- **Completeness of a scan**: all model files have an entry afterwards if and only if each of them
    has one before, or is the first one with a name that is free in a directory that is rooted. -/
theorem complete_iff (cwd : Dir) (s : State) (dir : Directory) :
    Complete cwd s dir ↔ ∀ entry ∈ dir.entries, ModelFile entry → Known cwd s entry ∨
      s.registry.get (stem entry.name) = none ∧ First dir entry ∧ Rooted cwd s := by
  have hkept : ∀ name info, s.registry.get name = some info →
      (scan s dir.entries).1.registry.get name = some info := by
    intro name info hget
    rw [scan_get, hget, Option.some_or]
  constructor
  · intro h entry hmem hfile
    obtain ⟨name, info, hget, hpath⟩ := h.covers entry hmem hfile
    rw [scan_get, Option.or_eq_some_iff] at hget
    rcases hget with hget | ⟨hnone, hget⟩
    · exact Or.inl ⟨name, info, hget, hpath⟩
    · right
      obtain ⟨entry', hfirst, rfl⟩ := Option.map_eq_some_iff.mp hget
      obtain ⟨hmem', hfile', hname⟩ := firstFile_spec hfirst
      obtain ⟨hisName, hslash⟩ := dir.isName entry hmem
      obtain ⟨hisName', hslash'⟩ := dir.isName entry' hmem'
      -- the paths lead to one place, so their last names are the same
      rw [resolve_scanned cwd s hslash', place_eq cwd s hslash] at hpath
      have hnames := congrArg Dir.names hpath
      rw [Dir.enter_name _ hisName', Dir.enter_name _ hisName] at hnames
      obtain ⟨hdir, hlast⟩ := List.append_inj' hnames rfl
      have hsame : entry'.name = entry.name := List.singleton_inj.mp hlast
      have heq : entry' = entry := List.inj_on_of_nodup_map dir.nodup hmem' hmem hsame
      subst heq
      subst hname
      exact ⟨hnone, (first_iff hfile).mpr hfirst, Dir.ext hdir⟩
  · intro h
    refine ⟨fun entry hmem hfile => ?_, hkept, scan_found s dir.entries⟩
    rcases h entry hmem hfile with ⟨name, info, hget, hpath⟩ | ⟨hnone, hfirst, hrooted⟩
    · exact ⟨name, info, hkept name info hget, hpath⟩
    · refine ⟨stem entry.name, scanned s entry, ?_, ?_⟩
      · rw [scan_get, hnone, (first_iff hfile).mp hfirst]
        rfl
      · obtain ⟨-, hslash⟩ := dir.isName entry hmem
        have hdir : resolve cwd (join s.models_dir s.models_dir) = resolve cwd s.models_dir :=
          hrooted
        rw [resolve_scanned cwd s hslash, place_eq cwd s hslash, hdir]

/-- Two formats of one model. -/
def twoFormats : Directory where
  entries := [⟨"phi.gguf", true, .written⟩, ⟨"phi.bin", true, .written⟩]
  isName := by decide
  nodup := by decide

/-- A manager without models. -/
def emptyManager : State := new "/m" 512 .missing fun _ => some 1

/-- The second file has no entry. -/
theorem second_format_missed :
    (scan emptyManager twoFormats.entries).2 = ["phi"] ∧
      ¬ Complete Dir.top emptyManager twoFormats := by
  refine ⟨by decide, fun h => ?_⟩
  obtain ⟨name, info, hget, hpath⟩ := h.covers ⟨"phi.bin", true, .written⟩
    (List.mem_cons_of_mem _ List.mem_cons_self) (by decide)
  have hempty : emptyManager.registry.get name = none := rfl
  rw [scan_get, hempty, Option.none_or] at hget
  obtain ⟨entry, hfirst, rfl⟩ := Option.map_eq_some_iff.mp hget
  obtain ⟨hmem, -, hname⟩ := firstFile_spec hfirst
  rcases List.mem_cons.mp hmem with rfl | hmem
  · exact absurd hpath (by decide)
  · obtain rfl := List.mem_singleton.mp hmem
    subst hname
    have hother : (firstFile (stem "phi.bin") twoFormats.entries).map DirEntry.name =
        some "phi.gguf" := by decide
    rw [hfirst] at hother
    exact absurd hother (by decide)

end ModelManager
