import Aioscpu.Framework.FileSystem
import Aioscpu.Services.ModuleBuilder

/-! # What a Scaffold Leaves

  `scaffold_service` with its files: the service module, the test stub and the descriptor are
  written one after another, each if there is nothing at its place, and an error for one of them
  does not stop the next one.
-/

namespace ModuleBuilder

open ConfigParser (Text)

/-- What is at the paths. -/
abbrev Files := Dict Text (Inode Text)

/-- How far the file operations for a path come. -/
inductive Writing where
  | complete
  /-- `os.makedirs` or `open` raises. -/
  | unopened (exc : Text)
  /-- The write raises an `OSError` when the file holds some text. -/
  | cut (text exc : Text)
  /-- The text cannot be encoded, which is no `OSError`. -/
  | unencodable
deriving DecidableEq

structure BuildResult where
  name : Text
  success : Bool
  paths : List Text
  errors : List Text
  message : Text

/-- `os.path.join(a, b)`, for a relative path `b`. -/
def path_join (a b : Text) : Text :=
  if a = [] ∨ a.getLast? = some '/' then a ++ b else a ++ '/' :: b

/-- `_write_all`, when some paths have been dealt with already: the files, and the result with what
    is returned unless an exception gets out. -/
def write_all (dry_run : Bool) (writing : Text → Writing) (files : Files) (result : BuildResult)
    (ok : Bool) : List (Text × Text) → Files × Option (BuildResult × Bool)
  | [] => (files, some (result, ok && !result.paths.isEmpty))
  | (dest, content) :: paths =>
    if files.get dest ≠ none then
      write_all dry_run writing files
        { result with errors := result.errors ++ ["already exists: ".toList ++ dest] } false paths
    else if dry_run then
      write_all dry_run writing files { result with paths := result.paths ++ [dest] } ok paths
    else
      match writing dest with
      | .complete =>
        write_all dry_run writing (files.set dest (.file content))
          { result with paths := result.paths ++ [dest] } ok paths
      | .unopened exc =>
        write_all dry_run writing files
          { result with errors := result.errors ++ ["write error: ".toList ++ exc] } false paths
      | .cut text exc =>
        write_all dry_run writing (files.set dest (.file text))
          { result with errors := result.errors ++ ["write error: ".toList ++ exc] } false paths
      | .unencodable => (files.set dest (.file []), none)

/-- What `scaffold_service` is called with. -/
structure Request where
  name : Text
  description : Text
  with_test : Bool
  with_descriptor : Bool

/-- The paths and their contents, for a sanitised name. -/
def Request.paths (request : Request) (root : Text) (eval : Text → Option Text) (name : Text) :
    List (Text × Text) :=
  let class_name := to_class_name name
  let description :=
    if request.description = [] then "AURA ".toList ++ class_name ++ " service.".toList
    else request.description
  let services_py := path_join root "services".toList
  let tests_dir := path_join root "tests".toList
  let services_d := path_join (path_join (path_join (path_join root "rootfs".toList) "etc".toList)
    "aura".toList) "services.d".toList
  [(path_join services_py (name ++ "_service.py".toList),
      render_service eval name class_name description)] ++
    (if request.with_test then
      [(path_join tests_dir ("test_".toList ++ name ++ "_service.py".toList),
        render_test name class_name)]
    else []) ++
    (if request.with_descriptor then
      [(path_join services_d (name ++ ".service".toList),
        render_descriptor name class_name description)]
    else [])

/-- `scaffold_service`: the files then, and the result unless it raises. -/
def scaffold (root : Text) (lower : Text → Text) (eval : Text → Option Text) (dry_run : Bool)
    (writing : Text → Writing) (files : Files) (request : Request) : Files × Option BuildResult :=
  match sanitize lower request.name with
  | none => (files, none)
  | some name =>
    match write_all dry_run writing files ⟨name, false, [], [], []⟩ true
        (request.paths root eval name) with
    | (files', some (result, true)) =>
      (files', some
        { result with
          success := true
          message := "Service '".toList ++ name ++ "' scaffolded (".toList ++
            (toString result.paths.length).toList ++ " files)".toList })
    | (files', some (result, false)) => (files', some result)
    | (files', none) => (files', none)

/-! ### What is to hold -/

/-- What is requested. -/
def Request.requested (request : Request) (root : Text) (lower : Text → Text)
    (eval : Text → Option Text) : List (Text × Text) :=
  match sanitize lower request.name with
  | some name => request.paths root eval name
  | none => []

/-- No file is changed, none is created without success, and with success those that are
    requested are. -/
structure Atomic (dry_run : Bool) (paths : List (Text × Text)) (files : Files)
    (out : Files × Option BuildResult) : Prop where
  kept : ∀ d, files.get d ≠ none → out.1.get d = files.get d
  failed : ∀ r, out.2 = some r → r.success = false → ∀ d, out.1.get d = files.get d
  dry : ∀ r, out.2 = some r → dry_run = true → ∀ d, out.1.get d = files.get d
  created : ∀ r, out.2 = some r → r.success = true → dry_run = false → ∀ d,
    match paths.lookup d with
    | some content => files.get d = none ∧ out.1.get d = some (.file content)
    | none => out.1.get d = files.get d

/-- The condition: nothing is to be written, or the request raises, or all files are new and
    complete, or no new file is opened. -/
def Spared (dry_run : Bool) (writing : Text → Writing) (files : Files)
    (paths : List (Text × Text)) : Prop :=
  dry_run = true ∨ (∃ p ∈ paths, files.get p.1 = none ∧ writing p.1 = .unencodable) ∨
    (∀ p ∈ paths, files.get p.1 = none ∧ writing p.1 = .complete) ∨
    ∀ p ∈ paths, files.get p.1 = none → ∃ exc, writing p.1 = .unopened exc

/-! ### The loop -/

/-- What a write leaves in its file. -/
def Writing.text (content : Text) : Writing → Option Text
  | .complete => some content
  | .unopened _ => none
  | .cut text _ => some text
  | .unencodable => some []

/-- What is at a path when all paths have been dealt with. -/
def placed (dry_run : Bool) (writing : Text → Writing) (files : Files)
    (paths : List (Text × Text)) (d : Text) : Option (Inode Text) :=
  (files.get d).or
    (if dry_run then none
    else (paths.lookup d).bind fun content => ((writing d).text content).map .file)

variable {dry_run : Bool} {writing : Text → Writing} {files : Files} {result : BuildResult}
  {ok : Bool} {paths : List (Text × Text)}

/-- A path is dealt with without an error. -/
def Fine (dry_run : Bool) (writing : Text → Writing) (files : Files) (d : Text) : Prop :=
  files.get d = none ∧ (dry_run = true ∨ writing d = .complete)

/-- An exception gets out. -/
def Raises (dry_run : Bool) (writing : Text → Writing) (files : Files) (d : Text) : Prop :=
  dry_run = false ∧ files.get d = none ∧ writing d = .unencodable

theorem placed_single (dry_run : Bool) (writing : Text → Writing) (files : Files)
    (dest content d : Text) :
    placed dry_run writing files [(dest, content)] d =
      (files.get d).or (if dry_run = false ∧ d = dest then
        ((writing d).text content).map .file else none) := by
  unfold placed
  rw [List.lookup_singleton]
  cases dry_run
  · by_cases hd : d = dest
    · simp [hd]
    · simp [hd]
  · rfl

/-- What happens to one path: the files are as they are to be, what is returned can be true only if
    there was no error, and the loop goes on unless an exception gets out. -/
theorem write_all_cons (dest content : Text) :
    (∃ files' result' ok', write_all dry_run writing files result ok ((dest, content) :: paths) =
        write_all dry_run writing files' result' ok' paths ∧
      (∀ d, files'.get d = placed dry_run writing files [(dest, content)] d) ∧
      (ok' = true ↔ ok = true ∧ Fine dry_run writing files dest) ∧
      (result.paths ≠ [] ∨ ok' = true → result'.paths ≠ []) ∧
      result'.success = result.success ∧ ¬ Raises dry_run writing files dest) ∨
    (write_all dry_run writing files result ok ((dest, content) :: paths) =
        (files.set dest (.file []), none) ∧ Raises dry_run writing files dest) := by
  rw [write_all]
  by_cases hnew : files.get dest = none
  · have hset : ∀ inode d, (files.set dest inode).get d =
        (files.get d).or (if d = dest then some inode else none) := by
      intro inode d
      rw [Dict.get_set]
      by_cases hd : d = dest
      · rw [if_pos hd, if_pos hd, hd, hnew, Option.none_or]
      · rw [if_neg hd, if_neg hd, Option.or_none]
    rw [if_neg (not_not.mpr hnew)]
    cases hdry : dry_run with
    | true =>
      refine Or.inl ⟨files, _, ok, rfl, fun d => ?_, ?_, fun _ => by simp, rfl,
        fun h => by cases h.1⟩
      · rw [placed_single, if_neg (by simp), Option.or_none]
      · exact (and_iff_left ⟨hnew, Or.inl rfl⟩).symm
    | false =>
      rw [if_neg (by decide)]
      have hplaced : ∀ text, (writing dest).text content = text → ∀ d,
          placed false writing files [(dest, content)] d =
            (files.get d).or (if d = dest then text.map .file else none) := by
        rintro text rfl d
        rw [placed_single]
        by_cases hd : d = dest
        · rw [if_pos ⟨rfl, hd⟩, if_pos hd, hd]
        · rw [if_neg fun h => hd h.2, if_neg hd]
      have hfine : Fine false writing files dest ↔ writing dest = .complete := by
        simp [Fine, hnew]
      have hraises : Raises false writing files dest ↔ writing dest = .unencodable := by
        simp [Raises, hnew]
      rw [hfine, hraises]
      cases hwriting : writing dest with
      | complete =>
        refine Or.inl ⟨_, _, ok, rfl, fun d => ?_, by simp, fun _ => by simp, rfl, by simp⟩
        rw [hset, hplaced (some content) (by rw [hwriting]; rfl)]
        rfl
      | unopened exc =>
        refine Or.inl ⟨_, _, false, rfl, fun d => ?_, by simp, fun h => by simpa using h, rfl,
          by simp⟩
        rw [hplaced none (by rw [hwriting]; rfl), Option.map_none, ite_self, Option.or_none]
      | cut text exc =>
        refine Or.inl ⟨_, _, false, rfl, fun d => ?_, by simp, fun h => by simpa using h, rfl,
          by simp⟩
        rw [hset, hplaced (some text) (by rw [hwriting]; rfl)]
        rfl
      | unencodable => exact Or.inr ⟨rfl, rfl⟩
  · rw [if_pos hnew]
    refine Or.inl ⟨files, _, false, rfl, fun d => ?_, ?_, fun h => by simpa using h, rfl,
      fun h => hnew h.2.1⟩
    · rw [placed_single]
      by_cases hd : dry_run = false ∧ d = dest
      · obtain ⟨inode, hinode⟩ := Option.ne_none_iff_exists'.mp hnew
        rw [hd.2, hinode, Option.some_or]
      · rw [if_neg hd, Option.or_none]
    · exact iff_of_false (by decide) fun h => hnew h.2.1

theorem lookup_of_notMem {d : Text} (h : d ∉ paths.map Prod.fst) : paths.lookup d = none := by
  rw [List.lookup_eq_none_iff]
  intro p hp
  rw [bne_iff_ne]
  rintro rfl
  exact h (List.mem_map_of_mem hp)

/-- One path and then the others. -/
theorem placed_cons {files' : Files} {dest content : Text} (hdest : dest ∉ paths.map Prod.fst)
    (h : ∀ d, files'.get d = placed dry_run writing files [(dest, content)] d) (d : Text) :
    placed dry_run writing files' paths d =
      placed dry_run writing files ((dest, content) :: paths) d := by
  rw [placed, h, placed_single, placed, Option.or_assoc]
  congr 1
  cases dry_run with
  | true => rfl
  | false =>
    by_cases hd : d = dest
    · rw [hd, List.lookup_cons_self, lookup_of_notMem hdest]
      simp
    · rw [if_neg fun hboth => hd hboth.2, List.lookup_cons, beq_eq_false_iff_ne.mpr hd,
        Option.none_or]

/-- What `_write_all` does with paths that differ. -/
theorem write_all_spec (hnodup : (paths.map Prod.fst).Nodup) :
    (∃ r returned, (write_all dry_run writing files result ok paths).2 = some (r, returned) ∧
      (∀ d, (write_all dry_run writing files result ok paths).1.get d =
        placed dry_run writing files paths d) ∧
      (returned = true ↔ ok = true ∧ (result.paths ≠ [] ∨ paths ≠ []) ∧
        ∀ p ∈ paths, Fine dry_run writing files p.1) ∧
      r.success = result.success ∧ ∀ p ∈ paths, ¬ Raises dry_run writing files p.1) ∨
    ((write_all dry_run writing files result ok paths).2 = none ∧
      (∀ d, files.get d ≠ none →
        (write_all dry_run writing files result ok paths).1.get d = files.get d) ∧
      ∃ p ∈ paths, Raises dry_run writing files p.1) := by
  induction paths generalizing files result ok with
  | nil =>
    refine Or.inl ⟨result, _, rfl, fun d => ?_, ?_, rfl, fun p hp => by cases hp⟩
    · show files.get d = (files.get d).or (if dry_run then none else none)
      rw [ite_self, Option.or_none]
    · simp
  | cons p paths ih =>
    obtain ⟨dest, content⟩ := p
    obtain ⟨hdest, hnodup'⟩ := List.nodup_cons.mp hnodup
    rcases @write_all_cons dry_run writing files result ok paths dest content with
      ⟨files', result', ok', heq, hfiles, hok, hpaths, hsuccess, hnot⟩ | ⟨heq, hraises⟩
    · -- the other paths are as before
      have hsame : ∀ q ∈ paths, files'.get q.1 = files.get q.1 := by
        intro q hq
        have hmem : q.1 ∈ paths.map Prod.fst := List.mem_map_of_mem hq
        have hne : q.1 ≠ dest := fun hname => hdest (hname ▸ hmem)
        rw [hfiles, placed_single, if_neg fun h => hne h.2, Option.or_none]
      have hfine : ∀ q ∈ paths,
          Fine dry_run writing files' q.1 ↔ Fine dry_run writing files q.1 := by
        intro q hq
        rw [Fine, Fine, hsame q hq]
      have hraises : ∀ q ∈ paths,
          Raises dry_run writing files' q.1 ↔ Raises dry_run writing files q.1 := by
        intro q hq
        rw [Raises, Raises, hsame q hq]
      rw [heq]
      rcases @ih files' result' ok' hnodup' with
        ⟨r, returned, hout, hplaced, hreturned, hr, hnone⟩ | ⟨hout, hkept, q, hq, hq'⟩
      · refine Or.inl ⟨r, returned, hout, fun d => ?_, ?_, hr.trans hsuccess, ?_⟩
        · rw [hplaced, placed_cons hdest hfiles]
        · rw [hreturned, hok, List.forall_mem_cons]
          constructor
          · rintro ⟨⟨hok', hfirst⟩, -, hrest⟩
            exact ⟨hok', Or.inr (List.cons_ne_nil _ _), hfirst, fun q hq =>
              (hfine q hq).mp (hrest q hq)⟩
          · rintro ⟨hok', -, hfirst, hrest⟩
            exact ⟨⟨hok', hfirst⟩, Or.inl (hpaths (Or.inr (hok.mpr ⟨hok', hfirst⟩))), fun q hq =>
              (hfine q hq).mpr (hrest q hq)⟩
        · rw [List.forall_mem_cons]
          exact ⟨hnot, fun q hq h => hnone q hq ((hraises q hq).mpr h)⟩
      · refine Or.inr ⟨hout, fun d hd => ?_, q, List.mem_cons_of_mem _ hq, (hraises q hq).mp hq'⟩
        have hbefore : files'.get d = files.get d := by
          obtain ⟨inode, hinode⟩ := Option.ne_none_iff_exists'.mp hd
          rw [hfiles, placed_single, hinode, Option.some_or]
        rw [hkept d (by rw [hbefore]; exact hd), hbefore]
    · rw [heq]
      refine Or.inr ⟨rfl, fun d hd => ?_, _, List.mem_cons_self, hraises⟩
      have hne : d ≠ dest := by
        rintro rfl
        exact hd hraises.2.1
      exact Dict.get_set_of_ne hne _

/-! ### The request -/

theorem path_join_eq (a b : Text) :
    path_join a b = a ++ ((if a = [] ∨ a.getLast? = some '/' then [] else ['/']) ++ b) := by
  unfold path_join
  split <;> rfl

theorem path_join_inj (a : Text) {b b' : Text} : path_join a b = path_join a b' ↔ b = b' := by
  rw [path_join_eq, path_join_eq, List.append_cancel_left_eq, List.append_cancel_left_eq]

/-- Below a directory whose name does not end with a separator. -/
theorem path_join_path_join (a : Text) {b : Text} {c : Char} (hlast : b.getLast? = some c)
    (hc : c ≠ '/') (t : Text) : path_join (path_join a b) t = path_join a (b ++ '/' :: t) := by
  have hend : (path_join a b).getLast? = some c := by
    rw [path_join_eq, List.getLast?_append, List.getLast?_append, hlast]
    rfl
  have hslash : ¬ (path_join a b = [] ∨ (path_join a b).getLast? = some '/') := by
    rintro (hnil | hsome)
    · rw [hnil] at hend
      cases hend
    · rw [hend] at hsome
      exact hc (Option.some.inj hsome)
  rw [path_join, if_neg hslash, path_join_eq, path_join_eq]
  simp only [List.append_assoc]

/-- The three places are different. -/
theorem paths_nodup (request : Request) (root : Text) (eval : Text → Option Text) (name : Text) :
    ((request.paths root eval name).map Prod.fst).Nodup := by
  unfold Request.paths
  dsimp only
  rw [path_join_path_join root (b := "services".toList) (c := 's') rfl (by decide),
    path_join_path_join root (b := "tests".toList) (c := 's') rfl (by decide),
    path_join_path_join root (b := "rootfs".toList) (c := 's') rfl (by decide),
    path_join_path_join root (c := 'c') (by rfl) (by decide),
    path_join_path_join root (c := 'a') (by rfl) (by decide),
    path_join_path_join root (c := 'd') (by rfl) (by decide)]
  -- below the root they begin with different letters
  have hdiffer : ∀ {b b' : Text} {c d : Char}, b.head? = some c → b'.head? = some d → c ≠ d →
      path_join root b ≠ path_join root b' := by
    intro b b' c d hb hb' hne heq
    rw [path_join_inj] at heq
    rw [heq, hb'] at hb
    exact hne (Option.some.inj hb).symm
  have hlist : ∀ {d₁ d₂ d₃ : Text} (c₁ c₂ c₃ : Text), d₁ ≠ d₂ → d₁ ≠ d₃ → d₂ ≠ d₃ →
      (([(d₁, c₁)] ++ (if request.with_test = true then [(d₂, c₂)] else []) ++
        (if request.with_descriptor = true then [(d₃, c₃)] else [])).map Prod.fst).Nodup := by
    intro d₁ d₂ d₃ c₁ c₂ c₃ h₁₂ h₁₃ h₂₃
    cases request.with_test <;> cases request.with_descriptor <;> simp [h₁₂, h₁₃, h₂₃]
  exact hlist _ _ _ (hdiffer (c := 's') (d := 't') rfl rfl (by decide))
    (hdiffer (c := 's') (d := 'r') rfl rfl (by decide))
    (hdiffer (c := 't') (d := 'r') rfl rfl (by decide))

theorem paths_ne_nil (request : Request) (root : Text) (eval : Text → Option Text) (name : Text) :
    request.paths root eval name ≠ [] := by
  unfold Request.paths
  exact List.cons_ne_nil _ _

/-- A path of the list is looked up there. -/
theorem lookup_of_mem {p : Text × Text} (hnodup : (paths.map Prod.fst).Nodup) (h : p ∈ paths) :
    paths.lookup p.1 = some p.2 := by
  induction paths with
  | nil => cases h
  | cons q paths ih =>
    obtain ⟨hq, hnodup'⟩ := List.nodup_cons.mp hnodup
    rcases List.mem_cons.mp h with rfl | h
    · exact List.lookup_cons_self
    · have hmem : p.1 ∈ paths.map Prod.fst := List.mem_map_of_mem h
      have hne : p.1 ≠ q.1 := fun heq => hq (heq ▸ hmem)
      rw [List.lookup_cons, beq_eq_false_iff_ne.mpr hne]
      exact ih hnodup' h

theorem mem_of_lookup {d content : Text} (h : paths.lookup d = some content) :
    (d, content) ∈ paths := by
  obtain ⟨before, after, rfl, -⟩ := List.lookup_eq_some_iff.mp h
  exact List.mem_append_right _ List.mem_cons_self

/-- The files are as before exactly if no new one is opened. -/
theorem placed_eq_iff (hnodup : (paths.map Prod.fst).Nodup) :
    (∀ d, placed dry_run writing files paths d = files.get d) ↔
      dry_run = true ∨ ∀ p ∈ paths, files.get p.1 = none → ∃ exc, writing p.1 = .unopened exc := by
  have hunopened : ∀ (content : Text) (w : Writing),
      w.text content = none ↔ ∃ exc, w = .unopened exc := by
    intro content w
    cases w <;> simp [Writing.text]
  cases dry_run with
  | true =>
    refine iff_of_true (fun d => ?_) (Or.inl rfl)
    exact Option.or_none
  | false =>
    rw [or_iff_right (by decide)]
    constructor
    · intro h p hp hnew
      have hd := h p.1
      rw [placed, hnew, Option.none_or, if_neg (by decide), lookup_of_mem hnodup hp,
        Option.bind_some, Option.map_eq_none_iff] at hd
      exact (hunopened _ _).mp hd
    · intro h d
      rw [placed, if_neg (by decide)]
      cases hget : files.get d with
      | some inode => rfl
      | none =>
        rw [Option.none_or]
        cases hlookup : paths.lookup d with
        | none => rfl
        | some content =>
          rw [Option.bind_some, Option.map_eq_none_iff, hunopened]
          exact h _ (mem_of_lookup hlookup) hget

/-- The contents are those of the scaffold, and the test stub. -/
theorem requested_contents {request : Request} {root : Text} {lower : Text → Text}
    {eval : Text → Option Text} {s : Scaffold}
    (h : scaffold_service lower eval request.name request.description = some s) :
    (request.requested root lower eval).map Prod.snd = [s.service] ++
      (if request.with_test then [render_test s.name s.class_name] else []) ++
      (if request.with_descriptor then [s.descriptor] else []) := by
  obtain ⟨name, hname, rfl⟩ := Option.map_eq_some_iff.mp h
  have hlist : ∀ (d₁ d₂ d₃ c₁ c₂ c₃ : Text),
      ([(d₁, c₁)] ++ (if request.with_test = true then [(d₂, c₂)] else []) ++
        (if request.with_descriptor = true then [(d₃, c₃)] else [])).map Prod.snd =
      [c₁] ++ (if request.with_test = true then [c₂] else []) ++
        (if request.with_descriptor = true then [c₃] else []) := by
    intro d₁ d₂ d₃ c₁ c₂ c₃
    cases request.with_test <;> cases request.with_descriptor <;> rfl
  unfold Request.requested
  rw [hname]
  exact hlist _ _ _ _ _ _

/-- Files that are placed are not changed. -/
theorem placed_kept {d : Text} (h : files.get d ≠ none) :
    placed dry_run writing files paths d = files.get d := by
  obtain ⟨inode, hinode⟩ := Option.ne_none_iff_exists'.mp h
  rw [placed, hinode, Option.some_or]

theorem placed_dry (h : dry_run = true) (d : Text) :
    placed dry_run writing files paths d = files.get d := by
  rw [placed, if_pos h, Option.or_none]

/-- What is placed where all paths are fine. -/
theorem placed_of_fine (hfine : ∀ p ∈ paths, Fine false writing files p.1) (d : Text) :
    match paths.lookup d with
    | some content => files.get d = none ∧
      placed false writing files paths d = some (.file content)
    | none => placed false writing files paths d = files.get d := by
  cases hlookup : paths.lookup d with
  | none =>
    dsimp only
    rw [placed, hlookup]
    exact Option.or_none
  | some content =>
    obtain ⟨hnew, hcomplete⟩ := hfine _ (mem_of_lookup hlookup)
    have hwriting : writing d = .complete := hcomplete.resolve_left (by decide)
    dsimp only at hnew ⊢
    refine ⟨hnew, ?_⟩
    rw [placed, hlookup, hnew, hwriting]
    rfl

/-- A scaffold without an error leaves the files as it should. -/
theorem atomic_of_fine {files' : Files} {r : BuildResult} (hsuccess : r.success = true)
    (hplaced : ∀ d, files'.get d = placed dry_run writing files paths d)
    (hfine : ∀ p ∈ paths, Fine dry_run writing files p.1) :
    Atomic dry_run paths files (files', some r) := by
  refine ⟨fun d hd => ?_, ?_, fun _ _ hdry d => ?_, ?_⟩
  · exact (hplaced d).trans (placed_kept hd)
  · intro r' hr' hfalse
    cases hr'
    rw [hsuccess] at hfalse
    cases hfalse
  · exact (hplaced d).trans (placed_dry hdry d)
  · rintro r' - - rfl d
    have hcreated := placed_of_fine hfine d
    dsimp only
    rw [hplaced]
    exact hcreated

/-- A scaffold with an error leaves them as it should if it leaves them as they were. -/
theorem atomic_iff_of_error {files' : Files} {r : BuildResult} (hfailed : r.success = false) :
    Atomic dry_run paths files (files', some r) ↔ ∀ d, files'.get d = files.get d := by
  constructor
  · intro h
    exact h.failed r rfl hfailed
  · intro h
    refine ⟨fun d _ => h d, fun _ _ _ => h, fun _ _ _ => h, ?_⟩
    intro r' hr' htrue
    cases hr'
    rw [hfailed] at htrue
    cases htrue

/-- Without a result only the files that are there count. -/
theorem atomic_of_none {files' : Files}
    (hkept : ∀ d, files.get d ≠ none → files'.get d = files.get d) :
    Atomic dry_run paths files (files', none) := by
  refine ⟨hkept, ?_, ?_, ?_⟩
  · intro r hr
    cases hr
  · intro r hr
    cases hr
  · intro r hr
    cases hr

/-- The condition where there is an error and no exception. -/
theorem spared_iff_of_error (hnot : ∀ p ∈ paths, ¬ Raises dry_run writing files p.1)
    (herror : ¬ ∀ p ∈ paths, Fine dry_run writing files p.1) :
    Spared dry_run writing files paths ↔
      dry_run = true ∨ ∀ p ∈ paths, files.get p.1 = none → ∃ exc, writing p.1 = .unopened exc := by
  constructor
  · rintro (hdry | ⟨p, hp, hnew, hwriting⟩ | hall | hunopened)
    · exact Or.inl hdry
    · by_contra hneither
      have hdry : dry_run = false := Bool.eq_false_iff.mpr fun hdry => hneither (Or.inl hdry)
      exact hnot p hp ⟨hdry, hnew, hwriting⟩
    · exact absurd (fun p hp => ⟨(hall p hp).1, Or.inr (hall p hp).2⟩) herror
    · exact Or.inr hunopened
  · rintro (hdry | hunopened)
    · exact Or.inl hdry
    · exact Or.inr (Or.inr (Or.inr hunopened))

/-- **Scaffolds**: a scaffold leaves the files as it should exactly if nothing is to be written, an
    exception gets out, all files are new and complete, or no new file is opened. -/
theorem atomic_iff (root : Text) (lower : Text → Text) (eval : Text → Option Text)
    (dry_run : Bool) (writing : Text → Writing) (files : Files) (request : Request) :
    Atomic dry_run (request.requested root lower eval) files
        (scaffold root lower eval dry_run writing files request) ↔
      Spared dry_run writing files (request.requested root lower eval) := by
  unfold Request.requested scaffold
  cases hname : sanitize lower request.name with
  | none =>
    have hall : ∀ p ∈ ([] : List (Text × Text)), files.get p.1 = none ∧ writing p.1 = .complete :=
      fun p hp => by cases hp
    exact iff_of_true (atomic_of_none fun _ _ => rfl) (Or.inr (Or.inr (Or.inl hall)))
  | some name =>
    dsimp only
    have hnodup := paths_nodup request root eval name
    have hne := paths_ne_nil request root eval name
    generalize request.paths root eval name = paths at hnodup hne ⊢
    have hspec := @write_all_spec dry_run writing files ⟨name, false, [], [], []⟩ true paths hnodup
    rcases hpair : write_all dry_run writing files ⟨name, false, [], [], []⟩ true paths with
      ⟨files', out⟩
    rw [hpair] at hspec
    dsimp only at hspec
    rcases hspec with ⟨r, returned, rfl, hplaced, hreturned, hsuccess, hnot⟩ |
      ⟨rfl, hkept, p, hp, hraises⟩
    · cases returned with
      | true =>
        obtain ⟨-, -, hfine⟩ := hreturned.mp rfl
        refine iff_of_true (atomic_of_fine rfl hplaced hfine) ?_
        cases dry_run with
        | true => exact Or.inl rfl
        | false =>
          have hall : ∀ p ∈ paths, files.get p.1 = none ∧ writing p.1 = .complete := fun p hp =>
            ⟨(hfine p hp).1, (hfine p hp).2.resolve_left (by decide)⟩
          exact Or.inr (Or.inr (Or.inl hall))
      | false =>
        -- there was an error, so the files must be as before
        have herror : ¬ ∀ p ∈ paths, Fine dry_run writing files p.1 := by
          intro hfine
          cases hreturned.mpr ⟨rfl, Or.inr hne, hfine⟩
        show Atomic dry_run paths files (files', some r) ↔ _
        rw [atomic_iff_of_error hsuccess, spared_iff_of_error hnot herror, ← placed_eq_iff hnodup]
        exact forall_congr' fun d => by rw [hplaced]
    · exact iff_of_true (atomic_of_none hkept) (Or.inr (Or.inl ⟨p, hp, hraises.2⟩))

/-! ### A scaffold that fails half way -/

/-- A service with its descriptor. -/
def backup : Request := ⟨"backup".toList, "Backs up.".toList, false, true⟩

/-- Its descriptor is there already, and no write fails. -/
def descriptorOnly : Files :=
  Dict.empty.set "/r/rootfs/etc/aura/services.d/backup.service".toList (.file [])

/-- The scaffold is no success, and the service module has been created. -/
theorem module_left :
    ¬ Atomic false (backup.requested "/r".toList id fun _ => none) descriptorOnly
      (scaffold "/r".toList id (fun _ => none) false (fun _ => .complete) descriptorOnly
        backup) := by
  intro h
  have hresult : (scaffold "/r".toList id (fun _ => none) false (fun _ => .complete) descriptorOnly
      backup).2.map BuildResult.success = some false := by
    decide +kernel
  have hmodule : ((scaffold "/r".toList id (fun _ => none) false (fun _ => .complete) descriptorOnly
      backup).1.get "/r/services/backup_service.py".toList).isSome = true := by
    decide +kernel
  obtain ⟨r, hr, hfalse⟩ := Option.map_eq_some_iff.mp hresult
  rw [h.failed r hr hfalse] at hmodule
  have hnew : (descriptorOnly.get "/r/services/backup_service.py".toList).isSome = false := by
    decide +kernel
  rw [hnew] at hmodule
  cases hmodule

end ModuleBuilder
