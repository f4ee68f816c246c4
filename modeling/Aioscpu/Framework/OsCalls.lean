import Aioscpu.Framework.FileCopy

/-! # Calls of the Operating System

  The calls of Python's `os`, and `open`, on a file system without symbolic links, with the error
  numbers of Linux. A path is a directory and the components that are taken from it one after the
  other: an empty component stays, as `.` does, but only a directory can be stayed in.

  What a call changes is said at the place that the components lead to: `rmdir_get`, `unlink_get`
  and `writeFile_get`.
-/

universe u

inductive Errno where
  | ENOENT
  | ENOTDIR
  | EISDIR
  | ENOTEMPTY
  | EBUSY
  | EINVAL
deriving DecidableEq, Repr

namespace FileSystem

variable {β : Type u}

/-! ### Lookups -/

/-- The place that a path leads to, or why it leads nowhere. -/
def descend (fs : FileSystem β) (dir : Dir) : List String → Except Errno Dir
  | [] => .ok dir
  | c :: path =>
    match fs.get dir with
    | some .dir => descend fs (dir.enter c) path
    | some (.file _) => .error .ENOTDIR
    | none => .error .ENOENT

theorem descend_cons_of_isdir {fs : FileSystem β} {dir : Dir} (h : fs.isdir dir = true)
    (c : String) (path : List String) :
    fs.descend dir (c :: path) = fs.descend (dir.enter c) path := by
  rw [descend, isdir_iff.mp h]

theorem descend_cons_of_not_isdir {fs : FileSystem β} {dir : Dir} (h : fs.isdir dir = false)
    (c : String) (path : List String) :
    fs.descend dir (c :: path) = .error (if (fs.file dir).isSome then .ENOTDIR else .ENOENT) := by
  unfold descend isdir file at *
  cases hget : fs.get dir with
  | none => simp
  | some e =>
    cases e with
    | dir =>
      rw [hget] at h
      cases h
    | file content => simp

theorem descend_walk {fs : FileSystem β} {dir d : Dir} {path : List String}
    (h : fs.descend dir path = .ok d) : dir.walk path = d := by
  induction path generalizing dir with
  | nil =>
    cases h
    rfl
  | cons c path ih =>
    unfold descend at h
    split at h
    · exact ih h
    · cases h
    · cases h

/-- Where all directories are there, the path leads to its end. -/
theorem descend_of_isdir {fs : FileSystem β} {dir : Dir} {path : List String}
    (h : ∀ pre c, pre ++ [c] <+: path → fs.isdir (dir.walk pre) = true) :
    fs.descend dir path = .ok (dir.walk path) := by
  induction path generalizing dir with
  | nil => rfl
  | cons c path ih =>
    have hdir := h [] c (List.cons_prefix_cons.mpr ⟨rfl, List.nil_prefix⟩)
    unfold descend
    rw [show fs.get dir = some .dir from isdir_iff.mp hdir]
    refine ih fun pre c' hpre => ?_
    exact h (c :: pre) c' (List.cons_prefix_cons.mpr ⟨rfl, hpre⟩)

/-- `os.path.isdir`. -/
def isdirAt (fs : FileSystem β) (dir : Dir) (path : List String) : Bool :=
  match fs.descend dir path with
  | .ok d => fs.isdir d
  | .error _ => false

/-! ### Listings -/

/-- The names in a directory. -/
def names (fs : FileSystem β) (d : Dir) : List String :=
  (fs.entries.keys.filter fun x => x.parent = d).map Dir.basename

/-- `os.listdir`. -/
def listdir (fs : FileSystem β) (dir : Dir) (path : List String) : Except Errno (List String) :=
  match fs.descend dir path with
  | .error e => .error e
  | .ok d =>
    match fs.get d with
    | some .dir => .ok (fs.names d)
    | some (.file _) => .error .ENOTDIR
    | none => .error .ENOENT

theorem listdir_cons_of_isdir {fs : FileSystem β} {dir : Dir} (h : fs.isdir dir = true)
    (c : String) (path : List String) :
    fs.listdir dir (c :: path) = fs.listdir (dir.enter c) path := by
  unfold listdir
  rw [descend_cons_of_isdir h]

theorem listdir_cons_of_not_isdir {fs : FileSystem β} {dir : Dir} (h : fs.isdir dir = false)
    (c : String) (path : List String) :
    fs.listdir dir (c :: path) = .error (if (fs.file dir).isSome then .ENOTDIR else .ENOENT) := by
  unfold listdir
  rw [descend_cons_of_not_isdir h]

theorem listdir_error {fs : FileSystem β} {dir : Dir} {path : List String} {e : Errno}
    (h : fs.listdir dir path = .error e) : e = .ENOENT ∨ e = .ENOTDIR := by
  induction path generalizing dir with
  | nil =>
    unfold listdir at h
    simp only [descend] at h
    split at h
    · cases h
    · exact Or.inr (Except.error.inj h).symm
    · exact Or.inl (Except.error.inj h).symm
  | cons c path ih =>
    by_cases hdir : fs.isdir dir = true
    · rw [listdir_cons_of_isdir hdir] at h
      exact ih h
    · rw [listdir_cons_of_not_isdir (Bool.not_eq_true _ ▸ hdir)] at h
      rw [← Except.error.inj h]
      split
      · exact Or.inr rfl
      · exact Or.inl rfl

/-- A listing fails for a file exactly where the path comes to one, at its end or before. -/
theorem listdir_eq_notdir_iff {fs : FileSystem β} {dir : Dir} {path : List String} :
    fs.listdir dir path = .error .ENOTDIR ↔
      ∃ pre, pre <+: path ∧ fs.descend dir pre = .ok (dir.walk pre) ∧
        (fs.file (dir.walk pre)).isSome := by
  induction path generalizing dir with
  | nil =>
    have hend : (∃ pre, pre <+: ([] : List String) ∧ fs.descend dir pre = .ok (dir.walk pre) ∧
        (fs.file (dir.walk pre)).isSome) ↔ (fs.file dir).isSome := by
      constructor
      · rintro ⟨pre, hpre, -, hfile⟩
        rwa [List.prefix_nil.mp hpre] at hfile
      · exact fun hfile => ⟨[], List.prefix_refl _, rfl, hfile⟩
    rw [hend]
    unfold listdir file
    simp only [descend]
    split
    · next h => simp [h]
    · next content h => simp [h]
    · next h => simp [h]
  | cons c path ih =>
    by_cases hdir : fs.isdir dir = true
    · rw [listdir_cons_of_isdir hdir, ih]
      constructor
      · rintro ⟨pre, hpre, hok, hfile⟩
        refine ⟨c :: pre, List.cons_prefix_cons.mpr ⟨rfl, hpre⟩, ?_, hfile⟩
        rwa [descend_cons_of_isdir hdir]
      · rintro ⟨pre, hpre, hok, hfile⟩
        cases pre with
        | nil =>
          rw [Dir.walk_nil, file_of_isdir hdir] at hfile
          cases hfile
        | cons c' pre =>
          obtain ⟨rfl, hrest⟩ := List.cons_prefix_cons.mp hpre
          rw [descend_cons_of_isdir hdir] at hok
          exact ⟨pre, hrest, hok, hfile⟩
    · have hdir := Bool.not_eq_true _ ▸ hdir
      rw [listdir_cons_of_not_isdir hdir]
      constructor
      · intro heq
        split at heq
        · next hfile => exact ⟨[], List.nil_prefix, rfl, hfile⟩
        · exact absurd heq (by simp)
      · rintro ⟨pre, hpre, hok, hfile⟩
        cases pre with
        | nil =>
          rw [Dir.walk_nil] at hfile
          rw [if_pos hfile]
        | cons c' pre =>
          rw [descend_cons_of_not_isdir hdir] at hok
          cases hok

theorem mem_names {fs : FileSystem β} {d : Dir} {c : String} (hc : IsName c) :
    c ∈ fs.names d ↔ fs.get (d.enter c) ≠ none := by
  have htop : d.enter c ≠ Dir.top := by
    intro h
    have hnames := congrArg Dir.names h
    rw [Dir.enter_name d hc] at hnames
    simp [Dir.top] at hnames
  unfold names
  rw [List.mem_map]
  constructor
  · rintro ⟨x, hx, rfl⟩
    obtain ⟨hkey, hparent⟩ := List.mem_filter.mp hx
    rw [decide_eq_true_eq] at hparent
    have hxtop : x ≠ Dir.top := by
      obtain ⟨e, he⟩ := (Dict.mem_keys_iff _ _).mp hkey
      exact (fs.closed x e he).1
    rw [← hparent, Dir.enter_basename hxtop]
    exact (mem_keys hxtop).mp hkey
  · intro hget
    refine ⟨d.enter c, ?_, Dir.basename_enter d hc⟩
    rw [List.mem_filter, decide_eq_true_eq]
    exact ⟨(mem_keys htop).mpr hget, Dir.parent_enter d hc⟩

/-- Below an empty directory there is nothing. -/
theorem get_of_names_nil {fs : FileSystem β} {d x : Dir} (hnil : fs.names d = [])
    (hin : x.Within d) (hne : x ≠ d) : fs.get x = none := by
  by_contra hsome
  obtain ⟨e, he⟩ := Option.ne_none_iff_exists'.mp hsome
  -- the place next to the directory on the way to it
  obtain ⟨r, rfl⟩ := Dir.within_iff.mp hin
  obtain ⟨c, rest, hr⟩ : ∃ c rest, r.names = c :: rest := by
    refine List.exists_cons_of_ne_nil fun hempty => hne ?_
    rw [show r = Dir.top from Dir.ext hempty, Dir.join_top]
  have hc : IsName c := r.isName c (by rw [hr]; exact List.mem_cons_self)
  have hnext : (d.join r).Within (d.enter c) := by
    show (d.enter c).names <+: d.names ++ r.names
    rw [Dir.enter_name d hc, hr]
    exact ⟨rest, by rw [List.append_assoc]; rfl⟩
  have hthere : fs.get (d.enter c) ≠ none := by
    by_cases heq : d.enter c = d.join r
    · rw [heq, he]
      exact Option.some_ne_none e
    · rw [isdir_above he hnext (Ne.symm heq)]
      exact Option.some_ne_none _
  have hmem := (mem_names hc).mpr hthere
  rw [hnil] at hmem
  cases hmem

/-! ### Files -/

/-- `open(path)` for reading. -/
def openRead (fs : FileSystem β) (dir : Dir) (path : List String) : Except Errno β :=
  match fs.descend dir path with
  | .error e => .error e
  | .ok d =>
    match fs.get d with
    | some .dir => .error .EISDIR
    | some (.file content) => .ok content
    | none => .error .ENOENT

theorem openRead_eq_ok_iff {fs : FileSystem β} {dir : Dir} {path : List String} {content : β} :
    fs.openRead dir path = .ok content ↔
      fs.descend dir path = .ok (dir.walk path) ∧ fs.file (dir.walk path) = some content := by
  unfold openRead
  split
  · next e h => simp [h]
  · next d h =>
    obtain rfl := descend_walk h
    rw [file_eq_some_iff]
    split
    · next hd => simp [h, hd]
    · next content' hd => simp [h, hd]
    · next hd => simp [h, hd]

/-- The path ends with a slash. -/
def slashes (path : List String) : Bool := path.getLast? = some ""

/-- The components without those that the slashes at the end leave. -/
def trimmed (path : List String) : List String := path.rdropWhile (· = "")

/-- `open(path, "w")` with a write. A path that ends with a slash makes no file. -/
def writeFile (fs : FileSystem β) (dir : Dir) (path : List String) (content : β) :
    Except Errno (FileSystem β) :=
  if slashes path then
    match fs.descend dir ((trimmed path).dropLast ++ [""]) with
    | .error e => .error e
    | .ok _ => .error .EISDIR
  else
    match fs.descend dir path with
    | .error e => .error e
    | .ok d =>
      match fs.putFile d content with
      | some fs' => .ok fs'
      | none => .error (if fs.isdir d then .EISDIR else .ENOENT)

theorem writeFile_get {fs fs' : FileSystem β} {dir : Dir} {path : List String} {content : β}
    (h : fs.writeFile dir path content = .ok fs') :
    fs.isdir (dir.walk path) = false ∧ fs.descend dir path = .ok (dir.walk path) ∧
      ∀ x, fs'.get x = if x = dir.walk path then some (.file content) else fs.get x := by
  unfold writeFile at h
  split at h
  · split at h
    · cases h
    · cases h
  · split at h
    · cases h
    · next d hd =>
      obtain rfl := descend_walk hd
      split at h
      · next hput =>
        cases h
        obtain ⟨hnot, hget⟩ := putFile_get hput
        exact ⟨hnot, hd, hget⟩
      · cases h

/-- What is written does not matter for whether the file can be opened. -/
theorem writeFile_isOk (fs : FileSystem β) (dir : Dir) (path : List String) (content content' : β) :
    (fs.writeFile dir path content).isOk = (fs.writeFile dir path content').isOk := by
  unfold writeFile
  split
  · split <;> rfl
  · split
    · rfl
    · next d _ =>
      unfold putFile
      by_cases h : fs.isdir d = false ∧ fs.isdir d.parent = true
      · rw [dif_pos h, dif_pos h]
        rfl
      · rw [dif_neg h, dif_neg h]

/-! ### Removals -/

/-- `os.remove`. -/
def unlink (fs : FileSystem β) (dir : Dir) (path : List String) :
    Except Errno (FileSystem β) :=
  match fs.descend dir path with
  | .error e => .error e
  | .ok d =>
    match fs.get d with
    | some .dir => .error .EISDIR
    | some (.file _) => .ok (fs.remove d)
    | none => .error .ENOENT

/-- `os.rmdir`. -/
def rmdir (fs : FileSystem β) (dir : Dir) (path : List String) : Except Errno (FileSystem β) :=
  match fs.descend dir path with
  | .error e => .error e
  | .ok d =>
    match fs.get d with
    | none => .error .ENOENT
    | some (.file _) => .error .ENOTDIR
    | some .dir =>
      match (trimmed path).getLast? with
      | none => .error .EBUSY
      | some "." => .error .EINVAL
      | some ".." => .error .ENOTEMPTY
      | some _ =>
        if d = Dir.top then .error .EBUSY
        else if fs.names d ≠ [] then .error .ENOTEMPTY
        else .ok (fs.remove d)

theorem unlink_get {fs fs' : FileSystem β} {dir : Dir} {path : List String}
    (h : fs.unlink dir path = .ok fs') :
    (∃ content, fs.file (dir.walk path) = some content) ∧
      ∀ x, fs'.get x = if x = dir.walk path then none else fs.get x := by
  unfold unlink at h
  split at h
  · cases h
  · next d hd =>
    obtain rfl := descend_walk hd
    split at h
    · cases h
    · next content hget =>
      cases h
      have hfile := file_eq_some_iff.mpr hget
      refine ⟨⟨content, hfile⟩, fun x => ?_⟩
      rw [get_remove (file_ne_top hfile)]
      by_cases hx : x = dir.walk path
      · rw [if_pos hx, hx, if_pos (Dir.within_refl _)]
      · rw [if_neg hx]
        split
        · next hin =>
          -- nothing lies below a file
          cases hsome : fs.get x with
          | none => rfl
          | some e => exact absurd (not_within_file hfile hsome hin) hx
        · rfl
    · cases h

theorem rmdir_get {fs fs' : FileSystem β} {dir : Dir} {path : List String}
    (h : fs.rmdir dir path = .ok fs') :
    fs.isdir (dir.walk path) = true ∧ fs.names (dir.walk path) = [] ∧
      ∀ x, fs'.get x = if x = dir.walk path then none else fs.get x := by
  unfold rmdir at h
  split at h
  · cases h
  · next d hd =>
    obtain rfl := descend_walk hd
    split at h
    · cases h
    · cases h
    · next hget =>
      split at h
      · cases h
      · cases h
      · cases h
      · split at h
        · cases h
        · next htop =>
          split at h
          · cases h
          · next hnil =>
            cases h
            have hnil := not_not.mp hnil
            refine ⟨isdir_iff.mpr hget, hnil, fun x => ?_⟩
            rw [get_remove htop]
            by_cases hx : x = dir.walk path
            · rw [if_pos hx, hx, if_pos (Dir.within_refl _)]
            · rw [if_neg hx]
              split
              · next hin => exact (get_of_names_nil hnil hin hx).symm
              · rfl

/-! ### What the calls do to files -/

/-- `os.makedirs` makes directories only, also where it raises. -/
theorem makedirs_file (fs : FileSystem β) (dir : Dir) (path : List String) (x : Dir) :
    (fs.makedirs dir path).1.file x = fs.file x := by
  induction path generalizing fs dir with
  | nil => rfl
  | cons c path ih =>
    unfold makedirs
    split
    · rfl
    · split
      · exact ih fs (dir.enter c)
      · split
        · next fs' hmkdir => rw [ih, (mkdir_extends hmkdir).1.files]
        · rfl

theorem writeFile_file {fs fs' : FileSystem β} {dir : Dir} {path : List String} {content : β}
    (h : fs.writeFile dir path content = .ok fs') (x : Dir) :
    fs'.file x = if x = dir.walk path then some content else fs.file x := by
  have hget := (writeFile_get h).2.2 x
  by_cases hx : x = dir.walk path
  · rw [if_pos hx] at hget ⊢
    exact file_eq_some_iff.mpr hget
  · rw [if_neg hx] at hget ⊢
    exact file_congr hget

theorem unlink_file {fs fs' : FileSystem β} {dir : Dir} {path : List String}
    (h : fs.unlink dir path = .ok fs') (x : Dir) :
    fs'.file x = if x = dir.walk path then none else fs.file x := by
  have hget := (unlink_get h).2 x
  by_cases hx : x = dir.walk path
  · rw [if_pos hx] at hget ⊢
    unfold file
    rw [hget]
  · rw [if_neg hx] at hget ⊢
    exact file_congr hget

theorem rmdir_file {fs fs' : FileSystem β} {dir : Dir} {path : List String}
    (h : fs.rmdir dir path = .ok fs') (x : Dir) : fs'.file x = fs.file x := by
  obtain ⟨hdir, -, hget⟩ := rmdir_get h
  have hget := hget x
  by_cases hx : x = dir.walk path
  · -- what is removed was no file
    rw [if_pos hx] at hget
    rw [hx, file_of_isdir hdir, ← hx]
    unfold file
    rw [hget]
  · rw [if_neg hx] at hget
    exact file_congr hget

/-! ### Paths that do not turn back -/

/-- The path ends with a name, and does not go up. -/
def Onward (path : List String) : Prop :=
  (∀ c ∈ path, c ≠ "..") ∧ ∃ c ∈ path.getLast?, IsName c

/-- A path of no characters has no name. -/
theorem Onward.ne_empty {path : String} (h : Onward (PyStr.split path '/')) : path ≠ "" := by
  rintro rfl
  obtain ⟨-, c, hc, hname⟩ := h
  obtain rfl : "" = c := Option.some.inj hc
  exact hname.1 rfl

theorem walk_onward (dir : Dir) {path : List String} (h : ∀ c ∈ path, c ≠ "..") :
    (dir.walk path).names = dir.names ++ path.filter fun c => decide (IsName c) := by
  induction path generalizing dir with
  | nil => simp
  | cons c path ih =>
    rw [Dir.walk_cons, ih _ fun c' hc' => h c' (List.mem_cons_of_mem c hc')]
    by_cases hc : IsName c
    · rw [Dir.enter_name dir hc, List.filter_cons_of_pos (by simpa using hc), List.append_assoc]
      rfl
    · have hup : c ≠ ".." := h c List.mem_cons_self
      have hstay : dir.enter c = dir := by
        unfold Dir.enter
        rw [dif_neg hc, if_neg hup]
      rw [hstay, List.filter_cons_of_neg (by simpa using hc)]

/-- **Such a path leads to what is there**, whatever other components it has. -/
theorem descend_onward {fs : FileSystem β} {dir : Dir} {path : List String} (h : Onward path)
    {e : Inode β} (hget : fs.get (dir.walk path) = some e) :
    fs.descend dir path = .ok (dir.walk path) := by
  obtain ⟨hup, last, hlast, hname⟩ := h
  refine descend_of_isdir fun pre c hpre => ?_
  -- a part of the path leads to a place above its end
  have hpreup : ∀ c' ∈ pre, c' ≠ ".." := fun c' hc' =>
    hup c' (hpre.subset (List.mem_append_left _ hc'))
  obtain ⟨rest, rfl⟩ := hpre
  have hnames : (dir.walk (pre ++ [c] ++ rest)).names =
      (dir.walk pre).names ++ ([c] ++ rest).filter fun c => decide (IsName c) := by
    rw [walk_onward dir hup, walk_onward dir hpreup, List.append_assoc pre, List.filter_append,
      List.append_assoc]
  have hrest : (([c] ++ rest).filter fun c => decide (IsName c)) ≠ [] := by
    have hmem : last ∈ [c] ++ rest := by
      rw [List.append_assoc, List.getLast?_append_of_ne_nil _ (by simp)] at hlast
      exact List.mem_of_getLast? hlast
    intro hnil
    rw [List.filter_eq_nil_iff] at hnil
    exact hnil last hmem (by simpa using hname)
  refine isdir_iff.mpr (isdir_above hget ⟨_, hnames.symm⟩ fun heq => ?_)
  rw [heq] at hnames
  exact hrest (List.self_eq_append_right.mp hnames)

end FileSystem
