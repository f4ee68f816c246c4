import Aioscpu.Framework.Dict
import Aioscpu.Framework.LexicalPath

/-! # File Systems

  A file system without symbolic links: at each place below the top there is a
  directory, a file or nothing, and the place above a directory or a file is a
  directory. The operations are those of Python's `os`: a path is looked up
  through directories that exist, and a component with a null character leads
  nowhere.

  `β` is the type of what a file holds.
-/

universe u

inductive Inode (β : Type u) where
  | dir
  | file (content : β)
deriving DecidableEq, Repr

/-- What is where. The top is a directory that has no entry. -/
structure FileSystem (β : Type u) where
  entries : Dict Dir (Inode β)
  closed : ∀ d e, entries.get d = some e → d ≠ Dir.top ∧
    (d.parent = Dir.top ∨ entries.get d.parent = some .dir)

namespace FileSystem

variable {β : Type u}

def empty : FileSystem β := ⟨.empty, fun _ _ h => by cases h⟩

def get (fs : FileSystem β) (d : Dir) : Option (Inode β) :=
  if d = Dir.top then some .dir else fs.entries.get d

/-- `os.path.isdir`, at a place. -/
def isdir (fs : FileSystem β) (d : Dir) : Bool :=
  match fs.get d with
  | some .dir => true
  | _ => false

/-- What the file at a place holds. -/
def file (fs : FileSystem β) (d : Dir) : Option β :=
  match fs.get d with
  | some (.file content) => some content
  | _ => none

theorem isdir_iff {fs : FileSystem β} {d : Dir} : fs.isdir d = true ↔ fs.get d = some .dir := by
  unfold isdir
  split
  · next h => exact iff_of_true rfl h
  · next h => exact iff_of_false (by simp) h

theorem file_eq_some_iff {fs : FileSystem β} {d : Dir} {content : β} :
    fs.file d = some content ↔ fs.get d = some (.file content) := by
  unfold file
  split
  · next h => rw [h]; simp
  · next h => exact iff_of_false (by simp) (h content)

theorem file_of_isdir {fs : FileSystem β} {d : Dir} (h : fs.isdir d = true) : fs.file d = none := by
  unfold file
  rw [isdir_iff.mp h]

@[simp] theorem isdir_top (fs : FileSystem β) : fs.isdir Dir.top = true :=
  isdir_iff.mpr (if_pos rfl)

/-- The place above an entry is a directory. -/
theorem isdir_parent {fs : FileSystem β} {d : Dir} {e : Inode β} (h : fs.get d = some e) :
    fs.isdir d.parent = true := by
  by_cases htop : d = Dir.top
  · have hparent : d.parent = Dir.top := by
      rw [htop]
      rfl
    rw [hparent, isdir_top]
  · unfold get at h
    rw [if_neg htop] at h
    -- the top is a directory without an entry
    rcases (fs.closed d e h).2 with hparent | hparent
    · rw [hparent, isdir_top]
    · rw [isdir_iff]
      unfold get
      split
      · rfl
      · exact hparent

/-! ### Changes -/

/-- A new entry, or another one in the place of a file. -/
def put (fs : FileSystem β) (d : Dir) (e : Inode β) (hdir : fs.isdir d = false)
    (hparent : fs.isdir d.parent = true) : FileSystem β where
  entries := fs.entries.set d e
  closed := by
    have htop : d ≠ Dir.top := by
      rintro rfl
      rw [isdir_top] at hdir
      cases hdir
    -- the directories stay
    have hkeep : ∀ x, fs.isdir x = true → x = Dir.top ∨ (fs.entries.set d e).get x = some .dir := by
      intro x hx
      have hne : x ≠ d := by
        rintro rfl
        rw [hx] at hdir
        cases hdir
      rw [isdir_iff] at hx
      unfold get at hx
      split at hx
      · next heq => exact Or.inl heq
      · exact Or.inr (by rw [Dict.get_set_of_ne hne, hx])
    intro x e' hx
    by_cases heq : x = d
    · rw [heq]
      exact ⟨htop, hkeep _ hparent⟩
    · rw [Dict.get_set_of_ne heq] at hx
      obtain ⟨hxtop, -⟩ := fs.closed x e' hx
      have hget : fs.get x = some e' := by
        unfold get
        rw [if_neg hxtop, hx]
      exact ⟨hxtop, hkeep _ (isdir_parent hget)⟩

theorem get_put (fs : FileSystem β) (d : Dir) (e : Inode β) (hdir : fs.isdir d = false)
    (hparent : fs.isdir d.parent = true) (x : Dir) :
    (fs.put d e hdir hparent).get x = if x = d then some e else fs.get x := by
  have htop : d ≠ Dir.top := by
    rintro rfl
    rw [isdir_top] at hdir
    cases hdir
  unfold get put
  by_cases hx : x = Dir.top
  · have hne : x ≠ d := fun heq => htop (heq ▸ hx)
    rw [if_pos hx, if_pos hx, if_neg hne]
  · rw [if_neg hx, if_neg hx, Dict.get_set]

/-- All that lies below a directory is removed. -/
def clear (fs : FileSystem β) (d : Dir) : FileSystem β where
  entries := fs.entries.filterKeys fun x => ¬ x.Below d
  closed := by
    intro x e hx
    rw [Dict.get_filterKeys] at hx
    split at hx
    · next hout =>
      obtain ⟨htop, hparent⟩ := fs.closed x e hx
      refine ⟨htop, hparent.imp_right fun hparent => ?_⟩
      rw [Dict.get_filterKeys, if_pos, hparent]
      rw [decide_eq_true_eq] at hout ⊢
      rintro ⟨hin, hne⟩
      refine hout ⟨hin.trans ?_, ?_⟩
      · rw [Dir.parent_names]
        exact List.dropLast_prefix _
      · rintro rfl
        have hlen := List.IsPrefix.length_le hin
        have hnames : x.names ≠ [] := fun h => htop (Dir.ext h)
        rw [Dir.parent_names, List.length_dropLast] at hlen
        have hpos := List.length_pos_iff.mpr hnames
        omega
    · cases hx

/-! ### Paths -/

/-- No call of the system takes a name with a null character. -/
def Callable (c : String) : Prop := '\x00' ∉ c.toList

instance (c : String) : Decidable (Callable c) := inferInstanceAs (Decidable (¬ _))

/-- The place that a path leads to, through directories that exist. -/
def lookup (fs : FileSystem β) (dir : Dir) : List String → Option Dir
  | [] => some dir
  | c :: path => if fs.isdir dir ∧ Callable c then lookup fs (dir.enter c) path else none

/-- `os.path.isfile`, and what the file holds. -/
def read (fs : FileSystem β) (path : List String) : Option (Dir × β) :=
  (fs.lookup Dir.top path).bind fun d => (fs.file d).map fun content => (d, content)

/-- `os.mkdir`, if there is nothing at the place. -/
def mkdir (fs : FileSystem β) (d : Dir) : Option (FileSystem β) :=
  if h : fs.get d = none ∧ fs.isdir d.parent = true then
    some (fs.put d .dir (by unfold isdir; rw [h.1]) h.2)
  else none

/-- `os.makedirs(path, exist_ok=True)`, and whether it returns. What it has made before it
    raises stays. -/
def makedirs (fs : FileSystem β) (dir : Dir) : List String → FileSystem β × Bool
  | [] => (fs, fs.isdir dir)
  | c :: path =>
    if ¬ Callable c then (fs, false)
    else if fs.isdir (dir.enter c) then makedirs fs (dir.enter c) path
    else
      match fs.mkdir (dir.enter c) with
      | some fs' => makedirs fs' (dir.enter c) path
      | none => (fs, false)

/-- Writes a file at a place. -/
def putFile (fs : FileSystem β) (d : Dir) (content : β) : Option (FileSystem β) :=
  if h : fs.isdir d = false ∧ fs.isdir d.parent = true then
    some (fs.put d (.file content) h.1 h.2)
  else none

/-- `open(path, "wb")` with a write, and the place of the file; `none` where it raises. -/
def write (fs : FileSystem β) (path : List String) (content : β) :
    Option (FileSystem β × Dir) :=
  (fs.lookup Dir.top path).bind fun d => (fs.putFile d content).map fun fs' => (fs', d)

/-- Whether `open(path, "wb")` does not raise. -/
def opens (fs : FileSystem β) (path : List String) : Bool :=
  (fs.lookup Dir.top path).any fun d => !fs.isdir d && fs.isdir d.parent

/-! ### Laws of the operations -/

theorem lookup_eq_walk {fs : FileSystem β} {dir d : Dir} {path : List String}
    (h : fs.lookup dir path = some d) : dir.walk path = d := by
  induction path generalizing dir with
  | nil => exact Option.some.inj h
  | cons c path ih =>
    unfold lookup at h
    split at h
    · exact ih h
    · cases h

theorem read_eq_some_iff {fs : FileSystem β} {path : List String} {d : Dir} {content : β} :
    fs.read path = some (d, content) ↔
      fs.lookup Dir.top path = some d ∧ fs.file d = some content := by
  unfold read
  rw [Option.bind_eq_some_iff]
  constructor
  · rintro ⟨d', hlookup, hmap⟩
    obtain ⟨content', hfile, heq⟩ := Option.map_eq_some_iff.mp hmap
    obtain ⟨rfl, rfl⟩ := Prod.mk.inj heq
    exact ⟨hlookup, hfile⟩
  · rintro ⟨hlookup, hfile⟩
    exact ⟨d, hlookup, by rw [hfile]; rfl⟩

theorem mkdir_get {fs fs' : FileSystem β} {d : Dir} (h : fs.mkdir d = some fs') :
    fs.get d = none ∧ ∀ x, fs'.get x = if x = d then some .dir else fs.get x := by
  unfold mkdir at h
  split at h
  · next hnew =>
    obtain rfl := Option.some.inj h
    exact ⟨hnew.1, fun x => get_put ..⟩
  · cases h

theorem putFile_get {fs fs' : FileSystem β} {d : Dir} {content : β}
    (h : fs.putFile d content = some fs') :
    fs.isdir d = false ∧ ∀ x, fs'.get x = if x = d then some (.file content) else fs.get x := by
  unfold putFile at h
  split at h
  · next hfile =>
    obtain rfl := Option.some.inj h
    exact ⟨hfile.1, fun x => get_put ..⟩
  · cases h

theorem lookup_append (fs : FileSystem β) (dir : Dir) (path path' : List String) :
    fs.lookup dir (path ++ path') = (fs.lookup dir path).bind fun d => fs.lookup d path' := by
  induction path generalizing dir with
  | nil => rfl
  | cons c path ih =>
    simp only [List.cons_append, lookup]
    split
    · exact ih _
    · rfl

/-- Directories of one are directories of the other. -/
def DirsIn (fs fs' : FileSystem β) : Prop := ∀ d, fs.isdir d = true → fs'.isdir d = true

theorem DirsIn.refl (fs : FileSystem β) : DirsIn fs fs := fun _ h => h

theorem DirsIn.trans {fs fs' fs'' : FileSystem β} (h : DirsIn fs fs') (h' : DirsIn fs' fs'') :
    DirsIn fs fs'' := fun d hd => h' d (h d hd)

theorem DirsIn.lookup {fs fs' : FileSystem β} (h : DirsIn fs fs') {dir d : Dir}
    {path : List String} (hd : fs.lookup dir path = some d) : fs'.lookup dir path = some d := by
  induction path generalizing dir with
  | nil => exact hd
  | cons c path ih =>
    unfold FileSystem.lookup at hd ⊢
    split at hd
    · next hc => rw [if_pos ⟨h _ hc.1, hc.2⟩, ih hd]
    · cases hd

/-- Only directories are new. -/
structure Extends (fs fs' : FileSystem β) : Prop where
  dirs : DirsIn fs fs'
  files : ∀ d, fs'.file d = fs.file d

theorem Extends.refl (fs : FileSystem β) : Extends fs fs := ⟨.refl fs, fun _ => rfl⟩

theorem Extends.trans {fs fs' fs'' : FileSystem β} (h : Extends fs fs')
    (h' : Extends fs' fs'') : Extends fs fs'' :=
  ⟨h.dirs.trans h'.dirs, fun d => (h'.files d).trans (h.files d)⟩

theorem mkdir_extends {fs fs' : FileSystem β} {d : Dir} (h : fs.mkdir d = some fs') :
    Extends fs fs' ∧ fs'.isdir d = true := by
  obtain ⟨hnew, hget⟩ := mkdir_get h
  refine ⟨⟨fun x hx => ?_, fun x => ?_⟩, isdir_iff.mpr (by rw [hget, if_pos rfl])⟩
  · rw [isdir_iff] at hx ⊢
    rw [hget]
    split
    · rfl
    · exact hx
  · unfold file
    rw [hget]
    by_cases heq : x = d
    · rw [if_pos heq, heq, hnew]
    · rw [if_neg heq]

/-- **What `makedirs` does**: it makes directories only, and when it returns the path leads
    to one. -/
theorem makedirs_spec {fs fs' : FileSystem β} {dir : Dir} {path : List String} {ok : Bool}
    (hdir : fs.isdir dir = true) (h : fs.makedirs dir path = (fs', ok)) :
    Extends fs fs' ∧ (ok = true →
      fs'.lookup dir path = some (dir.walk path) ∧ fs'.isdir (dir.walk path) = true) := by
  induction path generalizing fs dir with
  | nil =>
    obtain ⟨rfl, rfl⟩ := Prod.mk.inj h
    exact ⟨.refl fs, fun _ => ⟨rfl, hdir⟩⟩
  | cons c path ih =>
    unfold makedirs at h
    split at h
    · obtain ⟨rfl, rfl⟩ := Prod.mk.inj h
      exact ⟨.refl fs, fun h => by cases h⟩
    next hc =>
    -- the first step leads on, however many directories are made after it
    have hlookup : ∀ {fs'' : FileSystem β}, DirsIn fs fs'' →
        fs''.lookup dir (c :: path) = fs''.lookup (dir.enter c) path := fun {fs''} hin => by
      simp only [lookup]
      rw [if_pos ⟨hin _ hdir, not_not.mp hc⟩]
    split at h
    · next hentered =>
      obtain ⟨hext, hok⟩ := ih hentered h
      exact ⟨hext, fun htrue => by rw [hlookup hext.dirs]; exact hok htrue⟩
    · split at h
      · next fs₁ hmkdir =>
        obtain ⟨hext₁, hmade⟩ := mkdir_extends hmkdir
        obtain ⟨hext, hok⟩ := ih hmade h
        have hall := hext₁.trans hext
        exact ⟨hall, fun htrue => by rw [hlookup hall.dirs]; exact hok htrue⟩
      · obtain ⟨rfl, rfl⟩ := Prod.mk.inj h
        exact ⟨.refl fs, fun h => by cases h⟩

/-- **What a write does**: the file is where the path leads, and the rest stays. -/
theorem write_spec {fs fs' : FileSystem β} {path : List String} {content : β} {d : Dir}
    (h : fs.write path content = some (fs', d)) :
    Dir.top.walk path = d ∧ fs.isdir d = false ∧ DirsIn fs fs' ∧
      (∀ x, fs'.file x = if x = d then some content else fs.file x) ∧
      fs'.read path = some (d, content) := by
  unfold write at h
  obtain ⟨d', hlookup, h⟩ := Option.bind_eq_some_iff.mp h
  obtain ⟨fs₁, hput, heq⟩ := Option.map_eq_some_iff.mp h
  obtain ⟨rfl, rfl⟩ := Prod.mk.inj heq
  obtain ⟨hnot, hget⟩ := putFile_get hput
  have hdirs : DirsIn fs fs₁ := fun x hx => by
    have hne : x ≠ d' := by
      rintro rfl
      rw [hx] at hnot
      cases hnot
    rw [isdir_iff] at hx ⊢
    rw [hget, if_neg hne, hx]
  have hfile : ∀ x, fs₁.file x = if x = d' then some content else fs.file x := fun x => by
    unfold file
    rw [hget]
    by_cases heq : x = d'
    · rw [if_pos heq, if_pos heq]
    · rw [if_neg heq, if_neg heq]
  refine ⟨lookup_eq_walk hlookup, hnot, hdirs, hfile, ?_⟩
  exact read_eq_some_iff.mpr ⟨hdirs.lookup hlookup, by rw [hfile, if_pos rfl]⟩

theorem write_eq_none_iff {fs : FileSystem β} {path : List String} {content : β} :
    fs.write path content = none ↔ fs.opens path = false := by
  unfold write opens putFile
  cases fs.lookup Dir.top path with
  | none => simp
  | some d =>
    rw [Option.bind_some, Option.map_eq_none_iff, Option.any_some]
    split
    · next h => simp [h]
    · next h => simpa using h

/-- What exists is not made again. -/
theorem makedirs_of_lookup {fs : FileSystem β} {dir d : Dir} {path : List String}
    (h : fs.lookup dir path = some d) (hd : fs.isdir d = true) :
    fs.makedirs dir path = (fs, true) := by
  induction path generalizing dir with
  | nil =>
    obtain rfl := Option.some.inj h
    unfold makedirs
    rw [hd]
  | cons c path ih =>
    unfold lookup at h
    split at h
    next hc =>
      -- a path goes on below a directory, and ends at one
      have hentered : fs.isdir (dir.enter c) = true := by
        cases path with
        | nil => rwa [Option.some.inj h]
        | cons c' path =>
          unfold lookup at h
          split at h
          · next hc' => exact hc'.1
          · cases h
      unfold makedirs
      rw [if_neg (not_not.mpr hc.2), if_pos hentered, ih h]
    · cases h

/-- Nothing stops `makedirs` on the path: no file stands there, and no name has a null
    character. -/
structure Open (fs : FileSystem β) (dir : Dir) (path : List String) : Prop where
  callable : ∀ c ∈ path, Callable c
  noFile : ∀ pre, pre <+: path → fs.file (dir.walk pre) = none

theorem open_nil {fs : FileSystem β} {dir : Dir} (hdir : fs.isdir dir = true) :
    fs.Open dir [] := by
  refine ⟨by simp, fun pre hpre => ?_⟩
  rw [List.prefix_nil.mp hpre]
  exact file_of_isdir hdir

theorem open_cons_iff {fs : FileSystem β} {dir : Dir} (hdir : fs.isdir dir = true) (c : String)
    (path : List String) :
    fs.Open dir (c :: path) ↔ Callable c ∧ fs.Open (dir.enter c) path := by
  constructor
  · rintro ⟨hcall, hfile⟩
    refine ⟨hcall c List.mem_cons_self, fun c' hc' => hcall c' (List.mem_cons_of_mem c hc'), ?_⟩
    intro pre hpre
    exact hfile (c :: pre) (List.cons_prefix_cons.mpr ⟨rfl, hpre⟩)
  · rintro ⟨hc, hcall, hfile⟩
    refine ⟨List.forall_mem_cons.mpr ⟨hc, hcall⟩, fun pre hpre => ?_⟩
    rcases List.prefix_cons_iff.mp hpre with rfl | ⟨rest, rfl, hrest⟩
    · exact file_of_isdir hdir
    · exact hfile rest hrest

theorem Open.congr {fs fs' : FileSystem β} (h : ∀ d, fs'.file d = fs.file d) {dir : Dir}
    {path : List String} : fs'.Open dir path ↔ fs.Open dir path := by
  constructor
  · rintro ⟨hcall, hfile⟩
    exact ⟨hcall, fun pre hpre => (h _).symm.trans (hfile pre hpre)⟩
  · rintro ⟨hcall, hfile⟩
    exact ⟨hcall, fun pre hpre => (h _).trans (hfile pre hpre)⟩

/-- Only a file keeps `mkdir` from making the next directory. -/
theorem mkdir_enter {fs : FileSystem β} {dir : Dir} (hdir : fs.isdir dir = true) {c : String}
    (hnot : fs.isdir (dir.enter c) = false) (hfile : fs.file (dir.enter c) = none) :
    ∃ fs', fs.mkdir (dir.enter c) = some fs' := by
  have hc : IsName c := by
    by_contra hc
    -- other components lead to a directory
    have hisdir : fs.isdir (dir.enter c) = true := by
      by_cases hup : c = ".."
      · subst hup
        exact isdir_parent (isdir_iff.mp hdir)
      · unfold Dir.enter
        rw [dif_neg hc, if_neg hup]
        exact hdir
    rw [hisdir] at hnot
    cases hnot
  have hget : fs.get (dir.enter c) = none := by
    cases hget : fs.get (dir.enter c) with
    | none => rfl
    | some e =>
      cases e with
      | dir =>
        rw [isdir_iff.mpr hget] at hnot
        cases hnot
      | file content =>
        rw [file_eq_some_iff.mpr hget] at hfile
        cases hfile
  unfold mkdir
  rw [dif_pos ⟨hget, by rw [Dir.parent_enter dir hc, hdir]⟩]
  exact ⟨_, rfl⟩

/-- The directory `d` is there, or `makedirs` comes through it. -/
def Passed (fs : FileSystem β) (dir : Dir) (path : List String) (d : Dir) : Prop :=
  fs.isdir d = true ∨ ∃ pre, pre <+: path ∧ fs.Open dir pre ∧ dir.walk pre = d

theorem passed_cons_iff {fs : FileSystem β} {dir : Dir} (hdir : fs.isdir dir = true) (c : String)
    (path : List String) (d : Dir) :
    fs.Passed dir (c :: path) d ↔
      fs.isdir d = true ∨ Callable c ∧ fs.Passed (dir.enter c) path d := by
  constructor
  · rintro (hd | ⟨pre, hpre, hopen, rfl⟩)
    · exact Or.inl hd
    · rcases List.prefix_cons_iff.mp hpre with rfl | ⟨rest, rfl, hrest⟩
      · exact Or.inl hdir
      · obtain ⟨hc, hopen⟩ := (open_cons_iff hdir c rest).mp hopen
        exact Or.inr ⟨hc, Or.inr ⟨rest, hrest, hopen, rfl⟩⟩
  · rintro (hd | ⟨hc, hd | ⟨pre, hpre, hopen, rfl⟩⟩)
    · exact Or.inl hd
    · exact Or.inl hd
    · exact Or.inr ⟨c :: pre, List.cons_prefix_cons.mpr ⟨rfl, hpre⟩,
        (open_cons_iff hdir c pre).mpr ⟨hc, hopen⟩, rfl⟩

/-- **When `makedirs` returns, and which directories are there then.** -/
theorem makedirs_open {fs : FileSystem β} {dir : Dir} (hdir : fs.isdir dir = true)
    (path : List String) :
    ((fs.makedirs dir path).2 = true ↔ fs.Open dir path) ∧
      ∀ d, (fs.makedirs dir path).1.isdir d = true ↔ fs.Passed dir path d := by
  induction path generalizing fs dir with
  | nil =>
    refine ⟨iff_of_true hdir (open_nil hdir), fun d => ⟨Or.inl, ?_⟩⟩
    rintro (hd | ⟨pre, hpre, -, rfl⟩)
    · exact hd
    · rw [List.prefix_nil.mp hpre]
      exact hdir
  | cons c path ih =>
    simp only [open_cons_iff hdir, passed_cons_iff hdir]
    unfold makedirs
    by_cases hc : Callable c
    · rw [if_neg (not_not.mpr hc)]
      simp only [hc, true_and]
      by_cases hentered : fs.isdir (dir.enter c) = true
      · rw [if_pos hentered]
        obtain ⟨hok, hdirs⟩ := ih hentered
        refine ⟨hok, fun d => (hdirs d).trans ⟨Or.inr, ?_⟩⟩
        rintro (hd | hd)
        · exact Or.inl hd
        · exact hd
      · rw [if_neg hentered]
        cases hmkdir : fs.mkdir (dir.enter c) with
        | some fs' =>
          obtain ⟨hext, hmade⟩ := mkdir_extends hmkdir
          obtain ⟨hnew, hget⟩ := mkdir_get hmkdir
          obtain ⟨hok, hdirs⟩ := ih hmade
          refine ⟨hok.trans (Open.congr hext.files), fun d => (hdirs d).trans ⟨?_, ?_⟩⟩
          · rintro (hd | ⟨pre, hpre, hopen, rfl⟩)
            · -- the directory is an old one or the new one
              rw [isdir_iff, hget] at hd
              split at hd
              · next heq =>
                have hstart : fs.Open (dir.enter c) [] := by
                  refine (Open.congr hext.files).mp (open_nil hmade)
                exact Or.inr (Or.inr ⟨[], List.nil_prefix, hstart, heq.symm⟩)
              · exact Or.inl (isdir_iff.mpr hd)
            · exact Or.inr (Or.inr ⟨pre, hpre, (Open.congr hext.files).mp hopen, rfl⟩)
          · rintro (hd | hd | ⟨pre, hpre, hopen, rfl⟩)
            · exact Or.inl (hext.dirs d hd)
            · exact Or.inl (hext.dirs d hd)
            · exact Or.inr ⟨pre, hpre, (Open.congr hext.files).mpr hopen, rfl⟩
        | none =>
          -- a file is in the way
          have hclosed : ∀ pre, ¬ fs.Open (dir.enter c) pre := by
            intro pre hopen
            obtain ⟨fs', hsome⟩ := mkdir_enter hdir (Bool.not_eq_true _ ▸ hentered)
              (hopen.noFile [] List.nil_prefix)
            rw [hmkdir] at hsome
            cases hsome
          refine ⟨iff_of_false Bool.false_ne_true (hclosed path), fun d => ⟨Or.inl, ?_⟩⟩
          rintro (hd | hd | ⟨pre, -, hopen, -⟩)
          · exact hd
          · exact hd
          · exact absurd hopen (hclosed pre)
    · rw [if_pos hc]
      simp [hc]

/-- A path of names leads to what is there. -/
theorem lookup_names {fs : FileSystem β} {path : List String} (hname : ∀ c ∈ path, IsName c)
    (hcall : ∀ c ∈ path, Callable c) {e : Inode β} (he : fs.get (Dir.top.walk path) = some e) :
    fs.lookup Dir.top path = some (Dir.top.walk path) := by
  induction path using List.reverseRecOn generalizing e with
  | nil => rfl
  | append_singleton path c ih =>
    have hc : IsName c := hname c (by simp)
    rw [Dir.walk_append] at he ⊢
    have hparent := isdir_parent he
    have hwalk : (Dir.walk (Dir.top.walk path) [c]).parent = Dir.top.walk path :=
      Dir.parent_enter _ hc
    rw [hwalk] at hparent
    rw [lookup_append, ih (fun c' h => hname c' (List.mem_append_left _ h))
      (fun c' h => hcall c' (List.mem_append_left _ h)) (isdir_iff.mp hparent)]
    show fs.lookup (Dir.top.walk path) [c] = some (Dir.walk (Dir.top.walk path) [c])
    unfold lookup
    rw [if_pos ⟨hparent, hcall c (by simp)⟩]
    rfl

/-- A path of names reads the file that is there. -/
theorem read_names {fs : FileSystem β} {path : List String} (hname : ∀ c ∈ path, IsName c)
    (hcall : ∀ c ∈ path, Callable c) :
    fs.read path = (fs.file (Dir.top.walk path)).map fun content =>
      (Dir.top.walk path, content) := by
  cases hfile : fs.file (Dir.top.walk path) with
  | some content =>
    exact read_eq_some_iff.mpr
      ⟨lookup_names hname hcall (file_eq_some_iff.mp hfile), hfile⟩
  | none =>
    rw [Option.map_none, Option.eq_none_iff_forall_ne_some]
    rintro ⟨d, content⟩ h
    obtain ⟨hlookup, hd⟩ := read_eq_some_iff.mp h
    rw [lookup_eq_walk hlookup, hd] at hfile
    cases hfile

theorem callable_of_lookup {fs : FileSystem β} {dir d : Dir} {path : List String}
    (h : fs.lookup dir path = some d) : ∀ c ∈ path, Callable c := by
  induction path generalizing dir with
  | nil => simp
  | cons c path ih =>
    unfold lookup at h
    split at h
    · next hc => exact List.forall_mem_cons.mpr ⟨hc.2, ih h⟩
    · cases h

/-- What a path of names reads depends on the file alone. -/
theorem read_congr {fs fs' : FileSystem β} {path : List String} (hname : ∀ c ∈ path, IsName c)
    (hfile : fs'.file (Dir.top.walk path) = fs.file (Dir.top.walk path)) :
    fs'.read path = fs.read path := by
  -- a path with a null character reads nothing from either
  by_cases hcall : ∀ c ∈ path, Callable c
  · rw [read_names hname hcall, read_names hname hcall, hfile]
  · have hnone : ∀ fs : FileSystem β, fs.read path = none := by
      intro fs
      rw [Option.eq_none_iff_forall_ne_some]
      rintro ⟨d, content⟩ h
      exact hcall (callable_of_lookup (read_eq_some_iff.mp h).1)
    rw [hnone, hnone]

end FileSystem
