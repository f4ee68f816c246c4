import Mathlib.Data.List.Infix

/-! # Lexical Path Normalisation

  A directory is a list of names below some fixed top. A path is a list of
  components that is walked from a directory: an empty component and `.` stay,
  `..` goes up (and stays at the top), and any other component goes down.

  The main result says which spellings of a path lead below a name: those in
  which some prefix leads back to the start, the name comes next, and the rest
  never leaves it again.
-/

/-- A component that names a directory entry. -/
def IsName (c : String) : Prop := c ≠ "" ∧ c ≠ "." ∧ c ≠ ".."

instance (c : String) : Decidable (IsName c) :=
  inferInstanceAs (Decidable (_ ∧ _ ∧ _))

/-- A normalised path: every component is a name. -/
@[ext] structure Dir where
  names : List String
  isName : ∀ c ∈ names, IsName c

namespace Dir

/-- The top of the tree. -/
def top : Dir := ⟨[], by simp⟩

/-- The directory one component further. -/
def enter (dir : Dir) (c : String) : Dir :=
  if h : IsName c then
    { names := dir.names ++ [c]
      isName := by
        intro c' hc'
        rcases List.mem_append.mp hc' with hc' | hc'
        · exact dir.isName c' hc'
        · exact List.mem_singleton.mp hc' ▸ h }
  else if c = ".." then
    { names := dir.names.dropLast
      isName := fun c' hc' => dir.isName c' (List.mem_of_mem_dropLast hc') }
  else dir

/-- The directory at the end of a path. -/
def walk (dir : Dir) (path : List String) : Dir := path.foldl enter dir

@[simp] theorem walk_nil (dir : Dir) : dir.walk [] = dir := rfl

@[simp] theorem walk_cons (dir : Dir) (c : String) (path : List String) :
    dir.walk (c :: path) = (dir.enter c).walk path := rfl

theorem walk_append (dir : Dir) (path path' : List String) :
    dir.walk (path ++ path') = (dir.walk path).walk path' := List.foldl_append

theorem enter_name (dir : Dir) {c : String} (h : IsName c) :
    (dir.enter c).names = dir.names ++ [c] := by
  unfold enter
  rw [dif_pos h]

/-- A step that does not go down ends at a prefix. -/
theorem enter_not_name (dir : Dir) {c : String} (h : ¬ IsName c) :
    (dir.enter c).names <+: dir.names := by
  unfold enter
  rw [dif_neg h]
  split
  · exact List.dropLast_prefix _
  · exact List.prefix_refl _

/-- A path of names is already normalised. -/
theorem walk_names (dir : Dir) {path : List String} (h : ∀ c ∈ path, IsName c) :
    (dir.walk path).names = dir.names ++ path := by
  induction path generalizing dir with
  | nil => simp
  | cons c path ih =>
    rw [walk_cons, ih _ fun c' hc' => h c' (List.mem_cons_of_mem c hc'),
      dir.enter_name (h c List.mem_cons_self), List.append_assoc, List.singleton_append]

/-- `dir` is the directory itself or lies below it. -/
def Within (dir above : Dir) : Prop := above.names <+: dir.names

/-- The walk stays within the directory it starts in. -/
def Stays (dir : Dir) (path : List String) : Prop :=
  ∀ path', path' <+: path → (dir.walk path').Within dir

/-- The only step into a directory from outside is the step down to it. -/
theorem enter_within {dir target : Dir} {name c : String} (hname : IsName name)
    (hin : (dir.enter c).Within (target.enter name)) (hout : ¬ dir.Within (target.enter name)) :
    dir = target ∧ c = name := by
  unfold Within at hin hout
  rw [target.enter_name hname] at hin hout
  by_cases hc : IsName c
  · rw [dir.enter_name hc] at hin
    rcases List.prefix_concat_iff.mp hin with heq | hpre
    · obtain ⟨hnames, hlast⟩ := List.append_inj' heq rfl
      exact ⟨Dir.ext hnames.symm, (List.singleton_inj.mp hlast).symm⟩
    · exact absurd hpre hout
  · exact absurd (hin.trans (dir.enter_not_name hc)) hout

/-- **Which spellings lead below a name**: from outside, a prefix of the path leads
    to the directory of the name, the name comes next, and the rest stays below it. -/
theorem walk_enters_iff {dir target : Dir} {name : String} (hname : IsName name)
    (hout : ¬ dir.Within (target.enter name)) (path : List String) :
    (dir.walk path).Within (target.enter name) ↔
      ∃ pre post, path = pre ++ name :: post ∧ dir.walk pre = target ∧
        (target.enter name).Stays post := by
  constructor
  · induction path using List.reverseRecOn with
    | nil => exact fun h => absurd h hout
    | append_singleton path c ih =>
      intro h
      -- the walk was below the name before its last step, or that step entered it
      by_cases hpath : (dir.walk path).Within (target.enter name)
      · obtain ⟨pre, post, rfl, hback, hstay⟩ := ih hpath
        refine ⟨pre, post ++ [c], by simp, hback, ?_⟩
        intro path' hpath'
        rcases List.prefix_concat_iff.mp hpath' with rfl | hpre
        · rw [List.append_assoc, walk_append, hback, List.cons_append, walk_cons] at h
          exact h
        · exact hstay path' hpre
      · rw [walk_append] at h
        obtain ⟨hback, rfl⟩ := enter_within hname h hpath
        refine ⟨path, [], rfl, hback, ?_⟩
        intro path' hpath'
        rw [List.prefix_nil.mp hpath']
        exact List.prefix_refl _
  · rintro ⟨pre, post, rfl, hback, hstay⟩
    rw [walk_append, hback, walk_cons]
    exact hstay post (List.prefix_refl _)

theorem not_within_enter (dir : Dir) {name : String} (hname : IsName name) :
    ¬ dir.Within (dir.enter name) := by
  intro h
  have hlen := List.IsPrefix.length_le h
  rw [dir.enter_name hname, List.length_append, List.length_singleton] at hlen
  omega

/-- The spellings that lead below a name of the directory they start in. -/
theorem walk_within_iff (dir : Dir) {name : String} (hname : IsName name)
    (path : List String) :
    (dir.walk path).Within (dir.enter name) ↔
      ∃ pre post, path = pre ++ name :: post ∧ dir.walk pre = dir ∧
        (dir.enter name).Stays post :=
  walk_enters_iff hname (dir.not_within_enter hname) path

/-! ### Below a directory -/

instance : DecidableEq Dir := fun a b => decidable_of_iff (a.names = b.names) Dir.ext_iff.symm

/-- `dir` lies below the directory. -/
def Below (dir above : Dir) : Prop := dir.Within above ∧ dir ≠ above

instance (dir above : Dir) : Decidable (dir.Within above) :=
  inferInstanceAs (Decidable (_ <+: _))

instance (dir above : Dir) : Decidable (dir.Below above) := inferInstanceAs (Decidable (_ ∧ _))

/-- What lies below a directory lies within one of its names. -/
theorem below_iff {dir above : Dir} :
    dir.Below above ↔ ∃ c, IsName c ∧ dir.Within (above.enter c) := by
  constructor
  · rintro ⟨⟨rest, hrest⟩, hne⟩
    cases rest with
    | nil => exact absurd (Dir.ext (by simpa using hrest.symm)) hne
    | cons c rest =>
      have hc : IsName c := dir.isName c (hrest ▸ by simp)
      refine ⟨c, hc, rest, ?_⟩
      rw [above.enter_name hc, List.append_assoc, List.singleton_append, hrest]
  · rintro ⟨c, hc, hin⟩
    refine ⟨?_, ?_⟩
    · refine List.IsPrefix.trans ?_ hin
      rw [above.enter_name hc]
      exact List.prefix_append _ _
    · rintro rfl
      exact dir.not_within_enter hc hin

theorem not_top_below (above : Dir) : ¬ top.Below above := by
  rintro ⟨hin, hne⟩
  exact hne (Dir.ext (List.prefix_nil.mp hin).symm)

/-- **Which spellings lead below a directory**: a prefix of the path leads to the
    directory, a name comes next, and the rest stays below that name. -/
theorem walk_below_iff {dir target : Dir} (hout : ¬ dir.Below target) (path : List String) :
    (dir.walk path).Below target ↔
      ∃ pre c post, IsName c ∧ path = pre ++ c :: post ∧ dir.walk pre = target ∧
        (target.enter c).Stays post := by
  rw [below_iff]
  constructor
  · rintro ⟨c, hc, hin⟩
    have houtside : ¬ dir.Within (target.enter c) := fun h => hout (below_iff.mpr ⟨c, hc, h⟩)
    obtain ⟨pre, post, hpath, hback, hstay⟩ := (walk_enters_iff hc houtside path).mp hin
    exact ⟨pre, c, post, hc, hpath, hback, hstay⟩
  · rintro ⟨pre, c, post, hc, rfl, hback, hstay⟩
    refine ⟨c, hc, ?_⟩
    rw [walk_append, hback, walk_cons]
    exact hstay post (List.prefix_refl _)

/-- A prefix of the path leads to the target, and the rest stays within it. -/
def Leads (dir target : Dir) (path : List String) : Prop :=
  ∃ pre post, path = pre ++ post ∧ dir.walk pre = target ∧ target.Stays post

/-- **Which spellings lead to a directory or below it.** -/
theorem walk_leads_iff {dir target : Dir} (hout : ¬ dir.Below target) (path : List String) :
    (dir.walk path).Within target ↔ dir.Leads target path := by
  constructor
  · intro hin
    by_cases htarget : dir.walk path = target
    · refine ⟨path, [], (List.append_nil path).symm, htarget, ?_⟩
      intro path' hpath'
      rw [List.prefix_nil.mp hpath']
      exact List.prefix_refl _
    · obtain ⟨pre, c, post, hc, hpath, hback, hstay⟩ :=
        (walk_below_iff hout path).mp ⟨hin, htarget⟩
      refine ⟨pre, c :: post, hpath, hback, ?_⟩
      -- what lies within the name lies within the directory
      intro path' hpath'
      rcases List.prefix_cons_iff.mp hpath' with rfl | ⟨rest, rfl, hrest⟩
      · exact List.prefix_refl _
      · refine List.IsPrefix.trans ?_ (hstay rest hrest)
        rw [target.enter_name hc]
        exact List.prefix_append _ _
  · rintro ⟨pre, post, rfl, hback, hstay⟩
    rw [walk_append, hback]
    exact hstay post (List.prefix_refl _)

/-- The directory above. The top is above itself. -/
def parent (dir : Dir) : Dir := dir.enter ".."

theorem parent_names (dir : Dir) : dir.parent.names = dir.names.dropLast := by
  unfold parent enter
  rw [dif_neg (by decide), if_pos rfl]

theorem parent_enter (dir : Dir) {c : String} (h : IsName c) : (dir.enter c).parent = dir := by
  refine Dir.ext ?_
  rw [parent_names, dir.enter_name h, List.dropLast_concat]

end Dir
