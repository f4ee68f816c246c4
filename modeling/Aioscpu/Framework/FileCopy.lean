import Aioscpu.Framework.FileSystem
import Aioscpu.Framework.Folds
import Aioscpu.Framework.PyStr
import Mathlib.Data.List.Sort

/-! # Copying and Removing Trees of Files

  The operations of `shutil` and `os` that take a whole directory: what lies
  below it, a copy of that at another place, its removal, and the walk through
  it. A tree of files is a file system of its own, with the directory at the
  top.

  - `get_sub`, `get_plant`, `get_remove`, `get_without`: what is where after
    each of them.
  - `copytree_get`, `rmtree_get`, `makedirs_get`, `copy2_get`: the same for the
    calls, where they return.
-/

universe u

namespace Dir

/-- The place that a path from the directory leads to. -/
def join (dir rel : Dir) : Dir where
  names := dir.names ++ rel.names
  isName := fun c hc => (List.mem_append.mp hc).elim (dir.isName c) (rel.isName c)

@[simp] theorem join_names (dir rel : Dir) : (dir.join rel).names = dir.names ++ rel.names := rfl

@[simp] theorem join_top (dir : Dir) : dir.join top = dir := Dir.ext (List.append_nil _)

@[simp] theorem top_join (dir : Dir) : top.join dir = dir := Dir.ext (List.nil_append _)

theorem join_assoc (dir rel rel' : Dir) : (dir.join rel).join rel' = dir.join (rel.join rel') :=
  Dir.ext (List.append_assoc ..)

theorem join_inj {dir rel rel' : Dir} : dir.join rel = dir.join rel' ↔ rel = rel' := by
  constructor
  · intro h
    exact Dir.ext (List.append_cancel_left (congrArg names h))
  · rintro rfl
    rfl

theorem join_enter (dir rel : Dir) {c : String} (h : IsName c) :
    dir.join (rel.enter c) = (dir.join rel).enter c := by
  refine Dir.ext ?_
  rw [join_names, rel.enter_name h, (dir.join rel).enter_name h, join_names, List.append_assoc]

theorem join_eq_self_iff {dir rel : Dir} : dir.join rel = dir ↔ rel = top := by
  constructor
  · intro h
    have hnames : dir.names ++ rel.names = dir.names := congrArg names h
    exact Dir.ext (List.append_right_eq_self.mp hnames)
  · rintro rfl
    exact join_top dir

theorem within_iff {dir above : Dir} : dir.Within above ↔ ∃ rel, dir = above.join rel := by
  constructor
  · rintro ⟨rest, hrest⟩
    have hname : ∀ c ∈ rest, IsName c := fun c hc =>
      dir.isName c (hrest ▸ List.mem_append_right _ hc)
    exact ⟨⟨rest, hname⟩, Dir.ext hrest.symm⟩
  · rintro ⟨rel, rfl⟩
    exact List.prefix_append _ _

theorem within_join (dir rel : Dir) : (dir.join rel).Within dir := within_iff.mpr ⟨rel, rfl⟩

theorem within_refl (dir : Dir) : dir.Within dir := List.prefix_refl _

theorem Within.trans {a b c : Dir} (h : a.Within b) (h' : b.Within c) : a.Within c :=
  List.IsPrefix.trans h' h

/-- Two directories with a place in common lie one within the other. -/
theorem within_or_within {x a b : Dir} (ha : x.Within a) (hb : x.Within b) :
    a.Within b ∨ b.Within a :=
  (List.prefix_or_prefix_of_prefix hb ha)

theorem join_within_join {dir rel rel' : Dir} :
    (dir.join rel).Within (dir.join rel') ↔ rel.Within rel' := by
  unfold Within
  rw [join_names, join_names]
  exact List.prefix_append_right_inj _

theorem parent_join (dir : Dir) {rel : Dir} (h : rel ≠ top) :
    (dir.join rel).parent = dir.join rel.parent := by
  refine Dir.ext ?_
  have hne : rel.names ≠ [] := fun hnil => h (Dir.ext hnil)
  rw [parent_names, join_names, join_names, parent_names, List.dropLast_append_of_ne_nil hne]

/-- What is above a place within a directory lies within it too, or is above the directory. -/
theorem within_parent {x d : Dir} (h : x.parent.Within d) (htop : x ≠ top) :
    x.Within d ∧ x ≠ d := by
  obtain ⟨rel, hrel⟩ := within_iff.mp h
  have hlen := congrArg (fun dir => dir.names.length) hrel
  simp only [parent_names, join_names, List.length_append, List.length_dropLast] at hlen
  have hne : x.names ≠ [] := fun hnil => htop (Dir.ext hnil)
  have hpos := List.length_pos_iff.mpr hne
  refine ⟨?_, ?_⟩
  · refine List.IsPrefix.trans h ?_
    rw [parent_names]
    exact List.dropLast_prefix _
  · rintro rfl
    omega

/-- The path from a directory to a place within it. -/
def rel (above dir : Dir) : Option Dir :=
  if dir.Within above then
    some ⟨dir.names.drop above.names.length, fun c hc => dir.isName c (List.mem_of_mem_drop hc)⟩
  else none

theorem rel_eq_some_iff {above dir r : Dir} : above.rel dir = some r ↔ dir = above.join r := by
  unfold rel
  split
  · next h =>
    obtain ⟨r', rfl⟩ := within_iff.mp h
    have hdrop : (above.join r').names.drop above.names.length = r'.names := List.drop_left
    constructor
    · intro heq
      have hr : r = r' := by
        rw [← Option.some.inj heq]
        exact Dir.ext hdrop
      rw [hr]
    · intro heq
      obtain rfl := join_inj.mp heq
      exact congrArg some (Dir.ext hdrop)
  · next h =>
    refine iff_of_false (by simp) ?_
    rintro rfl
    exact h (within_join above r)

@[simp] theorem rel_join (above r : Dir) : above.rel (above.join r) = some r :=
  rel_eq_some_iff.mpr rfl

theorem rel_eq_none_iff {above dir : Dir} : above.rel dir = none ↔ ¬ dir.Within above := by
  unfold rel
  split
  · next h => exact iff_of_false (by simp) (not_not.mpr h)
  · next h => exact iff_of_true rfl h

/-- `os.path.basename`. -/
def basename (dir : Dir) : String := dir.names.getLastD ""

theorem basename_enter (dir : Dir) {c : String} (h : IsName c) : (dir.enter c).basename = c := by
  unfold basename
  rw [enter_name dir h, List.getLastD_concat]

theorem enter_basename {dir : Dir} (h : dir ≠ top) : dir.parent.enter dir.basename = dir := by
  have hne : dir.names ≠ [] := fun hnil => h (Dir.ext hnil)
  have hlast : dir.basename = dir.names.getLast hne := by
    unfold basename
    rw [List.getLastD_eq_getLast?, List.getLast?_eq_some_getLast hne]
    rfl
  have hname : IsName dir.basename := by
    rw [hlast]
    exact dir.isName _ (List.getLast_mem hne)
  refine Dir.ext ?_
  rw [enter_name _ hname, parent_names, hlast, List.dropLast_append_getLast hne]

end Dir

namespace FileSystem

variable {β : Type u}

theorem get_of_entry {fs : FileSystem β} {d : Dir} (h : d ≠ Dir.top) :
    fs.get d = fs.entries.get d := by
  unfold get
  rw [if_neg h]

@[simp] theorem get_top (fs : FileSystem β) : fs.get Dir.top = some .dir := if_pos rfl

/-- Everything on the way to an entry is a directory. -/
theorem isdir_above {fs : FileSystem β} {d above : Dir} {e : Inode β} (h : fs.get d = some e)
    (hin : d.Within above) (hne : d ≠ above) : fs.get above = some .dir := by
  obtain ⟨rel, rfl⟩ := Dir.within_iff.mp hin
  obtain ⟨names, hnames⟩ := rel
  induction names using List.reverseRecOn generalizing e with
  | nil => exact absurd (Dir.join_top above) hne
  | append_singleton names c ih =>
    have hparent := isdir_parent h
    have hrel : (⟨names ++ [c], hnames⟩ : Dir) ≠ Dir.top := by
      intro heq
      have := congrArg Dir.names heq
      simp [Dir.top] at this
    have hprefix : ∀ c' ∈ names, IsName c' := fun c' hc' => hnames c' (List.mem_append_left _ hc')
    have hup : (⟨names ++ [c], hnames⟩ : Dir).parent = ⟨names, hprefix⟩ := by
      refine Dir.ext ?_
      rw [Dir.parent_names, List.dropLast_concat]
    rw [Dir.parent_join above hrel, hup, isdir_iff] at hparent
    -- the directory above is the one asked for, or lies below it as well
    by_cases heq : above.join ⟨names, hprefix⟩ = above
    · rwa [heq] at hparent
    · exact ih hprefix hparent (Dir.within_join ..) heq

/-! ### Trees -/

/-- What lies below a directory, as a tree. -/
def sub (fs : FileSystem β) (d : Dir) : FileSystem β where
  entries := fs.entries.rename (fun x => (d.rel x).filter fun r => decide (r ≠ Dir.top)) (by
    intro k k' x hk hk'
    rw [Option.filter_eq_some_iff, Dir.rel_eq_some_iff] at hk hk'
    rw [hk.1, hk'.1])
  closed := by
    intro r e hr
    obtain ⟨x, hx, hget⟩ := Dict.get_rename_iff.mp hr
    obtain ⟨hrel, htop⟩ := Option.filter_eq_some_iff.mp hx
    obtain rfl := Dir.rel_eq_some_iff.mp hrel
    have hr : r ≠ Dir.top := of_decide_eq_true htop
    refine ⟨hr, ?_⟩
    by_cases hparent : r.parent = Dir.top
    · exact Or.inl hparent
    · refine Or.inr (Dict.get_rename_iff.mpr ⟨d.join r.parent, ?_, ?_⟩)
      · rw [Dir.rel_join]
        exact Option.filter_eq_some_iff.mpr ⟨rfl, decide_eq_true hparent⟩
      · obtain ⟨-, hup⟩ := fs.closed _ e hget
        rw [Dir.parent_join d hr] at hup
        refine hup.resolve_left fun heq => hparent ?_
        have hnames := congrArg Dir.names heq
        exact Dir.ext (List.append_eq_nil_iff.mp hnames).2

theorem get_sub {fs : FileSystem β} {d : Dir} (h : fs.isdir d = true) (r : Dir) :
    (fs.sub d).get r = fs.get (d.join r) := by
  by_cases hr : r = Dir.top
  · rw [hr, get_top, Dir.join_top, isdir_iff.mp h]
  · have hjoin : d.join r ≠ Dir.top := fun heq =>
      hr (Dir.ext (List.append_eq_nil_iff.mp (congrArg Dir.names heq)).2)
    rw [get_of_entry hr, get_of_entry hjoin]
    refine Option.ext fun e => ?_
    constructor
    · intro hget
      obtain ⟨x, hx, hentry⟩ := Dict.get_rename_iff.mp hget
      obtain ⟨hrel, -⟩ := Option.filter_eq_some_iff.mp hx
      rw [← Dir.rel_eq_some_iff.mp hrel, hentry]
    · intro hentry
      refine Dict.get_rename_iff.mpr ⟨d.join r, ?_, hentry⟩
      rw [Dir.rel_join]
      exact Option.filter_eq_some_iff.mpr ⟨rfl, decide_eq_true hr⟩

/-- The tree without the entries that have an ignored name, and all below them. -/
def without (ignore : String → Bool) (fs : FileSystem β) : FileSystem β where
  entries := fs.entries.filterKeys fun x => !x.names.any ignore
  closed := by
    intro x e hx
    rw [Dict.get_filterKeys] at hx
    split at hx
    · next hkeep =>
      obtain ⟨htop, hparent⟩ := fs.closed x e hx
      refine ⟨htop, hparent.imp_right fun hparent => ?_⟩
      rw [Dict.get_filterKeys, if_pos, hparent]
      rw [Bool.not_eq_true', List.any_eq_false] at hkeep ⊢
      intro c hc
      rw [Dir.parent_names] at hc
      exact hkeep c (List.mem_of_mem_dropLast hc)
    · cases hx

theorem get_without (ignore : String → Bool) (fs : FileSystem β) (x : Dir) :
    (fs.without ignore).get x = if x.names.any ignore then none else fs.get x := by
  by_cases htop : x = Dir.top
  · rw [htop, get_top, get_top]
    rfl
  · rw [get_of_entry htop, get_of_entry htop]
    show (fs.entries.filterKeys _).get x = _
    rw [Dict.get_filterKeys]
    cases x.names.any ignore <;> rfl

/-- A place and all below it is removed. -/
def remove (fs : FileSystem β) (d : Dir) : FileSystem β where
  entries := fs.entries.filterKeys fun x => ¬ x.Within d
  closed := by
    intro x e hx
    rw [Dict.get_filterKeys] at hx
    split at hx
    · next hout =>
      obtain ⟨htop, hparent⟩ := fs.closed x e hx
      refine ⟨htop, hparent.imp_right fun hparent => ?_⟩
      rw [Dict.get_filterKeys, if_pos, hparent]
      rw [decide_eq_true_eq] at hout ⊢
      exact fun hin => hout (Dir.within_parent hin htop).1
    · cases hx

theorem get_remove {fs : FileSystem β} {d : Dir} (hd : d ≠ Dir.top) (x : Dir) :
    (fs.remove d).get x = if x.Within d then none else fs.get x := by
  by_cases htop : x = Dir.top
  · have hout : ¬ Dir.top.Within d := fun h => hd (Dir.ext (List.prefix_nil.mp h))
    rw [htop, get_top, get_top, if_neg hout]
  · rw [get_of_entry htop, get_of_entry htop]
    show (fs.entries.filterKeys _).get x = _
    rw [Dict.get_filterKeys]
    by_cases hin : x.Within d
    · simp [hin]
    · simp [hin]

/-- A place for something in a directory. -/
structure Room (fs : FileSystem β) (d : Dir) : Prop where
  below : d ≠ Dir.top
  parent : fs.isdir d.parent = true

instance (fs : FileSystem β) (d : Dir) : Decidable (fs.Room d) :=
  decidable_of_iff (d ≠ Dir.top ∧ fs.isdir d.parent = true)
    ⟨fun h => ⟨h.1, h.2⟩, fun h => ⟨h.below, h.parent⟩⟩

theorem room_of_new {fs : FileSystem β} {d : Dir} (hnew : fs.get d = none)
    (hparent : fs.isdir d.parent = true) : fs.Room d := by
  refine ⟨?_, hparent⟩
  rintro rfl
  rw [get_top] at hnew
  cases hnew

/-- The entries of a tree, at a place. -/
def planted (d : Dir) (tree : FileSystem β) : Dict Dir (Inode β) :=
  tree.entries.rename (fun r => some (d.join r)) (by
    intro k k' x hk hk'
    exact Dir.join_inj.mp ((Option.some.inj hk).trans (Option.some.inj hk').symm))

theorem get_planted {d : Dir} {tree : FileSystem β} {x : Dir} {e : Inode β} :
    (planted d tree).get x = some e ↔ ∃ r, r ≠ Dir.top ∧ x = d.join r ∧ tree.get r = some e := by
  unfold planted
  rw [Dict.get_rename_iff]
  constructor
  · rintro ⟨r, hr, hget⟩
    have htop := (tree.closed r e hget).1
    exact ⟨r, htop, (Option.some.inj hr).symm, (get_of_entry htop).trans hget⟩
  · rintro ⟨r, htop, rfl, hget⟩
    exact ⟨r, rfl, (get_of_entry htop).symm.trans hget⟩

/-- What a directory is after the entries of a tree have been put below it. -/
def grow (fs : FileSystem β) (d : Dir) (tree : FileSystem β) (hroom : fs.Room d) :
    Dict Dir (Inode β) :=
  ((fs.remove d).entries.set d .dir).union (planted d tree) (by
    intro x hx hplanted
    obtain ⟨e', hget'⟩ := (Dict.mem_keys_iff ..).mp hplanted
    obtain ⟨r, htop, rfl, -⟩ := get_planted.mp hget'
    obtain ⟨e, hget⟩ := (Dict.mem_keys_iff ..).mp hx
    have hne : d.join r ≠ d := fun heq => htop (Dir.join_eq_self_iff.mp heq)
    rw [Dict.get_set_of_ne hne] at hget
    have hbelow : d.join r ≠ Dir.top := fun heq =>
      hroom.below (Dir.ext (List.append_eq_nil_iff.mp (congrArg Dir.names heq)).1)
    rw [← get_of_entry hbelow, get_remove hroom.below, if_pos (Dir.within_join d r)] at hget
    cases hget)

theorem get_grow {fs : FileSystem β} {d : Dir} {tree : FileSystem β} (hroom : fs.Room d)
    {x : Dir} {e : Inode β} :
    (fs.grow d tree hroom).get x = some e ↔
      (∃ r, x = d.join r ∧ tree.get r = some e) ∨ ¬ x.Within d ∧ fs.entries.get x = some e := by
  unfold grow
  rw [Dict.get_union_iff, get_planted, Dict.get_set]
  by_cases hin : x.Within d
  · obtain ⟨r, rfl⟩ := Dir.within_iff.mp hin
    by_cases hr : r = Dir.top
    · -- the directory itself
      subst hr
      rw [Dir.join_top, if_pos rfl]
      constructor
      · rintro (h | ⟨r, htop, hjoin, -⟩)
        · exact Or.inl ⟨Dir.top, (Dir.join_top d).symm, by rw [get_top, h]⟩
        · exact absurd (Dir.join_eq_self_iff.mp hjoin.symm) htop
      · rintro (⟨r, hjoin, hget⟩ | ⟨hout, -⟩)
        · obtain rfl := Dir.join_eq_self_iff.mp hjoin.symm
          rw [get_top] at hget
          exact Or.inl hget
        · exact absurd (Dir.within_refl d) hout
    · have hne : d.join r ≠ d := fun heq => hr (Dir.join_eq_self_iff.mp heq)
      have hbelow : d.join r ≠ Dir.top := fun heq =>
        hroom.below (Dir.ext (List.append_eq_nil_iff.mp (congrArg Dir.names heq)).1)
      rw [if_neg hne, ← get_of_entry hbelow, get_remove hroom.below, if_pos hin]
      constructor
      · rintro (h | ⟨r', -, hjoin, hget⟩)
        · cases h
        · exact Or.inl ⟨r', hjoin, hget⟩
      · rintro (⟨r', hjoin, hget⟩ | ⟨hout, -⟩)
        · refine Or.inr ⟨r', ?_, hjoin, hget⟩
          obtain rfl := Dir.join_inj.mp hjoin
          exact hr
        · exact absurd hin hout
  · have hne : x ≠ d := by
      rintro rfl
      exact hin (Dir.within_refl x)
    rw [if_neg hne]
    have hkeep : (fs.remove d).entries.get x = fs.entries.get x := by
      show (fs.entries.filterKeys _).get x = _
      rw [Dict.get_filterKeys, if_pos (decide_eq_true hin)]
    rw [hkeep]
    constructor
    · rintro (h | ⟨r, -, rfl, -⟩)
      · exact Or.inr ⟨hin, h⟩
      · exact absurd (Dir.within_join d r) hin
    · rintro (⟨r, rfl, -⟩ | ⟨-, h⟩)
      · exact absurd (Dir.within_join d r) hin
      · exact Or.inl h

/-- A tree in the place of whatever is there. -/
def plant (fs : FileSystem β) (d : Dir) (tree : FileSystem β) (hroom : fs.Room d) :
    FileSystem β where
  entries := fs.grow d tree hroom
  closed := by
    intro x e hx
    rcases (get_grow hroom).mp hx with ⟨r, rfl, hget⟩ | ⟨hout, hget⟩
    · refine ⟨fun heq => hroom.below (Dir.ext (List.append_eq_nil_iff.mp
        (congrArg Dir.names heq)).1), ?_⟩
      by_cases hr : r = Dir.top
      · -- the place above the tree is a directory that stays
        subst hr
        rw [Dir.join_top]
        by_cases hparent : d.parent = Dir.top
        · exact Or.inl hparent
        · refine Or.inr ((get_grow hroom).mpr (Or.inr ⟨fun hin => ?_, ?_⟩))
          · exact (Dir.within_parent hin hroom.below).2 rfl
          · rw [← get_of_entry hparent]
            exact isdir_iff.mp hroom.parent
      · refine Or.inr ((get_grow hroom).mpr (Or.inl ⟨r.parent, Dir.parent_join d hr, ?_⟩))
        exact isdir_iff.mp (isdir_parent hget)
    · obtain ⟨htop, hparent⟩ := fs.closed x e hget
      refine ⟨htop, hparent.imp_right fun hparent => (get_grow hroom).mpr (Or.inr ⟨?_, hparent⟩)⟩
      intro hin
      exact hout (Dir.within_parent hin htop).1

theorem get_plant (fs : FileSystem β) (d : Dir) (tree : FileSystem β) (hroom : fs.Room d)
    (x : Dir) :
    (fs.plant d tree hroom).get x =
      match d.rel x with
      | some r => tree.get r
      | none => fs.get x := by
  by_cases htop : x = Dir.top
  · have hout : d.rel x = none := by
      rw [Dir.rel_eq_none_iff, htop]
      exact fun h => hroom.below (Dir.ext (List.prefix_nil.mp h))
    rw [hout, htop, get_top, get_top]
  · rw [get_of_entry htop]
    refine Option.ext fun e => ?_
    refine (get_grow hroom).trans ?_
    cases hrel : d.rel x with
    | some r =>
      obtain rfl := Dir.rel_eq_some_iff.mp hrel
      constructor
      · rintro (⟨r', hjoin, hget⟩ | ⟨hout, -⟩)
        · obtain rfl := Dir.join_inj.mp hjoin
          exact hget
        · exact absurd (Dir.within_join d r) hout
      · exact fun hget => Or.inl ⟨r, rfl, hget⟩
    | none =>
      have hout := Dir.rel_eq_none_iff.mp hrel
      rw [get_of_entry htop]
      constructor
      · rintro (⟨r, rfl, -⟩ | ⟨-, hget⟩)
        · exact absurd (Dir.within_join d r) hout
        · exact hget
      · exact fun hget => Or.inr ⟨hout, hget⟩

/-! ### Calls -/

/-- What `makedirs` makes: directories on the way. -/
theorem makedirs_get {fs fs' : FileSystem β} {dir : Dir} {path : List String} {ok : Bool}
    (h : fs.makedirs dir path = (fs', ok)) (x : Dir) :
    fs'.get x = fs.get x ∨
      fs.get x = none ∧ fs'.get x = some .dir ∧ ∃ pre, pre <+: path ∧ x = dir.walk pre := by
  induction path generalizing fs dir with
  | nil =>
    obtain ⟨rfl, rfl⟩ := Prod.mk.inj h
    exact Or.inl rfl
  | cons c path ih =>
    have hlater : ∀ pre, pre <+: path → ∃ pre', pre' <+: c :: path ∧
        (dir.enter c).walk pre = dir.walk pre' := fun pre hpre =>
      ⟨c :: pre, List.cons_prefix_cons.mpr ⟨rfl, hpre⟩, rfl⟩
    unfold makedirs at h
    split at h
    · obtain ⟨rfl, rfl⟩ := Prod.mk.inj h
      exact Or.inl rfl
    · split at h
      · refine (ih h).imp_right ?_
        rintro ⟨hnew, hdir, pre, hpre, rfl⟩
        obtain ⟨pre', hpre', heq⟩ := hlater pre hpre
        exact ⟨hnew, hdir, pre', hpre', heq⟩
      · split at h
        · next fs₁ hmkdir =>
          obtain ⟨hnew, hget⟩ := mkdir_get hmkdir
          have hx := hget x
          by_cases heq : x = dir.enter c
          · -- the directory that is made here
            rw [if_pos heq] at hx
            have hstay : fs'.get x = some .dir := by
              rcases ih h with hsame | ⟨-, hdir, -⟩
              · rw [hsame, hx]
              · exact hdir
            exact Or.inr ⟨heq ▸ hnew, hstay, [c], by simp, heq⟩
          · rw [if_neg heq] at hx
            rw [← hx]
            refine (ih h).imp_right ?_
            rintro ⟨hnew', hdir, pre, hpre, rfl⟩
            obtain ⟨pre', hpre', heq'⟩ := hlater pre hpre
            exact ⟨hnew', hdir, pre', hpre', heq'⟩
        · obtain ⟨rfl, rfl⟩ := Prod.mk.inj h
          exact Or.inl rfl

/-- `os.makedirs(d, exist_ok=True)` at a place; `none` where it raises. -/
def mkdirs (fs : FileSystem β) (d : Dir) : Option (FileSystem β) :=
  match fs.makedirs Dir.top d.names with
  | (fs', true) => some fs'
  | (_, false) => none

theorem walk_top_names (d : Dir) : Dir.top.walk d.names = d := by
  refine Dir.ext ?_
  rw [Dir.walk_names _ d.isName]
  rfl

theorem mkdirs_get {fs fs' : FileSystem β} {d : Dir} (h : fs.mkdirs d = some fs') :
    (∀ x, fs'.get x = if d.Within x then some .dir else fs.get x) ∧
      ∀ x, fs'.file x = fs.file x := by
  unfold mkdirs at h
  split at h
  · next fs₁ hmake =>
    obtain rfl := Option.some.inj h
    obtain ⟨hext, hok⟩ := makedirs_spec (isdir_top fs) hmake
    have hdir := (hok rfl).2
    rw [walk_top_names, isdir_iff] at hdir
    refine ⟨fun x => ?_, hext.files⟩
    by_cases hin : d.Within x
    · rw [if_pos hin]
      by_cases heq : d = x
      · rw [← heq, hdir]
      · exact isdir_above hdir hin heq
    · rw [if_neg hin]
      refine (makedirs_get hmake x).resolve_right ?_
      rintro ⟨-, -, pre, hpre, rfl⟩
      refine hin ?_
      have hnames : (Dir.top.walk pre).names = pre := by
        rw [Dir.walk_names _ fun c hc => d.isName c (hpre.subset hc)]
        rfl
      show (Dir.top.walk pre).names <+: d.names
      rwa [hnames]
  · cases h

/-- `shutil.rmtree`; `none` where it raises. -/
def rmtree (fs : FileSystem β) (d : Dir) : Option (FileSystem β) :=
  if fs.isdir d then some (fs.remove d) else none

/-- `shutil.copytree(src, dst, ignore=...)` into a directory that is there; `none` where it
    raises: the target exists already, or the source is no directory. -/
def copytree (ignore : String → Bool) (fs : FileSystem β) (src dst : Dir) :
    Option (FileSystem β) :=
  if h : fs.isdir src = true ∧ fs.get dst = none ∧ fs.isdir dst.parent = true then
    some (fs.plant dst ((fs.sub src).without ignore) (room_of_new h.2.1 h.2.2))
  else none

theorem copytree_get {ignore : String → Bool} {fs fs' : FileSystem β} {src dst : Dir}
    (h : fs.copytree ignore src dst = some fs') :
    fs.isdir src = true ∧ fs.get dst = none ∧ ∀ x, fs'.get x =
      match dst.rel x with
      | some r => if r.names.any ignore then none else fs.get (src.join r)
      | none => fs.get x := by
  unfold copytree at h
  split at h
  · next hcan =>
    obtain rfl := Option.some.inj h
    refine ⟨hcan.1, hcan.2.1, fun x => ?_⟩
    rw [get_plant]
    cases dst.rel x with
    | some r => simp only [get_without, get_sub hcan.1]
    | none => rfl
  · cases h

theorem copytree_isSome {ignore : String → Bool} {fs : FileSystem β} {src dst : Dir} :
    (fs.copytree ignore src dst).isSome = true ↔
      fs.isdir src = true ∧ fs.get dst = none ∧ fs.isdir dst.parent = true := by
  unfold copytree
  split
  · next h => exact iff_of_true rfl h
  · next h => exact iff_of_false Bool.false_ne_true h

/-- `shutil.copy2`, which copies into a directory when the target is one; `none` where it
    raises. -/
def copy2 (fs : FileSystem β) (src dst : Dir) : Option (FileSystem β) :=
  (fs.file src).bind fun content =>
    fs.putFile (if fs.isdir dst then dst.enter src.basename else dst) content

/-! ### Walks -/

/-- The files in a directory. -/
def filesIn (fs : FileSystem β) (d : Dir) : List Dir :=
  fs.entries.keys.filter fun x => x.parent = d ∧ (fs.file x).isSome

/-- `os.walk` from the top down, with the names of the files in each directory. Directories
    with a name to skip are taken out of the lists. -/
def walk (fs : FileSystem β) (skip : String → Bool) (src : Dir) : List (Dir × List Dir) :=
  if fs.isdir src then
    let below := fs.entries.keys.filter fun x =>
      x.Below src ∧ fs.isdir x = true ∧ (src.rel x).all fun r => !r.names.any skip
    (src :: below.insertionSort fun a b => a.names ≤ b.names).map fun d => (d, fs.filesIn d)
  else []

/-- `sorted(root.rglob("*" + suffix))`, directories included. -/
def rglob (fs : FileSystem β) (suffix : String) : List Dir :=
  (fs.entries.keys.filter fun x => PyStr.endswith x.basename suffix).insertionSort fun a b =>
    a.names ≤ b.names

theorem file_ne_top {fs : FileSystem β} {x : Dir} {content : β} (h : fs.file x = some content) :
    x ≠ Dir.top := by
  rintro rfl
  rw [file_eq_some_iff, get_top] at h
  cases h

theorem mem_keys {fs : FileSystem β} {x : Dir} (htop : x ≠ Dir.top) :
    x ∈ fs.entries.keys ↔ fs.get x ≠ none := by
  rw [Dict.mem_keys_iff, get_of_entry htop, Option.ne_none_iff_exists']

theorem mem_filesIn {fs : FileSystem β} {d x : Dir} :
    x ∈ fs.filesIn d ↔ x.parent = d ∧ ∃ content, fs.file x = some content := by
  unfold filesIn
  rw [List.mem_filter, decide_eq_true_eq, Option.isSome_iff_exists]
  refine and_iff_right_of_imp ?_
  rintro ⟨-, content, hfile⟩
  rw [mem_keys (file_ne_top hfile), file_eq_some_iff.mp hfile]
  exact Option.some_ne_none _

theorem mem_walk {fs : FileSystem β} {skip : String → Bool} {src d : Dir} {names : List Dir} :
    (d, names) ∈ fs.walk skip src ↔
      names = fs.filesIn d ∧
        ∃ r, d = src.join r ∧ fs.isdir d = true ∧ r.names.any skip = false := by
  unfold walk
  split
  · next hsrc =>
    rw [List.mem_map]
    constructor
    · rintro ⟨d', hmem, heq⟩
      obtain ⟨rfl, rfl⟩ := Prod.mk.inj heq
      refine ⟨rfl, ?_⟩
      rcases List.mem_cons.mp hmem with rfl | hmem
      · exact ⟨Dir.top, (Dir.join_top _).symm, hsrc, rfl⟩
      · rw [List.mem_insertionSort, List.mem_filter, decide_eq_true_eq] at hmem
        obtain ⟨-, hbelow, hdir, hskip⟩ := hmem
        obtain ⟨r, rfl⟩ := Dir.within_iff.mp hbelow.1
        rw [Dir.rel_join] at hskip
        exact ⟨r, rfl, hdir, by simpa using hskip⟩
    · rintro ⟨rfl, r, rfl, hdir, hskip⟩
      refine ⟨src.join r, ?_, rfl⟩
      by_cases hr : r = Dir.top
      · rw [hr, Dir.join_top]
        exact List.mem_cons_self
      · refine List.mem_cons_of_mem _ ?_
        have hne : src.join r ≠ src := fun heq => hr (Dir.join_eq_self_iff.mp heq)
        have htop : src.join r ≠ Dir.top := fun heq =>
          hr (Dir.ext (List.append_eq_nil_iff.mp (congrArg Dir.names heq)).2)
        rw [List.mem_insertionSort, List.mem_filter, decide_eq_true_eq, Dir.rel_join, mem_keys htop,
          isdir_iff.mp hdir]
        exact ⟨Option.some_ne_none _, ⟨Dir.within_join src r, hne⟩, hdir, by simpa using hskip⟩
  · next hsrc =>
    refine iff_of_false List.not_mem_nil ?_
    rintro ⟨-, r, rfl, hdir, -⟩
    -- what is above a directory is one
    by_cases hr : src.join r = src
    · exact hsrc (hr ▸ hdir)
    · exact hsrc (isdir_iff.mpr (isdir_above (isdir_iff.mp hdir) (Dir.within_join src r) hr))

theorem mem_rglob {fs : FileSystem β} {suffix : String} {x : Dir} (htop : x ≠ Dir.top) :
    x ∈ fs.rglob suffix ↔ fs.get x ≠ none ∧ PyStr.endswith x.basename suffix = true := by
  unfold rglob
  rw [List.mem_insertionSort, List.mem_filter, mem_keys htop]

theorem rglob_ne_top {fs : FileSystem β} {suffix : String} {x : Dir} (h : x ∈ fs.rglob suffix) :
    x ≠ Dir.top := by
  unfold rglob at h
  rw [List.mem_insertionSort, List.mem_filter, Dict.mem_keys_iff] at h
  obtain ⟨⟨e, hget⟩, -⟩ := h
  exact (fs.closed x e hget).1

/-! ### Files -/

theorem file_congr {fs fs' : FileSystem β} {x y : Dir} (h : fs.get x = fs'.get y) :
    fs.file x = fs'.file y := by
  unfold file
  rw [h]

theorem isdir_congr {fs fs' : FileSystem β} {x y : Dir} (h : fs.get x = fs'.get y) :
    fs.isdir x = fs'.isdir y := by
  unfold isdir
  rw [h]

/-- A file is no directory. -/
theorem isdir_of_file {fs : FileSystem β} {x : Dir} {content : β} (h : fs.file x = some content) :
    fs.isdir x = false := by
  unfold isdir
  rw [file_eq_some_iff.mp h]

/-- Nothing lies below a file. -/
theorem not_within_file {fs : FileSystem β} {x d : Dir} {content : β} {e : Inode β}
    (hfile : fs.file d = some content) (hget : fs.get x = some e) (hin : x.Within d) : x = d := by
  by_contra hne
  have hdir := isdir_above hget hin hne
  rw [file_eq_some_iff.mp hfile] at hdir
  cases hdir

theorem putFile_file {fs fs' : FileSystem β} {d : Dir} {content : β}
    (h : fs.putFile d content = some fs') (x : Dir) :
    fs'.file x = if x = d then some content else fs.file x := by
  have hget := (putFile_get h).2 x
  by_cases heq : x = d
  · rw [if_pos heq] at hget ⊢
    rw [file_eq_some_iff, hget]
  · rw [if_neg heq] at hget ⊢
    exact file_congr hget

/-- A loop of `makedirs`. -/
theorem mkdirs_all_get {fs fs' : FileSystem β} {ds : List Dir}
    (h : ds.foldlM mkdirs fs = some fs') :
    (∀ x, fs'.get x = if ∃ d ∈ ds, d.Within x then some .dir else fs.get x) ∧
      ∀ x, fs'.file x = fs.file x := by
  refine foldlM_induction (P := fun pre u =>
    (∀ x, u.get x = if ∃ d ∈ pre, d.Within x then some .dir else fs.get x) ∧
      ∀ x, u.file x = fs.file x) h ⟨fun x => by simp, fun x => rfl⟩ ?_
  rintro pre d u u' - ⟨hget, hfile⟩ hmake
  obtain ⟨hget', hfile'⟩ := mkdirs_get hmake
  refine ⟨fun x => ?_, fun x => (hfile' x).trans (hfile x)⟩
  rw [hget', hget]
  by_cases hx : d.Within x
  · rw [if_pos hx, if_pos ⟨d, by simp, hx⟩]
  · rw [if_neg hx]
    refine if_congr ?_ rfl rfl
    constructor
    · rintro ⟨d', hd', hin⟩
      exact ⟨d', List.mem_append_left _ hd', hin⟩
    · rintro ⟨d', hd', hin⟩
      rcases List.mem_append.mp hd' with hd' | hd'
      · exact ⟨d', hd', hin⟩
      · exact absurd (List.mem_singleton.mp hd' ▸ hin) hx

end FileSystem
