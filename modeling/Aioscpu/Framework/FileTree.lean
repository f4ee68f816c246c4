import Mathlib.Data.List.Nodup

/-! # Finite Trees of Directories and Files

  What a program sees of a directory: its entries in the order in which the
  system lists them, each a file or a directory again. Paths are the lists of
  names from the root.

  `walk` is `os.walk` from the top down, with a caller that may clear the
  directory names it is given and so keep the walk from going deeper.

  - `mem_collect_iff`: which files a walk comes to.
  - `collect_nodup`: each of them once.
  - `lookup_write`: what a written file changes.
-/

universe u

namespace FileTree

/-- A file. What cannot be read can still be written here. -/
structure File (β : Type u) where
  content : β
  readable : Bool
deriving DecidableEq, Repr

/-- The entries of a directory. -/
inductive Listing (β : Type u) where
  | nil
  | file (name : String) (f : File β) (rest : Listing β)
  | dir (name : String) (sub rest : Listing β)
deriving DecidableEq, Repr

namespace Listing

variable {β : Type u}

/-! ### Entries -/

/-- The names in a directory. -/
def names : Listing β → List String
  | nil => []
  | file name _ rest => name :: rest.names
  | dir name _ rest => name :: rest.names

/-- In every directory of the tree each name stands once. -/
def Unique : Listing β → Prop
  | nil => True
  | file name _ rest => name ∉ rest.names ∧ rest.Unique
  | dir name sub rest => name ∉ rest.names ∧ sub.Unique ∧ rest.Unique

instance Unique.decidable : ∀ l : Listing β, Decidable l.Unique
  | nil => inferInstanceAs (Decidable True)
  | file name _ rest =>
    have := Unique.decidable rest
    inferInstanceAs (Decidable (name ∉ rest.names ∧ rest.Unique))
  | dir name sub rest =>
    have := Unique.decidable sub
    have := Unique.decidable rest
    inferInstanceAs (Decidable (name ∉ rest.names ∧ sub.Unique ∧ rest.Unique))

/-- The files in a directory, with their names. -/
def files : Listing β → List (String × File β)
  | nil => []
  | file name f rest => (name, f) :: rest.files
  | dir _ _ rest => rest.files

/-- The file at a path. -/
def lookup : Listing β → List String → Option (File β)
  | nil, _ => none
  | file name f rest, path => if path = [name] then some f else rest.lookup path
  | dir name sub rest, path =>
    match path with
    | [] => none
    | head :: tail => if head = name then sub.lookup tail else rest.lookup path

theorem lookup_nil_path (l : Listing β) : l.lookup [] = none := by
  induction l with
  | nil => rfl
  | file name f rest ih => exact ih
  | dir name sub rest => rfl

/-- A path of a file begins with a name of the directory. -/
theorem head_mem_names {l : Listing β} {path : List String} {f : File β}
    (h : l.lookup path = some f) : ∃ head tail, path = head :: tail ∧ head ∈ l.names := by
  induction l generalizing path with
  | nil => cases h
  | file name f' rest ih =>
    unfold lookup at h
    split at h
    · next hpath => exact ⟨name, [], hpath, List.mem_cons_self⟩
    · obtain ⟨head, tail, hpath, hmem⟩ := ih h
      exact ⟨head, tail, hpath, List.mem_cons_of_mem _ hmem⟩
  | dir name sub rest _ ih =>
    cases path with
    | nil => cases h
    | cons head tail =>
      unfold lookup at h
      dsimp only at h
      split at h
      · next heq => exact ⟨head, tail, rfl, List.mem_cons.mpr (Or.inl heq)⟩
      · obtain ⟨head', tail', hpath, hmem⟩ := ih h
        exact ⟨head', tail', hpath, List.mem_cons_of_mem _ hmem⟩

/-! ### Walking -/

/-- The directories below the one at `path` that a walk comes to, each with the
    files in it. The directory names of those that meet `prune` are cleared. -/
def descend (prune : List String → Bool) (path : List String) :
    Listing β → List (List String × List (String × File β))
  | nil => []
  | file _ _ rest => rest.descend prune path
  | dir name sub rest =>
    ((path ++ [name], sub.files) ::
      if prune (path ++ [name]) then [] else sub.descend prune (path ++ [name])) ++
    rest.descend prune path

/-- `os.walk` of the whole tree. -/
def walk (prune : List String → Bool) (l : Listing β) :
    List (List String × List (String × File β)) :=
  ([], l.files) :: if prune [] then [] else l.descend prune []

/-- The paths of the files that a walk hands over in a directory, unless the
    caller passes over the directory. -/
def visit (prune : List String → Bool) (d : List String × List (String × File β)) :
    List (List String × File β) :=
  if prune d.1 then [] else d.2.map fun entry => (d.1 ++ [entry.1], entry.2)

/-- The files that a walk comes to, in another order. -/
def collect (prune : List String → Bool) (path : List String) :
    Listing β → List (List String × File β)
  | nil => []
  | file name f rest => (path ++ [name], f) :: rest.collect prune path
  | dir name sub rest =>
    (if prune (path ++ [name]) then [] else sub.collect prune (path ++ [name])) ++
    rest.collect prune path

theorem descend_perm (prune : List String → Bool) (path : List String) (l : Listing β) :
    ((l.files.map fun entry => (path ++ [entry.1], entry.2)) ++
      (l.descend prune path).flatMap (visit prune)).Perm (l.collect prune path) := by
  induction l generalizing path with
  | nil => exact List.Perm.refl _
  | file name f rest ih => exact (ih path).cons _
  | dir name sub rest ihsub ih =>
    -- the files of this directory come before those of its first one
    have hsub : (visit prune (path ++ [name], sub.files) ++
        (if prune (path ++ [name]) then [] else sub.descend prune (path ++ [name])).flatMap
          (visit prune)).Perm
        (if prune (path ++ [name]) then [] else sub.collect prune (path ++ [name])) := by
      unfold visit
      split
      · exact List.Perm.refl _
      · exact ihsub (path ++ [name])
    have happend := hsub.append (ih path)
    refine List.Perm.trans ?_ happend
    simp only [files, descend, List.cons_append, List.flatMap_cons, List.flatMap_append]
    rw [← List.append_assoc, ← List.append_assoc, ← List.append_assoc]
    refine List.Perm.append_right _ ?_
    rw [List.append_assoc]
    exact List.perm_append_comm

/-- A walk hands over each file that it comes to. -/
theorem walk_perm {prune : List String → Bool} (hroot : prune [] = false) (l : Listing β) :
    ((l.walk prune).flatMap (visit prune)).Perm (l.collect prune []) := by
  unfold walk
  simp only [hroot, List.flatMap_cons]
  have hvisit : visit prune ([], l.files) =
      l.files.map fun entry => ([] ++ [entry.1], entry.2) := by
    unfold visit
    rw [if_neg (by simp [hroot])]
  rw [hvisit]
  exact descend_perm prune [] l

/-- No directory on the way to the file has had its directory names cleared, or
    is one that the caller passes over. -/
def Open (prune : List String → Bool) : List String → List String → Prop
  | _, [] => True
  | _, [_] => True
  | path, name :: tail => prune (path ++ [name]) = false ∧ Open prune (path ++ [name]) tail

/-- The way into a directory. -/
theorem open_cons {prune : List String → Bool} {path tail : List String} {name : String}
    (htail : tail ≠ []) :
    Open prune path (name :: tail) ↔
      prune (path ++ [name]) = false ∧ Open prune (path ++ [name]) tail := by
  cases tail with
  | nil => exact absurd rfl htail
  | cons name' tail => exact Iff.rfl

theorem lookup_tail_ne {l : Listing β} {path : List String} {f : File β}
    (h : l.lookup path = some f) : path ≠ [] := by
  rintro rfl
  rw [lookup_nil_path] at h
  cases h

/-- A walk comes to the files that it has an open way to. -/
theorem mem_collect_iff {prune : List String → Bool} {path : List String} {l : Listing β}
    (hunique : l.Unique) {p : List String} {f : File β} :
    (p, f) ∈ l.collect prune path ↔
      ∃ q, p = path ++ q ∧ l.lookup q = some f ∧ Open prune path q := by
  induction l generalizing path with
  | nil =>
    refine iff_of_false List.not_mem_nil ?_
    rintro ⟨q, -, hlookup, -⟩
    cases hlookup
  | file name f' rest ih =>
    obtain ⟨hnot, hrest⟩ := hunique
    unfold collect
    rw [List.mem_cons, ih hrest]
    constructor
    · rintro (heq | ⟨q, rfl, hlookup, hopen⟩)
      · obtain ⟨rfl, rfl⟩ := Prod.mk.inj heq
        exact ⟨[name], rfl, if_pos rfl, trivial⟩
      · refine ⟨q, rfl, ?_, hopen⟩
        obtain ⟨head, tail, rfl, hmem⟩ := head_mem_names hlookup
        unfold lookup
        rw [if_neg, hlookup]
        intro heq
        -- a path below `rest` begins with another name
        exact hnot ((List.cons.inj heq).1 ▸ hmem)
    · rintro ⟨q, rfl, hlookup, hopen⟩
      unfold lookup at hlookup
      split at hlookup
      · next heq =>
        obtain rfl := Option.some.inj hlookup
        rw [heq]
        exact Or.inl rfl
      · exact Or.inr ⟨q, rfl, hlookup, hopen⟩
  | dir name sub rest ihsub ih =>
    obtain ⟨hnot, hsub, hrest⟩ := hunique
    unfold collect
    rw [List.mem_append, ih hrest]
    constructor
    · rintro (hmem | ⟨q, rfl, hlookup, hopen⟩)
      · split at hmem
        · cases hmem
        · next hprune =>
          obtain ⟨q, rfl, hlookup, hopen⟩ := (ihsub hsub).mp hmem
          refine ⟨name :: q, by simp, ?_, ?_⟩
          · unfold lookup
            exact (if_pos rfl).trans hlookup
          · exact (open_cons (lookup_tail_ne hlookup)).mpr ⟨by simpa using hprune, hopen⟩
      · refine ⟨q, rfl, ?_, hopen⟩
        obtain ⟨head, tail, rfl, hmem⟩ := head_mem_names hlookup
        unfold lookup
        refine (if_neg ?_).trans hlookup
        rintro rfl
        exact hnot hmem
    · rintro ⟨q, rfl, hlookup, hopen⟩
      cases q with
      | nil => cases hlookup
      | cons head tail =>
        unfold lookup at hlookup
        dsimp only at hlookup
        split at hlookup
        · next heq =>
          subst heq
          obtain ⟨hprune, hopen⟩ := (open_cons (lookup_tail_ne hlookup)).mp hopen
          refine Or.inl ?_
          rw [if_neg (by simp [hprune])]
          exact (ihsub hsub).mpr ⟨tail, by simp, hlookup, hopen⟩
        · exact Or.inr ⟨_, rfl, hlookup, hopen⟩

/-- A walk comes to each file once. -/
theorem collect_nodup {prune : List String → Bool} {path : List String} {l : Listing β}
    (hunique : l.Unique) : ((l.collect prune path).map Prod.fst).Nodup := by
  induction l generalizing path with
  | nil => exact List.nodup_nil
  | file name f rest ih =>
    obtain ⟨hnot, hrest⟩ := hunique
    refine List.nodup_cons.mpr ⟨fun hmem => ?_, ih hrest⟩
    obtain ⟨⟨p, f'⟩, hmem, heq⟩ := List.mem_map.mp hmem
    obtain ⟨q, rfl, hlookup, -⟩ := (mem_collect_iff hrest).mp hmem
    obtain ⟨head, tail, rfl, hhead⟩ := head_mem_names hlookup
    have hq := List.append_cancel_left heq
    exact hnot ((List.cons.inj hq).1 ▸ hhead)
  | dir name sub rest ihsub ih =>
    obtain ⟨hnot, hsub, hrest⟩ := hunique
    unfold collect
    rw [List.map_append]
    refine List.Nodup.append ?_ (ih hrest) ?_
    · split
      · exact List.nodup_nil
      · exact ihsub hsub
    -- the paths of the directory begin with its name, and no other path does
    · intro p hp hp'
      obtain ⟨⟨_, f'⟩, hmem', rfl⟩ := List.mem_map.mp hp'
      obtain ⟨q', rfl, hlookup', -⟩ := (mem_collect_iff hrest).mp hmem'
      obtain ⟨head, tail, rfl, hhead⟩ := head_mem_names hlookup'
      obtain ⟨⟨p, f⟩, hmem, heq⟩ := List.mem_map.mp hp
      split at hmem
      · cases hmem
      · obtain ⟨q, rfl, -, -⟩ := (mem_collect_iff hsub).mp hmem
        have hq : name :: q = head :: tail := by
          have heq' : path ++ name :: q = path ++ head :: tail := by simpa using heq
          exact List.append_cancel_left heq'
        exact hnot ((List.cons.inj hq).1 ▸ hhead)

/-! ### Writing -/

/-- Directories down to a new file, as `os.makedirs` and `open` make them. -/
def fresh (c : β) : List String → Option (Listing β)
  | [] => none
  | [name] => some (file name ⟨c, true⟩ nil)
  | name :: tail => (fresh c tail).map fun sub => dir name sub nil

/-- `os.makedirs` of the directory of a path, and a write to the file there. It
    fails where a file is on the way or the path is a directory. -/
def write (c : β) : Listing β → List String → Option (Listing β)
  | nil, path => fresh c path
  | file name f rest, path =>
    if path = [name] then some (file name { f with content := c } rest)
    else if path.head? = some name then none
    else (rest.write c path).map (file name f)
  | dir name sub rest, path =>
    match path with
    | [] => none
    | head :: tail =>
      if head = name then (sub.write c tail).map fun sub => dir name sub rest
      else (rest.write c path).map (dir name sub)

theorem fresh_cons {c : β} {name : String} {tail : List String} (htail : tail ≠ []) :
    fresh c (name :: tail) = (fresh c tail).map fun sub => dir name sub nil := by
  cases tail with
  | nil => exact absurd rfl htail
  | cons name' tail => rfl

theorem lookup_fresh {c : β} {path : List String} {l : Listing β} (h : fresh c path = some l)
    (q : List String) : l.lookup q = if q = path then some ⟨c, true⟩ else none := by
  induction path generalizing l q with
  | nil => cases h
  | cons name tail ih =>
    by_cases htail : tail = []
    · subst htail
      cases h
      rfl
    · rw [fresh_cons htail] at h
      obtain ⟨sub, hsub, rfl⟩ := Option.map_eq_some_iff.mp h
      cases q with
      | nil => rfl
      | cons head q =>
        unfold lookup
        dsimp only
        by_cases heq : head = name
        · subst heq
          rw [if_pos rfl, ih hsub q]
          simp
        · rw [if_neg heq, if_neg (fun h => heq (List.cons.inj h).1)]
          rfl

/-- A written file is there, as readable as it was, and the others stay. -/
theorem lookup_write {c : β} {l l' : Listing β} {path : List String}
    (h : l.write c path = some l') (q : List String) :
    l'.lookup q =
      if q = path then some ⟨c, ((l.lookup path).map File.readable).getD true⟩
      else l.lookup q := by
  induction l generalizing l' path q with
  | nil => exact lookup_fresh h q
  | file name f rest ih =>
    unfold write at h
    split at h
    · next hpath =>
      cases h
      subst hpath
      unfold lookup
      by_cases hq : q = [name]
      · simp [hq]
      · simp [hq]
    · next hpath =>
      split at h
      · cases h
      · obtain ⟨rest', hrest, rfl⟩ := Option.map_eq_some_iff.mp h
        -- the write goes on to what stands after this entry
        have htail := ih hrest q
        unfold lookup
        rw [htail]
        by_cases hq : q = [name]
        · subst hq
          rw [if_pos rfl, if_neg (Ne.symm hpath), if_pos rfl]
        · rw [if_neg hq, if_neg hpath, if_neg hq]
  | dir name sub rest ihsub ih =>
    cases path with
    | nil => cases h
    | cons head tail =>
      unfold write at h
      dsimp only at h
      split at h
      · next heq =>
        subst heq
        obtain ⟨sub', hsub, rfl⟩ := Option.map_eq_some_iff.mp h
        cases q with
        | nil => rfl
        | cons head' q =>
          unfold lookup
          dsimp only
          by_cases heq : head' = head
          · subst heq
            rw [if_pos rfl, if_pos rfl, if_pos rfl, ihsub hsub q]
            simp
          · rw [if_neg heq, if_neg heq, if_neg (fun h => heq (List.cons.inj h).1)]
      · next hne =>
        obtain ⟨rest', hrest, rfl⟩ := Option.map_eq_some_iff.mp h
        have htail := ih hrest q
        cases q with
        | nil => rfl
        | cons head' q =>
          unfold lookup
          dsimp only
          rw [if_neg hne, htail]
          by_cases heq : head' = name
          · subst heq
            rw [if_pos rfl, if_pos rfl, if_neg (fun h => hne (List.cons.inj h).1.symm)]
          · rw [if_neg heq, if_neg heq]

/-- A file that is there can be written. -/
theorem exists_write (c : β) {l : Listing β} (hunique : l.Unique) {path : List String}
    {f : File β} (h : l.lookup path = some f) : ∃ l', l.write c path = some l' := by
  induction l generalizing path with
  | nil => cases h
  | file name f' rest ih =>
    obtain ⟨hnot, hrest⟩ := hunique
    unfold lookup at h
    unfold write
    split at h
    · next hpath => exact ⟨_, if_pos hpath⟩
    · next hpath =>
      -- the file that is there stands after this one, so its path begins otherwise
      have hhead : path.head? ≠ some name := by
        obtain ⟨head, tail, rfl, hmem⟩ := head_mem_names h
        rintro heq
        exact hnot (Option.some.inj heq ▸ hmem)
      obtain ⟨rest', hwrite⟩ := ih hrest h
      exact ⟨_, by rw [if_neg hpath, if_neg hhead, hwrite]; rfl⟩
  | dir name sub rest ihsub ih =>
    obtain ⟨-, hsub, hrest⟩ := hunique
    cases path with
    | nil => cases h
    | cons head tail =>
      unfold lookup at h
      unfold write
      dsimp only at h ⊢
      split at h
      · next heq =>
        obtain ⟨sub', hwrite⟩ := ihsub hsub h
        exact ⟨_, by rw [if_pos heq, hwrite]; rfl⟩
      · next hne =>
        obtain ⟨rest', hwrite⟩ := ih hrest h
        exact ⟨_, by rw [if_neg hne, hwrite]; rfl⟩

theorem fresh_spec {c : β} {path : List String} {l : Listing β} (h : fresh c path = some l) :
    l.Unique ∧ ∀ name ∈ l.names, path.head? = some name := by
  induction path generalizing l with
  | nil => cases h
  | cons name tail ih =>
    by_cases htail : tail = []
    · subst htail
      cases h
      exact ⟨⟨List.not_mem_nil, trivial⟩, fun _ hn => congrArg some (List.mem_singleton.mp hn).symm⟩
    · rw [fresh_cons htail] at h
      obtain ⟨sub, hsub, rfl⟩ := Option.map_eq_some_iff.mp h
      exact ⟨⟨List.not_mem_nil, (ih hsub).1, trivial⟩,
        fun _ hn => congrArg some (List.mem_singleton.mp hn).symm⟩

/-- A write adds no name but the first one of its path. -/
theorem write_names {c : β} {l l' : Listing β} {path : List String}
    (h : l.write c path = some l') {name : String} (hname : name ∈ l'.names) :
    name ∈ l.names ∨ path.head? = some name := by
  induction l generalizing l' with
  | nil => exact Or.inr ((fresh_spec h).2 name hname)
  | file m f rest ih =>
    unfold write at h
    split at h
    · cases h
      exact Or.inl hname
    · split at h
      · cases h
      · obtain ⟨rest', hrest, rfl⟩ := Option.map_eq_some_iff.mp h
        rcases List.mem_cons.mp hname with rfl | hname
        · exact Or.inl List.mem_cons_self
        · exact (ih hrest hname).imp_left (List.mem_cons_of_mem _)
  | dir m sub rest _ ih =>
    cases path with
    | nil => cases h
    | cons head tail =>
      unfold write at h
      dsimp only at h
      split at h
      · obtain ⟨sub', -, rfl⟩ := Option.map_eq_some_iff.mp h
        exact Or.inl hname
      · obtain ⟨rest', hrest, rfl⟩ := Option.map_eq_some_iff.mp h
        rcases List.mem_cons.mp hname with rfl | hname
        · exact Or.inl List.mem_cons_self
        · exact (ih hrest hname).imp_left (List.mem_cons_of_mem _)

theorem write_unique {c : β} {l l' : Listing β} {path : List String} (hunique : l.Unique)
    (h : l.write c path = some l') : l'.Unique := by
  induction l generalizing l' path with
  | nil => exact (fresh_spec h).1
  | file name f rest ih =>
    obtain ⟨hnot, hrest⟩ := hunique
    unfold write at h
    split at h
    · cases h
      exact ⟨hnot, hrest⟩
    · split at h
      · cases h
      · next hhead =>
        obtain ⟨rest', hwrite, rfl⟩ := Option.map_eq_some_iff.mp h
        exact ⟨fun hname => (write_names hwrite hname).elim hnot hhead, ih hrest hwrite⟩
  | dir name sub rest ihsub ih =>
    obtain ⟨hnot, hsub, hrest⟩ := hunique
    cases path with
    | nil => cases h
    | cons head tail =>
      unfold write at h
      dsimp only at h
      split at h
      · obtain ⟨sub', hwrite, rfl⟩ := Option.map_eq_some_iff.mp h
        exact ⟨hnot, ihsub hsub hwrite, hrest⟩
      · next hne =>
        obtain ⟨rest', hwrite, rfl⟩ := Option.map_eq_some_iff.mp h
        refine ⟨fun hname => ?_, hsub, ih hrest hwrite⟩
        exact (write_names hwrite hname).elim hnot fun heq => hne (Option.some.inj heq)

end Listing

end FileTree

/-- A tree of directories and files. -/
structure FileTree (β : Type u) where
  listing : FileTree.Listing β
  unique : listing.Unique

namespace FileTree

variable {β : Type u}

/-- The file at a path. -/
def lookup (t : FileTree β) (path : List String) : Option (File β) := t.listing.lookup path

/-- `os.makedirs` of the directory of a path, and a write to the file there. -/
def write (c : β) (t : FileTree β) (path : List String) : Option (FileTree β) :=
  match h : t.listing.write c path with
  | none => none
  | some l => some ⟨l, Listing.write_unique t.unique h⟩

theorem lookup_write {c : β} {t t' : FileTree β} {path : List String}
    (h : t.write c path = some t') (q : List String) :
    t'.lookup q =
      if q = path then some ⟨c, ((t.lookup path).map File.readable).getD true⟩
      else t.lookup q := by
  unfold write at h
  split at h
  · cases h
  · next hwrite =>
    cases h
    exact Listing.lookup_write hwrite q

theorem exists_write (c : β) {t : FileTree β} {path : List String} {f : File β}
    (h : t.lookup path = some f) : ∃ t', t.write c path = some t' := by
  obtain ⟨l, hwrite⟩ := Listing.exists_write c t.unique h
  unfold write
  split
  · next hnone =>
    rw [hwrite] at hnone
    cases hnone
  · exact ⟨_, rfl⟩

end FileTree
