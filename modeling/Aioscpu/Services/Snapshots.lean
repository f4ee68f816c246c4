import Aioscpu.Framework.FileCopy

/-! # Snapshots and Rollbacks of the Root Filesystem

  `snapshot` and `rollback` of `services/build_service.py`, on the files of the
  repository: the top of the file system is its root. The archive format is a
  parameter.

  A file operation fails where the files do not allow it, and where the
  environment lets it fail. A removal or a copy that the environment lets fail
  leaves what the environment says at its place: part of a tree, or nothing.
-/

namespace BuildService

variable {β : Type}

/-! ### Places -/

/-- `os.path.join(self._root, "rootfs")`. -/
def rootfs_path : Dir := Dir.top.enter "rootfs"

/-- `rootfs_path + ".pre_rollback"`. -/
def backup : Dir := Dir.top.enter "rootfs.pre_rollback"

/-- `os.path.join(self._root, "dist", "snapshots")`. -/
def snapshots_dir : Dir := (Dir.top.enter "dist").enter "snapshots"

/-- The path of an archive, below the root of the repository. -/
def tar_path (snapshot_id : String) : List String :=
  snapshots_dir.names ++ PyStr.split (snapshot_id ++ ".tar.gz") '/'

/-- The directory that `TemporaryDirectory` makes for a random text. -/
def tmp_dir (random : String) : Dir := Dir.top.enter ("tmp" ++ random)

/-! ### Archives -/

/-- `tarfile`, for archives of trees of files. -/
structure Tar (β : Type) where
  /-- `tar.add(rootfs_path, arcname="rootfs")`, for what is below the path. -/
  pack : FileSystem β → β
  /-- `tar.extractall`: what it leaves in an empty directory, and whether it returns. -/
  extract : β → FileSystem β × Bool

/-- What is below `rootfs/` in an archive. -/
def Tar.archived (tar : Tar β) (archive : β) : FileSystem β :=
  (tar.extract archive).1.sub (Dir.top.enter "rootfs")

/-! ### Snapshot -/

/-- `time.gmtime()`, to the second. -/
structure Gmtime where
  year : Nat
  month : Nat
  day : Nat
  hour : Nat
  minute : Nat
  second : Nat
deriving DecidableEq, Repr

/-- `%m` and its like. -/
def two_digits (n : Nat) : String := if n < 10 then "0" ++ n.repr else n.repr

/-- `time.strftime("%Y%m%dT%H%M%S", t)`. -/
def strftime (t : Gmtime) : String :=
  t.year.repr ++ two_digits t.month ++ two_digits t.day ++ "T" ++ two_digits t.hour ++
    two_digits t.minute ++ two_digits t.second

/-- `sid`, in `snapshot`. -/
def snapshot_id (t : Gmtime) (label : String) : String :=
  if label = "" then strftime t else strftime t ++ "_" ++ label

/-- `snapshot`, at a time; `none` where a file operation fails. -/
def snapshot (tar : Tar β) (t : Gmtime) (label : String) (fs : FileSystem β) :
    Option (FileSystem β) :=
  if fs.isdir rootfs_path then
    (fs.mkdirs snapshots_dir).bind fun fs' =>
      (fs'.write (tar_path (snapshot_id t label)) (tar.pack (fs.sub rootfs_path))).map Prod.fst
  else none

/-! ### Rollback -/

/-- The operations of a rollback that change files. -/
inductive Step where
  | extractall
  | rmtree_backup
  | copytree_backup
  | rmtree_rootfs
  | copytree_rootfs
deriving DecidableEq, Repr

/-- What the environment decides. -/
structure Env (β : Type) where
  /-- The random part of the name of the temporary directory. -/
  random : String
  /-- The operation that fails, and what is then at the place that it changes. -/
  fault : Option (Step × Option (FileSystem β))
  /-- The temporary directory after a removal that fails. -/
  cleanup : Option (Option (FileSystem β))

/-- The files after an operation that has left something else at a place. -/
def leave (fs : FileSystem β) (d : Dir) : Option (FileSystem β) → FileSystem β
  | none => fs.remove d
  | some tree => if hroom : fs.Room d then fs.plant d tree hroom else fs

/-- An operation on a place, and whether it returns. -/
def attempt (env : Env β) (step : Step) (d : Dir) (fs : FileSystem β)
    (op : Option (FileSystem β)) : FileSystem β × Bool :=
  match env.fault with
  | none => (op.getD fs, op.isSome)
  | some (faulty, left) =>
    if faulty = step then (leave fs d left, false) else (op.getD fs, op.isSome)

/-- The next operation, if the one before has returned. -/
def andThen (r : FileSystem β × Bool) (next : FileSystem β → FileSystem β × Bool) :
    FileSystem β × Bool :=
  if r.2 then next r.1 else r

/-- `if os.path.exists(backup): shutil.rmtree(backup)`. -/
def drop_backup (env : Env β) (fs : FileSystem β) : FileSystem β × Bool :=
  if fs.get backup = none then (fs, true)
  else attempt env .rmtree_backup backup fs (fs.rmtree backup)

/-- From the extracted tree on: the safety net, and the swap. -/
def swap (env : Env β) (extracted : Dir) (fs : FileSystem β) : FileSystem β × Bool :=
  andThen (drop_backup env fs) fun fs =>
  andThen (attempt env .copytree_backup backup fs
    (fs.copytree (fun _ => false) rootfs_path backup)) fun fs =>
  andThen (attempt env .rmtree_rootfs rootfs_path fs (fs.rmtree rootfs_path)) fun fs =>
  attempt env .copytree_rootfs rootfs_path fs
    (fs.copytree (fun _ => false) extracted rootfs_path)

/-- The body of the `with` block, for the temporary directory, and whether it ends without an
    exception or a return of a failure. -/
def restore (tar : Tar β) (env : Env β) (archive : β) (tmp : Dir) (fs : FileSystem β) :
    FileSystem β × Bool :=
  let extraction := tar.extract archive
  andThen (attempt env .extractall tmp fs (some (leave fs tmp (some extraction.1)))) fun fs =>
  if extraction.2 ∧ fs.isdir (tmp.enter "rootfs") then swap env (tmp.enter "rootfs") fs
  else (fs, false)

/-- The end of the `with` block: the temporary directory is removed. -/
def cleanup (env : Env β) (tmp : Dir) (r : FileSystem β × Bool) : FileSystem β × Bool :=
  match env.cleanup with
  | none => (r.1.remove tmp, r.2)
  | some left => (leave r.1 tmp left, false)

/-- `rollback`, with the value at `success`. -/
def rollback (tar : Tar β) (env : Env β) (snapshot_id : String) (fs : FileSystem β) :
    FileSystem β × Bool :=
  match fs.read (tar_path snapshot_id) with
  | none => (fs, false)
  | some (_, archive) =>
    match fs.mkdir (tmp_dir env.random) with
    | none => (fs, false)
    | some fs => cleanup env (tmp_dir env.random)
        (restore tar env archive (tmp_dir env.random) fs)

/-! ### Places are apart -/

theorem isName_of_toList {c : String} (head : Char) (tail : List Char)
    (h : c.toList = head :: tail) (hhead : head ≠ '.') : IsName c := by
  refine ⟨?_, ?_, ?_⟩
  · rintro rfl
    cases h
  · rintro rfl
    exact hhead (List.cons.inj h).1.symm
  · rintro rfl
    exact hhead (List.cons.inj h).1.symm

theorem tmp_toList (random : String) :
    ("tmp" ++ random).toList = 't' :: 'm' :: 'p' :: random.toList := by
  rw [String.toList_append]
  rfl

theorem isName_tmp (random : String) : IsName ("tmp" ++ random) :=
  isName_of_toList 't' _ (tmp_toList random) (by decide)

theorem rootfs_names : rootfs_path.names = ["rootfs"] := by decide

theorem backup_names : backup.names = ["rootfs.pre_rollback"] := by decide

theorem tmp_names (random : String) : (tmp_dir random).names = ["tmp" ++ random] :=
  Dir.top.enter_name (isName_tmp random)

theorem tmp_ne {random name : String} (h : name.toList.head? ≠ some 't') :
    name ≠ "tmp" ++ random := by
  rintro rfl
  rw [tmp_toList] at h
  exact h rfl

/-- Directories with different first names have no place in common. -/
theorem not_within {a b : Dir} {name name' : String} {rest rest' : List String}
    (ha : a.names = name :: rest) (hb : b.names = name' :: rest') (hne : name ≠ name') (x : Dir) :
    ¬ (a.join x).Within b := by
  intro h
  unfold Dir.Within at h
  rw [Dir.join_names, ha, hb, List.cons_append, List.cons_prefix_cons] at h
  exact hne h.1.symm

theorem rootfs_not_within_backup (x : Dir) : ¬ (rootfs_path.join x).Within backup :=
  not_within rootfs_names backup_names (by decide) x

theorem rootfs_not_within_tmp (random : String) (x : Dir) :
    ¬ (rootfs_path.join x).Within (tmp_dir random) :=
  not_within rootfs_names (tmp_names random) (tmp_ne (by decide)) x

theorem tmp_not_within_rootfs (random : String) (x : Dir) :
    ¬ ((tmp_dir random).join x).Within rootfs_path :=
  not_within (tmp_names random) rootfs_names (tmp_ne (by decide)).symm x

theorem tmp_not_within_backup (random : String) (x : Dir) :
    ¬ ((tmp_dir random).join x).Within backup :=
  not_within (tmp_names random) backup_names (tmp_ne (by decide)).symm x

/-! ### What each operation leaves alone -/

/-- Only what is within a directory differs. -/
def Frame (d : Dir) (fs fs' : FileSystem β) : Prop := ∀ x, ¬ x.Within d → fs'.get x = fs.get x

theorem Frame.refl (d : Dir) (fs : FileSystem β) : Frame d fs fs := fun _ _ => rfl

theorem Frame.trans {d : Dir} {fs fs' fs'' : FileSystem β} (h : Frame d fs fs')
    (h' : Frame d fs' fs'') : Frame d fs fs'' := fun x hx => (h' x hx).trans (h x hx)

theorem remove_frame {d : Dir} (hd : d ≠ Dir.top) (fs : FileSystem β) :
    Frame d fs (fs.remove d) := by
  intro x hx
  rw [FileSystem.get_remove hd, if_neg hx]

theorem rmtree_frame {d : Dir} (hd : d ≠ Dir.top) {fs fs' : FileSystem β}
    (h : fs.rmtree d = some fs') : Frame d fs fs' := by
  unfold FileSystem.rmtree at h
  split at h
  · obtain rfl := Option.some.inj h
    exact remove_frame hd fs
  · cases h

theorem copytree_frame {ignore : String → Bool} {src dst : Dir} {fs fs' : FileSystem β}
    (h : fs.copytree ignore src dst = some fs') : Frame dst fs fs' := by
  intro x hx
  rw [(FileSystem.copytree_get h).2.2, Dir.rel_eq_none_iff.mpr hx]

theorem leave_frame {d : Dir} (hd : d ≠ Dir.top) (fs : FileSystem β)
    (left : Option (FileSystem β)) : Frame d fs (leave fs d left) := by
  cases left with
  | none => exact remove_frame hd fs
  | some tree =>
    unfold leave
    dsimp only
    split
    · intro x hx
      rw [FileSystem.get_plant, Dir.rel_eq_none_iff.mpr hx]
    · exact Frame.refl d fs

theorem leave_get {d : Dir} {fs : FileSystem β} (hroom : fs.Room d)
    (left : Option (FileSystem β)) (x : Dir) :
    (leave fs d left).get (d.join x) = left.bind fun tree => tree.get x := by
  cases left with
  | none =>
    show (fs.remove d).get (d.join x) = none
    rw [FileSystem.get_remove hroom.below, if_pos (Dir.within_join d x)]
  | some tree =>
    unfold leave
    dsimp only
    rw [dif_pos hroom, FileSystem.get_plant, Dir.rel_join]
    rfl

/-- The environment lets the operation fail. -/
def Faulty (env : Env β) (step : Step) : Prop := ∃ left, env.fault = some (step, left)

theorem attempt_faulty {env : Env β} {step : Step} {left : Option (FileSystem β)}
    (h : env.fault = some (step, left)) (d : Dir) (fs : FileSystem β)
    (op : Option (FileSystem β)) : attempt env step d fs op = (leave fs d left, false) := by
  simp [attempt, h]

theorem attempt_sound {env : Env β} {step : Step} (h : ¬ Faulty env step) (d : Dir)
    (fs : FileSystem β) (op : Option (FileSystem β)) :
    attempt env step d fs op = (op.getD fs, op.isSome) := by
  unfold attempt
  cases hfault : env.fault with
  | none => rfl
  | some fault =>
    obtain ⟨faulty, left⟩ := fault
    have hne : faulty ≠ step := fun heq => h ⟨left, heq ▸ hfault⟩
    simp only [if_neg hne]

/-- However an operation ends, it changes its own place only. -/
theorem attempt_frame {env : Env β} {step : Step} {d : Dir} (hd : d ≠ Dir.top)
    {fs : FileSystem β} {op : Option (FileSystem β)}
    (hop : ∀ fs', op = some fs' → Frame d fs fs') :
    Frame d fs (attempt env step d fs op).1 := by
  by_cases hfaulty : Faulty env step
  · obtain ⟨left, hleft⟩ := hfaulty
    rw [attempt_faulty hleft]
    exact leave_frame hd fs left
  · rw [attempt_sound hfaulty]
    cases hres : op with
    | none => exact Frame.refl d fs
    | some fs' => exact hop fs' hres

theorem rootfs_ne_top : rootfs_path ≠ Dir.top := by decide

theorem backup_ne_top : backup ≠ Dir.top := by decide

theorem room (fs : FileSystem β) {d : Dir} (hd : d ≠ Dir.top) (hparent : d.parent = Dir.top) :
    fs.Room d := ⟨hd, by rw [hparent, FileSystem.isdir_top]⟩

theorem room_rootfs (fs : FileSystem β) : fs.Room rootfs_path := room fs (by decide) (by decide)

/-! ### The swap -/

/-- The backup has been made when the original is removed. -/
structure BackedUp (env : Env β) (fs : FileSystem β) : Prop where
  dropped : fs.get backup = none ∨ fs.isdir backup = true ∧ ¬ Faulty env .rmtree_backup
  original : fs.isdir rootfs_path = true
  copied : ¬ Faulty env .copytree_backup

theorem drop_backup_spec (env : Env β) (fs : FileSystem β) :
    Frame backup fs (drop_backup env fs).1 ∧
      ((drop_backup env fs).2 = true ↔
        fs.get backup = none ∨ fs.isdir backup = true ∧ ¬ Faulty env .rmtree_backup) ∧
      ((drop_backup env fs).2 = true → (drop_backup env fs).1.get backup = none) := by
  unfold drop_backup
  split
  · next hnone => exact ⟨Frame.refl _ fs, iff_of_true rfl (Or.inl hnone), fun _ => hnone⟩
  · next hsome =>
    refine ⟨attempt_frame backup_ne_top fun fs' => rmtree_frame backup_ne_top, ?_⟩
    by_cases hfaulty : Faulty env .rmtree_backup
    · obtain ⟨left, hleft⟩ := hfaulty
      rw [attempt_faulty hleft]
      refine ⟨iff_of_false Bool.false_ne_true ?_, fun h => absurd h Bool.false_ne_true⟩
      rintro (h | ⟨-, h⟩)
      · exact hsome h
      · exact h ⟨left, hleft⟩
    · rw [attempt_sound hfaulty]
      unfold FileSystem.rmtree
      by_cases hdir : fs.isdir backup = true
      · rw [if_pos hdir]
        refine ⟨iff_of_true rfl (Or.inr ⟨hdir, hfaulty⟩), fun _ => ?_⟩
        show (fs.remove backup).get backup = none
        rw [FileSystem.get_remove backup_ne_top, if_pos (Dir.within_refl _)]
      · rw [if_neg hdir]
        refine ⟨iff_of_false Bool.false_ne_true ?_, fun h => absurd h Bool.false_ne_true⟩
        rintro (h | ⟨h, -⟩)
        · exact hsome h
        · exact hdir h

/-- The files when the original is to be removed: all but the backup are as before. -/
def backed (env : Env β) (fs : FileSystem β) : FileSystem β × Bool :=
  andThen (drop_backup env fs) fun fs =>
    attempt env .copytree_backup backup fs
      (fs.copytree (fun _ => false) rootfs_path backup)

theorem backed_spec (env : Env β) (fs : FileSystem β) :
    Frame backup fs (backed env fs).1 ∧ ((backed env fs).2 = true ↔ BackedUp env fs) := by
  obtain ⟨hframe, hdropped, hgone⟩ := drop_backup_spec env fs
  unfold backed andThen
  dsimp only
  split
  · next hok =>
    refine ⟨hframe.trans (attempt_frame backup_ne_top fun fs' => copytree_frame), ?_⟩
    by_cases hfaulty : Faulty env .copytree_backup
    · obtain ⟨left, hleft⟩ := hfaulty
      rw [attempt_faulty hleft]
      exact iff_of_false Bool.false_ne_true fun h => h.copied ⟨left, hleft⟩
    · rw [attempt_sound hfaulty]
      -- the original has not been touched yet
      have horiginal : (drop_backup env fs).1.isdir rootfs_path = fs.isdir rootfs_path := by
        have hsame := hframe rootfs_path (by
          rw [← Dir.join_top rootfs_path]
          exact rootfs_not_within_backup Dir.top)
        unfold FileSystem.isdir
        rw [hsame]
      have hcopies : (((drop_backup env fs).1.copytree (fun _ => false) rootfs_path
          backup).isSome = true) ↔ fs.isdir rootfs_path = true := by
        have hparent : backup.parent = Dir.top := by decide
        rw [FileSystem.copytree_isSome, horiginal, hparent]
        exact and_iff_left ⟨hgone hok, FileSystem.isdir_top _⟩
      rw [hcopies]
      exact ⟨fun h => ⟨hdropped.mp hok, h, hfaulty⟩, fun h => h.original⟩
  · next hfail =>
    refine ⟨hframe, iff_of_false hfail fun h => hfail (hdropped.mpr h.dropped)⟩

theorem swap_eq (env : Env β) (extracted : Dir) (fs : FileSystem β) :
    swap env extracted fs = andThen (backed env fs) fun fs =>
      andThen (attempt env .rmtree_rootfs rootfs_path fs (fs.rmtree rootfs_path)) fun fs =>
      attempt env .copytree_rootfs rootfs_path fs
        (fs.copytree (fun _ => false) extracted rootfs_path) := by
  unfold swap backed andThen
  cases h : (drop_backup env fs).2 with
  | true => simp
  | false => simp [h]

/-- What is at `rootfs/` when the swap ends, for the tree that has been extracted. -/
def Env.left (env : Env β) (tree : FileSystem β) : Option (FileSystem β) :=
  match env.fault with
  | some (.rmtree_rootfs, left) => left
  | some (.copytree_rootfs, left) => left
  | _ => some tree

/-- No operation of the swap itself fails. -/
def Env.swaps (env : Env β) : Bool :=
  match env.fault with
  | some (.rmtree_rootfs, _) => false
  | some (.copytree_rootfs, _) => false
  | _ => true

theorem Env.swaps_iff (env : Env β) :
    env.swaps = true ↔ ¬ Faulty env .rmtree_rootfs ∧ ¬ Faulty env .copytree_rootfs := by
  unfold Env.swaps Faulty
  cases env.fault with
  | none => simp
  | some fault =>
    obtain ⟨faulty, left⟩ := fault
    cases faulty <;> simp

/-- Where no operation fails, the extracted tree comes to the place of the original. -/
theorem restored (random : String) {fs tree : FileSystem β}
    (htree : ∀ x, fs.get (((tmp_dir random).enter "rootfs").join x) = tree.get x) :
    ∃ fs', (fs.remove rootfs_path).copytree (fun _ => false) ((tmp_dir random).enter "rootfs")
        rootfs_path = some fs' ∧ ∀ x, fs'.get (rootfs_path.join x) = tree.get x := by
  have hstays : ∀ x, (fs.remove rootfs_path).get (((tmp_dir random).enter "rootfs").join x) =
      tree.get x := fun x => by
    have hname : IsName "rootfs" := by decide
    have hnames : ((tmp_dir random).enter "rootfs").names = ["tmp" ++ random, "rootfs"] := by
      rw [Dir.enter_name _ hname, tmp_names]
      rfl
    have hfirst : "tmp" ++ random ≠ "rootfs" := (tmp_ne (by decide)).symm
    rw [FileSystem.get_remove rootfs_ne_top,
      if_neg (not_within hnames rootfs_names hfirst x), htree]
  have hgone : (fs.remove rootfs_path).get rootfs_path = none := by
    rw [FileSystem.get_remove rootfs_ne_top, if_pos (Dir.within_refl _)]
  have hsource : (fs.remove rootfs_path).isdir ((tmp_dir random).enter "rootfs") = true := by
    have hget := hstays Dir.top
    rw [Dir.join_top, FileSystem.get_top] at hget
    exact FileSystem.isdir_iff.mpr hget
  have hparent : rootfs_path.parent = Dir.top := by decide
  have hcan : ((fs.remove rootfs_path).copytree (fun _ => false)
      ((tmp_dir random).enter "rootfs") rootfs_path).isSome = true :=
    FileSystem.copytree_isSome.mpr ⟨hsource, hgone, by rw [hparent, FileSystem.isdir_top]⟩
  obtain ⟨fs', hres⟩ := Option.isSome_iff_exists.mp hcan
  refine ⟨fs', hres, fun x => ?_⟩
  rw [(FileSystem.copytree_get hres).2.2, Dir.rel_join]
  simp [hstays]

/-- The last two operations: the original is removed, and the extracted tree copied. -/
theorem replaced_spec (env : Env β) (random : String) {fs tree : FileSystem β}
    (horiginal : fs.isdir rootfs_path = true)
    (htree : ∀ x, fs.get (((tmp_dir random).enter "rootfs").join x) = tree.get x) {res}
    (hres : andThen (attempt env .rmtree_rootfs rootfs_path fs (fs.rmtree rootfs_path))
      (fun fs => attempt env .copytree_rootfs rootfs_path fs
        (fs.copytree (fun _ => false) ((tmp_dir random).enter "rootfs") rootfs_path)) = res) :
    res.2 = env.swaps ∧
      ∀ x, res.1.get (rootfs_path.join x) = (env.left tree).bind fun t => t.get x := by
  unfold andThen at hres
  dsimp only at hres
  by_cases hremoval : Faulty env .rmtree_rootfs
  · obtain ⟨left, hleft⟩ := hremoval
    simp only [attempt_faulty hleft, Bool.false_eq_true, if_false] at hres
    subst hres
    refine ⟨by simp [Env.swaps, hleft], fun x => ?_⟩
    rw [leave_get (room_rootfs fs)]
    simp [Env.left, hleft]
  have hrm : fs.rmtree rootfs_path = some (fs.remove rootfs_path) := if_pos horiginal
  simp only [attempt_sound hremoval, hrm, Option.getD_some, Option.isSome_some, if_true] at hres
  by_cases hcopy : Faulty env .copytree_rootfs
  · obtain ⟨left, hleft⟩ := hcopy
    rw [attempt_faulty hleft] at hres
    subst hres
    refine ⟨by simp [Env.swaps, hleft], fun x => ?_⟩
    rw [leave_get (room_rootfs _)]
    simp [Env.left, hleft]
  have hswaps : env.swaps = true := env.swaps_iff.mpr ⟨hremoval, hcopy⟩
  have hleft : env.left tree = some tree := by
    unfold Env.swaps at hswaps
    unfold Env.left
    split <;> simp_all
  obtain ⟨fs', hcopied, hget⟩ := restored random htree
  rw [attempt_sound hcopy, hcopied] at hres
  subst hres
  refine ⟨hswaps.symm, fun x => ?_⟩
  rw [hleft]
  exact hget x

/-- **The swap**: what it leaves at `rootfs/` once the backup has been made, and before. -/
theorem swap_spec (env : Env β) (random : String) (fs tree : FileSystem β)
    (htree : ∀ x, tree.get x = fs.get (((tmp_dir random).enter "rootfs").join x)) :
    (¬ BackedUp env fs → (swap env ((tmp_dir random).enter "rootfs") fs).2 = false ∧
      ∀ x, (swap env ((tmp_dir random).enter "rootfs") fs).1.get (rootfs_path.join x) =
        fs.get (rootfs_path.join x)) ∧
    (BackedUp env fs → (swap env ((tmp_dir random).enter "rootfs") fs).2 = env.swaps ∧
      ∀ x, (swap env ((tmp_dir random).enter "rootfs") fs).1.get (rootfs_path.join x) =
        (env.left tree).bind fun t => t.get x) := by
  obtain ⟨hframe, hok⟩ := backed_spec env fs
  have hsame : ∀ x, (backed env fs).1.get (rootfs_path.join x) = fs.get (rootfs_path.join x) :=
    fun x => hframe _ (rootfs_not_within_backup x)
  have hextracted : ∀ x, (backed env fs).1.get (((tmp_dir random).enter "rootfs").join x) =
      tree.get x := fun x => by
    have hname : IsName "rootfs" := by decide
    have hjoin : ((tmp_dir random).enter "rootfs").join x =
        (tmp_dir random).join (rootfs_path.join x) := by
      refine Dir.ext ?_
      rw [Dir.join_names, Dir.join_names, Dir.join_names, Dir.enter_name _ hname, rootfs_names,
        List.append_assoc]
    rw [hframe _ (hjoin ▸ tmp_not_within_backup random _), htree]
  rw [swap_eq, andThen]
  constructor
  · intro hnot
    have hfalse : (backed env fs).2 = false := by
      rw [← Bool.not_eq_true, hok]
      exact hnot
    simp only [hfalse, Bool.false_eq_true, if_false]
    exact ⟨trivial, hsame⟩
  · intro hbacked
    have horiginal : (backed env fs).1.isdir rootfs_path = true := by
      have hget := hsame Dir.top
      rw [Dir.join_top] at hget
      rw [FileSystem.isdir_iff, hget]
      exact FileSystem.isdir_iff.mp hbacked.original
    rw [if_pos (hok.mpr hbacked)]
    exact replaced_spec env random horiginal hextracted rfl

end BuildService
