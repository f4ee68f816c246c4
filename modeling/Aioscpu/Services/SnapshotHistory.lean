import Aioscpu.Framework.Machine
import Aioscpu.Services.RollbackAtomicity

/-! # The History of Snapshots

  Which snapshots can still be restored after any sequence of snapshots,
  changes of `rootfs/` and rollbacks. All file operations succeed.
-/

namespace BuildService

variable {β : Type}

/-! ### The machine -/

/-- A label without path separators. -/
structure SnapshotLabel where
  text : String
  flat : '/' ∉ text.toList

inductive Call (β : Type) where
  | snapshot (t : Gmtime) (label : SnapshotLabel)
  /-- `rootfs/` is changed, by whomever. -/
  | modify (tree : FileSystem β)
  | rollback (snapshot_id : String) (random : String)

/-- A call of `snapshot` has returned its id, with what was below `rootfs/` at that time. -/
structure Taken (β : Type) where
  t : Gmtime
  label : SnapshotLabel
  tree : FileSystem β

/-- The id that the call has returned. -/
def Taken.sid (taken : Taken β) : String := snapshot_id taken.t taken.label.text

/-- An environment that lets nothing fail. -/
def calm (random : String) : Env β where
  random := random
  fault := none
  cleanup := none

def history (tar : Tar β) : Machine (FileSystem β) (Call β) (Taken β) where
  step := fun fs call =>
    match call with
    | .snapshot t label =>
      (snapshot tar t label.text fs).map fun fs' => (fs', [⟨t, label, fs.sub rootfs_path⟩])
    | .modify tree => some (fs.plant rootfs_path tree (room_rootfs fs), [])
    | .rollback snapshot_id random => some ((rollback tar (calm random) snapshot_id fs).1, [])

/-! ### Ids -/

theorem mem_repr {n : Nat} {c : Char} (h : c ∈ n.repr.toList) : c.isDigit = true := by
  rw [Nat.toList_repr] at h
  exact Nat.isDigit_of_mem_toDigits (by decide) (by decide) h

theorem mem_two_digits {n : Nat} {c : Char} (h : c ∈ (two_digits n).toList) :
    c.isDigit = true := by
  unfold two_digits at h
  split at h
  · rw [String.toList_append, List.mem_append] at h
    rcases h with h | h
    · have hzero : c = '0' := by simpa using h
      rw [hzero]
      rfl
    · exact mem_repr h
  · exact mem_repr h

/-- The characters of a timestamp. -/
theorem mem_strftime {t : Gmtime} {c : Char} (h : c ∈ (strftime t).toList) :
    c.isDigit = true ∨ c = 'T' := by
  unfold strftime at h
  simp only [String.toList_append, List.mem_append] at h
  rcases h with (((((h | h) | h) | h) | h) | h) | h
  · exact Or.inl (mem_repr h)
  · exact Or.inl (mem_two_digits h)
  · exact Or.inl (mem_two_digits h)
  · exact Or.inr (by simpa using h)
  · exact Or.inl (mem_two_digits h)
  · exact Or.inl (mem_two_digits h)
  · exact Or.inl (mem_two_digits h)

theorem not_mem_strftime {t : Gmtime} {c : Char} (hdigit : c.isDigit = false) (hT : c ≠ 'T') :
    c ∉ (strftime t).toList := by
  intro h
  rcases mem_strftime h with h | h
  · rw [hdigit] at h
    cases h
  · exact hT h

/-- Texts with a mark are cut at its first place. -/
theorem append_mark_inj {c : Char} {a a' b b' : List Char} (ha : c ∉ a) (ha' : c ∉ a')
    (h : a ++ c :: b = a' ++ c :: b') : a = a' ∧ b = b' := by
  induction a generalizing a' with
  | nil =>
    cases a' with
    | nil => exact ⟨rfl, (List.cons.inj h).2⟩
    | cons x a' => exact absurd (List.cons.inj h).1 fun heq => ha' (heq ▸ List.mem_cons_self)
  | cons x a ih =>
    cases a' with
    | nil => exact absurd (List.cons.inj h).1.symm fun heq => ha (heq ▸ List.mem_cons_self)
    | cons x' a' =>
      obtain ⟨rfl, htail⟩ := List.cons.inj h
      obtain ⟨rfl, rfl⟩ := ih (fun hm => ha (List.mem_cons_of_mem _ hm))
        (fun hm => ha' (List.mem_cons_of_mem _ hm)) htail
      exact ⟨rfl, rfl⟩

/-- **Ids coincide** for calls in one second with the same label, and for no others. -/
theorem snapshot_id_inj {t t' : Gmtime} {label label' : String} :
    snapshot_id t label = snapshot_id t' label' ↔ strftime t = strftime t' ∧ label = label' := by
  have hmark : ∀ t : Gmtime, '_' ∉ (strftime t).toList := fun t =>
    not_mem_strftime (by decide) (by decide)
  have hlist : ∀ (t : Gmtime) (label : String),
      (strftime t ++ "_" ++ label).toList = (strftime t).toList ++ '_' :: label.toList := by
    intro t label
    rw [String.toList_append, String.toList_append, List.append_assoc]
    rfl
  constructor
  · intro h
    unfold snapshot_id at h
    split at h
    · next hempty =>
      split at h
      · next hempty' => exact ⟨h, hempty.trans hempty'.symm⟩
      · refine absurd ?_ (hmark t)
        rw [h, hlist]
        simp
    · split at h
      · refine absurd ?_ (hmark t')
        rw [← h, hlist]
        simp
      · have hchars := congrArg String.toList h
        rw [hlist, hlist] at hchars
        obtain ⟨htime, hlabel⟩ := append_mark_inj (hmark t) (hmark t') hchars
        exact ⟨String.toList_injective htime, String.toList_injective hlabel⟩
  · rintro ⟨htime, rfl⟩
    unfold snapshot_id
    rw [htime]

/-- An archive lies in the directory of the snapshots. -/
theorem tar_path_flat (t : Gmtime) (label : SnapshotLabel) :
    tar_path (snapshot_id t label.text) =
      ["dist", "snapshots", snapshot_id t label.text ++ ".tar.gz"] := by
  have hflat : '/' ∉ (snapshot_id t label.text ++ ".tar.gz").toList := by
    have htime : '/' ∉ (strftime t).toList := not_mem_strftime (by decide) (by decide)
    have hsid : '/' ∉ (snapshot_id t label.text).toList := by
      unfold snapshot_id
      split
      · exact htime
      · simp only [String.toList_append, List.mem_append, not_or]
        exact ⟨⟨htime, by decide⟩, label.flat⟩
    rw [String.toList_append, List.mem_append, not_or]
    exact ⟨hsid, by decide⟩
  have hnames : snapshots_dir.names = ["dist", "snapshots"] := by decide
  unfold tar_path PyStr.split
  rw [hnames, List.splitOn_eq_singleton hflat]
  simp

/-! ### What stays -/

/-- What neither operation changes. -/
theorem andThen_elsewhere {x : Dir} {r : FileSystem β × Bool}
    {next : FileSystem β → FileSystem β × Bool} (h : (next r.1).1.get x = r.1.get x) :
    (andThen r next).1.get x = r.1.get x := by
  unfold andThen
  split
  · exact h
  · rfl

/-- A swap changes the original and the backup only. -/
theorem swap_elsewhere (env : Env β) (extracted : Dir) (fs : FileSystem β) {x : Dir}
    (hbackup : ¬ x.Within backup) (hrootfs : ¬ x.Within rootfs_path) :
    (swap env extracted fs).1.get x = fs.get x := by
  have hbacked : (backed env fs).1.get x = fs.get x := (backed_spec env fs).1 x hbackup
  rw [swap_eq]
  refine (andThen_elsewhere ?_).trans hbacked
  have hremoved : (attempt env .rmtree_rootfs rootfs_path (backed env fs).1
      ((backed env fs).1.rmtree rootfs_path)).1.get x = (backed env fs).1.get x :=
    attempt_frame rootfs_ne_top (fun fs' => rmtree_frame rootfs_ne_top) x hrootfs
  refine (andThen_elsewhere ?_).trans hremoved
  exact attempt_frame rootfs_ne_top (fun fs' => copytree_frame) x hrootfs

theorem restore_elsewhere (tar : Tar β) (env : Env β) (archive : β) (fs : FileSystem β) {x : Dir}
    (hbackup : ¬ x.Within backup) (hrootfs : ¬ x.Within rootfs_path)
    (htmp : ¬ x.Within (tmp_dir env.random)) :
    (restore tar env archive (tmp_dir env.random) fs).1.get x = fs.get x := by
  have hextracted : (attempt env .extractall (tmp_dir env.random) fs
      (some (leave fs (tmp_dir env.random) (some (tar.extract archive).1)))).1.get x =
      fs.get x := by
    refine attempt_frame (tmp_ne_top _) (fun fs' heq => ?_) x htmp
    obtain rfl := Option.some.inj heq
    exact leave_frame (tmp_ne_top _) fs _
  refine (andThen_elsewhere ?_).trans hextracted
  split
  · exact swap_elsewhere env _ _ hbackup hrootfs
  · rfl

/-- A rollback changes nothing in `dist/`. -/
theorem rollback_elsewhere (tar : Tar β) (env : Env β) (sid : String) (fs : FileSystem β)
    {x : Dir} (hbackup : ¬ x.Within backup) (hrootfs : ¬ x.Within rootfs_path)
    (htmp : ¬ x.Within (tmp_dir env.random)) : (rollback tar env sid fs).1.get x = fs.get x := by
  unfold rollback
  cases fs.read (tar_path sid) with
  | none => rfl
  | some r =>
    dsimp only
    cases hmake : fs.mkdir (tmp_dir env.random) with
    | none => rfl
    | some fs₁ =>
      have hmade : fs₁.get x = fs.get x := by
        rw [(FileSystem.mkdir_get hmake).2, if_neg]
        rintro rfl
        exact htmp (Dir.within_refl _)
      dsimp only
      rw [(cleanup_spec env _).1 x htmp, restore_elsewhere tar env _ _ hbackup hrootfs htmp, hmade]

/-! ### Archives stay -/

/-- The place of an archive. -/
def tarDir (t : Gmtime) (label : SnapshotLabel) : Dir :=
  Dir.top.walk (tar_path (snapshot_id t label.text))

theorem isName_of_length {c : String} (h : 2 < c.toList.length) : IsName c := by
  refine ⟨?_, ?_, ?_⟩ <;> rintro rfl <;> revert h <;> decide

theorem tar_path_isName (t : Gmtime) (label : SnapshotLabel) :
    ∀ c ∈ tar_path (snapshot_id t label.text), IsName c := by
  rw [tar_path_flat]
  intro c hc
  have hlast : IsName (snapshot_id t label.text ++ ".tar.gz") := by
    refine isName_of_length ?_
    have hend : ".tar.gz".toList.length = 7 := rfl
    rw [String.toList_append, List.length_append, hend]
    omega
  rcases List.mem_cons.mp hc with rfl | hc
  · decide
  · rcases List.mem_cons.mp hc with rfl | hc
    · decide
    · exact List.mem_singleton.mp hc ▸ hlast

theorem tarDir_names (t : Gmtime) (label : SnapshotLabel) :
    (tarDir t label).names = ["dist", "snapshots", snapshot_id t label.text ++ ".tar.gz"] := by
  unfold tarDir
  rw [Dir.walk_names _ (tar_path_isName t label), tar_path_flat]
  rfl

theorem tarDir_not_within {d : Dir} {name : String} {rest : List String}
    (hd : d.names = name :: rest) (hne : name ≠ "dist") (t : Gmtime) (label : SnapshotLabel) :
    ¬ (tarDir t label).Within d := by
  rw [← Dir.join_top (tarDir t label)]
  exact not_within (tarDir_names t label) hd hne.symm Dir.top

/-- Archives with different ids lie at different places. -/
theorem tarDir_inj {t t' : Gmtime} {label label' : SnapshotLabel}
    (h : tarDir t label = tarDir t' label') :
    snapshot_id t label.text = snapshot_id t' label'.text := by
  have hnames := congrArg Dir.names h
  rw [tarDir_names, tarDir_names] at hnames
  have hlast : snapshot_id t label.text ++ ".tar.gz" = snapshot_id t' label'.text ++ ".tar.gz" := by
    simpa using hnames
  have hchars := congrArg String.toList hlast
  rw [String.toList_append, String.toList_append] at hchars
  exact String.toList_injective (List.append_cancel_right hchars)

/-- An archive is read as before when what is at its place stays. -/
theorem read_stays {fs fs' : FileSystem β} {t : Gmtime} {label : SnapshotLabel}
    (h : fs'.get (tarDir t label) = fs.get (tarDir t label)) :
    fs'.read (tar_path (snapshot_id t label.text)) =
      fs.read (tar_path (snapshot_id t label.text)) := by
  refine FileSystem.read_congr (tar_path_isName t label) ?_
  unfold FileSystem.file
  rw [show Dir.top.walk (tar_path (snapshot_id t label.text)) = tarDir t label from rfl, h]

/-! ### Runs -/

/-- Every id leads to what one of the calls that have returned it has archived. -/
def Stored (tar : Tar β) (fs : FileSystem β) (tr : List (Taken β)) : Prop :=
  ∀ a ∈ tr, ∃ b ∈ tr, b.sid = a.sid ∧
    ∃ d, fs.read (tar_path a.sid) = some (d, tar.pack b.tree)

theorem stored_of_reads {tar : Tar β} {fs fs' : FileSystem β} {tr : List (Taken β)}
    (h : Stored tar fs tr)
    (hread : ∀ a ∈ tr, fs'.read (tar_path a.sid) = fs.read (tar_path a.sid)) :
    Stored tar fs' tr := by
  intro a ha
  obtain ⟨b, hb, hsid, d, hd⟩ := h a ha
  exact ⟨b, hb, hsid, d, by rw [hread a ha, hd]⟩

/-- One call keeps the archives, or replaces the one with its own id. -/
theorem stored_step {tar : Tar β} {fs fs' : FileSystem β} {tr os : List (Taken β)}
    {call : Call β} (hstored : Stored tar fs tr)
    (hstep : (history tar).step fs call = some (fs', os)) : Stored tar fs' (tr ++ os) := by
  cases call with
  | snapshot t label =>
    obtain ⟨fs₂, hsnapshot, heq⟩ := Option.map_eq_some_iff.mp hstep
    obtain ⟨rfl, rfl⟩ := Prod.mk.inj heq
    unfold snapshot at hsnapshot
    split at hsnapshot
    next =>
      obtain ⟨fs₁, hmake, hwrite⟩ := Option.bind_eq_some_iff.mp hsnapshot
      obtain ⟨⟨fs₂, d⟩, hwritten, rfl⟩ := Option.map_eq_some_iff.mp hwrite
      obtain ⟨hplace, -, -, hfile, hread⟩ := FileSystem.write_spec hwritten
      intro a ha
      by_cases hsid : a.sid = snapshot_id t label.text
      · -- the archive has just been written
        exact ⟨⟨t, label, fs.sub rootfs_path⟩, by simp, hsid.symm, d, by rw [hsid, hread]⟩
      · have hmem : a ∈ tr := by
          rcases List.mem_append.mp ha with ha | ha
          · exact ha
          · exact absurd (List.mem_singleton.mp ha ▸ rfl) hsid
        obtain ⟨b, hb, hsame, d', hd'⟩ := hstored a hmem
        refine ⟨b, List.mem_append_left _ hb, hsame, d', ?_⟩
        rw [← hd']
        refine FileSystem.read_congr (tar_path_isName a.t a.label) ?_
        have hne : Dir.top.walk (tar_path a.sid) ≠ d := by
          rw [← hplace]
          exact fun heq => hsid (tarDir_inj heq)
        rw [hfile, if_neg hne, (FileSystem.mkdirs_get hmake).2]
    · cases hsnapshot
  | modify tree =>
    obtain ⟨rfl, rfl⟩ := Prod.mk.inj (Option.some.inj hstep)
    rw [List.append_nil]
    refine stored_of_reads hstored fun a _ => read_stays ?_
    have hout := tarDir_not_within rootfs_names (by decide) a.t a.label
    rw [FileSystem.get_plant, Dir.rel_eq_none_iff.mpr hout]
  | rollback sid random =>
    obtain ⟨rfl, rfl⟩ := Prod.mk.inj (Option.some.inj hstep)
    rw [List.append_nil]
    refine stored_of_reads hstored fun a _ => read_stays ?_
    exact rollback_elsewhere tar (calm random) sid fs
      (tarDir_not_within backup_names (by decide) a.t a.label)
      (tarDir_not_within rootfs_names (by decide) a.t a.label)
      (tarDir_not_within (tmp_names random) (tmp_ne (by decide)).symm a.t a.label)

theorem stored_of_run {tar : Tar β} {fs₀ fs : FileSystem β} {calls : List (Call β)}
    {tr : List (Taken β)} (hrun : (history tar).run fs₀ calls = some (fs, tr)) :
    Stored tar fs tr :=
  (history tar).run_induction (P := fun _ fs tr => Stored tar fs tr)
    (fun _ ha => absurd ha List.not_mem_nil)
    (fun _ _ _ _ _ _ _ hstored hstep => stored_step hstored hstep) hrun

/-! ### Restoring -/

/-- What the archive of a tree gives back. -/
structure Tar.RoundTrips (tar : Tar β) (tree : FileSystem β) : Prop where
  complete : (tar.extract (tar.pack tree)).2 = true
  holds : (tar.extract (tar.pack tree)).1.isdir (Dir.top.enter "rootfs") = true
  same : ∀ x, (tar.archived (tar.pack tree)).get x = tree.get x

/-- The file operations of a rollback can succeed. -/
structure Ready (random : String) (fs : FileSystem β) : Prop where
  fresh : fs.get (tmp_dir random) = none
  backup : fs.get backup = none ∨ fs.isdir backup = true
  rootfs : fs.isdir rootfs_path = true

/-- A rollback to the id brings back what was below `rootfs/` when the call returned it. -/
def Restores (tar : Tar β) (random : String) (fs : FileSystem β) (taken : Taken β) : Prop :=
  (rollback tar (calm random) taken.sid fs).2 = true ∧
    ∀ x, (rollback tar (calm random) taken.sid fs).1.get (rootfs_path.join x) = taken.tree.get x

/-- Calls in one second with the same label have found the same tree. -/
def Consistent (tr : List (Taken β)) : Prop :=
  ∀ a ∈ tr, ∀ b ∈ tr, strftime a.t = strftime b.t → a.label.text = b.label.text →
    ∀ x, a.tree.get x = b.tree.get x

theorem calm_not_faulty (random : String) (step : Step) :
    ¬ Faulty (calm random : Env β) step := by
  rintro ⟨left, hleft⟩
  cases hleft

/-- A rollback brings back what is archived under the id. -/
theorem rollback_restores {tar : Tar β} {random sid : String} {fs tree : FileSystem β} {d : Dir}
    (hready : Ready random fs) (hread : fs.read (tar_path sid) = some (d, tar.pack tree))
    (hround : tar.RoundTrips tree) :
    (rollback tar (calm random) sid fs).2 = true ∧
      ∀ x, (rollback tar (calm random) sid fs).1.get (rootfs_path.join x) = tree.get x := by
  have hbacked : BackedUp (calm random) fs :=
    ⟨hready.backup.imp_right fun h => ⟨h, calm_not_faulty _ _⟩, hready.rootfs, calm_not_faulty _ _⟩
  obtain ⟨hok, hget⟩ := (rollback_spec tar (calm random) sid fs).1 (tar.pack tree)
    ⟨⟨d, hread⟩, hready.fresh, calm_not_faulty _ _, hround.complete, hround.holds, hbacked⟩
  exact ⟨hok, fun x => (hget x).trans (hround.same x)⟩

/-- **Snapshot history**: after every run each id restores what its call has found if and only
    if calls in one second with the same label have found the same tree. -/
theorem restores_iff_consistent {tar : Tar β} {fs₀ fs : FileSystem β} {calls : List (Call β)}
    {tr : List (Taken β)} (hrun : (history tar).run fs₀ calls = some (fs, tr))
    (hround : ∀ taken ∈ tr, tar.RoundTrips taken.tree) {random : String}
    (hready : Ready random fs) :
    (∀ taken ∈ tr, Restores tar random fs taken) ↔ Consistent tr := by
  constructor
  · intro hall a ha b hb htime hlabel x
    have hsid : a.sid = b.sid := snapshot_id_inj.mpr ⟨htime, hlabel⟩
    -- one rollback brings back both trees
    rw [← (hall a ha).2 x, ← (hall b hb).2 x, hsid]
  · intro hconsistent a ha
    obtain ⟨b, hb, hsid, d, hd⟩ := stored_of_run hrun a ha
    obtain ⟨hok, hget⟩ := rollback_restores hready hd (hround b hb)
    obtain ⟨htime, hlabel⟩ := snapshot_id_inj.mp hsid
    exact ⟨hok, fun x => (hget x).trans (hconsistent b hb a ha htime hlabel x)⟩

/-- Trees with the same entries in the same order. -/
theorem get_of_items {fs fs' : FileSystem β} (h : fs.entries.items = fs'.entries.items) (x : Dir) :
    fs.get x = fs'.get x := by
  unfold FileSystem.get Dict.get
  rw [h]

/-- A test for what the archives of one file give back. -/
def roundTripsTest (taken : Taken Nat) : Bool :=
  (oneFileTar.extract (oneFileTar.pack taken.tree)).2 ∧
    (oneFileTar.extract (oneFileTar.pack taken.tree)).1.isdir (Dir.top.enter "rootfs") ∧
    (oneFileTar.archived (oneFileTar.pack taken.tree)).entries.items = taken.tree.entries.items

theorem roundTrips_of_test {taken : Taken Nat} (h : roundTripsTest taken = true) :
    oneFileTar.RoundTrips taken.tree := by
  obtain ⟨hcomplete, hholds, hitems⟩ := of_decide_eq_true h
  exact ⟨hcomplete, hholds, get_of_items hitems⟩

/-- No label. -/
def unlabelled : SnapshotLabel := ⟨"", by decide⟩

/-- A second, and the next one. -/
def noon (second : Nat) : Gmtime := ⟨2026, 1, 2, 12, 0, second⟩

/-- Two snapshots with a change between them. -/
def twoSnapshots (second : Nat) : List (Call Nat) :=
  [.snapshot (noon 0) unlabelled, .modify (oneFile Dir.top "a" 3 .empty),
    .snapshot (noon second) unlabelled]

instance (random : String) (fs : FileSystem β) : Decidable (Ready random fs) :=
  decidable_of_iff (fs.get (tmp_dir random) = none ∧
      (fs.get backup = none ∨ fs.isdir backup = true) ∧ fs.isdir rootfs_path = true)
    ⟨fun h => ⟨h.1, h.2.1, h.2.2⟩, fun h => ⟨h.fresh, h.backup, h.rootfs⟩⟩

theorem restores_iff_consistent_next_second :
    ∃ fs tr, (history oneFileTar).run withSnapshot (twoSnapshots 1) = some (fs, tr) ∧
      ((∀ taken ∈ tr, Restores oneFileTar "x" fs taken) ↔ Consistent tr) := by
  obtain ⟨fs, tr, hrun, htest⟩ := (history oneFileTar).exists_run withSnapshot (twoSnapshots 1)
    (fun fs tr => tr.all roundTripsTest && decide (Ready "x" fs)) (by decide +kernel)
  rw [Bool.and_eq_true, List.all_eq_true, decide_eq_true_eq] at htest
  exact ⟨fs, tr, hrun, restores_iff_consistent hrun
    (fun taken hmem => roundTrips_of_test (htest.1 taken hmem)) htest.2⟩

/-- Two snapshots in one second: the first one is lost. -/
theorem snapshot_lost :
    ∃ fs tr, (history oneFileTar).run withSnapshot (twoSnapshots 0) = some (fs, tr) ∧
      (∀ taken ∈ tr, oneFileTar.RoundTrips taken.tree) ∧ Ready "x" fs ∧
      ¬ ∀ taken ∈ tr, Restores oneFileTar "x" fs taken := by
  obtain ⟨fs, tr, hrun, htest⟩ := (history oneFileTar).exists_run withSnapshot (twoSnapshots 0)
    (fun fs tr => tr.all roundTripsTest && decide (Ready "x" fs) &&
      tr.any fun taken => decide
        ((rollback oneFileTar (calm "x") taken.sid fs).1.get
            (rootfs_path.join (Dir.top.enter "a")) ≠
          taken.tree.get (Dir.top.enter "a"))) (by decide +kernel)
  rw [Bool.and_eq_true, Bool.and_eq_true, List.all_eq_true, decide_eq_true_eq, List.any_eq_true]
    at htest
  obtain ⟨⟨hround, hready⟩, taken, hmem, hlost⟩ := htest
  refine ⟨fs, tr, hrun, fun taken h => roundTrips_of_test (hround taken h), hready, fun hall => ?_⟩
  exact of_decide_eq_true hlost ((hall taken hmem).2 _)

end BuildService
