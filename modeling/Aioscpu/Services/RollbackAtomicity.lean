import Aioscpu.Services.Snapshots

/-! # Atomicity of Rollbacks

  What a rollback leaves at `rootfs/`, at whatever point it fails.
-/

namespace BuildService

variable {β : Type}

/-- The rollback comes to the removal of the original. -/
structure Begins (tar : Tar β) (env : Env β) (snapshot_id : String) (fs : FileSystem β)
    (archive : β) : Prop where
  found : ∃ d, fs.read (tar_path snapshot_id) = some (d, archive)
  fresh : fs.get (tmp_dir env.random) = none
  sound : ¬ Faulty env .extractall
  complete : (tar.extract archive).2 = true
  holds : (tar.extract archive).1.isdir (Dir.top.enter "rootfs") = true
  backed : BackedUp env fs

/-- What is at `rootfs/` is as it was. -/
def Kept (fs fs' : FileSystem β) : Prop :=
  ∀ x, fs'.get (rootfs_path.join x) = fs.get (rootfs_path.join x)

theorem Kept.trans {fs fs' fs'' : FileSystem β} (h : Kept fs fs') (h' : Kept fs' fs'') :
    Kept fs fs'' := fun x => (h' x).trans (h x)

theorem tmp_ne_top (random : String) : tmp_dir random ≠ Dir.top := by
  intro h
  have hnames := congrArg Dir.names h
  rw [tmp_names] at hnames
  cases hnames

theorem tmp_parent (random : String) : (tmp_dir random).parent = Dir.top :=
  Dir.parent_enter _ (isName_tmp random)

theorem room_tmp (fs : FileSystem β) (random : String) : fs.Room (tmp_dir random) :=
  room fs (tmp_ne_top random) (tmp_parent random)

theorem kept_of_frame {random : String} {fs fs' : FileSystem β}
    (h : Frame (tmp_dir random) fs fs') : Kept fs fs' :=
  fun x => h _ (rootfs_not_within_tmp random x)

theorem cleanup_spec (env : Env β) (r : FileSystem β × Bool) :
    Frame (tmp_dir env.random) r.1 (cleanup env (tmp_dir env.random) r).1 ∧
      (cleanup env (tmp_dir env.random) r).2 = (r.2 && env.cleanup.isNone) := by
  unfold cleanup
  cases env.cleanup with
  | none => exact ⟨remove_frame (tmp_ne_top _) _, by simp⟩
  | some left => exact ⟨leave_frame (tmp_ne_top _) _ left, by simp⟩

/-- The backup depends on the original and on an earlier backup only. -/
theorem backedUp_congr {env : Env β} {fs fs' : FileSystem β}
    (h : Frame (tmp_dir env.random) fs fs') : BackedUp env fs' ↔ BackedUp env fs := by
  have hbackup : fs'.get backup = fs.get backup :=
    h _ (by
      rw [← Dir.join_top backup]
      exact not_within backup_names (tmp_names env.random) (tmp_ne (by decide)) Dir.top)
  have hrootfs : fs'.get rootfs_path = fs.get rootfs_path :=
    h _ (by
      rw [← Dir.join_top rootfs_path]
      exact rootfs_not_within_tmp env.random Dir.top)
  have hdirs : fs'.isdir backup = fs.isdir backup ∧
      fs'.isdir rootfs_path = fs.isdir rootfs_path := by
    unfold FileSystem.isdir
    rw [hbackup, hrootfs]
    exact ⟨rfl, rfl⟩
  constructor
  · rintro ⟨hdropped, horiginal, hcopied⟩
    exact ⟨by rwa [hbackup, hdirs.1] at hdropped, by rwa [hdirs.2] at horiginal, hcopied⟩
  · rintro ⟨hdropped, horiginal, hcopied⟩
    exact ⟨by rwa [hbackup, hdirs.1], by rwa [hdirs.2], hcopied⟩

/-- The `with` block, in a temporary directory that has been made. -/
theorem restore_spec (tar : Tar β) (env : Env β) (archive : β) (fs : FileSystem β) :
    ((¬ Faulty env .extractall ∧ (tar.extract archive).2 = true ∧
        (tar.extract archive).1.isdir (Dir.top.enter "rootfs") = true ∧ BackedUp env fs) →
      (restore tar env archive (tmp_dir env.random) fs).2 = env.swaps ∧
      ∀ x, (restore tar env archive (tmp_dir env.random) fs).1.get (rootfs_path.join x) =
        (env.left (tar.archived archive)).bind fun t => t.get x) ∧
    (¬ (¬ Faulty env .extractall ∧ (tar.extract archive).2 = true ∧
        (tar.extract archive).1.isdir (Dir.top.enter "rootfs") = true ∧ BackedUp env fs) →
      (restore tar env archive (tmp_dir env.random) fs).2 = false ∧
      Kept fs (restore tar env archive (tmp_dir env.random) fs).1) := by
  unfold restore andThen
  by_cases hfaulty : Faulty env .extractall
  · -- the archive cannot be extracted
    obtain ⟨left, hleft⟩ := hfaulty
    simp only [attempt_faulty hleft, Bool.false_eq_true, if_false]
    exact ⟨fun h => absurd ⟨left, hleft⟩ h.1,
      fun _ => ⟨trivial, kept_of_frame (leave_frame (tmp_ne_top _) fs left)⟩⟩
  simp only [attempt_sound hfaulty, Option.getD_some, Option.isSome_some, if_true,
    not_false_eq_true, true_and, hfaulty]
  have hroom := room_tmp fs env.random
  have hframe := leave_frame (tmp_ne_top env.random) fs (some (tar.extract archive).1)
  have hname : IsName "rootfs" := by decide
  have hget : ∀ x, (leave fs (tmp_dir env.random) (some (tar.extract archive).1)).get
      (((tmp_dir env.random).enter "rootfs").join x) =
      (tar.extract archive).1.get ((Dir.top.enter "rootfs").join x) := fun x => by
    have hjoin : ((tmp_dir env.random).enter "rootfs").join x =
        (tmp_dir env.random).join ((Dir.top.enter "rootfs").join x) := by
      rw [← Dir.join_assoc, Dir.join_enter _ _ hname, Dir.join_top]
    rw [hjoin, leave_get hroom]
    rfl
  have hdir : (leave fs (tmp_dir env.random) (some (tar.extract archive).1)).isdir
      ((tmp_dir env.random).enter "rootfs") =
      (tar.extract archive).1.isdir (Dir.top.enter "rootfs") := by
    have htop := hget Dir.top
    rw [Dir.join_top, Dir.join_top] at htop
    unfold FileSystem.isdir
    rw [htop]
  generalize leave fs (tmp_dir env.random) (some (tar.extract archive).1) = fs₁ at *
  rw [hdir]
  split
  · next hwhole =>
    -- the swap takes the tree that has been extracted
    have htree : ∀ x, (tar.archived archive).get x =
        fs₁.get (((tmp_dir env.random).enter "rootfs").join x) := fun x => by
      rw [hget]
      exact FileSystem.get_sub hwhole.2 x
    obtain ⟨hnot, hbacked⟩ := swap_spec env env.random fs₁ (tar.archived archive) htree
    rw [backedUp_congr hframe] at hnot hbacked
    refine ⟨fun h => hbacked h.2.2, fun h => ?_⟩
    obtain ⟨hfalse, hkept⟩ := hnot fun hback => h ⟨hwhole.1, hwhole.2, hback⟩
    exact ⟨hfalse, (kept_of_frame hframe).trans hkept⟩
  · next hpart =>
    exact ⟨fun h => absurd ⟨h.1, h.2.1⟩ hpart, fun _ => ⟨rfl, kept_of_frame hframe⟩⟩

/-- **What a rollback does**: before it comes to the removal of the original it fails and
    changes nothing there, and from then on it leaves what the swap leaves. -/
theorem rollback_spec (tar : Tar β) (env : Env β) (snapshot_id : String) (fs : FileSystem β) :
    (∀ archive, Begins tar env snapshot_id fs archive →
      (rollback tar env snapshot_id fs).2 = (env.swaps && env.cleanup.isNone) ∧
      ∀ x, (rollback tar env snapshot_id fs).1.get (rootfs_path.join x) =
        (env.left (tar.archived archive)).bind fun t => t.get x) ∧
    ((¬ ∃ archive, Begins tar env snapshot_id fs archive) →
      (rollback tar env snapshot_id fs).2 = false ∧
      Kept fs (rollback tar env snapshot_id fs).1) := by
  unfold rollback
  cases hread : fs.read (tar_path snapshot_id) with
  | none =>
    refine ⟨fun archive h => ?_, fun _ => ⟨rfl, fun _ => rfl⟩⟩
    obtain ⟨d, hd⟩ := h.found
    rw [hread] at hd
    cases hd
  | some r =>
    obtain ⟨d, archive⟩ := r
    dsimp only
    cases hmake : fs.mkdir (tmp_dir env.random) with
    | none =>
      -- something else has the name of the temporary directory
      refine ⟨fun archive h => ?_, fun _ => ⟨rfl, fun _ => rfl⟩⟩
      unfold FileSystem.mkdir at hmake
      rw [dif_pos ⟨h.fresh, (room_tmp fs env.random).parent⟩] at hmake
      cases hmake
    | some fs₁ =>
      dsimp only
      obtain ⟨hfresh, hmade⟩ := FileSystem.mkdir_get hmake
      have hframe : Frame (tmp_dir env.random) fs fs₁ := fun x hx => by
        rw [hmade, if_neg]
        rintro rfl
        exact hx (Dir.within_refl _)
      obtain ⟨hclean, hok⟩ := cleanup_spec env (restore tar env archive (tmp_dir env.random) fs₁)
      obtain ⟨hbegun, hearly⟩ := restore_spec tar env archive fs₁
      rw [backedUp_congr hframe] at hbegun hearly
      rw [hok]
      constructor
      · intro archive' h
        have heq : archive' = archive := by
          obtain ⟨d', hd'⟩ := h.found
          rw [hread] at hd'
          exact (Prod.mk.inj (Option.some.inj hd')).2.symm
        subst heq
        obtain ⟨hswaps, hleft⟩ := hbegun ⟨h.sound, h.complete, h.holds, h.backed⟩
        refine ⟨by rw [hswaps], fun x => ?_⟩
        rw [hclean _ (rootfs_not_within_tmp env.random x), hleft]
      · intro hnot
        obtain ⟨hfalse, hkept⟩ := hearly fun h =>
          hnot ⟨archive, ⟨d, hread⟩, hfresh, h.1, h.2.1, h.2.2.1, h.2.2.2⟩
        refine ⟨by rw [hfalse]; rfl, ?_⟩
        exact ((kept_of_frame hframe).trans hkept).trans (kept_of_frame hclean)

/-- A failure leaves `rootfs/` as it was, and a success leaves the archived tree there. -/
def Atomic (tar : Tar β) (env : Env β) (snapshot_id : String) (fs : FileSystem β) : Prop :=
  let r := rollback tar env snapshot_id fs
  (r.2 = false → Kept fs r.1) ∧
  (r.2 = true → ∃ d archive, fs.read (tar_path snapshot_id) = some (d, archive) ∧
    (tar.extract archive).1.isdir (Dir.top.enter "rootfs") = true ∧
    ∀ x, r.1.get (rootfs_path.join x) = (tar.archived archive).get x)

/-- Nothing fails from the removal of the original on, unless what is then at `rootfs/` is the
    tree that was there. -/
def FailsEarly (tar : Tar β) (env : Env β) (snapshot_id : String) (fs : FileSystem β) : Prop :=
  ∀ archive, Begins tar env snapshot_id fs archive →
    (env.swaps = true ∧ env.cleanup = none) ∨
    ∀ x, ((env.left (tar.archived archive)).bind fun t => t.get x) =
      fs.get (rootfs_path.join x)

/-- A root filesystem with one file. -/
def oneFile (d : Dir) (name : String) (content : Nat) (fs : FileSystem Nat) : FileSystem Nat :=
  ((fs.mkdirs d).bind fun fs => fs.putFile (d.enter name) content).getD fs

/-- Archives of a root filesystem with one file, told by what the file holds. -/
def oneFileTar : Tar Nat where
  pack := fun tree => (tree.file (Dir.top.enter "a")).getD 0
  extract := fun archive => (oneFile (Dir.top.enter "rootfs") "a" archive .empty, true)

/-- A repository with a snapshot of an earlier content. -/
def withSnapshot : FileSystem Nat :=
  oneFile snapshots_dir "s.tar.gz" 1 (oneFile rootfs_path "a" 2 .empty)

/-- There is no room for the restored version any more when the original has been removed. -/
def noRoom : Env Nat where
  random := "x"
  fault := some (.copytree_rootfs, none)
  cleanup := none

end BuildService
