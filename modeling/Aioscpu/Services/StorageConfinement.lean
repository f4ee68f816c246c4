import Aioscpu.Services.StorageService

/-! # Confinement of the Storage Service

  Which files the storage service touches: which spellings of a path lead out
  of the rootfs, and which lead into a read-only partition.
-/

namespace StorageService

variable {β : Type}

/-- The path leads to the directory, goes on with a name, and stays below that name. -/
def Enters (dir : Dir) (path : List String) : Prop :=
  ∃ pre c post, IsName c ∧ path = pre ++ c :: post ∧ Dir.top.walk pre = dir ∧
    (dir.enter c).Stays post

theorem enters_iff (dir : Dir) (path : List String) :
    Enters dir path ↔ (Dir.top.walk path).Below dir :=
  (Dir.walk_below_iff (Dir.not_top_below dir) path).symm

/-! ### Read-only partitions -/

/-- The place lies in a read-only partition. -/
def Protected (rootfs d : Dir) : Prop :=
  ∃ name, (name, false) ∈ PARTITIONS ∧ d.Below (rootfs.enter name)

/-- **Writes that keep out of the read-only partitions**: those whose destination cannot be
    written, or does not lead to such a partition and stay below it from there. -/
theorem write_file_protects_iff (s : State β) (rel_path : String) (data : β)
    (force_overlay : Bool) :
    (∀ access d, .accessed s.rootfs access d ∈ (write_file s rel_path data force_overlay).2 →
        ¬ Protected s.rootfs d) ↔
      (reachable s.fs (destination s.rootfs rel_path force_overlay) = true →
        ∀ name, (name, false) ∈ PARTITIONS →
          ¬ Enters (s.rootfs.enter name) (destination s.rootfs rel_path force_overlay)) := by
  have hsound := write_file_sound s rel_path data force_overlay
  generalize write_file s rel_path data force_overlay = r at hsound
  obtain ⟨s', os⟩ := r
  simp only [enters_iff]
  cases hsound with
  | raises fs hext hunreachable =>
    rw [hunreachable]
    exact iff_of_true (by simp) (by simp)
  | writes fs access hreachable hdirs hfile hread =>
    rw [forall_prop_of_true hreachable]
    constructor
    · intro h name hname hbelow
      exact h access _ (by simp) ⟨name, hname, hbelow⟩
    · rintro h access' d hmem ⟨name, hname, hbelow⟩
      obtain ⟨rfl, rfl⟩ : access' = access ∧ d = Dir.top.walk _ := by simpa using hmem
      exact h name hname hbelow

/-- `./system/x` is written to the system partition of a service that is started. -/
theorem write_file_unprotected :
    ∃ s tr, machine.run (init FileSystem.empty Dir.top "/r") [.start 0] = some (s, tr) ∧
      .accessed s.rootfs .created (s.rootfs.walk ["system", "x"]) ∈
        (write_file s "./system/x" 1 false).2 ∧
      Protected s.rootfs (s.rootfs.walk ["system", "x"]) := by
  obtain ⟨s, tr, hrun, htest⟩ := machine.exists_run (init FileSystem.empty Dir.top "/r")
    [.start 0] (fun s _ =>
      .accessed s.rootfs .created (s.rootfs.walk ["system", "x"]) ∈
          (write_file s "./system/x" 1 false).2 ∧
        (s.rootfs.walk ["system", "x"]).Below (s.rootfs.enter "system")) (by decide +kernel)
  obtain ⟨hwrites, hbelow⟩ := of_decide_eq_true htest
  exact ⟨s, tr, hrun, hwrites, "system", by decide, hbelow⟩

/-! ### The rootfs -/

/-- Every file that is accessed lies below the rootfs of that time. -/
def Obs.Contained : Obs β → Prop
  | .accessed rootfs _ d => d.Below rootfs
  | _ => True

instance : DecidablePred (Obs.Contained (β := β))
  | .accessed rootfs _ d => inferInstanceAs (Decidable (d.Below rootfs))
  | .wrote _ _ => inferInstanceAs (Decidable True)
  | .got _ _ => inferInstanceAs (Decidable True)
  | .mounted _ => inferInstanceAs (Decidable True)
  | .raised => inferInstanceAs (Decidable True)

/-- The path of the file that `read_file` opens. -/
def source (s : State β) (rel_path : String) : Option (List String) :=
  if (s.fs.read (overlay s.rootfs rel_path)).isSome then some (overlay s.rootfs rel_path)
  else if (s.fs.read (join s.rootfs rel_path)).isSome then some (join s.rootfs rel_path)
  else none

/-- The file system when `start` writes the layout. -/
def layoutFs (s : State β) : FileSystem β :=
  (clear_tmp { s with
    fs := (ensure_partitions s.rootfs s.fs PARTITIONS).1
    running := true }).1.fs

/-- What is opened is spelled so that it leads to the rootfs, goes on with a name and stays
    below it. -/
def Confined (s : State β) : Label β → Prop
  | .start _ =>
    s.running = false → (ensure_partitions s.rootfs s.fs PARTITIONS).2 = true →
      (layoutFs s).opens s.layout_path = true → Enters s.rootfs s.layout_path
  | .write_file rel_path _ force_overlay =>
    reachable s.fs (destination s.rootfs rel_path force_overlay) = true →
      Enters s.rootfs (destination s.rootfs rel_path force_overlay)
  | .read_file rel_path => ∀ path, source s rel_path = some path → Enters s.rootfs path
  | _ => True

abbrev Lawful (os : List (Obs β)) : Prop := ∀ o ∈ os, o.Contained

theorem write_file_contained_iff (s : State β) (rel_path : String) (data : β)
    (force_overlay : Bool) :
    Lawful (write_file s rel_path data force_overlay).2 ↔
      Confined s (.write_file rel_path data force_overlay) := by
  have hsound := write_file_sound s rel_path data force_overlay
  generalize write_file s rel_path data force_overlay = r at hsound
  obtain ⟨s', os⟩ := r
  simp only [Confined, enters_iff]
  cases hsound with
  | raises fs hext hunreachable =>
    rw [hunreachable]
    exact iff_of_true (by simp [Lawful, Obs.Contained]) (by simp)
  | writes fs access hreachable hdirs hfile hread =>
    rw [forall_prop_of_true hreachable]
    simp [Lawful, Obs.Contained]

theorem read_file_contained_iff (s : State β) (rel_path : String) :
    Lawful (read_file s rel_path) ↔ Confined s (.read_file rel_path) := by
  have hplace : ∀ {path : List String} {r : Dir × β}, s.fs.read path = some r →
      (Lawful [.accessed s.rootfs .read r.1, .got rel_path r.2] ↔ Enters s.rootfs path) := by
    intro path r hread
    rw [enters_iff, FileSystem.lookup_eq_walk (FileSystem.read_eq_some_iff.mp hread).1]
    simp [Lawful, Obs.Contained]
  unfold read_file find
  simp only [Confined, source]
  cases hoverlay : s.fs.read (overlay s.rootfs rel_path) with
  | some r => simpa using hplace hoverlay
  | none =>
    cases hjoin : s.fs.read (join s.rootfs rel_path) with
    | some r => simpa using hplace hjoin
    | none => simp [Lawful, Obs.Contained]

theorem clear_tmp_contained (s : State β) : Lawful (clear_tmp s).2 := by
  unfold clear_tmp
  by_cases h : s.fs.lookup Dir.top (s.rootfs.names ++ ["tmp"]) = some (s.rootfs.enter "tmp") ∧
      s.fs.isdir (s.rootfs.enter "tmp") = true
  · rw [if_pos h]
    intro o ho
    obtain ⟨d, hd, rfl⟩ := List.mem_map.mp ho
    have hbelow : d.Below (s.rootfs.enter "tmp") := by
      have htest := (List.mem_filter.mp hd).2
      simp only [decide_eq_true_eq] at htest
      exact htest.1
    have htmp : IsName "tmp" := by decide
    exact Dir.below_iff.mpr ⟨"tmp", htmp, hbelow.1⟩
  · rw [if_neg h]
    simp [Lawful]

/-- Only files change. -/
theorem clear_tmp_paths (s : State β) :
    (clear_tmp s).1.rootfs = s.rootfs ∧ (clear_tmp s).1.layout_path = s.layout_path := by
  unfold clear_tmp
  by_cases h : s.fs.lookup Dir.top (s.rootfs.names ++ ["tmp"]) = some (s.rootfs.enter "tmp") ∧
      s.fs.isdir (s.rootfs.enter "tmp") = true
  · rw [if_pos h]
    exact ⟨rfl, rfl⟩
  · rw [if_neg h]
    exact ⟨rfl, rfl⟩

theorem write_layout_contained_iff (s : State β) (layout : β) :
    Lawful (write_layout s layout).2 ↔
      (s.fs.opens s.layout_path = true → Enters s.rootfs s.layout_path) := by
  unfold write_layout store
  cases hwrite : s.fs.write s.layout_path layout with
  | none =>
    rw [FileSystem.write_eq_none_iff.mp hwrite]
    exact iff_of_true (by simp [Lawful]) (by simp)
  | some r =>
    obtain ⟨fs, d⟩ := r
    have hopens : s.fs.opens s.layout_path = true := by
      rw [← Bool.not_eq_false]
      intro hfalse
      rw [FileSystem.write_eq_none_iff.mpr hfalse] at hwrite
      cases hwrite
    rw [forall_prop_of_true hopens, enters_iff, (FileSystem.write_spec hwrite).1]
    simp [Lawful, Obs.Contained]

theorem start_contained_iff (s : State β) (layout : β) :
    Lawful (start s layout).2 ↔ Confined s (.start layout) := by
  unfold start
  simp only [Confined, layoutFs]
  cases hrunning : s.running with
  | true => simp [Lawful]
  | false =>
    rw [if_neg Bool.false_ne_true]
    cases hensure : ensure_partitions s.rootfs s.fs PARTITIONS with
    | mk fs ok =>
      cases ok with
      | false => simp [Lawful, Obs.Contained]
      | true =>
        simp only [forall_const]
        refine List.forall_mem_append.trans ?_
        rw [and_iff_right (clear_tmp_contained _)]
        refine (write_layout_contained_iff _ layout).trans ?_
        rw [(clear_tmp_paths _).1, (clear_tmp_paths _).2]

/-- **Confinement**: in every run, all files that the service accesses lie below its rootfs
    if and only if what it opens is spelled so that it enters the rootfs. -/
theorem contained_iff_confined (s₀ : State β) {ls : List (Label β)} {s : State β}
    {tr : List (Obs β)} (hrun : machine.run s₀ ls = some (s, tr)) :
    (∀ o ∈ tr, o.Contained) ↔ machine.Along Confined s₀ ls := by
  refine (machine.along_iff_trace (Q := Lawful) (I := fun _ => True) (by simp [Lawful])
    (fun _ _ => List.forall_mem_append) (fun s l s' os _ hs => ⟨trivial, ?_⟩) trivial hrun).symm
  have hcall : call s l = (s', os) := Option.some.inj hs
  obtain rfl : (call s l).2 = os := by rw [hcall]
  cases l with
  | start layout => exact (start_contained_iff s layout).symm
  | stop => exact iff_of_true trivial fun o ho => by cases ho
  | mount_sd_rootfs sd_path =>
    -- mounting makes directories at most
    refine iff_of_true trivial ?_
    simp only [call, mount_sd_rootfs]
    split
    · simp [Lawful, Obs.Contained]
    · split <;> simp [Lawful, Obs.Contained]
  | write_file rel_path data force_overlay =>
    exact (write_file_contained_iff s rel_path data force_overlay).symm
  | read_file rel_path => exact (read_file_contained_iff s rel_path).symm
  | world fs => exact iff_of_true trivial fun o ho => by cases ho

/-- A service is started, writes a file and reads it. -/
def insideCalls : List (Label Nat) :=
  [.start 0, .write_file "user/a" 1 false, .read_file "user/a"]

theorem contained_iff_confined_inside :
    ∃ s tr, machine.run (init FileSystem.empty Dir.top "/r") insideCalls = some (s, tr) ∧
      ((∀ o ∈ tr, o.Contained) ↔
        machine.Along Confined (init FileSystem.empty Dir.top "/r") insideCalls) := by
  obtain ⟨s, tr, hrun, -⟩ := machine.exists_run (init FileSystem.empty Dir.top "/r")
    insideCalls (fun _ _ => true) (by decide +kernel)
  exact ⟨s, tr, hrun, contained_iff_confined _ hrun⟩

/-- A relative path leads out of the rootfs, and so does an absolute one. -/
theorem write_file_outside :
    ∃ s tr, machine.run (init FileSystem.empty Dir.top "/r")
        [.start 0, .write_file "../x" 1 false, .write_file "/y" 1 false] = some (s, tr) ∧
      .accessed s.rootfs .created (Dir.top.enter "x") ∈ tr ∧
      .accessed s.rootfs .created (Dir.top.enter "y") ∈ tr ∧
      ¬ ∀ o ∈ tr, o.Contained := by
  obtain ⟨s, tr, hrun, htest⟩ := machine.exists_run (init FileSystem.empty Dir.top "/r")
    [.start 0, .write_file "../x" 1 false, .write_file "/y" 1 false]
    (fun s tr => .accessed s.rootfs .created (Dir.top.enter "x") ∈ tr ∧
      .accessed s.rootfs .created (Dir.top.enter "y") ∈ tr ∧ ¬ ∀ o ∈ tr, o.Contained)
    (by decide +kernel)
  exact ⟨s, tr, hrun, of_decide_eq_true htest⟩

end StorageService
