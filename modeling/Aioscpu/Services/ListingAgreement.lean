import Aioscpu.Services.StorageOverlay

/-! # Listing Agrees with Reading

  `read_file` looks into the overlay first, and `list_partition` walks the partition alone. The
  names of files have no slash in them and no null character, as on any system.
-/

namespace StorageService

variable {β : Type}

/-! ### Listing -/

/-- `os.path.relpath` of a place below the rootfs. -/
def relpath (rootfs d : Dir) : String := PyStr.join '/' (d.names.drop rootfs.names.length)

/-- `os.path.isdir` of a partition. -/
def hasPartition (s : State β) (partition : String) : Bool :=
  s.fs.lookup Dir.top (s.rootfs.names ++ [partition]) = some (s.rootfs.enter partition) ∧
    s.fs.isdir (s.rootfs.enter partition)

/-- `list_partition`, which raises for an unknown partition. The order is that of the system. -/
def list_partition (s : State β) (partition : String) : Option (List String) :=
  if (PARTITIONS.lookup partition).isSome then
    if hasPartition s partition then
      some ((filesBelow s.fs (s.rootfs.enter partition)).map (relpath s.rootfs))
    else some []
  else none

/-- `partition/...`, normalised. -/
def InPartition (partition rel_path : String) : Prop :=
  Normalised rel_path ∧ ∃ c rest, PyStr.split rel_path '/' = partition :: c :: rest

/-- What is listed is what can be read, and is listed once. -/
structure ListingAgrees (s : State β) : Prop where
  listed : ∀ partition files rel_path, list_partition s partition = some files →
    InPartition partition rel_path →
      (rel_path ∈ files ↔ Obs.raised ∉ read_file s rel_path)
  once : ∀ partition files, list_partition s partition = some files → files.Nodup

/-- What a path has in its partition. -/
def inPlace (s : State β) (rel_path : String) : Option β :=
  s.fs.file (Dir.top.walk (join s.rootfs rel_path))

/-- What it has in the overlay. -/
def inOverlay (s : State β) (rel_path : String) : Option β :=
  s.fs.file (Dir.top.walk (overlay s.rootfs rel_path))

/-- A path that has a file in the overlay has one in its partition. -/
def Mirrored (s : State β) : Prop :=
  ∀ partition rel_path, (PARTITIONS.lookup partition).isSome → InPartition partition rel_path →
    (inOverlay s rel_path).isSome → (inPlace s rel_path).isSome

/-! ### Names of files -/

/-- A name that a file can have. -/
def Plain (c : String) : Prop := '/' ∉ c.toList ∧ FileSystem.Callable c

/-- A state with the names of the files of a system. -/
structure Disk (β : Type) where
  state : State β
  rootfs_plain : ∀ c ∈ state.rootfs.names, '/' ∉ c.toList
  plain : ∀ d, (state.fs.file d).isSome → ∀ c ∈ d.names, Plain c

/-- A path reads the file that is there. -/
theorem Disk.read_isSome_iff (s : Disk β) {path : List String} (h : ∀ c ∈ path, IsName c) :
    (s.state.fs.read path).isSome ↔ (s.state.fs.file (Dir.top.walk path)).isSome := by
  constructor
  · intro hread
    obtain ⟨⟨d, content⟩, hread⟩ := Option.isSome_iff_exists.mp hread
    obtain ⟨hlookup, hfile⟩ := FileSystem.read_eq_some_iff.mp hread
    rw [FileSystem.lookup_eq_walk hlookup, hfile]
    rfl
  · intro hfile
    have hnames : (Dir.top.walk path).names = path := Dir.walk_names _ h
    have hcall : ∀ c ∈ path, FileSystem.Callable c := by
      intro c hc
      exact (s.plain _ hfile c (hnames.symm ▸ hc)).2
    rw [FileSystem.read_names h hcall, Option.isSome_map]
    exact hfile

theorem Disk.reads_iff (s : Disk β) {rel_path : String} (h : Normalised rel_path) :
    Obs.raised ∉ read_file s.state rel_path ↔
      (inOverlay s.state rel_path).isSome ∨ (inPlace s.state rel_path).isSome := by
  have hreads : Obs.raised ∉ read_file s.state rel_path ↔ (find s.state rel_path).isSome := by
    unfold read_file
    cases find s.state rel_path with
    | none => simp
    | some r => simp
  rw [hreads]
  unfold find inOverlay inPlace
  rw [Option.isSome_or, Bool.or_eq_true, s.read_isSome_iff (h.overlay_names _),
    s.read_isSome_iff (h.join_names _)]

/-- The names of a place below a directory. -/
theorem names_of_below {d above : Dir} (h : d.Below above) :
    ∃ c rest, d.names = above.names ++ c :: rest := by
  obtain ⟨⟨rest, hrest⟩, hne⟩ := h
  cases rest with
  | nil => exact absurd (Dir.ext (by simpa using hrest.symm)) hne
  | cons c rest => exact ⟨c, rest, hrest.symm⟩

/-- A file lies in directories that the system finds. -/
theorem Disk.lookup_of_below (s : Disk β) {d : Dir} (hfile : (s.state.fs.file d).isSome)
    {path rest : List String} (hnames : d.names = path ++ rest) (hrest : rest ≠ []) :
    s.state.fs.lookup Dir.top path = some (Dir.top.walk path) ∧
      s.state.fs.isdir (Dir.top.walk path) = true := by
  have hwalk : Dir.top.walk d.names = d := by
    refine Dir.ext ?_
    rw [Dir.walk_names _ d.isName]
    rfl
  obtain ⟨content, hcontent⟩ := Option.isSome_iff_exists.mp hfile
  have hget := FileSystem.file_eq_some_iff.mp hcontent
  rw [← hwalk] at hget
  have hlookup := FileSystem.lookup_names d.isName (fun c hc => (s.plain d hfile c hc).2) hget
  rw [hnames, FileSystem.lookup_append] at hlookup
  obtain ⟨x, hx, hbelow⟩ := Option.bind_eq_some_iff.mp hlookup
  obtain rfl := FileSystem.lookup_eq_walk hx
  refine ⟨hx, ?_⟩
  cases rest with
  | nil => exact absurd rfl hrest
  | cons c rest =>
    unfold FileSystem.lookup at hbelow
    split at hbelow
    · next hdir => exact hdir.1
    · cases hbelow

/-- The files of a partition. -/
theorem Disk.mem_filesBelow (s : Disk β) (above d : Dir) :
    d ∈ filesBelow s.state.fs above ↔ d.Below above ∧ (s.state.fs.file d).isSome := by
  unfold filesBelow
  rw [List.mem_filter, decide_eq_true_eq]
  refine ⟨And.right, fun h => ⟨?_, h⟩⟩
  obtain ⟨content, hcontent⟩ := Option.isSome_iff_exists.mp h.2
  have hget := FileSystem.file_eq_some_iff.mp hcontent
  unfold FileSystem.get at hget
  split at hget
  · cases hget
  · exact (Dict.mem_keys_iff _ _).mpr ⟨_, hget⟩

theorem isName_of_known {partition : String} (h : (PARTITIONS.lookup partition).isSome) :
    IsName partition := by
  have hall : ∀ name ∈ PARTITIONS.map Prod.fst, IsName name := by decide
  exact hall partition ((Dict.lookup_isSome_iff partition PARTITIONS).mp h)

/-- A listing is the files of the partition. -/
theorem Disk.list_partition_eq (s : Disk β) {partition : String} {files : List String}
    (h : list_partition s.state partition = some files) :
    (PARTITIONS.lookup partition).isSome ∧
      files = (filesBelow s.state.fs (s.state.rootfs.enter partition)).map
        (relpath s.state.rootfs) := by
  unfold list_partition at h
  split at h
  next hknown =>
    refine ⟨hknown, ?_⟩
    have hpartition := isName_of_known hknown
    split at h
    · exact (Option.some.inj h).symm
    next hdir =>
      obtain rfl := Option.some.inj h
      -- a file in the partition would have its directories
      have hnone : filesBelow s.state.fs (s.state.rootfs.enter partition) = [] := by
        refine List.eq_nil_iff_forall_not_mem.mpr fun d hd => hdir (decide_eq_true ?_)
        obtain ⟨hbelow, hfile⟩ := (s.mem_filesBelow _ d).mp hd
        obtain ⟨c, rest, hnames⟩ := names_of_below hbelow
        have hpath : Dir.top.walk (s.state.rootfs.names ++ [partition]) =
            s.state.rootfs.enter partition := by
          refine Dir.ext ?_
          rw [← s.state.rootfs.enter_name hpartition, Dir.walk_names _ (Dir.isName _)]
          rfl
        rw [s.state.rootfs.enter_name hpartition] at hnames
        have hlookup := s.lookup_of_below hfile hnames (List.cons_ne_nil c rest)
        rwa [hpath] at hlookup
      rw [hnone]
      rfl
  · cases h

/-- The path of a file in a partition, as it is listed. -/
theorem Disk.relpath_spec (s : Disk β) {partition : String} (hpartition : IsName partition)
    {d : Dir} (hd : d ∈ filesBelow s.state.fs (s.state.rootfs.enter partition)) :
    d.names = s.state.rootfs.names ++ PyStr.split (relpath s.state.rootfs d) '/' := by
  obtain ⟨hbelow, hfile⟩ := (s.mem_filesBelow _ d).mp hd
  obtain ⟨c, rest, hnames⟩ := names_of_below hbelow
  rw [s.state.rootfs.enter_name hpartition, List.append_assoc] at hnames
  have hdrop : d.names.drop s.state.rootfs.names.length = [partition] ++ c :: rest := by
    rw [hnames, List.drop_left]
  have hslash : ∀ name ∈ [partition] ++ c :: rest, '/' ∉ name.toList := by
    intro name hname
    refine (s.plain d hfile name ?_).1
    rw [hnames]
    exact List.mem_append_right _ hname
  unfold relpath
  rw [hdrop, PyStr.split_join hslash (List.cons_ne_nil _ _)]
  exact hnames

/-- Every path is listed once. -/
theorem Disk.list_nodup (s : Disk β) {partition : String} {files : List String}
    (h : list_partition s.state partition = some files) : files.Nodup := by
  obtain ⟨hknown, rfl⟩ := s.list_partition_eq h
  refine List.Nodup.map_on ?_ ?_
  · intro d hd d' hd' heq
    have hnames := s.relpath_spec (isName_of_known hknown) hd
    rw [heq, ← s.relpath_spec (isName_of_known hknown) hd'] at hnames
    exact Dir.ext hnames
  · exact s.state.fs.entries.nodup.filter _

/-- A path is listed if its file is in the partition. -/
theorem Disk.mem_list_iff (s : Disk β) {partition : String} {files : List String}
    (h : list_partition s.state partition = some files) {rel_path : String}
    (hpath : InPartition partition rel_path) :
    rel_path ∈ files ↔ (inPlace s.state rel_path).isSome := by
  obtain ⟨hknown, rfl⟩ := s.list_partition_eq h
  have hpartition := isName_of_known hknown
  obtain ⟨hnormal, c, rest, hsplit⟩ := hpath
  have hnames : (Dir.top.walk (join s.state.rootfs rel_path)).names =
      s.state.rootfs.names ++ PyStr.split rel_path '/' := by
    rw [Dir.walk_names _ (hnormal.join_names _), hnormal.join_eq]
    rfl
  rw [List.mem_map]
  constructor
  · rintro ⟨d, hd, rfl⟩
    have heq : d = Dir.top.walk (join s.state.rootfs (relpath s.state.rootfs d)) :=
      Dir.ext ((s.relpath_spec hpartition hd).trans hnames.symm)
    unfold inPlace
    rw [← heq]
    exact ((s.mem_filesBelow _ d).mp hd).2
  · intro hfile
    refine ⟨_, (s.mem_filesBelow _ _).mpr ⟨⟨?_, ?_⟩, hfile⟩, ?_⟩
    · unfold Dir.Within
      rw [hnames, s.state.rootfs.enter_name hpartition, hsplit]
      exact ⟨c :: rest, by simp⟩
    · intro heq
      have hlength := congrArg (fun d : Dir => d.names.length) heq
      simp only [hnames, s.state.rootfs.enter_name hpartition, hsplit, List.length_append,
        List.length_cons, List.length_nil] at hlength
      omega
    · unfold relpath
      rw [hnames, List.drop_left, PyStr.join_split]

/-- **One state**: listing agrees with reading if and only if the overlay is mirrored. -/
theorem Disk.agrees_iff_mirrored (s : Disk β) : ListingAgrees s.state ↔ Mirrored s.state := by
  constructor
  · intro h partition rel_path hknown hpath hoverlay
    obtain ⟨files, hfiles⟩ : ∃ files, list_partition s.state partition = some files := by
      unfold list_partition
      rw [if_pos hknown]
      split
      · exact ⟨_, rfl⟩
      · exact ⟨_, rfl⟩
    have hlisted := (h.listed partition files rel_path hfiles hpath).mpr
      ((s.reads_iff hpath.1).mpr (Or.inl hoverlay))
    exact (s.mem_list_iff hfiles hpath).mp hlisted
  · intro h
    refine ⟨fun partition files rel_path hfiles hpath => ?_, fun _ _ hfiles => s.list_nodup hfiles⟩
    rw [s.mem_list_iff hfiles hpath, s.reads_iff hpath.1]
    constructor
    · exact Or.inr
    · rintro (hoverlay | hplace)
      · exact h partition rel_path (s.list_partition_eq hfiles).1 hpath hoverlay
      · exact hplace

/-! ### Writes -/

/-- A call of `write_file` with a normalised path. -/
structure PlainWrite (β : Type) where
  rel_path : String
  normalised : Normalised rel_path
  data : β
  force_overlay : Bool

/-- Where it writes. -/
def PlainWrite.dest (w : PlainWrite β) (rootfs : Dir) : List String :=
  destination rootfs w.rel_path w.force_overlay

theorem PlainWrite.dest_names (w : PlainWrite β) (rootfs : Dir) :
    ∀ c ∈ w.dest rootfs, IsName c := by
  unfold dest destination
  split
  · exact w.normalised.join_names rootfs
  · exact w.normalised.overlay_names rootfs

theorem PlainWrite.dest_slash (w : PlainWrite β) {rootfs : Dir}
    (hrootfs : ∀ c ∈ rootfs.names, '/' ∉ c.toList) : ∀ c ∈ w.dest rootfs, '/' ∉ c.toList := by
  have hsplit : ∀ c ∈ PyStr.split w.rel_path '/', '/' ∉ c.toList := fun c hc =>
    PyStr.notMem_of_mem_split hc
  have hoverlay : '/' ∉ "overlay".toList := by decide
  unfold dest destination
  split
  · rw [w.normalised.join_eq]
    exact List.forall_mem_append.mpr ⟨hrootfs, hsplit⟩
  · rw [w.normalised.overlay_eq]
    exact List.forall_mem_append.mpr ⟨hrootfs, List.forall_mem_cons.mpr ⟨hoverlay, hsplit⟩⟩

/-- What a call that returns does to the files. -/
theorem write_returned {s : State β} {w : PlainWrite β}
    (h : Obs.raised ∉ (write_file s w.rel_path w.data w.force_overlay).2) :
    ∃ fs, (write_file s w.rel_path w.data w.force_overlay).1 = { s with fs } ∧
      (∀ c ∈ w.dest s.rootfs, FileSystem.Callable c) ∧
      ∀ x, fs.file x =
        if x = Dir.top.walk (w.dest s.rootfs) then some w.data else s.fs.file x := by
  have hsound := write_file_sound s w.rel_path w.data w.force_overlay
  generalize write_file s w.rel_path w.data w.force_overlay = r at h hsound
  obtain ⟨s', os⟩ := r
  cases hsound with
  | raises fs hext hunreachable => exact absurd List.mem_cons_self h
  | writes fs access hreachable hdirs hfile hread =>
    have hlookup := (FileSystem.read_eq_some_iff.mp hread).1
    exact ⟨fs, rfl, FileSystem.callable_of_lookup hlookup, hfile⟩

/-- The state after a call that returns. -/
def Disk.written (s : Disk β) (w : PlainWrite β)
    (h : Obs.raised ∉ (write_file s.state w.rel_path w.data w.force_overlay).2) : Disk β where
  state := (write_file s.state w.rel_path w.data w.force_overlay).1
  rootfs_plain := by
    obtain ⟨fs, heq, -⟩ := write_returned h
    rw [heq]
    exact s.rootfs_plain
  plain := by
    obtain ⟨fs, heq, hcall, hfile⟩ := write_returned h
    rw [heq]
    intro d hd
    rw [hfile] at hd
    split at hd
    · next hdest =>
      have hnames : d.names = w.dest s.state.rootfs := by
        rw [hdest, Dir.walk_names _ (w.dest_names _)]
        rfl
      rw [hnames]
      exact fun c hc => ⟨w.dest_slash s.rootfs_plain c hc, hcall c hc⟩
    · exact s.plain d hd

theorem raised_notMem {os : List (Obs β)} (h : ¬ os.any Obs.isRaised = true) :
    Obs.raised ∉ os := fun hmem => h (List.any_eq_true.mpr ⟨.raised, hmem, rfl⟩)

/-- Calls of `write_file` that return. -/
def plainWrites : Machine (Disk β) (PlainWrite β) (Obs β) where
  step := fun s w =>
    let os := (write_file s.state w.rel_path w.data w.force_overlay).2
    if h : os.any Obs.isRaised = true then none else some (s.written w (raised_notMem h), os)

/-- The condition: what is written to the overlay under the name of a partition is in the
    partition already. -/
def Covered (s : Disk β) (w : PlainWrite β) : Prop :=
  ∀ partition rel_path, (PARTITIONS.lookup partition).isSome → InPartition partition rel_path →
    w.dest s.state.rootfs = overlay s.state.rootfs rel_path →
      (inPlace s.state rel_path).isSome

/-- A write keeps the overlay mirrored if and only if it is covered. -/
theorem Disk.covered_iff_mirrored (s : Disk β) (w : PlainWrite β)
    (h : Obs.raised ∉ (write_file s.state w.rel_path w.data w.force_overlay).2)
    (hmirrored : Mirrored s.state) : Covered s w ↔ Mirrored (s.written w h).state := by
  obtain ⟨fs, heq, -, hfile⟩ := write_returned h
  have hstate : (s.written w h).state = { s.state with fs } := heq
  rw [hstate]
  have hkeeps : ∀ x, (s.state.fs.file x).isSome → (fs.file x).isSome := by
    intro x hx
    rw [hfile]
    split
    · rfl
    · exact hx
  constructor
  · intro hcovered partition rel_path hknown hpath hoverlay
    have hoverlay : (fs.file (Dir.top.walk (overlay s.state.rootfs rel_path))).isSome := hoverlay
    refine hkeeps _ ?_
    rw [hfile] at hoverlay
    split at hoverlay
    · next hwalk =>
      have hdest := walk_injective (hpath.1.overlay_names s.state.rootfs) (w.dest_names _) hwalk
      exact hcovered partition rel_path hknown hpath hdest.symm
    · exact hmirrored partition rel_path hknown hpath hoverlay
  · intro hafter partition rel_path hknown hpath hdest
    have hoverlay : (fs.file (Dir.top.walk (overlay s.state.rootfs rel_path))).isSome := by
      rw [hfile, hdest, if_pos rfl]
      rfl
    have hplace : (fs.file (Dir.top.walk (join s.state.rootfs rel_path))).isSome :=
      hafter partition rel_path hknown hpath hoverlay
    rw [hfile, hdest] at hplace
    split at hplace
    · next hwalk =>
      -- the place in the overlay is one name longer
      have hsame := walk_injective (hpath.1.join_names _) (hpath.1.overlay_names _) hwalk
      have hlength := congrArg List.length hsame
      rw [hpath.1.join_eq, hpath.1.overlay_eq] at hlength
      simp only [List.length_append, List.length_cons] at hlength
      omega
    · exact hplace

/-- A rootfs without files. -/
def emptyDisk : Disk Nat where
  state := init FileSystem.empty Dir.top "/r"
  rootfs_plain := by decide
  plain := by
    intro d hd
    have hnone : (FileSystem.empty : FileSystem Nat).file d = none := by
      unfold FileSystem.file FileSystem.get
      split
      · next h =>
        split at h
        · cases h
        · cases h
      · rfl
    have hsome : ((FileSystem.empty : FileSystem Nat).file d).isSome = true := hd
    rw [hnone] at hsome
    cases hsome

def userWrite : PlainWrite Nat := ⟨"user/a", user_ordinary.normalised, 1, false⟩

theorem boot_normalised : Normalised "boot/a" := by decide

end StorageService
