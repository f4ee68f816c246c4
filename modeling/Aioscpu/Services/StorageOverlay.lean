import Aioscpu.Services.StorageService

/-! # Read After Write

  A path has two places, one in its partition and one in the overlay. A write
  chooses between them by the partition and by its flag, and a read by what is
  in the overlay.
-/

namespace StorageService

variable {β : Type}

/-! ### The two places of a path -/

/-- A relative path of names. -/
def Normalised (rel_path : String) : Prop := ∀ c ∈ PyStr.split rel_path '/', IsName c

instance (rel_path : String) : Decidable (Normalised rel_path) :=
  inferInstanceAs (Decidable (∀ c ∈ PyStr.split rel_path '/', IsName c))

/-- A normalised path does not begin with a slash. -/
theorem Normalised.head {rel_path : String} (h : Normalised rel_path) :
    rel_path.toList.head? ≠ some '/' := by
  intro hslash
  cases hchars : rel_path.toList with
  | nil =>
    rw [hchars] at hslash
    cases hslash
  | cons c cs =>
    rw [hchars] at hslash
    obtain rfl : c = '/' := Option.some.inj hslash
    have hempty : "" ∈ PyStr.split rel_path '/' := by
      unfold PyStr.split
      rw [hchars, List.splitOn_cons_eq_if_modifyHead]
      simp
    exact (h "" hempty).1 rfl

theorem Normalised.parts_eq {rel_path : String} (h : Normalised rel_path) :
    parts rel_path = PyStr.split rel_path '/' := by
  have hlstrip : PyStr.lstrip rel_path '/' = rel_path := by
    unfold PyStr.lstrip
    cases hchars : rel_path.toList with
    | nil => exact (String.toList_eq_nil_iff.mp hchars).symm
    | cons c cs =>
      have hc : c ≠ '/' := fun heq => h.head (by rw [hchars, heq]; rfl)
      rw [List.dropWhile_cons_of_neg (by simpa using hc), ← hchars, String.ofList_toList]
  unfold parts
  rw [hlstrip]

theorem Normalised.join_eq {rel_path : String} (h : Normalised rel_path) (rootfs : Dir) :
    join rootfs rel_path = rootfs.names ++ PyStr.split rel_path '/' := by
  unfold join isabs
  rw [if_neg (by simpa using h.head)]

theorem Normalised.overlay_eq {rel_path : String} (h : Normalised rel_path) (rootfs : Dir) :
    overlay rootfs rel_path = rootfs.names ++ "overlay" :: PyStr.split rel_path '/' := by
  unfold overlay
  rw [h.parts_eq]

theorem Normalised.join_names {rel_path : String} (h : Normalised rel_path) (rootfs : Dir) :
    ∀ c ∈ join rootfs rel_path, IsName c := by
  rw [h.join_eq]
  exact List.forall_mem_append.mpr ⟨rootfs.isName, h⟩

theorem Normalised.overlay_names {rel_path : String} (h : Normalised rel_path) (rootfs : Dir) :
    ∀ c ∈ overlay rootfs rel_path, IsName c := by
  rw [h.overlay_eq]
  have hoverlay : IsName "overlay" := by decide
  exact List.forall_mem_append.mpr ⟨rootfs.isName, List.forall_mem_cons.mpr ⟨hoverlay, h⟩⟩

/-- A normalised relative path outside `overlay/`. -/
def Ordinary (rel_path : String) : Prop :=
  (∀ c ∈ PyStr.split rel_path '/', IsName c) ∧
    (PyStr.split rel_path '/').head? ≠ some "overlay"

instance (rel_path : String) : Decidable (Ordinary rel_path) :=
  inferInstanceAs (Decidable (_ ∧ _))

theorem Ordinary.normalised {rel_path : String} (h : Ordinary rel_path) : Normalised rel_path :=
  h.1

/-- Paths of names lead to one place only if they are equal. -/
theorem walk_injective {path path' : List String} (h : ∀ c ∈ path, IsName c)
    (h' : ∀ c ∈ path', IsName c) (heq : Dir.top.walk path = Dir.top.walk path') :
    path = path' := by
  have hnames := congrArg Dir.names heq
  rwa [Dir.walk_names _ h, Dir.walk_names _ h', List.append_cancel_left_eq] at hnames

/-- The places of different paths are different. -/
theorem Ordinary.apart {p q : String} (hp : Ordinary p) (hq : Ordinary q) (rootfs : Dir) :
    Dir.top.walk (join rootfs p) ≠ Dir.top.walk (overlay rootfs q) ∧
      (p ≠ q → Dir.top.walk (join rootfs p) ≠ Dir.top.walk (join rootfs q) ∧
        Dir.top.walk (overlay rootfs p) ≠ Dir.top.walk (overlay rootfs q)) := by
  refine ⟨fun heq => ?_, fun hne => ⟨fun heq => ?_, fun heq => ?_⟩⟩
  · have hpath := walk_injective (hp.normalised.join_names rootfs)
      (hq.normalised.overlay_names rootfs) heq
    rw [hp.normalised.join_eq, hq.normalised.overlay_eq, List.append_cancel_left_eq] at hpath
    -- an ordinary path does not begin with `overlay`
    exact hp.2 (by rw [hpath]; rfl)
  · have hpath := walk_injective (hp.normalised.join_names rootfs)
      (hq.normalised.join_names rootfs) heq
    rw [hp.normalised.join_eq, hq.normalised.join_eq, List.append_cancel_left_eq] at hpath
    exact hne (PyStr.split_injective '/' hpath)
  · have hpath := walk_injective (hp.normalised.overlay_names rootfs)
      (hq.normalised.overlay_names rootfs) heq
    rw [hp.normalised.overlay_eq, hq.normalised.overlay_eq, List.append_cancel_left_eq,
      List.cons.injEq] at hpath
    exact hne (PyStr.split_injective '/' hpath.2)

/-! ### Sequences of writes -/

/-- A call of `write_file` with an ordinary path. -/
structure Write (β : Type) where
  rel_path : String
  ordinary : Ordinary rel_path
  data : β
  force_overlay : Bool

def Obs.isRaised : Obs β → Bool
  | .raised => true
  | _ => false

/-- Calls of `write_file` whose file operations succeed. -/
def writing : Machine (State β) (Write β) (Obs β) where
  step := fun s w =>
    let r := write_file s w.rel_path w.data w.force_overlay
    if r.2.any Obs.isRaised then none else some r

/-- The data of the latest write to a path. -/
def latest (tr : List (Obs β)) (rel_path : String) : Option β :=
  tr.foldl (fun data o =>
    match o with
    | .wrote rel_path' data' => if rel_path' = rel_path then some data' else data
    | _ => data) none

/-- What `read_file` returns, if it does. -/
def content (s : State β) (rel_path : String) : Option β := (find s rel_path).map Prod.snd

/-- Every path that was written reads back. -/
def ReadsBack (s : State β) (tr : List (Obs β)) : Prop :=
  ∀ rel_path data, latest tr rel_path = some data → content s rel_path = some data

/-- No file in the overlay hides what is written beside it. -/
def Unshadowed (s : State β) (w : Write β) : Prop :=
  w.force_overlay = false → writable ((parts w.rel_path).headD "") = true →
    ∀ r, s.fs.read (overlay s.rootfs w.rel_path) = some r → r.2 = w.data

theorem writing_sound {s s' : State β} {w : Write β} {os : List (Obs β)}
    (h : writing.step s w = some (s', os)) :
    ∃ fs access, s' = { s with fs } ∧
      os = [.accessed s.rootfs access
        (Dir.top.walk (destination s.rootfs w.rel_path w.force_overlay)),
        .wrote w.rel_path w.data] ∧
      (∀ x, fs.file x =
        if x = Dir.top.walk (destination s.rootfs w.rel_path w.force_overlay) then some w.data
        else s.fs.file x) ∧
      (fs.read (destination s.rootfs w.rel_path w.force_overlay)).map Prod.snd =
        some w.data := by
  simp only [writing] at h
  split at h
  · cases h
  next hraised =>
    have hsound := write_file_sound s w.rel_path w.data w.force_overlay
    rw [Option.some.inj h] at hsound hraised
    cases hsound with
    | raises fs hext hunreachable => exact absurd rfl hraised
    | writes fs access hreachable hdirs hfile hread =>
      exact ⟨fs, access, rfl, rfl, hfile, by rw [hread]; rfl⟩

theorem latest_append (tr : List (Obs β)) (rootfs d : Dir) (access : Access)
    (rel_path : String) (data : β) (p : String) :
    latest (tr ++ [.accessed rootfs access d, .wrote rel_path data]) p =
      if rel_path = p then some data else latest tr p := by
  unfold latest
  rw [List.foldl_append]
  rfl

/-- The other paths read what they read before. -/
theorem content_of_ne {s : State β} {w : Write β} {fs : FileSystem β}
    (hfile : ∀ x, fs.file x =
      if x = Dir.top.walk (destination s.rootfs w.rel_path w.force_overlay) then some w.data
      else s.fs.file x)
    {p : String} (hp : Ordinary p) (hne : w.rel_path ≠ p) :
    content { s with fs } p = content s p := by
  have hjoin : Dir.top.walk (join s.rootfs p) ≠
      Dir.top.walk (destination s.rootfs w.rel_path w.force_overlay) := by
    unfold destination
    split
    · exact ((hp.apart w.ordinary s.rootfs).2 hne.symm).1
    · exact (hp.apart w.ordinary s.rootfs).1
  have hoverlay : Dir.top.walk (overlay s.rootfs p) ≠
      Dir.top.walk (destination s.rootfs w.rel_path w.force_overlay) := by
    unfold destination
    split
    · exact (w.ordinary.apart hp s.rootfs).1.symm
    · exact ((hp.apart w.ordinary s.rootfs).2 hne.symm).2
  have hreadOverlay : fs.read (overlay s.rootfs p) = s.fs.read (overlay s.rootfs p) :=
    FileSystem.read_congr (hp.normalised.overlay_names s.rootfs) (by rw [hfile, if_neg hoverlay])
  have hreadJoin : fs.read (join s.rootfs p) = s.fs.read (join s.rootfs p) :=
    FileSystem.read_congr (hp.normalised.join_names s.rootfs) (by rw [hfile, if_neg hjoin])
  unfold content find
  rw [hreadOverlay, hreadJoin]

/-- A path reads the data of a write to it if and only if nothing hides them. -/
theorem content_self_iff {s : State β} {w : Write β} {fs : FileSystem β}
    (hfile : ∀ x, fs.file x =
      if x = Dir.top.walk (destination s.rootfs w.rel_path w.force_overlay) then some w.data
      else s.fs.file x)
    (hread : (fs.read (destination s.rootfs w.rel_path w.force_overlay)).map Prod.snd =
      some w.data) :
    Unshadowed s w ↔ content { s with fs } w.rel_path = some w.data := by
  unfold Unshadowed content find
  unfold destination at hfile hread
  split at hread
  next hdirect =>
    rw [if_pos hdirect] at hfile
    obtain ⟨hforce, hwritable⟩ := hdirect
    have hforce : w.force_overlay = false := by simpa using hforce
    have hoverlay : fs.read (overlay s.rootfs w.rel_path) =
        s.fs.read (overlay s.rootfs w.rel_path) :=
      FileSystem.read_congr (w.ordinary.normalised.overlay_names s.rootfs)
        (by rw [hfile, if_neg (w.ordinary.apart w.ordinary s.rootfs).1.symm])
    -- the write has left the overlay alone, where the read looks first
    rw [hoverlay, forall_prop_of_true hforce, forall_prop_of_true hwritable]
    cases s.fs.read (overlay s.rootfs w.rel_path) with
    | none => exact iff_of_true (by simp) hread
    | some r => simp
  next hdirect =>
    -- the file is in the overlay, where the read looks first
    refine iff_of_true (fun hforce hwritable => absurd ⟨by simp [hforce], hwritable⟩ hdirect) ?_
    obtain ⟨r, hr, hdata⟩ := Option.map_eq_some_iff.mp hread
    rw [hr, Option.some_or, Option.map_some, hdata]

/-- What was written was written by an ordinary path. -/
theorem ordinary_of_latest {s₀ s : State β} {ls : List (Write β)} {tr : List (Obs β)}
    (hrun : writing.run s₀ ls = some (s, tr)) {p : String} {data : β}
    (h : latest tr p = some data) : Ordinary p := by
  have hall : ∀ p data, latest tr p = some data → Ordinary p := by
    refine writing.run_induction
      (P := fun _ _ tr => ∀ p data, latest tr p = some data → Ordinary p) ?_ ?_ hrun
    · intro p data h
      cases h
    · intro ls s tr w s' os _ ih hs p data h
      obtain ⟨fs, access, rfl, rfl, -⟩ := writing_sound hs
      rw [latest_append] at h
      split at h
      · next heq => exact heq ▸ w.ordinary
      · exact ih p data h
  exact hall p data h

theorem user_ordinary : Ordinary "user/a" := by decide +kernel

/-- A file in the user partition is written to the overlay, and then in its place. -/
def shadowedWrites : List (Write Nat) :=
  [⟨"user/a", user_ordinary, 1, true⟩, ⟨"user/a", user_ordinary, 2, false⟩]

end StorageService
