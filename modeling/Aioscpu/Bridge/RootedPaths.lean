import Aioscpu.Models.ScanCompleteness

/-! # Rooted Paths

  The paths that `HostFilesystemAdapter.full_path` and `HostBridgeBase.get_safe_path` make, and
  the directories that the second one makes for them. Both join what they are given to a
  directory: a `..` goes on to the directories above, and a part that is absolute drops what
  comes before it.

  A path is resolved from the current directory, in a file system without symbolic links, and a
  relative one is normalised as `os.path.abspath` does it.
-/

namespace RootedPaths

open ModelManager (join isabs resolve)
open StorageService (base)

variable {β : Type}

/-! ### The helpers -/

/-- The files, and the current directory. -/
structure Host (β : Type) where
  fs : FileSystem β
  cwd : Dir
  cwd_isdir : fs.isdir cwd = true

/-- Where a path leads to, after lexical normalisation. -/
def Host.place (host : Host β) (path : String) : Dir := resolve host.cwd path

structure HostFilesystemAdapter where
  root : String

/-- `HostFilesystemAdapter.full_path`. -/
def HostFilesystemAdapter.full_path (self : HostFilesystemAdapter) (rel : String) : String :=
  join self.root (PyStr.lstrip rel '/')

/-- `os.path.dirname`. -/
def dirname (path : String) : String :=
  let head := path.toList.rdropWhile (· ≠ '/')
  String.ofList (if head.all (· = '/') then head else head.rdropWhile (· = '/'))

/-- `os.path.join(self.get_temp_dir(), *parts)`. -/
def path (temp_dir : String) (parts : List String) : String := parts.foldl join temp_dir

/-- `os.path.dirname(path) or self.get_temp_dir()`. -/
def dir (temp_dir : String) (parts : List String) : String :=
  if dirname (path temp_dir parts) = "" then temp_dir else dirname (path temp_dir parts)

/-- The place that `os.makedirs` starts from. -/
def start (host : Host β) (temp_dir : String) (parts : List String) : Dir :=
  base host.cwd (dir temp_dir parts)

/-- The components that it takes one after the other. -/
def steps (temp_dir : String) (parts : List String) : List String :=
  PyStr.split (dir temp_dir parts) '/'

/-- `HostBridgeBase.get_safe_path`, where `get_temp_dir` returns this directory: the files then,
    and what it returns, unless it raises. There is no directory with an empty path to be made. -/
def get_safe_path (host : Host β) (temp_dir : String) (parts : List String) :
    FileSystem β × Option String :=
  -- `os.makedirs("")` raises
  if dir temp_dir parts = "" then (host.fs, none)
  else
    let made := host.fs.makedirs (start host temp_dir parts) (steps temp_dir parts)
    (made.1, if made.2 then some (path temp_dir parts) else none)

/-- What is returned lies in the temporary directory, and directories are made only there. -/
structure Rooted (host : Host β) (temp_dir : String) (parts : List String) : Prop where
  path : ∀ path, (get_safe_path host temp_dir parts).2 = some path →
    (host.place path).Within (host.place temp_dir)
  dirs : ∀ d, (get_safe_path host temp_dir parts).1.isdir d = true →
    host.fs.isdir d = true ∨ d.Within (host.place temp_dir)

/-! ### The spelling -/

/-- Where the last absolute part starts, or else the directory, and the components from there. -/
def route (start : Dir) (parts : List String) : Dir × List String :=
  parts.foldl (fun r part =>
    if isabs part then (Dir.top, PyStr.split part '/')
    else (r.1, r.2 ++ PyStr.split part '/')) (start, [])

theorem route_concat (start : Dir) (parts : List String) (part : String) :
    route start (parts ++ [part]) =
      if isabs part then (Dir.top, PyStr.split part '/')
      else ((route start parts).1, (route start parts).2 ++ PyStr.split part '/') :=
  List.foldl_concat ..

/-- The route leads to the place of the path. -/
theorem place_path (host : Host β) (temp_dir : String) (parts : List String) :
    host.place (path temp_dir parts) =
      (route (host.place temp_dir) parts).1.walk (route (host.place temp_dir) parts).2 := by
  induction parts using List.reverseRecOn with
  | nil => rfl
  | append_singleton parts part ih =>
    have hpath : path temp_dir (parts ++ [part]) = join (path temp_dir parts) part :=
      List.foldl_concat ..
    rw [hpath, route_concat]
    by_cases habs : isabs part = true
    · -- an absolute part drops what comes before it
      have hjoin : join (path temp_dir parts) part = part := by
        unfold join
        rw [if_pos (by rw [habs]; rfl)]
      rw [hjoin, if_pos habs]
      show (if isabs part then Dir.top else host.cwd).walk (PyStr.split part '/') = _
      rw [if_pos habs]
    · rw [if_neg habs, Dir.walk_append, ← ih]
      exact ModelManager.resolve_join host.cwd _ (Bool.not_eq_true _ ▸ habs)

/-- The route does not start below the directory. -/
theorem route_outside (start : Dir) (parts : List String) :
    ¬ (route start parts).1.Below start := by
  induction parts using List.reverseRecOn with
  | nil => exact fun h => h.2 rfl
  | append_singleton parts part ih =>
    rw [route_concat]
    split
    · exact Dir.not_top_below start
    · exact ih

/-! ### The directories -/

theorem start_isdir (host : Host β) (temp_dir : String) (parts : List String) :
    host.fs.isdir (start host temp_dir parts) = true := by
  unfold start base
  split
  · exact FileSystem.isdir_top host.fs
  · exact host.cwd_isdir

/-- The path is returned. -/
def Returns (host : Host β) (temp_dir : String) (parts : List String) : Prop :=
  dir temp_dir parts ≠ "" ∧ host.fs.Open (start host temp_dir parts) (steps temp_dir parts)

theorem get_safe_path_spec (host : Host β) (temp_dir : String) (parts : List String) :
    (∀ p, (get_safe_path host temp_dir parts).2 = some p ↔
      p = path temp_dir parts ∧ Returns host temp_dir parts) ∧
    ∀ d, (get_safe_path host temp_dir parts).1.isdir d = true ↔
      host.fs.isdir d = true ∨ dir temp_dir parts ≠ "" ∧
        host.fs.Passed (start host temp_dir parts) (steps temp_dir parts) d := by
  obtain ⟨hok, hdirs⟩ := FileSystem.makedirs_open (start_isdir host temp_dir parts)
    (steps temp_dir parts)
  unfold get_safe_path Returns
  by_cases hempty : dir temp_dir parts = ""
  · rw [if_pos hempty]
    simp [hempty]
  · rw [if_neg hempty]
    simp only [ne_eq, hempty, not_false_eq_true, true_and, ← hok]
    refine ⟨fun p => ?_, fun d => ?_⟩
    · by_cases hmade :
          (host.fs.makedirs (start host temp_dir parts) (steps temp_dir parts)).2 = true
      · rw [if_pos hmade, Option.some.injEq, and_iff_left hmade]
        exact eq_comm
      · rw [if_neg hmade]
        simp [hmade]
    · rw [hdirs]
      exact ⟨Or.inr, fun h => h.elim Or.inl id⟩

/-- The path is spelled so that it leads to the directory and stays within it from there, and
    what is made for it is there already or lies within it. -/
structure Keeps (host : Host β) (temp_dir : String) (parts : List String) : Prop where
  path : Returns host temp_dir parts →
    (route (host.place temp_dir) parts).1.Leads (host.place temp_dir)
      (route (host.place temp_dir) parts).2
  dirs : dir temp_dir parts ≠ "" → ∀ pre, pre <+: steps temp_dir parts →
    host.fs.Open (start host temp_dir parts) pre →
      host.fs.isdir ((start host temp_dir parts).walk pre) = true ∨
        ((start host temp_dir parts).walk pre).Within (host.place temp_dir)

theorem rooted_iff_keeps (host : Host β) (temp_dir : String) (parts : List String) :
    Rooted host temp_dir parts ↔ Keeps host temp_dir parts := by
  obtain ⟨hpath, hdirs⟩ := get_safe_path_spec host temp_dir parts
  have hleads := Dir.walk_leads_iff (route_outside (host.place temp_dir) parts)
    (route (host.place temp_dir) parts).2
  rw [← place_path] at hleads
  constructor
  · rintro ⟨hreturned, hmade⟩
    -- a directory that is come through is there afterwards
    refine ⟨fun hreturns => ?_, fun hne pre hpre hopen => ?_⟩
    · exact hleads.mp (hreturned _ ((hpath _).mpr ⟨rfl, hreturns⟩))
    · exact hmade _ ((hdirs _).mpr (Or.inr ⟨hne, Or.inr ⟨pre, hpre, hopen, rfl⟩⟩))
  · rintro ⟨hspelled, hpassed⟩
    refine ⟨fun p hp => ?_, fun d hd => ?_⟩
    · -- only the joined path can be returned
      obtain ⟨rfl, hreturns⟩ := (hpath p).mp hp
      exact hleads.mpr (hspelled hreturns)
    · rcases (hdirs d).mp hd with hold | ⟨hne, hold | ⟨pre, hpre, hopen, rfl⟩⟩
      · exact Or.inl hold
      · exact Or.inl hold
      · exact hpassed hne pre hpre hopen

/-! ### Both helpers -/

/-- No slash is left at the front. -/
theorem isabs_lstrip (rel : String) : isabs (PyStr.lstrip rel '/') = false := by
  unfold isabs PyStr.lstrip
  rw [String.toList_ofList]
  refine decide_eq_false fun hhead => ?_
  have hslash := List.head?_dropWhile_not (fun c => decide (c = '/')) rel.toList
  rw [hhead] at hslash
  simp at hslash

theorem full_path_within_iff (self : HostFilesystemAdapter) (host : Host β) (rel : String) :
    (host.place (self.full_path rel)).Within (host.place self.root) ↔
      (host.place self.root).Leads (host.place self.root)
        (PyStr.split (PyStr.lstrip rel '/') '/') := by
  have hplace : host.place (self.full_path rel) =
      (host.place self.root).walk (PyStr.split (PyStr.lstrip rel '/') '/') :=
    ModelManager.resolve_join host.cwd self.root (isabs_lstrip rel)
  rw [hplace]
  exact Dir.walk_leads_iff (fun h => h.2 rfl) _

/-- **When the helpers are rooted**: a path of the adapter lies in its root if and only if some
    prefix of its components leads back to the root and the rest stays there; and a safe path lies
    in the temporary directory, with all directories that are made for it, if and only if it is
    spelled in this way and no other directory is missing on it. -/
theorem rooted_paths_iff (host : Host β) :
    (∀ (self : HostFilesystemAdapter) (rel : String),
      (host.place (self.full_path rel)).Within (host.place self.root) ↔
        (host.place self.root).Leads (host.place self.root)
          (PyStr.split (PyStr.lstrip rel '/') '/')) ∧
    ∀ (temp_dir : String) (parts : List String),
      Rooted host temp_dir parts ↔ Keeps host temp_dir parts :=
  ⟨fun self rel => full_path_within_iff self host rel,
    fun temp_dir parts => rooted_iff_keeps host temp_dir parts⟩

/-- A host without files. -/
def Host.bare : Host Nat := ⟨.empty, Dir.top, FileSystem.isdir_top _⟩

/-- An adapter with the root `/r` and a bridge with the temporary directory `/t`. -/
theorem dots_and_absolute_parts_lead_out :
    ¬ (Host.bare.place (HostFilesystemAdapter.full_path ⟨"/r"⟩ "../x")).Within
        (Host.bare.place "/r") ∧
      ¬ Rooted Host.bare "/t" ["/etc/x"] := by
  refine ⟨by decide +kernel, fun h => ?_⟩
  have hwithin := h.path "/etc/x" (by decide +kernel)
  exact absurd hwithin (by decide +kernel)

end RootedPaths
