import Aioscpu.Framework.Like
import Aioscpu.Hal.Storage

/-! # The File Store of the Virtual Storage

  The table `file_store` of the storage device of `hal/devices/storage.py`, with a connection.
  `T` is the type of clock readings. `file_list` asks for the paths that are `LIKE` the prefix
  with a `%` at its end, and the prefix is not escaped.
-/

/-- A row of the table `file_store`, without its primary key. -/
structure FileRow (T : Type) where
  data : List UInt8
  size : Nat
  updated : T

/-- The table. -/
abbrev FileStore (T : Type) := Dict String (FileRow T)

namespace FileStore

variable {T : Type}

open Like

/-- `VStorageDevice.file_write`. -/
def file_write (files : FileStore T) (path : String) (data : List UInt8) (now : T) : FileStore T :=
  files.set path ⟨data, data.length, now⟩

/-- `VStorageDevice.file_read`; `none` where it raises. -/
def file_read (files : FileStore T) (path : String) : Option (List UInt8) :=
  (files.get path).map FileRow.data

/-- `VStorageDevice.file_exists`. -/
def file_exists (files : FileStore T) (path : String) : Bool := (files.get path).isSome

/-- `VStorageDevice.file_delete`. -/
def file_delete (files : FileStore T) (path : String) : FileStore T := files.erase path

/-- `VStorageDevice.file_list`, from the text that the paths are to begin with. -/
def file_list (files : FileStore T) (start : String) : List String :=
  files.keys.filter fun path => like (start ++ "%").toList path.toList

/-- A call that changes the table. -/
inductive Call (T : Type) where
  | file_write (path : String) (data : List UInt8) (now : T)
  | file_delete (path : String)

def Call.path : Call T → String
  | file_write path _ _ => path
  | file_delete path => path

def call (files : FileStore T) : Call T → FileStore T
  | .file_write path data now => files.file_write path data now
  | .file_delete path => files.file_delete path

/-- The table after calls. -/
def run (calls : List (Call T)) : FileStore T := calls.foldl call .empty

/-! ### What is stored -/

/-- The last call for the path is a write. -/
def Stored (calls : List (Call T)) (path : String) : Prop :=
  ∃ before data now after, calls = before ++ .file_write path data now :: after ∧
    ∀ c ∈ after, c.path ≠ path

theorem get_call (files : FileStore T) (c : Call T) (path : String) :
    (files.call c).get path ≠ none ↔
      (∃ data now, c = .file_write path data now) ∨ (c.path ≠ path ∧ files.get path ≠ none) := by
  cases c with
  | file_write path' data now =>
    show (files.set path' _).get path ≠ none ↔ _
    rw [Dict.get_set]
    by_cases hpath : path = path'
    · rw [if_pos hpath, hpath]
      exact iff_of_true (by simp) (Or.inl ⟨data, now, rfl⟩)
    · rw [if_neg hpath]
      constructor
      · exact fun h => Or.inr ⟨fun heq => hpath heq.symm, h⟩
      · rintro (⟨_, _, heq⟩ | ⟨-, h⟩)
        · cases heq
          exact absurd rfl hpath
        · exact h
  | file_delete path' =>
    show (files.erase path').get path ≠ none ↔ _
    rw [Dict.get_erase]
    by_cases hpath : path = path'
    · rw [if_pos hpath]
      refine iff_of_false (fun h => h rfl) ?_
      rintro (⟨_, _, heq⟩ | ⟨hne, -⟩)
      · cases heq
      · exact hne hpath.symm
    · rw [if_neg hpath]
      constructor
      · exact fun h => Or.inr ⟨fun heq => hpath heq.symm, h⟩
      · rintro (⟨_, _, heq⟩ | ⟨-, h⟩)
        · cases heq
        · exact h

theorem stored_concat (calls : List (Call T)) (c : Call T) (path : String) :
    Stored (calls ++ [c]) path ↔
      (∃ data now, c = .file_write path data now) ∨ (c.path ≠ path ∧ Stored calls path) := by
  constructor
  · rintro ⟨before, data, now, after, heq, hafter⟩
    rcases List.eq_nil_or_concat after with rfl | ⟨after', last, rfl⟩
    · obtain ⟨-, hlast⟩ := List.append_inj' heq rfl
      exact Or.inl ⟨data, now, (List.cons.inj hlast).1⟩
    · rw [List.concat_eq_append] at heq hafter
      have hassoc : before ++ .file_write path data now :: (after' ++ [last]) =
          (before ++ .file_write path data now :: after') ++ [last] := by
        rw [List.append_assoc, List.cons_append]
      rw [hassoc] at heq
      obtain ⟨rfl, hlast⟩ := List.append_inj' heq rfl
      obtain rfl := (List.cons.inj hlast).1
      exact Or.inr ⟨hafter c (List.mem_append_right _ List.mem_cons_self), before, data, now,
        after', rfl, fun c' hc' => hafter c' (List.mem_append_left _ hc')⟩
  · rintro (⟨data, now, rfl⟩ | ⟨hne, before, data, now, after, rfl, hafter⟩)
    · exact ⟨calls, data, now, [], rfl, fun c' hc' => by cases hc'⟩
    · refine ⟨before, data, now, after ++ [c], ?_, ?_⟩
      · rw [List.append_assoc, List.cons_append]
      · intro c' hc'
        rcases List.mem_append.mp hc' with hc' | hc'
        · exact hafter c' hc'
        · rw [List.mem_singleton.mp hc']
          exact hne

/-- The table has the paths that are stored. -/
theorem mem_keys_run (calls : List (Call T)) (path : String) :
    path ∈ (run calls).keys ↔ Stored calls path := by
  have hget : (run calls).get path ≠ none ↔ Stored calls path := by
    induction calls using List.reverseRecOn with
    | nil =>
      refine iff_of_false (fun h => h rfl) ?_
      rintro ⟨before, data, now, after, heq, -⟩
      exact absurd heq.symm (by simp)
    | append_singleton calls c ih =>
      have hrun : run (calls ++ [c]) = (run calls).call c := List.foldl_concat ..
      rw [hrun, get_call, ih, stored_concat]
  rw [Dict.mem_keys_iff, ← hget, Option.ne_none_iff_exists']

/-- A path that is stored exists. -/
theorem file_exists_run (calls : List (Call T)) (path : String) :
    (run calls).file_exists path = true ↔ Stored calls path := by
  rw [file_exists, Option.isSome_iff_exists, ← Dict.mem_keys_iff, mem_keys_run]

/-- What is written is read, and nothing else changes. -/
theorem file_read_file_write (files : FileStore T) (path : String) (data : List UInt8) (now : T)
    (path' : String) :
    (files.file_write path data now).file_read path' =
      if path' = path then some data else files.file_read path' := by
  unfold file_read file_write
  rw [Dict.get_set]
  split <;> rfl

/-- A deleted path is not read, and nothing else changes. -/
theorem file_read_file_delete (files : FileStore T) (path path' : String) :
    (files.file_delete path).file_read path' =
      if path' = path then none else files.file_read path' := by
  unfold file_read file_delete
  rw [Dict.get_erase]
  split <;> rfl

/-! ### What is listed -/

/-- What is to be listed: the paths that are stored and begin so, each once. -/
structure Exact (calls : List (Call T)) (start : String) : Prop where
  nodup : ((run calls).file_list start).Nodup
  mem : ∀ path, path ∈ (run calls).file_list start ↔
    Stored calls path ∧ start.toList <+: path.toList

/-- The condition: a stored path that begins as the text does when any character is put for `_`,
    any text for `%` and a letter of either case for a letter, begins with the text itself. -/
def Unambiguous (calls : List (Call T)) (start : String) : Prop :=
  ∀ path, Stored calls path → (∃ t, t <+: path.toList ∧ Variant start.toList t) →
    start.toList <+: path.toList

theorem mem_file_list (calls : List (Call T)) (start path : String) :
    path ∈ (run calls).file_list start ↔
      Stored calls path ∧ ∃ t, t <+: path.toList ∧ Variant start.toList t := by
  have hpattern : (start ++ "%").toList = start.toList ++ ['%'] := by
    rw [String.toList_append]
    rfl
  unfold file_list
  rw [List.mem_filter, mem_keys_run, hpattern, like_prefix_iff]

theorem exact_iff (calls : List (Call T)) (start : String) :
    Exact calls start ↔ Unambiguous calls start := by
  constructor
  · intro h path hstored hvariant
    exact ((h.mem path).mp ((mem_file_list calls start path).mpr ⟨hstored, hvariant⟩)).2
  · intro h
    refine ⟨(run calls).nodup.filter _, fun path => ?_⟩
    rw [mem_file_list]
    constructor
    · rintro ⟨hstored, hvariant⟩
      exact ⟨hstored, h path hstored hvariant⟩
    · rintro ⟨hstored, hstart⟩
      exact ⟨hstored, start.toList, hstart, .refl _⟩

/-- A text lists the right paths of every store if it has no letter, no `%` and no `_`, and only
    then. -/
theorem always_exact_iff [Inhabited T] (start : String) :
    (∀ calls : List (Call T), Exact calls start) ↔ ∀ c ∈ start.toList, Plain c := by
  constructor
  · intro h
    by_contra hplain
    obtain ⟨t, hvariant, hlength, hne⟩ := exists_variant hplain
    -- a store with this one path
    have hexact := h [.file_write (String.ofList t) [] default]
    rw [exact_iff] at hexact
    have hstart := hexact (String.ofList t) ⟨[], [], default, [], rfl, fun c hc => by cases hc⟩
      ⟨t, by rw [String.toList_ofList], hvariant⟩
    rw [String.toList_ofList] at hstart
    exact hne (hstart.eq_of_length hlength.symm).symm
  · intro hplain calls
    rw [exact_iff]
    rintro path - ⟨t, ht, hvariant⟩
    rw [hvariant.eq_of_plain hplain] at ht
    exact ht

/-- Two logs. -/
def logs : List (Call Nat) := [.file_write "/logs/a" [97] 0, .file_write "/LOGS/b" [98] 1]

end FileStore
