import Aioscpu.Framework.FiniteMap
import Aioscpu.Framework.Refinement
import Aioscpu.Hal.FileStore
import Mathlib.Logic.Function.Basic

/-! # The Storage Device and What It Is For

  All of `hal/devices/storage.py`: the device with both tables of its database, over the calls of
  its whole life. It refines a store that maps keys to values and paths to bytes, and that
  answers while it is online. The store knows nothing of pickled bytes, of rows, of the order of
  rows and of the sizes that are kept beside the data, and it is on the disk: neither `stop` nor
  the end of the process changes it.
-/

/-- The device, with both tables of its database. -/
structure StorageDevice (B T : Type) extends VStorageDevice B T where
  file_store : FileStore T

/-- `pickle`, for values of type `V` and bytes of type `B`. -/
structure Pickle (V B : Type) where
  dumps : V → Except String B
  loads : B → Except String V
  round_trip : ∀ value data, dumps value = .ok data → loads data = .ok value

namespace StorageDevice

open VStorageDevice (not_connected)

variable {V B T : Type}

/-- A call of the device, or the end of its process. -/
inductive Call (V T : Type) where
  | start
  | stop
  | killed
  | kv_set (ns key : String) (value : V) (now : T)
  | kv_get (ns key : String)
  | kv_delete (ns key : String)
  /-- With the rows, in the order in which the database has them. -/
  | kv_keys (ns : String) (rows : List String)
  | file_write (path : String) (data : List UInt8) (now : T)
  | file_read (path : String)
  | file_exists (path : String)
  | file_list (start : String) (rows : List String)
  | file_delete (path : String)
  /-- With the size of the file of the database. -/
  | storage_stats (db_size_bytes : Nat)

inductive Answer (V : Type) where
  | none
  | raised (text : String)
  | value (v : Option V)
  | rows (rows : List String)
  | data (data : List UInt8)
  | found (found : Bool)
  | stats (kv_entries file_count file_bytes db_size_bytes : Nat)
deriving DecidableEq

/-! ### The device -/

/-- A call that needs the connection. -/
def connected (self : StorageDevice B T) (answer : Answer V) (next : StorageDevice B T) :
    StorageDevice B T × List (Answer V) :=
  if self.online then (next, [answer]) else (self, [.raised not_connected])

/-- What `kv_set` and `kv_delete` return or raise. -/
def returned : Except String Unit → Answer V
  | .ok _ => .none
  | .error text => .raised text

/-- A call that changes the table of the keys. -/
def changed (self : StorageDevice B T) (r : Except String Unit × VStorageDevice B T) :
    StorageDevice B T × List (Answer V) :=
  ({ self with toVStorageDevice := r.2 }, [returned r.1])

/-- What `kv_get` returns or raises. -/
def got : Except String (Option V) → Answer V
  | .ok v => .value v
  | .error text => .raised text

/-- The keys in the rows of `kv_keys`. -/
def kv_keys (self : StorageDevice B T) (ns : String) : List String :=
  (self.kv_store.keys.filter (·.1 = ns)).map Prod.snd

/-- `storage_stats`. -/
def storage_stats (self : StorageDevice B T) (db_size_bytes : Nat) : Answer V :=
  .stats self.kv_store.items.length self.file_store.items.length
    (self.file_store.values.map FileRow.size).sum db_size_bytes

/-- A query whose rows come in any order. -/
def listed (self : StorageDevice B T) (stored rows : List String) :
    Option (StorageDevice B T × List (Answer V)) :=
  if self.online ∧ ¬ rows.Perm stored then Option.none
  else some (self.connected (.rows rows) self)

/-- The calls; `no_file` is the text of the `FileNotFoundError` for a path. -/
def machine (pickle : Pickle V B) (no_file : String → String) :
    Machine (StorageDevice B T) (Call V T) (Answer V) where
  step := fun self call =>
    match call with
    | .start => some ({ self with toVStorageDevice := self.start }, [.none])
    | .stop => some ({ self with toVStorageDevice := self.stop }, [.none])
    | .killed => some ({ self with toVStorageDevice := self.stop }, [])
    | .kv_set ns key value now =>
      some (self.changed (self.toVStorageDevice.kv_set pickle.dumps ns key value now))
    | .kv_get ns key => some (self, [got (self.toVStorageDevice.kv_get pickle.loads ns key)])
    | .kv_delete ns key => some (self.changed (self.toVStorageDevice.kv_delete ns key))
    | .kv_keys ns rows => self.listed (self.kv_keys ns) rows
    | .file_write path data now =>
      some (self.connected .none
        { self with file_store := self.file_store.file_write path data now })
    | .file_read path =>
      match self.file_store.file_read path with
      | some data => some (self.connected (.data data) self)
      | Option.none => some (self.connected (.raised (no_file path)) self)
    | .file_exists path => some (self.connected (.found (self.file_store.file_exists path)) self)
    | .file_list start rows => self.listed (self.file_store.file_list start) rows
    | .file_delete path =>
      some (self.connected .none { self with file_store := self.file_store.file_delete path })
    | .storage_stats size => some (self.connected (self.storage_stats size) self)

/-- A device with a new database. -/
def fresh : StorageDevice B T := { online := false, kv_store := .empty, file_store := .empty }

/-! ### The store -/

/-- What the device is for. -/
structure Store (V : Type) where
  online : Bool
  kv : String × String → Option V
  files : String → Option (List UInt8)

namespace Store

/-- A store without a connection refuses the call, and stays as it is. -/
def Answers (a : Store V) (answer : Answer V) (next : Store V) (os : List (Answer V))
    (b : Store V) : Prop :=
  if a.online then os = [answer] ∧ b = next else os = [.raised not_connected] ∧ b = a

/-- The rows are the texts with this property, each once. -/
def Lists (P : String → Prop) (rows : List String) : Prop :=
  rows.Nodup ∧ ∀ row, row ∈ rows ↔ P row

/-- Which steps are right; `refuses` is the text of the exception for a value that cannot be
    pickled. -/
def Right (refuses : V → Option String) (no_file : String → String) (a : Store V) (call : Call V T)
    (os : List (Answer V)) (b : Store V) : Prop :=
  match call with
  | .start => os = [.none] ∧ b = { a with online := true }
  | .stop => os = [.none] ∧ b = { a with online := false }
  | .killed => os = [] ∧ b = { a with online := false }
  | .kv_set ns key value _ =>
    match refuses value with
    | some text => os = [.raised text] ∧ b = a
    | Option.none =>
      a.Answers .none { a with kv := Function.update a.kv (ns, key) (some value) } os b
  | .kv_get ns key => a.Answers (.value (a.kv (ns, key))) a os b
  | .kv_delete ns key =>
    a.Answers .none { a with kv := Function.update a.kv (ns, key) Option.none } os b
  | .kv_keys ns rows =>
    a.Answers (.rows rows) a os b ∧
      (a.online = true → Lists (fun key => a.kv (ns, key) ≠ Option.none) rows)
  | .file_write path data _ =>
    a.Answers .none { a with files := Function.update a.files path (some data) } os b
  | .file_read path =>
    a.Answers ((a.files path).elim (.raised (no_file path)) .data) a os b
  | .file_exists path => a.Answers (.found (a.files path).isSome) a os b
  | .file_list start rows =>
    a.Answers (.rows rows) a os b ∧
      (a.online = true → Lists (fun path => a.files path ≠ Option.none ∧
        Like.like (start ++ "%").toList path.toList = true) rows)
  | .file_delete path =>
    a.Answers .none { a with files := Function.update a.files path Option.none } os b
  | .storage_stats size =>
    a.Answers (.stats {key | a.kv key ≠ Option.none}.ncard {path | a.files path ≠ Option.none}.ncard
      (∑ᶠ path, ((a.files path).map List.length).getD 0) size) a os b

def spec (refuses : V → Option String) (no_file : String → String) :
    Specification (Store V) (Call V T) (Answer V) where
  Step := Right refuses no_file

def empty : Store V := ⟨false, fun _ => Option.none, fun _ => Option.none⟩

end Store

/-! ### Refinement -/

variable {pickle : Pickle V B} {no_file : String → String} {d : StorageDevice B T}

/-- What the rows of the device stand for. -/
def store (pickle : Pickle V B) (d : StorageDevice B T) : Store V where
  online := d.online
  kv := fun key => (d.kv_store.get key).bind fun row => (pickle.loads row.value).toOption
  files := fun path => (d.file_store.get path).map FileRow.data

/-- The values that `kv_set` does not take. -/
def refuses (pickle : Pickle V B) (value : V) : Option String :=
  match pickle.dumps value with
  | .ok _ => Option.none
  | .error text => some text

/-- The rows are what the calls write. -/
structure Sound (pickle : Pickle V B) (d : StorageDevice B T) : Prop where
  pickled : ∀ key row, d.kv_store.get key = some row → ∃ value, pickle.dumps value = .ok row.value
  sized : ∀ path row, d.file_store.get path = some row → row.size = row.data.length

theorem store_kv_of_get (h : Sound pickle d) {key : String × String} {row : KvRow B T}
    (hget : d.kv_store.get key = some row) :
    ∃ value, pickle.loads row.value = .ok value ∧ (store pickle d).kv key = some value := by
  obtain ⟨value, hdumps⟩ := h.pickled key row hget
  -- what is in a row was pickled, so it can be read
  have hloads := pickle.round_trip value row.value hdumps
  refine ⟨value, hloads, ?_⟩
  show (d.kv_store.get key).bind _ = some value
  rw [hget, Option.bind_some, hloads]
  rfl

theorem store_kv_of_not_get {key : String × String} (hget : d.kv_store.get key = none) :
    (store pickle d).kv key = none := by
  show (d.kv_store.get key).bind _ = none
  rw [hget]
  rfl

/-- The store has the keys of the rows. -/
theorem store_kv_ne_none_iff (h : Sound pickle d) (key : String × String) :
    (store pickle d).kv key ≠ none ↔ d.kv_store.get key ≠ none := by
  cases hget : d.kv_store.get key with
  | none => exact iff_of_false (fun hne => hne (store_kv_of_not_get hget)) fun hne => hne rfl
  | some row =>
    obtain ⟨value, -, hvalue⟩ := store_kv_of_get h hget
    rw [hvalue]
    simp

theorem store_files_ne_none_iff (path : String) :
    (store pickle d).files path ≠ none ↔ d.file_store.get path ≠ none := by
  simp [store]

theorem got_kv_get (h : Sound pickle d) (honline : d.online = true) (ns key : String) :
    got (d.toVStorageDevice.kv_get pickle.loads ns key) =
      .value ((store pickle d).kv (ns, key)) := by
  unfold VStorageDevice.kv_get
  rw [if_pos honline]
  cases hget : d.kv_store.get (ns, key) with
  | none => rw [store_kv_of_not_get hget]; rfl
  | some row =>
    obtain ⟨value, hloads, hvalue⟩ := store_kv_of_get h hget
    simp only [hloads, hvalue]
    rfl

/-- A row that is written. -/
theorem store_set (key : String × String) {value : V} {data : B} (now : T)
    (hdumps : pickle.dumps value = .ok data) :
    store pickle { d with kv_store := d.kv_store.set key ⟨data, now⟩ } =
      { store pickle d with kv := Function.update (store pickle d).kv key (some value) } := by
  have hloads := pickle.round_trip value data hdumps
  unfold store
  congr 1
  funext key'
  rw [Dict.get_set, Function.update_apply]
  split
  · rw [Option.bind_some, hloads]
    rfl
  · rfl

theorem store_erase (key : String × String) :
    store pickle { d with kv_store := d.kv_store.erase key } =
      { store pickle d with kv := Function.update (store pickle d).kv key none } := by
  unfold store
  congr 1
  funext key'
  rw [Dict.get_erase, Function.update_apply]
  split <;> rfl

theorem store_file_write (path : String) (data : List UInt8) (now : T) :
    store pickle { d with file_store := d.file_store.file_write path data now } =
      { store pickle d with files := Function.update (store pickle d).files path (some data) } := by
  unfold store FileStore.file_write
  congr 1
  funext path'
  rw [Dict.get_set, Function.update_apply]
  split <;> rfl

theorem store_file_delete (path : String) :
    store pickle { d with file_store := d.file_store.file_delete path } =
      { store pickle d with files := Function.update (store pickle d).files path none } := by
  unfold store FileStore.file_delete
  congr 1
  funext path'
  rw [Dict.get_erase, Function.update_apply]
  split <;> rfl

theorem Sound.set (h : Sound pickle d) (key : String × String) {value : V} {data : B} (now : T)
    (hdumps : pickle.dumps value = .ok data) :
    Sound pickle { d with kv_store := d.kv_store.set key ⟨data, now⟩ } := by
  refine ⟨fun key' row hget => ?_, h.sized⟩
  rw [Dict.get_set] at hget
  split at hget
  · cases hget
    exact ⟨value, hdumps⟩
  · exact h.pickled key' row hget

theorem Sound.erase (h : Sound pickle d) (key : String × String) :
    Sound pickle { d with kv_store := d.kv_store.erase key } := by
  refine ⟨fun key' row hget => ?_, h.sized⟩
  rw [Dict.get_erase] at hget
  split at hget
  · cases hget
  · exact h.pickled key' row hget

theorem Sound.file_write (h : Sound pickle d) (path : String) (data : List UInt8) (now : T) :
    Sound pickle { d with file_store := d.file_store.file_write path data now } := by
  refine ⟨h.pickled, fun path' row hget => ?_⟩
  unfold FileStore.file_write at hget
  rw [Dict.get_set] at hget
  split at hget
  · cases hget
    rfl
  · exact h.sized path' row hget

theorem Sound.file_delete (h : Sound pickle d) (path : String) :
    Sound pickle { d with file_store := d.file_store.file_delete path } := by
  refine ⟨h.pickled, fun path' row hget => ?_⟩
  unfold FileStore.file_delete at hget
  rw [Dict.get_erase] at hget
  split at hget
  · cases hget
  · exact h.sized path' row hget

theorem lists_kv_keys (h : Sound pickle d) (ns : String) {rows : List String}
    (hperm : rows.Perm (d.kv_keys ns)) :
    Store.Lists (fun key => (store pickle d).kv (ns, key) ≠ none) rows := by
  have hnodup : d.kv_store.keys.Nodup := d.kv_store.nodup
  constructor
  · refine (hperm.nodup_iff).mpr ((hnodup.filter _).map_on ?_)
    -- two keys of one namespace
    rintro ⟨ns₁, key₁⟩ h₁ ⟨ns₂, key₂⟩ h₂ heq
    rw [List.mem_filter, decide_eq_true_iff] at h₁ h₂
    exact Prod.ext (h₁.2.trans h₂.2.symm) heq
  · intro key
    show key ∈ rows ↔ (store pickle d).kv (ns, key) ≠ none
    rw [hperm.mem_iff, store_kv_ne_none_iff h]
    unfold kv_keys
    simp [Dict.mem_keys_iff, Option.ne_none_iff_exists']

theorem lists_file_list (start : String) {rows : List String}
    (hperm : rows.Perm (d.file_store.file_list start)) :
    Store.Lists (fun path => (store pickle d).files path ≠ none ∧
      Like.like (start ++ "%").toList path.toList = true) rows := by
  have hnodup : d.file_store.keys.Nodup := d.file_store.nodup
  constructor
  · exact (hperm.nodup_iff).mpr (hnodup.filter _)
  · intro path
    show path ∈ rows ↔ (store pickle d).files path ≠ none ∧ _
    rw [hperm.mem_iff, store_files_ne_none_iff]
    unfold FileStore.file_list
    rw [List.mem_filter, Dict.mem_keys_iff, Option.ne_none_iff_exists']

theorem storage_stats_eq (h : Sound pickle d) (size : Nat) :
    d.storage_stats size = (.stats {key | (store pickle d).kv key ≠ none}.ncard
      {path | (store pickle d).files path ≠ none}.ncard
      (∑ᶠ path, (((store pickle d).files path).map List.length).getD 0) size : Answer V) := by
  have hkv : {key | (store pickle d).kv key ≠ none} = {key | d.kv_store.get key ≠ none} :=
    Set.ext fun key => store_kv_ne_none_iff h key
  have hfiles : {path | (store pickle d).files path ≠ none} =
      {path | d.file_store.get path ≠ none} := Set.ext fun path => store_files_ne_none_iff path
  have hbytes : ∀ path, (((store pickle d).files path).map List.length).getD 0 =
      ((d.file_store.get path).map FileRow.size).getD 0 := by
    intro path
    show ((((d.file_store.get path).map FileRow.data)).map List.length).getD 0 = _
    cases hget : d.file_store.get path with
    | none => rfl
    | some row => exact (h.sized path row hget).symm
  rw [hkv, hfiles, Dict.ncard_keys, Dict.ncard_keys, finsum_congr hbytes, Dict.finsum_get]
  rfl

/-- A call that needs the connection does to the store what it does to the device. -/
theorem connected_right {next d' : StorageDevice B T} {answer answer' : Answer V} {next' : Store V}
    {os : List (Answer V)} (hstep : some (d.connected answer next) = some (d', os))
    (h : Sound pickle d) (hnext : Sound pickle next)
    (honline : d.online = true → answer = answer' ∧ store pickle next = next') :
    Sound pickle d' ∧ (store pickle d).Answers answer' next' os (store pickle d') := by
  have hsame : (store pickle d).online = d.online := rfl
  unfold connected at hstep
  unfold Store.Answers
  rw [hsame]
  by_cases hon : d.online = true
  · rw [if_pos hon] at hstep ⊢
    cases hstep
    obtain ⟨rfl, hstore⟩ := honline hon
    exact ⟨hnext, rfl, hstore⟩
  · rw [if_neg hon] at hstep ⊢
    cases hstep
    exact ⟨h, rfl, rfl⟩

/-- `kv_set` once the value is pickled. -/
theorem kv_set_eq {ns key : String} {value : V} {data : B} (now : T)
    (hdumps : pickle.dumps value = .ok data) :
    d.changed (d.toVStorageDevice.kv_set pickle.dumps ns key value now) =
      (d.connected .none { d with kv_store := d.kv_store.set (ns, key) ⟨data, now⟩ } :
        StorageDevice B T × List (Answer V)) := by
  unfold VStorageDevice.kv_set connected changed
  simp only [hdumps]
  split <;> rfl

theorem kv_delete_eq (ns key : String) :
    d.changed (d.toVStorageDevice.kv_delete ns key) =
      (d.connected .none { d with kv_store := d.kv_store.erase (ns, key) } :
        StorageDevice B T × List (Answer V)) := by
  unfold VStorageDevice.kv_delete connected changed
  split <;> rfl

theorem kv_get_eq (ns key : String) :
    (d, [got (d.toVStorageDevice.kv_get pickle.loads ns key)]) =
      d.connected (got (d.toVStorageDevice.kv_get pickle.loads ns key)) d := by
  unfold connected
  split
  · rfl
  · next hoffline => simp only [VStorageDevice.kv_get, hoffline, if_false, Bool.false_eq_true, got]

/-- A query is answered as the store answers it. -/
theorem listed_right {stored rows : List String} {d' : StorageDevice B T} {os : List (Answer V)}
    {P : String → Prop} (h : Sound pickle d) (hP : rows.Perm stored → Store.Lists P rows)
    (hstep : d.listed stored rows = some (d', os)) :
    Sound pickle d' ∧
      (store pickle d).Answers (.rows rows) (store pickle d) os (store pickle d') ∧
        (d.online = true → Store.Lists P rows) := by
  unfold listed at hstep
  split at hstep
  · cases hstep
  · next hperm =>
    obtain ⟨hsound, hanswers⟩ := connected_right hstep h h fun _ => ⟨rfl, rfl⟩
    refine ⟨hsound, hanswers, fun honline => hP ?_⟩
    -- a list of other rows is no answer of a device that is connected
    by_contra hnot
    exact hperm ⟨honline, hnot⟩

theorem step_right (h : Sound pickle d) {call : Call V T} {d' : StorageDevice B T}
    {os : List (Answer V)} (hstep : (machine pickle no_file).step d call = some (d', os)) :
    Sound pickle d' ∧
      Store.Right (refuses pickle) no_file (store pickle d) call os (store pickle d') := by
  cases call with
  | start =>
    cases hstep
    exact ⟨⟨h.pickled, h.sized⟩, rfl, rfl⟩
  | stop =>
    cases hstep
    exact ⟨⟨h.pickled, h.sized⟩, rfl, rfl⟩
  | killed =>
    cases hstep
    exact ⟨⟨h.pickled, h.sized⟩, rfl, rfl⟩
  | kv_set ns key value now =>
    cases hdumps : pickle.dumps value with
    | ok data =>
      have hrefuses : refuses pickle value = none := by simp only [refuses, hdumps]
      simp only [Store.Right, hrefuses]
      refine connected_right ((congrArg some (kv_set_eq now hdumps)).symm.trans hstep) h
        (h.set _ now hdumps) fun _ => ⟨rfl, store_set _ now hdumps⟩
    -- the value is pickled before the connection is looked at
    | error text =>
      have hrefuses : refuses pickle value = some text := by simp only [refuses, hdumps]
      have hset : d.toVStorageDevice.kv_set pickle.dumps ns key value now =
          (.error text, d.toVStorageDevice) := by
        simp only [VStorageDevice.kv_set, hdumps]
      simp only [machine, hset] at hstep
      simp only [Store.Right, hrefuses]
      obtain ⟨rfl, rfl⟩ := Prod.mk.inj (Option.some.inj hstep)
      exact ⟨h, rfl, rfl⟩
  | kv_get ns key =>
    exact connected_right ((congrArg some (kv_get_eq ns key)).symm.trans hstep) h h
      fun honline => ⟨got_kv_get h honline ns key, rfl⟩
  | kv_delete ns key =>
    exact connected_right ((congrArg some (kv_delete_eq ns key)).symm.trans hstep) h (h.erase _)
      fun _ => ⟨rfl, store_erase _⟩
  | kv_keys ns rows => exact listed_right h (lists_kv_keys h ns) hstep
  | file_write path data now =>
    exact connected_right hstep h (h.file_write path data now)
      fun _ => ⟨rfl, store_file_write path data now⟩
  | file_read path =>
    have hread : (store pickle d).files path = d.file_store.file_read path := rfl
    simp only [machine] at hstep
    simp only [Store.Right, hread]
    cases hdata : d.file_store.file_read path with
    | some data =>
      rw [hdata] at hstep
      exact connected_right hstep h h fun _ => ⟨rfl, rfl⟩
    | none =>
      rw [hdata] at hstep
      exact connected_right hstep h h fun _ => ⟨rfl, rfl⟩
  | file_exists path =>
    have hfound : d.file_store.file_exists path = ((store pickle d).files path).isSome := by
      simp [FileStore.file_exists, store]
    exact connected_right hstep h h fun _ => ⟨congrArg _ hfound, rfl⟩
  | file_list start rows => exact listed_right h (lists_file_list start) hstep
  | file_delete path =>
    exact connected_right hstep h (h.file_delete path) fun _ => ⟨rfl, store_file_delete path⟩
  | storage_stats size =>
    exact connected_right hstep h h fun _ => ⟨storage_stats_eq h size, rfl⟩

/-- Numbers are their own bytes. -/
def plainPickle : Pickle Nat Nat := ⟨.ok, .ok, fun _ _ h => h.symm⟩

/-- The process ends while the device is online. -/
def killedOnline : List (Call Nat Nat) :=
  [.start, .kv_set "a" "x" 1 0, .kv_set "b" "x" 2 0, .file_write "p" [1, 2] 0, .killed,
    .kv_get "a" "x", .start, .kv_get "a" "x", .kv_set "a" "y" 3 1, .kv_keys "a" ["y", "x"],
    .storage_stats 4096]

end StorageDevice
