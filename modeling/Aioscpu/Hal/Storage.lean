import Aioscpu.Framework.Dict

/-! # Virtual Storage

  The key-value store of the storage device of `hal/devices/storage.py`. `V` is the type
  of values, `B` that of their pickled bytes, and `T` that of clock readings.
-/

/-- A row of the table `kv_store`, without its primary key. -/
structure KvRow (B T : Type) where
  value : B
  updated : T

/-- The device, with the table in its database file. -/
structure VStorageDevice (B T : Type) where
  /-- Whether there is a connection. -/
  online : Bool
  kv_store : Dict (String × String) (KvRow B T)

namespace VStorageDevice

variable {B T V : Type}

/-- `VStorageDevice.start`. -/
def start (self : VStorageDevice B T) : VStorageDevice B T := { self with online := true }

/-- `VStorageDevice.stop`: the file stays. -/
def stop (self : VStorageDevice B T) : VStorageDevice B T := { self with online := false }

/-- `VStorageDevice.status`. -/
def status (self : VStorageDevice B T) : String := if self.online then "online" else "offline"

/-- The text of the `AttributeError` without a connection. -/
def not_connected : String := "'NoneType' object has no attribute 'execute'"

/-- `VStorageDevice.kv_set`; `dumps` is an error where `pickle.dumps` raises. -/
def kv_set (dumps : V → Except String B) (self : VStorageDevice B T) («namespace» key : String)
    (value : V) (now : T) : Except String Unit × VStorageDevice B T :=
  match dumps value with
  | .error text => (.error text, self)
  | .ok data =>
    if self.online then
      (.ok (), { self with kv_store := self.kv_store.set («namespace», key) ⟨data, now⟩ })
    else (.error not_connected, self)

/-- `VStorageDevice.kv_get`, with `None` for the default. -/
def kv_get (loads : B → Except String V) (self : VStorageDevice B T) («namespace» key : String) :
    Except String (Option V) :=
  if self.online then
    match self.kv_store.get («namespace», key) with
    | none => .ok none
    | some row => (loads row.value).map some
  else .error not_connected

/-- `VStorageDevice.kv_delete`. -/
def kv_delete (self : VStorageDevice B T) («namespace» key : String) :
    Except String Unit × VStorageDevice B T :=
  if self.online then (.ok (), { self with kv_store := self.kv_store.erase («namespace», key) })
  else (.error not_connected, self)

/-- What is written is read, and nothing else changes. -/
theorem kv_get_kv_set {dumps : V → Except String B} {loads : B → Except String V}
    {self self' : VStorageDevice B T} {ns key : String} {value : V} {now : T}
    (hloads : ∀ data, dumps value = .ok data → loads data = .ok value)
    (hset : self.kv_set dumps ns key value now = (.ok (), self')) (ns' key' : String) :
    self'.kv_get loads ns' key' =
      if (ns', key') = (ns, key) then .ok (some value) else self.kv_get loads ns' key' := by
  unfold kv_set at hset
  cases hdumps : dumps value with
  | error text => simp [hdumps] at hset
  | ok data =>
    cases honline : self.online with
    | false => simp [hdumps, honline] at hset
    | true =>
      simp only [hdumps, honline, if_true, Prod.mk.injEq, true_and] at hset
      subst hset
      unfold kv_get
      simp only [Dict.get_set]
      by_cases hsame : (ns', key') = (ns, key)
      · simp only [if_pos hsame, hloads data hdumps]
        rfl
      · simp only [if_neg hsame, honline]

/-- A deleted key is not found, and nothing else changes. -/
theorem kv_get_kv_delete {loads : B → Except String V} {self self' : VStorageDevice B T}
    {ns key : String} (hdelete : self.kv_delete ns key = (.ok (), self')) (ns' key' : String) :
    self'.kv_get loads ns' key' =
      if (ns', key') = (ns, key) then .ok none else self.kv_get loads ns' key' := by
  unfold kv_delete at hdelete
  cases honline : self.online with
  | false => simp [honline] at hdelete
  | true =>
    simp only [honline, if_true, Prod.mk.injEq, true_and] at hdelete
    subst hdelete
    unfold kv_get
    simp only [Dict.get_erase]
    by_cases hsame : (ns', key') = (ns, key)
    · simp [hsame]
    · simp [hsame, honline]

end VStorageDevice

/-! ### What the API calls -/

/-- How the devices of a class answer `read(key)` and `write(key, value)`; `none` where
    the class has no attribute of that name. -/
structure StorageClass (Dev V : Type) where
  name : String
  read : Option (Dev → String → Except String (Option V) × Dev)
  write : Option (Dev → String → V → Except String Unit × Dev)

namespace StorageClass

variable {Dev V : Type}

/-- The text of an `AttributeError`. -/
def no_attribute (self : StorageClass Dev V) (attr : String) : String :=
  "'" ++ self.name ++ "' object has no attribute '" ++ attr ++ "'"

/-- `VStorageDevice` with its base class has `start`, `stop`, `status`, `storage_stats` and
    the methods whose names begin with `kv_` and `file_`. -/
def VStorageDevice (B T V : Type) : StorageClass (VStorageDevice B T) V :=
  { name := "VStorageDevice", read := none, write := none }

end StorageClass
