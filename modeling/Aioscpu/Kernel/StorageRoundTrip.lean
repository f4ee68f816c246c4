import Aioscpu.Hal.Storage
import Aioscpu.Kernel.Api

/-! # Storage through the Kernel API

  `storage_read` and `storage_write` of `kernel/api.py` on the device that
  `kernel/__init__.py` makes. The methods call `read` and `write` of the device, and a
  `VStorageDevice` has neither: a call that is permitted raises an `AttributeError`.
-/

/-- The kernel with its storage device, and whatever else it has. -/
structure Wired (Dev K : Type) where
  storage : Dev
  others : K

namespace KernelAPI

variable {Dev V H J R K : Type}

/-! ### The wiring -/

/-- `self._kernel.storage.read(key)`. -/
def device_read (cls : StorageClass Dev (Value V)) (key : String) :
    Op V H (Wired Dev K) (Option (Value V)) := fun k =>
  match cls.read with
  | none => (.error (cls.no_attribute "read"), k)
  | some read =>
    let r := read k.rest.storage key
    (r.1, { k with rest := { k.rest with storage := r.2 } })

/-- `self._kernel.storage.write(key, value)`. -/
def device_write (cls : StorageClass Dev (Value V)) (key : String) (value : Value V) :
    Op V H (Wired Dev K) Unit := fun k =>
  match cls.write with
  | none => (.error (cls.no_attribute "write"), k)
  | some write =>
    let r := write k.rest.storage key value
    (r.1, { k with rest := { k.rest with storage := r.2 } })

/-- The subsystems of a kernel whose storage is a device of the class. -/
def wire (cls : StorageClass Dev (Value V)) (sys : Subsystems V H J R (Wired Dev K)) :
    Subsystems V H J R (Wired Dev K) :=
  { sys with storage_read := device_read cls, storage_write := device_write cls }

/-! ### Runs -/

namespace Storage

inductive Label (V H J K : Type) where
  | storage_read (key : String)
  | storage_write (key : String) (value : Value V)
  /-- Another method of the API. -/
  | call (c : Call V H J)
  /-- The kernel goes on by itself: ticks, handlers, services. -/
  | kernel (k : Kernel V H K)

inductive Obs (V : Type) where
  | read (key : String) (result : Except ApiError (Option (Value V)))
  | wrote (key : String) (value : Value V) (result : Except ApiError Unit)

/-- The API of a kernel, with what the storage methods return or raise. -/
def machine (sys : Subsystems V H J R K) : Machine (ApiState V H K) (Label V H J K) (Obs V) where
  step := fun st l =>
    match l with
    | .storage_read key =>
      let r := storage_read sys key st
      some (r.2, [.read key r.1])
    | .storage_write key value =>
      let r := storage_write sys key value st
      some (r.2, [.wrote key value r.1])
    | .call c => some ((KernelAPI.call sys c st).2, [])
    | .kernel k => some ({ st with kernel := k }, [])

/-! ### The law -/

def Obs.permitted (key : String) : Obs V → Option (Value V)
  | .read _ _ => none
  | .wrote _ _ (.error (.denied _)) => none
  | .wrote key' value _ => if key' = key then some value else none

/-- The value of the last write of the key that was permitted. -/
def latest (key : String) (tr : List (Obs V)) : Option (Value V) :=
  (tr.filterMap (Obs.permitted key)).getLast?

/-- A call that is not permitted raises and changes nothing, a write returns, and a read
    of a key that was written returns the latest value. -/
def RoundTrip (st : ApiState V H K) (tr : List (Obs V)) (l : Label V H J K)
    (st' : ApiState V H K) (os : List (Obs V)) : Prop :=
  match l with
  | .storage_read key =>
    match st.perms.check "fs.read" with
    | .ok () => ∀ value, latest key tr = some value → os = [.read key (.ok (some value))]
    | .error e => os = [.read key (.error (.denied e))] ∧ st' = st
  | .storage_write key value =>
    match st.perms.check "storage.write" with
    | .ok () => os = [.wrote key value (.ok ())]
    | .error e => os = [.wrote key value (.error (.denied e))] ∧ st' = st
  | _ => True

/-- No write is permitted. -/
def Unwritten (st : ApiState V H K) : Label V H J K → Prop
  | .storage_write _ _ => st.perms.is_allowed "storage.write" = false
  | _ => True

/-! ### Steps -/

/-- A method that is not permitted raises and changes nothing. -/
theorem guarded_denied {α : Type} {capability : String} {st : ApiState V H K}
    {e : PermissionDenied} (h : st.perms.check capability = .error e) (op : Op V H K α) :
    (do KernelAPI.check capability; KernelAPI.kernel op : Api V H K α) st =
      (.error (.denied e), st) := by
  refine bind_of_error ?_
  unfold KernelAPI.check
  rw [h]

theorem guarded_permitted {α : Type} {capability : String} {st : ApiState V H K}
    (h : st.perms.check capability = .ok ()) (op : Op V H K α) :
    (do KernelAPI.check capability; KernelAPI.kernel op : Api V H K α) st =
      KernelAPI.kernel op st := by
  refine bind_of_ok (a := ()) ?_
  unfold KernelAPI.check
  rw [h]

theorem latest_snoc_denied (key key' : String) (value : Value V) (e : PermissionDenied)
    (tr : List (Obs V)) : latest key (tr ++ [.wrote key' value (.error (.denied e))]) =
      latest key tr := by
  simp [latest, Obs.permitted]

theorem latest_snoc_read (key key' : String) (result : Except ApiError (Option (Value V)))
    (tr : List (Obs V)) : latest key (tr ++ [.read key' result]) = latest key tr := by
  simp [latest, Obs.permitted]

/-- As long as no write is permitted, no key is written. -/
theorem run_unwritten {sys : Subsystems V H J R K} {st₀ st : ApiState V H K}
    {ls : List (Label V H J K)} {tr : List (Obs V)}
    (halong : (machine sys).Along Unwritten st₀ ls)
    (hrun : (machine sys).run st₀ ls = some (st, tr)) (key : String) : latest key tr = none := by
  refine (machine sys).run_induction_along (P := fun _ _ tr => latest key tr = none) rfl ?_
    halong hrun
  intro ls st tr l st' os _ hnone hunwritten hs
  cases l with
  | storage_read key' =>
    cases hs
    rw [latest_snoc_read, hnone]
  | storage_write key' value =>
    cases hs
    cases hcheck : st.perms.check "storage.write" with
    | ok u =>
      cases ((PermissionModel.check_ok_iff _ _).mp hcheck).symm.trans hunwritten
    | error e =>
      have hdenied := guarded_denied hcheck (sys.storage_write key' value)
      unfold storage_write
      rw [hdenied, latest_snoc_denied, hnone]
  | call c =>
    cases hs
    rw [List.append_nil, hnone]
  | kernel k =>
    cases hs
    rw [List.append_nil, hnone]

/-! ### The device of the kernel -/

variable {B T : Type} {sys : Subsystems V H J R (Wired (VStorageDevice B T) K)}

/-- A write that is permitted raises, as the device has no method `write`. -/
theorem storage_write_permitted {st : ApiState V H (Wired (VStorageDevice B T) K)}
    (h : st.perms.check "storage.write" = .ok ()) (key : String) (value : Value V) :
    storage_write (wire (.VStorageDevice B T (Value V)) sys) key value st =
      (.error (.subsystem "'VStorageDevice' object has no attribute 'write'"), st) :=
  guarded_permitted h _

/-- A step does what it should if no write of it or before it is permitted. -/
theorem step_round_trip {sys : Subsystems V H J R K} {st st' : ApiState V H K}
    {l : Label V H J K} {tr os : List (Obs V)} (hnone : ∀ key, latest key tr = none)
    (hunwritten : Unwritten st l) (hs : (machine sys).step st l = some (st', os)) :
    RoundTrip st tr l st' os := by
  cases l with
  | storage_read key =>
    cases hs
    unfold RoundTrip
    cases hcheck : st.perms.check "fs.read" with
    | ok u =>
      intro value hvalue
      cases (hnone key).symm.trans hvalue
    | error e =>
      have hdenied := guarded_denied hcheck (sys.storage_read key)
      unfold storage_read
      rw [hdenied]
      exact ⟨rfl, rfl⟩
  | storage_write key value =>
    cases hs
    unfold RoundTrip
    cases hcheck : st.perms.check "storage.write" with
    | ok u => cases ((PermissionModel.check_ok_iff _ _).mp hcheck).symm.trans hunwritten
    | error e =>
      have hdenied := guarded_denied hcheck (sys.storage_write key value)
      unfold storage_write
      rw [hdenied]
      exact ⟨rfl, rfl⟩
  | call c => trivial
  | kernel k => trivial

/-- **Storage through the API**: in each step of a run the methods do what they should if
    and only if no write of the run is permitted. -/
theorem round_trip_iff_unwritten {st₀ st : ApiState V H (Wired (VStorageDevice B T) K)}
    {ls : List (Label V H J (Wired (VStorageDevice B T) K))} {tr : List (Obs V)}
    (hrun : (machine (wire (.VStorageDevice B T (Value V)) sys)).run st₀ ls = some (st, tr)) :
    (∀ pre l t tr' t' os, pre ++ [l] <+: ls →
        (machine (wire (.VStorageDevice B T (Value V)) sys)).run st₀ pre = some (t, tr') →
        (machine (wire (.VStorageDevice B T (Value V)) sys)).step t l = some (t', os) →
        RoundTrip t tr' l t' os) ↔
      (machine (wire (.VStorageDevice B T (Value V)) sys)).Along Unwritten st₀ ls := by
  constructor
  · intro hlaw
    rw [Machine.along_iff_forall]
    intro pre l t tr' hpre hbefore
    cases l with
    | storage_write key value =>
      have hdone := hlaw pre _ t tr' _ _ hpre hbefore rfl
      unfold Unwritten
      cases hcheck : t.perms.check "storage.write" with
      | ok u =>
        unfold RoundTrip at hdone
        rw [hcheck, storage_write_permitted hcheck] at hdone
        cases hdone
      | error e =>
        unfold PermissionModel.is_allowed
        rw [hcheck]
    | storage_read key => trivial
    | call c => trivial
    | kernel k => trivial
  · intro halong pre l t tr' t' os hpre hbefore hs
    have hall := Machine.along_iff_forall _ |>.mp halong
    have hshort := (List.prefix_append pre [l]).trans hpre
    refine step_round_trip (fun key => run_unwritten ?_ hbefore key) (hall pre l t tr' hpre hbefore)
      hs
    exact (Machine.along_iff_forall _).mpr fun pre' l' t' tr'' hpre' =>
      hall pre' l' t' tr'' (hpre'.trans hshort)

/-- The other subsystems do nothing. -/
def idle (K : Type) : Subsystems Unit Unit Unit Unit K where
  services_registry _ := []
  record_state _ := ""
  services_start _ k := (.ok false, k)
  services_stop _ k := (.ok false, k)
  scheduler_submit_task _ _ k := (.ok (), k)
  scheduler_schedule_job _ _ k := (.ok (), k)
  aura_query _ k := (.ok "", k)
  aura_get_state_snapshot k := (.ok [], k)
  storage_read _ k := (.ok none, k)
  storage_write _ _ k := (.ok (), k)
  mode_name _ := none

/-- A kernel with a device that is online and empty. -/
def started (mode : Mode) : ApiState Unit Unit (Wired (VStorageDevice (Value Unit) Nat) Unit) :=
  ⟨⟨EventBus.init, 0, ⟨⟨true, .empty⟩, ()⟩⟩, PermissionModel.init mode⟩

/-- In universal mode a value is written and read. -/
theorem round_trip_iff_unwritten_universal :
    let sys := wire (.VStorageDevice (Value Unit) Nat (Value Unit)) (idle _)
    let ls : List (Label Unit Unit Unit (Wired (VStorageDevice (Value Unit) Nat) Unit)) :=
      [.storage_write "theme" (.str "dark"), .storage_read "theme"]
    ∃ (st : ApiState Unit Unit (Wired (VStorageDevice (Value Unit) Nat) Unit))
      (tr : List (Obs Unit)), (machine sys).run (started .universal) ls = some (st, tr) ∧
      ((∀ pre l t tr' t' os, pre ++ [l] <+: ls →
          (machine sys).run (started .universal) pre = some (t, tr') →
          (machine sys).step t l = some (t', os) → RoundTrip t tr' l t' os) ↔
        (machine sys).Along Unwritten (started .universal) ls) := by
  intro sys ls
  obtain ⟨st, tr, hrun⟩ := (machine sys).run_total
    (fun _ l => by cases l <;> exact ⟨_, _, rfl⟩) (started .universal) ls
  exact ⟨st, tr, hrun, round_trip_iff_unwritten hrun⟩

/-- In internal mode, where that is permitted, a value is written and then read. -/
theorem written_not_read :
    let sys := wire (.VStorageDevice (Value Unit) Nat (Value Unit)) (idle _)
    let write : Label Unit Unit Unit (Wired (VStorageDevice (Value Unit) Nat) Unit) :=
      .storage_write "theme" (.str "dark")
    let read : Label Unit Unit Unit (Wired (VStorageDevice (Value Unit) Nat) Unit) :=
      .storage_read "theme"
    ∃ (st st' : ApiState Unit Unit (Wired (VStorageDevice (Value Unit) Nat) Unit))
      (tr os : List (Obs Unit)),
      (machine sys).run (started .internal) [write] = some (st, tr) ∧
      (machine sys).step st read = some (st', os) ∧ st.perms.is_allowed "fs.read" = true ∧
      latest "theme" tr = some (.str "dark") ∧ ¬ RoundTrip st tr read st' os := by
  intro sys write read
  have hwrite : (started .internal).perms.check "storage.write" = .ok () := by decide
  have hread : (started .internal).perms.check "fs.read" = .ok () := by decide
  have hwrote : (machine sys).run (started .internal) [write] = some (started .internal,
      [.wrote "theme" (.str "dark")
        (.error (.subsystem "'VStorageDevice' object has no attribute 'write'"))]) := by
    rw [Machine.run_singleton]
    show some (_, [Obs.wrote _ _ _]) = _
    rw [storage_write_permitted hwrite]
  refine ⟨_, _, _, _, hwrote, rfl, (PermissionModel.check_ok_iff _ _).mp hread, rfl, ?_⟩
  unfold RoundTrip
  rw [hread]
  intro hdone
  have hraised : storage_read sys "theme" (started .internal) = _ := guarded_permitted hread _
  have hos := hdone (.str "dark") rfl
  rw [hraised] at hos
  cases hos

end Storage

end KernelAPI
