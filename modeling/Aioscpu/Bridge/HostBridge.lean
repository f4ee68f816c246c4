import Aioscpu.Framework.Machine
import Mathlib.Data.Finset.Basic

/-! # Host Bridge

  The façade of `host_bridge/__init__.py`: it forwards syscalls to the bridge
  of the host, as far as its mode allows them.

  What the bridge of the host does with a syscall is part of the label of the
  call, for the case that the call reaches it.
-/

/-! ### The bridges -/

/-- What `set_mode` configures in the bridge of the host. -/
structure HostBridgeBase where
  mode : String
  granted_permissions : Finset String
deriving DecidableEq

/-- `HostBridgeBase.set_mode`. -/
def HostBridgeBase.set_mode (_ : HostBridgeBase) (mode : String)
    (granted_permissions : Option (Finset String)) : HostBridgeBase :=
  ⟨mode, granted_permissions.getD ∅⟩

structure HostBridge where
  bridge : HostBridgeBase
  mode : String
  granted_permissions : Finset String
deriving DecidableEq

namespace HostBridge

variable {A R : Type}

def UNIVERSAL_ALLOWED : Finset String :=
  {"fs_read", "fs_write", "fs_list", "net_connect", "net_send", "net_recv", "proc_spawn",
    "proc_kill", "sys_info"}

def INTERNAL_ALLOWED : Finset String :=
  UNIVERSAL_ALLOWED ∪ {"fs_chmod", "fs_mount_bind", "net_listen", "net_raw"}

def HARDWARE_ALLOWED : Finset String := INTERNAL_ALLOWED ∪ {"hal_project"}

/-- `HostBridge.__init__`, over the bridge of the host. -/
def init (bridge : HostBridgeBase) : HostBridge := ⟨bridge, "universal", ∅⟩

/-- `HostBridge.set_mode`. -/
def set_mode (self : HostBridge) (mode : String) (granted_permissions : Option (Finset String)) :
    HostBridge :=
  let granted := granted_permissions.getD ∅
  ⟨self.bridge.set_mode mode (some granted), mode, granted⟩

/-- `HostBridge._allowed_for_mode`. -/
def allowed_for_mode (self : HostBridge) : Finset String :=
  if self.mode = "hardware" then HARDWARE_ALLOWED
  else if self.mode = "internal" then INTERNAL_ALLOWED
  else UNIVERSAL_ALLOWED

/-- `A` is the type of arguments, `R` that of results. -/
inductive Obs (A R : Type) where
  /-- The bridge of the host is called. -/
  | forwarded (call : String) (args : A)
  | returned (result : Except String R)
  /-- The `PermissionError` of the façade. -/
  | raised (text : String)
deriving DecidableEq

/-- `HostBridge.syscall`; `repr` is that of strings. -/
def syscall (repr : String → String) (self : HostBridge) (call : String) (args : A)
    (result : Except String R) : List (Obs A R) :=
  if call ∉ self.allowed_for_mode then
    [.raised ("Syscall " ++ repr call ++ " is not permitted in " ++ repr self.mode ++ " mode.")]
  else [.forwarded call args, .returned result]

inductive Label (A R : Type) where
  | set_mode (mode : String) (granted_permissions : Option (Finset String))
  /-- The result is that of the bridge of the host. -/
  | syscall (call : String) (args : A) (result : Except String R)

def machine (repr : String → String) : Machine HostBridge (Label A R) (Obs A R) where
  step := fun self l =>
    match l with
    | .set_mode mode granted_permissions => some (self.set_mode mode granted_permissions, [])
    | .syscall call args result => some (self, syscall repr self call args result)

/-! ### The latest mode -/

/-- The mode and the permissions that the latest `set_mode` has set. -/
def latest : List (Label A R) → String × Finset String :=
  List.foldl (fun current l =>
    match l with
    | .set_mode mode granted_permissions => (mode, granted_permissions.getD ∅)
    | .syscall .. => current) ("universal", ∅)

/-- Both bridges are in the latest mode. -/
theorem run_latest {repr : String → String} {bridge : HostBridgeBase} {ls : List (Label A R)}
    {self : HostBridge} {tr : List (Obs A R)}
    (hrun : (machine repr).run (init bridge) ls = some (self, tr)) :
    (self.mode, self.granted_permissions) = latest ls ∧
      (self.bridge = bridge ∨ self.bridge = ⟨self.mode, self.granted_permissions⟩) := by
  refine (machine repr).run_induction
    (P := fun ls self _ => (self.mode, self.granted_permissions) = latest ls ∧
      (self.bridge = bridge ∨ self.bridge = ⟨self.mode, self.granted_permissions⟩))
    ⟨rfl, Or.inl rfl⟩ ?_ hrun
  intro ls self _ l self' os _ ih hs
  unfold latest
  rw [List.foldl_append]
  cases l with
  | set_mode mode granted_permissions =>
    cases hs
    exact ⟨rfl, Or.inr rfl⟩
  | syscall call args result =>
    cases hs
    exact ih

/-! ### Confinement -/

/-- In internal mode a syscall reaches the bridge of the host only if it is
    universal or granted, and every other syscall raises. -/
def Confined (call : String) (args : A) (current : String × Finset String)
    (os : List (Obs A R)) : Prop :=
  current.1 = "internal" →
    (.forwarded call args ∈ os → call ∈ UNIVERSAL_ALLOWED ∨ call ∈ current.2) ∧
    (call ∉ UNIVERSAL_ALLOWED → call ∉ current.2 → ∃ text, os = [.raised text])

/-- An elevated syscall of the internal mode is one of the granted. -/
def Granted (self : HostBridge) : Label A R → Prop
  | .set_mode .. => True
  | .syscall call _ _ => self.mode = "internal" →
      call ∈ INTERNAL_ALLOWED \ UNIVERSAL_ALLOWED → call ∈ self.granted_permissions

theorem syscall_confined_iff (repr : String → String) (self : HostBridge) (call : String)
    (args : A) (result : Except String R) :
    Confined call args (self.mode, self.granted_permissions)
        (syscall repr self call args result) ↔
      Granted self (.syscall call args result) := by
  unfold Confined Granted
  refine imp_congr_right fun hmode => ?_
  have hinternal : self.mode = "internal" := hmode
  -- the granted permissions have no part in what is allowed
  have hallowed : self.allowed_for_mode = INTERNAL_ALLOWED := by
    simp [allowed_for_mode, hinternal]
  unfold syscall
  rw [hallowed, Finset.mem_sdiff]
  by_cases hin : call ∈ INTERNAL_ALLOWED
  · -- the syscall is forwarded, granted or not
    have hforwarded : (.forwarded call args : Obs A R) ∈
        ([.forwarded call args, .returned result] : List (Obs A R)) := List.mem_cons_self
    rw [if_neg (not_not.mpr hin)]
    constructor
    · intro h helevated
      exact (h.1 hforwarded).resolve_left helevated.2
    · intro h
      have hallow : call ∈ UNIVERSAL_ALLOWED ∨ call ∈ self.granted_permissions := by
        by_cases huniversal : call ∈ UNIVERSAL_ALLOWED
        · exact Or.inl huniversal
        · exact Or.inr (h ⟨hin, huniversal⟩)
      exact ⟨fun _ => hallow, fun hno hno' => absurd hallow (not_or.mpr ⟨hno, hno'⟩)⟩
  · rw [if_pos hin]
    exact iff_of_true ⟨by simp, fun _ _ => ⟨_, rfl⟩⟩ fun h => absurd h.1 hin

/-- **Internal-mode confinement**: in a run, every syscall in internal mode is
    confined to the universal syscalls and those granted by the latest
    `set_mode` if and only if no call of the run in internal mode names an
    elevated syscall that is not granted. -/
theorem confined_iff_granted (repr : String → String) (bridge : HostBridgeBase)
    (ls : List (Label A R)) :
    (∀ pre call args result t tr' t' os, pre ++ [.syscall call args result] <+: ls →
      (machine repr).run (init bridge) pre = some (t, tr') →
      (machine repr).step t (.syscall call args result) = some (t', os) →
      Confined call args (latest pre) os) ↔
    (machine repr).Along Granted (init bridge) ls := by
  rw [Machine.along_iff_forall]
  constructor
  · intro h pre l t tr' hpre hrun'
    cases l with
    | set_mode mode granted_permissions => trivial
    | syscall call args result =>
      have hconfined := h pre call args result t tr' t _ hpre hrun' rfl
      rw [← (run_latest hrun').1] at hconfined
      exact (syscall_confined_iff repr t call args result).mp hconfined
  · intro h pre call args result t tr' t' os hpre hrun' hs
    cases hs
    rw [← (run_latest hrun').1]
    exact (syscall_confined_iff repr t call args result).mpr (h pre _ t tr' hpre hrun')

/-- No permission is granted, and an elevated syscall is forwarded. -/
theorem ungranted_syscall_forwarded :
    ∃ (ls : List (Label Unit Unit)) (self : HostBridge) (tr os : List (Obs Unit Unit)),
      (machine id).run (init ⟨"universal", ∅⟩) ls = some (self, tr) ∧
      (machine id).step self (.syscall "net_raw" () (.ok ())) = some (self, os) ∧
      .forwarded "net_raw" () ∈ os ∧ ¬ Confined "net_raw" () (latest ls) os := by
  refine ⟨[.set_mode "internal" none], _, _, _, rfl, rfl, by decide, ?_⟩
  intro hconfined
  have hallow := (hconfined rfl).1 (by decide)
  revert hallow
  decide

end HostBridge
