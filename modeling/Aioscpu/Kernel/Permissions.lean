import Aioscpu.Framework.PyStr
import Mathlib.Data.Finset.Basic
import Mathlib.Order.Disjoint

/-! # Permissions

  The capability model of `kernel/permissions.py`.

  Capabilities are strings in four nested tiers, and a kernel surface mode
  allows the capabilities of its tier. At run time capabilities are granted
  on top of the tier and revoked from it. The two sets never meet, and the
  structure carries that.
-/

/-! ### Capabilities and modes -/

def TIER_0 : Finset String :=
  {"aura.query", "aura.pulse", "fs.read", "event.publish", "event.subscribe", "shell.command",
    "sysinfo.read"}

def TIER_1 : Finset String :=
  TIER_0 ∪ {"fs.write", "fs.list", "net.connect", "net.send", "net.recv", "proc.spawn",
    "proc.kill", "service.query", "log.read", "job.submit", "pkg.install", "pkg.list"}

def TIER_2 : Finset String :=
  TIER_1 ∪ {"fs.chmod", "fs.mount_bind", "net.listen", "net.raw", "sys.info", "service.start",
    "service.stop", "service.register", "kernel.config_write", "storage.write",
    "storage.partition", "log.write", "job.cancel", "model.load", "model.unload"}

def TIER_3 : Finset String :=
  TIER_2 ∪ {"hal.project", "hal.teardown", "kernel.mode_switch", "kernel.patch",
    "device.write", "device.project", "hardware.bind", "hardware.unbind"}

/-- The kernel surface modes, the keys of `_MODE_TIER`. -/
inductive Mode where
  | universal | internal | hardware
deriving DecidableEq, Repr

namespace Mode

def name : Mode → String
  | universal => "universal"
  | internal => "internal"
  | hardware => "hardware"

/-- The modes in the order of `_MODE_TIER`. -/
def all : List Mode := [universal, internal, hardware]

/-- `_MODE_TIER`. -/
def MODE_TIER : Mode → Nat
  | universal => 1
  | internal => 2
  | hardware => 3

/-- `_TIER_MAP`. -/
def TIER_MAP : Mode → Finset String
  | universal => TIER_1
  | internal => TIER_2
  | hardware => TIER_3

theorem mem_all (m : Mode) : m ∈ all := by
  cases m <;> decide

theorem TIER_0_subset (m : Mode) : TIER_0 ⊆ m.TIER_MAP := by
  have h₁ : TIER_0 ⊆ TIER_1 := Finset.subset_union_left
  have h₂ : TIER_0 ⊆ TIER_2 := h₁.trans Finset.subset_union_left
  cases m with
  | universal => exact h₁
  | internal => exact h₂
  | hardware => exact h₂.trans Finset.subset_union_left

end Mode

/-- `_CAPABILITY_TIER`, where the loop over a higher tier writes later. -/
def CAPABILITY_TIER (cap : String) : Option Nat :=
  if cap ∈ TIER_3 \ TIER_2 then some 3
  else if cap ∈ TIER_2 \ TIER_1 then some 2
  else if cap ∈ TIER_1 \ TIER_0 then some 1
  else if cap ∈ TIER_0 then some 0
  else none

/-- The tier of a capability is the least one that a mode must have to allow it. -/
theorem CAPABILITY_TIER_le_iff {cap : String} {t : Nat} (h : CAPABILITY_TIER cap = some t)
    (m : Mode) : t ≤ m.MODE_TIER ↔ cap ∈ m.TIER_MAP := by
  have h₀₁ : cap ∈ TIER_0 → cap ∈ TIER_1 := fun h => Finset.mem_union_left _ h
  have h₁₂ : cap ∈ TIER_1 → cap ∈ TIER_2 := fun h => Finset.mem_union_left _ h
  have h₂₃ : cap ∈ TIER_2 → cap ∈ TIER_3 := fun h => Finset.mem_union_left _ h
  unfold CAPABILITY_TIER at h
  simp only [Finset.mem_sdiff] at h
  cases m <;> simp only [Mode.MODE_TIER, Mode.TIER_MAP] <;> grind

/-- The known capabilities are those of the highest tier. -/
theorem CAPABILITY_TIER_eq_none_iff (cap : String) :
    CAPABILITY_TIER cap = none ↔ cap ∉ TIER_3 := by
  have h₀₁ : cap ∈ TIER_0 → cap ∈ TIER_1 := fun h => Finset.mem_union_left _ h
  have h₁₂ : cap ∈ TIER_1 → cap ∈ TIER_2 := fun h => Finset.mem_union_left _ h
  have h₂₃ : cap ∈ TIER_2 → cap ∈ TIER_3 := fun h => Finset.mem_union_left _ h
  unfold CAPABILITY_TIER
  simp only [Finset.mem_sdiff]
  grind

/-! ### Exceptions -/

structure PermissionDenied where
  capability : String
  current_mode : Mode
  required_mode : Option Mode
deriving DecidableEq, Repr

/-- The text of the exception; `repr` is that of strings. -/
def PermissionDenied.msg (repr : String → String) (e : PermissionDenied) : String :=
  "Capability " ++ repr e.capability ++ " is not permitted in " ++ repr e.current_mode.name ++
    " mode." ++
    match e.required_mode with
    | none => ""
    | some m => " Requires at least " ++ repr m.name ++ " mode."

/-- The values that the model rejects with a `ValueError`. -/
inductive ValueError where
  | unknown_capability (capability : String)
  | unknown_mode (mode : String)
deriving DecidableEq, Repr

/-- The text of the exception; `repr` is that of strings. -/
def ValueError.msg (repr : String → String) : ValueError → String
  | unknown_capability capability => "Unknown capability: " ++ repr capability
  | unknown_mode mode =>
    "Unknown kernel mode " ++ repr mode ++ ". Valid: [" ++
      ", ".intercalate (Mode.all.map fun m => repr m.name) ++ "]"

/-! ### The permission model -/

/-- The state of a `PermissionModel`. -/
@[ext] structure PermissionModel where
  mode : Mode
  /-- Runtime user grants. -/
  granted : Finset String
  /-- Explicit revocations. -/
  revoked : Finset String
  disjoint : Disjoint granted revoked
deriving DecidableEq

namespace PermissionModel

/-- `_validate_mode`. -/
def validate_mode (mode : String) : Except ValueError Mode :=
  match Mode.all.find? (·.name = mode) with
  | some m => .ok m
  | none => .error (.unknown_mode mode)

/-- `PermissionModel.__init__` with a valid mode. -/
def init (mode : Mode) : PermissionModel := ⟨mode, ∅, ∅, Finset.disjoint_empty_right _⟩

/-- `PermissionModel.set_mode`: grants are cleared on the way down. -/
def set_mode (self : PermissionModel) (new_mode : String) :
    Except ValueError Unit × PermissionModel :=
  match validate_mode new_mode with
  | .error e => (.error e, self)
  | .ok m =>
    if m.MODE_TIER < self.mode.MODE_TIER then
      (.ok (), ⟨m, ∅, self.revoked, Finset.disjoint_empty_left _⟩)
    else (.ok (), ⟨m, self.granted, self.revoked, self.disjoint⟩)

theorem disjoint_grant {granted revoked : Finset String} (h : Disjoint granted revoked)
    (c : String) : Disjoint (insert c granted) (revoked.erase c) := by
  rw [Finset.disjoint_insert_left]
  exact ⟨Finset.notMem_erase c revoked, h.mono_right (Finset.erase_subset c revoked)⟩

theorem disjoint_revoke {granted revoked : Finset String} (h : Disjoint granted revoked)
    (c : String) : Disjoint (granted.erase c) (insert c revoked) :=
  (disjoint_grant h.symm c).symm

/-- `PermissionModel.grant`. -/
def grant (self : PermissionModel) (capability : String) :
    Except ValueError Unit × PermissionModel :=
  if CAPABILITY_TIER capability = none then (.error (.unknown_capability capability), self)
  else
    (.ok (),
      { self with
        revoked := self.revoked.erase capability
        granted := insert capability self.granted
        disjoint := disjoint_grant self.disjoint capability })

/-- `PermissionModel.revoke`. -/
def revoke (self : PermissionModel) (capability : String) : PermissionModel :=
  { self with
    granted := self.granted.erase capability
    revoked := insert capability self.revoked
    disjoint := disjoint_revoke self.disjoint capability }

/-- `PermissionModel.reset_grants`. -/
def reset_grants (self : PermissionModel) : PermissionModel :=
  ⟨self.mode, ∅, ∅, Finset.disjoint_empty_right _⟩

/-- The first mode, in the order of `_MODE_TIER`, that would allow it. -/
def required_mode (capability : String) : Option Mode :=
  match CAPABILITY_TIER capability with
  | none => none
  | some needed_tier => Mode.all.find? (needed_tier ≤ ·.MODE_TIER)

/-- `PermissionModel.check`. -/
def check (self : PermissionModel) (capability : String) : Except PermissionDenied Unit :=
  -- an explicit revocation is denied without naming a mode
  if capability ∈ self.revoked then .error ⟨capability, self.mode, none⟩
  else if capability ∈ self.mode.TIER_MAP then .ok ()
  else if capability ∈ self.granted then .ok ()
  else .error ⟨capability, self.mode, required_mode capability⟩

/-- `PermissionModel.is_allowed`. -/
def is_allowed (self : PermissionModel) (capability : String) : Bool :=
  match self.check capability with
  | .ok () => true
  | .error _ => false

/-- `PermissionModel.allowed_capabilities`. -/
def allowed_capabilities (self : PermissionModel) : Finset String :=
  (self.mode.TIER_MAP ∪ self.granted) \ self.revoked

/-- What `PermissionModel.summary` returns. -/
structure Summary where
  mode : Mode
  tier : Nat
  granted : List String
  revoked : List String
  total_allowed : Nat

/-- `PermissionModel.summary`. -/
def summary (self : PermissionModel) : Summary :=
  { mode := self.mode
    tier := self.mode.MODE_TIER
    granted := PyStr.sorted self.granted
    revoked := PyStr.sorted self.revoked
    total_allowed := self.allowed_capabilities.card }

/-! ### What is allowed -/

theorem is_allowed_iff (self : PermissionModel) (c : String) :
    self.is_allowed c = true ↔
      c ∉ self.revoked ∧ (c ∈ self.mode.TIER_MAP ∨ c ∈ self.granted) := by
  unfold is_allowed check
  by_cases hrev : c ∈ self.revoked
  · simp [hrev]
  · by_cases htier : c ∈ self.mode.TIER_MAP
    · simp [hrev, htier]
    · by_cases hgrant : c ∈ self.granted
      · simp [hrev, hgrant]
      · simp [hrev, htier, hgrant]

theorem is_allowed_iff_mem (self : PermissionModel) (c : String) :
    self.is_allowed c = true ↔ c ∈ self.allowed_capabilities := by
  rw [is_allowed_iff, allowed_capabilities, Finset.mem_sdiff, Finset.mem_union]
  exact And.comm

theorem check_ok_iff (self : PermissionModel) (c : String) :
    self.check c = .ok () ↔ self.is_allowed c = true := by
  unfold is_allowed
  cases self.check c with
  | ok u => simp
  | error e => simp

/-! ### What grants and revocations change -/

theorem grant_unknown (self : PermissionModel) {c : String} (hc : CAPABILITY_TIER c = none) :
    self.grant c = (.error (.unknown_capability c), self) := if_pos hc

theorem grant_known (self : PermissionModel) {c : String} (hc : CAPABILITY_TIER c ≠ none) :
    (self.grant c).1 = .ok () ∧ (self.grant c).2.mode = self.mode ∧
      (self.grant c).2.granted = insert c self.granted ∧
      (self.grant c).2.revoked = self.revoked.erase c := by
  unfold grant
  rw [if_neg hc]
  exact ⟨rfl, rfl, rfl, rfl⟩

/-- A grant changes nothing if and only if it was made before. -/
theorem grant_eq_self_iff (self : PermissionModel) {c : String} (hc : CAPABILITY_TIER c ≠ none) :
    (self.grant c).2 = self ↔ c ∈ self.granted := by
  obtain ⟨-, hmode, hgranted, hrevoked⟩ := self.grant_known hc
  rw [PermissionModel.ext_iff, hmode, hgranted, hrevoked]
  constructor
  · rintro ⟨-, hins, -⟩
    exact Finset.insert_eq_self.mp hins
  · intro hmem
    have hnot : c ∉ self.revoked := Finset.disjoint_left.mp self.disjoint hmem
    exact ⟨rfl, Finset.insert_eq_of_mem hmem, Finset.erase_eq_of_notMem hnot⟩

/-- A revocation changes nothing if and only if it was made before. -/
theorem revoke_eq_self_iff (self : PermissionModel) (c : String) :
    self.revoke c = self ↔ c ∈ self.revoked := by
  rw [PermissionModel.ext_iff]
  constructor
  · rintro ⟨-, -, hins⟩
    exact Finset.insert_eq_self.mp hins
  · intro hmem
    have hnot : c ∉ self.granted := Finset.disjoint_right.mp self.disjoint hmem
    exact ⟨rfl, Finset.erase_eq_of_notMem hnot, Finset.insert_eq_of_mem hmem⟩

/-! ### What a refusal names -/

/-- The mode named by a refusal is the first one that allows the capability. -/
theorem required_mode_allows {c : String} {m : Mode} (h : required_mode c = some m) :
    c ∈ m.TIER_MAP ∧ ∀ m' : Mode, m'.MODE_TIER < m.MODE_TIER → c ∉ m'.TIER_MAP := by
  unfold required_mode at h
  cases ht : CAPABILITY_TIER c with
  | none => simp [ht] at h
  | some t =>
    simp only [ht] at h
    obtain ⟨hle, before, after, hall, hbefore⟩ := List.find?_eq_some_iff_append.mp h
    refine ⟨(CAPABILITY_TIER_le_iff ht m).mp (of_decide_eq_true hle), ?_⟩
    intro m' hlt
    rw [← CAPABILITY_TIER_le_iff ht m']
    -- a lower mode comes before `m` in the list
    have hmem : m' ∈ before := by
      have hm' : m' ∈ before ++ m :: after := hall ▸ m'.mem_all
      have hsorted : (before ++ m :: after).Pairwise (·.MODE_TIER < ·.MODE_TIER) := by
        rw [← hall]
        decide
      rcases List.mem_append.mp hm' with hmem | hmem
      · exact hmem
      · have hlater := (List.pairwise_cons.mp (List.pairwise_append.mp hsorted).2.1).1
        rcases List.mem_cons.mp hmem with rfl | hmem
        · exact absurd hlt (Nat.lt_irrefl _)
        · exact absurd (hlater m' hmem) (Nat.lt_asymm hlt)
    simpa using hbefore m' hmem

end PermissionModel
