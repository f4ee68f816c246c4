import Aioscpu.Framework.Dict

/-! # Hardware Abstraction Layer

  The virtual processor, memory, bus and devices of `hal/__init__.py`, and the
  projection of devices, which Hardware Mode switches on.
-/

/-! ### Virtual hardware -/

/-- A virtual bus; `D` is the type of what is attached. -/
structure VBus (D : Type) where
  devices : List D
deriving Repr

namespace VBus

variable {D : Type}

def attach (self : VBus D) (device : D) : VBus D := ⟨self.devices ++ [device]⟩

def detach_all (_ : VBus D) : VBus D := ⟨[]⟩

end VBus

/-- The virtual memory, with the size of each region. -/
structure VMemory where
  regions : Dict String Nat

namespace VMemory

def allocate (self : VMemory) (name : String) (size_bytes : Nat) : VMemory :=
  ⟨self.regions.set name size_bytes⟩

def release_all (_ : VMemory) : VMemory := ⟨.empty⟩

end VMemory

structure VCPU where
  running : Bool
deriving DecidableEq, Repr

namespace VCPU

def start (_ : VCPU) : VCPU := ⟨true⟩

def stop (_ : VCPU) : VCPU := ⟨false⟩

end VCPU

/-! ### Devices -/

/-- A description of a device to project; `S` is the type of its other keys. -/
structure DeviceSpec (S : Type) where
  name : Option String
  rest : S
deriving DecidableEq, Repr

/-- What is registered: a device, or the description of a projected one. -/
inductive Device (D S : Type) where
  | object (d : D)
  | spec (s : DeviceSpec S)
deriving DecidableEq, Repr

/-! ### The layer -/

structure HAL (D S : Type) where
  vcpu : VCPU
  vmemory : VMemory
  devices : Dict String (Device D S)
  vbus : VBus (Device D S)
  projection_active : Bool

namespace HAL

variable {D S : Type}

/-- `HAL.__init__`. -/
def init : HAL D S := ⟨⟨false⟩, ⟨.empty⟩, .empty, ⟨[]⟩, false⟩

def start (self : HAL D S) : HAL D S := { self with vcpu := self.vcpu.start }

/-- The registered devices stay. -/
def stop (self : HAL D S) : HAL D S :=
  { self with
    vcpu := self.vcpu.stop
    vmemory := self.vmemory.release_all
    vbus := self.vbus.detach_all }

def register_device (self : HAL D S) (name : String) (device : Device D S) : HAL D S :=
  { self with devices := self.devices.set name device, vbus := self.vbus.attach device }

def enable_projection (self : HAL D S) : HAL D S := { self with projection_active := true }

/-- The text of the `PermissionError` of `project`. -/
def projection_error : String :=
  "Hardware projection requires Hardware Mode with explicit user consent. Call " ++
    "enable_projection() first."

/-- `device_spec.get("name", f"dev_{len(self._devices)}")`. -/
def projected_name (self : HAL D S) (device_spec : DeviceSpec S) : String :=
  device_spec.name.getD ("dev_" ++ toString self.devices.items.length)

/-- `HAL.project`; the error is the text of the `PermissionError`. -/
def project (self : HAL D S) (device_spec : DeviceSpec S) : Except String (HAL D S) :=
  if !self.projection_active then .error projection_error
  else
    .ok (self.register_device (self.projected_name device_spec) (.spec device_spec))

def teardown_all (self : HAL D S) : HAL D S :=
  { vbus := self.vbus.detach_all
    devices := .empty
    vmemory := self.vmemory.release_all
    vcpu := self.vcpu.stop
    projection_active := false }

/-! ### Projection -/

@[simp] theorem register_device_projection (self : HAL D S) (name : String)
    (device : Device D S) :
    (self.register_device name device).projection_active = self.projection_active := rfl

@[simp] theorem enable_projection_projection (self : HAL D S) :
    self.enable_projection.projection_active = true := rfl

@[simp] theorem teardown_all_projection (self : HAL D S) :
    self.teardown_all.projection_active = false := rfl

/-- A projection succeeds if and only if projection is enabled, and leaves it so. -/
theorem project_spec (self : HAL D S) (device_spec : DeviceSpec S) :
    (self.projection_active = true ∧
      ∃ hal, self.project device_spec = .ok hal ∧ hal.projection_active = true) ∨
    (self.projection_active = false ∧ self.project device_spec = .error projection_error) := by
  unfold project
  cases hactive : self.projection_active with
  | false => exact Or.inr ⟨rfl, rfl⟩
  | true => exact Or.inl ⟨rfl, _, rfl, hactive⟩

end HAL
