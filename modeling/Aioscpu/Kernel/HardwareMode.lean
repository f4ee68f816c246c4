import Aioscpu.Framework.Machine
import Aioscpu.Hal.Hal
import Mathlib.Data.Finset.Basic
import Mathlib.Logic.Function.Basic

/-! # Hardware Mode

  The consent tokens and the modes of `kernel/modes/hardware.py`. There is one
  store of tokens, and any number of modes and kernels: a mode holds the kernel
  that it was activated on, and a kernel its hardware abstraction layer.

  The operations run one at a time. A label carries what the host bridge does
  during an activation: it may raise before the projection is enabled, and
  after it, while the adapters are made.
-/

structure HardwareMode where
  kernel : Option Nat
  consent_token : Option String
deriving DecidableEq, Repr

namespace HardwareMode

variable {D S : Type}

/-- `HardwareMode.__init__`. -/
def init : HardwareMode := ⟨none, none⟩

/-- What the host bridge does during an activation. -/
inductive Adapters (D : Type) where
  /-- `HostBridge()` or its `set_mode` raises. -/
  | bridge_raises (text : String)
  | network_raises (text : String)
  | display_raises (net : D) (text : String)
  | made (net display : D)

inductive Error where
  | permission (text : String)
  | runtime (text : String)
  /-- An exception of the host bridge. -/
  | bridge (text : String)
deriving DecidableEq, Repr

inductive Obs (S : Type) where
  /-- The call of `project` has returned. -/
  | projected (i : Nat) (device_spec : DeviceSpec S)
  | published (kernel : Nat) (event_type : String)
  | raised (i : Nat) (e : Error)

structure State (D S : Type) where
  /-- `_VALID_TOKENS`. -/
  valid_tokens : Finset String
  kernels : Nat → HAL D S
  modes : Nat → HardwareMode
  /-- The token of the last activation that passed its check. No operation
      reads it. -/
  activated_with : Nat → Option String

inductive Label (D S : Type) where
  | issue_consent_token (token : String)
  | revoke_consent_token (token : String)
  | activate (i kernel : Nat) (consent_token : String) (adapters : Adapters D)
  | project (i : Nat) (device_spec : DeviceSpec S)
  | revoke (i : Nat)

def issue_consent_token (s : State D S) (token : String) : State D S :=
  { s with valid_tokens := insert token s.valid_tokens }

def revoke_consent_token (s : State D S) (token : String) : State D S :=
  { s with valid_tokens := s.valid_tokens.erase token }

/-- The layer of the kernel changes. -/
def withHal (s : State D S) (kernel : Nat) (f : HAL D S → HAL D S) : State D S :=
  { s with kernels := Function.update s.kernels kernel (f (s.kernels kernel)) }

def withMode (s : State D S) (i : Nat) (mode : HardwareMode) : State D S :=
  { s with modes := Function.update s.modes i mode }

/-- The mode holds the kernel and the token. -/
def hold (s : State D S) (i kernel : Nat) (token : String) : State D S :=
  { withMode s i ⟨some kernel, some token⟩ with
    activated_with := Function.update s.activated_with i (some token) }

def consent_error : String :=
  "Hardware Mode requires a valid consent token. Complete the user consent flow first."

/-- `HardwareMode.activate`. -/
def activate (s : State D S) (i kernel : Nat) (consent_token : String)
    (adapters : Adapters D) : State D S × List (Obs S) :=
  if consent_token ∉ s.valid_tokens then (s, [.raised i (.permission consent_error)])
  else
    -- nothing of this is undone when an adapter raises
    let s := hold s i kernel consent_token
    match adapters with
    | .bridge_raises text => (s, [.raised i (.bridge text)])
    | .network_raises text => (withHal s kernel HAL.enable_projection, [.raised i (.bridge text)])
    | .display_raises net text =>
      (withHal s kernel fun hal => hal.enable_projection.register_device "net0" (.object net),
        [.raised i (.bridge text)])
    | .made net display =>
      (withHal s kernel fun hal =>
          (hal.enable_projection.register_device "net0" (.object net)).register_device
            "display0" (.object display),
        [.published kernel "MODE_ACTIVATED"])

/-- `HardwareMode.project`. -/
def project (s : State D S) (i : Nat) (device_spec : DeviceSpec S) :
    State D S × List (Obs S) :=
  match (s.modes i).kernel with
  | none => (s, [.raised i (.runtime "HardwareMode is not active")])
  | some kernel =>
    match (s.kernels kernel).project device_spec with
    | .error text => (s, [.raised i (.permission text)])
    | .ok hal =>
      (withHal s kernel fun _ => hal,
        [.published kernel "DEVICE_PROJECTED", .projected i device_spec])

/-- `HardwareMode.revoke`. The mode keeps its kernel. -/
def revoke (s : State D S) (i : Nat) : State D S × List (Obs S) :=
  match (s.modes i).kernel with
  | none => (s, [])
  | some kernel =>
    let s := withHal s kernel HAL.teardown_all
    let s :=
      match (s.modes i).consent_token with
      | none => s
      -- `if self._consent_token`: the empty token is not revoked
      | some token =>
        if token = "" then s
        else withMode (revoke_consent_token s token) i ⟨some kernel, none⟩
    (s, [.published kernel "PROJECTION_REVOKED"])

/-- Modes over one store of tokens, whose operations run one at a time. -/
def machine : Machine (State D S) (Label D S) (Obs S) where
  step := fun s l =>
    match l with
    | .issue_consent_token token => some (issue_consent_token s token, [])
    | .revoke_consent_token token => some (revoke_consent_token s token, [])
    | .activate i kernel consent_token adapters =>
      some (activate s i kernel consent_token adapters)
    | .project i device_spec => some (project s i device_spec)
    | .revoke i => some (revoke s i)

/-- No token is issued, and no mode is active. -/
def start : State D S := ⟨∅, fun _ => HAL.init, fun _ => init, fun _ => none⟩

end HardwareMode
