import Aioscpu.Framework.Machine
import Aioscpu.Hal.Hal

/-! # Agreement of Registry and Bus

  Whether the bus has the devices of the registry, each of them once. `D` and `S` tell
  the objects that are registered apart.

  `register_device` and `project` attach what they register and never detach what they
  replace, the name that `project` makes up may be taken, and `stop` clears the bus
  only. So registry and bus agree as long as each name and each device is registered
  once, and `stop` finds nothing registered.
-/

namespace HAL

variable {D S : Type} [DecidableEq D] [DecidableEq S]

/-! ### Runs -/

inductive Label (D S : Type) where
  | start
  | stop
  | register_device (name : String) (device : Device D S)
  | enable_projection
  | project (device_spec : DeviceSpec S)
  | teardown_all

/-- The text of an exception that a call raises. -/
inductive Obs where
  | raised (text : String)
deriving DecidableEq

/-- The operations, one after the other. -/
def machine (D S : Type) : Machine (HAL D S) (Label D S) Obs where
  step := fun s l =>
    match l with
    | .start => some (s.start, [])
    | .stop => some (s.stop, [])
    | .register_device name device => some (s.register_device name device, [])
    | .enable_projection => some (s.enable_projection, [])
    | .project device_spec =>
      match s.project device_spec with
      | .ok s' => some (s', [])
      | .error text => some (s, [.raised text])
    | .teardown_all => some (s.teardown_all, [])

/-! ### The law -/

/-- Each registered device is on the bus once, and no other device is. -/
structure Agrees (s : HAL D S) : Prop where
  attached : ∀ name device, s.devices.get name = some device → s.vbus.devices.count device = 1
  registered : ∀ device ∈ s.vbus.devices, ∃ name, s.devices.get name = some device

/-- No device has two names. -/
def OneName (s : HAL D S) : Prop :=
  ∀ name name' device, s.devices.get name = some device → s.devices.get name' = some device →
    name = name'

/-- A projection without a name replaces no device. -/
def NotReplaced (s : HAL D S) (l : Label D S) (s' : HAL D S) : Prop :=
  match l with
  | .project device_spec => device_spec.name = none →
    ∀ name device, s.devices.get name = some device → s'.devices.get name = some device
  | _ => True

/-- Neither the name nor the device is registered. -/
def Unused (s : HAL D S) (name : String) (device : Device D S) : Prop :=
  s.devices.get name = none ∧ ∀ name', s.devices.get name' ≠ some device

/-- What is registered is new, and nothing is registered when the hardware stops. -/
def Careful (s : HAL D S) : Label D S → Prop
  | .stop => ∀ name, s.devices.get name = none
  | .register_device name device => s.Unused name device
  | .project device_spec => s.projection_active = true →
    s.Unused (s.projected_name device_spec) (.spec device_spec)
  | _ => True

/-! ### Operations -/

theorem agrees_of_empty {s : HAL D S} (hdevices : ∀ name, s.devices.get name = none)
    (hbus : s.vbus.devices = []) : Agrees s ∧ OneName s := by
  refine ⟨⟨fun name device h => ?_, fun device h => ?_⟩, fun name name' device h => ?_⟩
  · cases (hdevices name).symm.trans h
  · rw [hbus] at h
    cases h
  · cases (hdevices name).symm.trans h

/-- Registry and bus agree after a registration if and only if name and device are new. -/
theorem register_device_agrees_iff {s : HAL D S} (h : Agrees s) (hone : OneName s)
    (name : String) (device : Device D S) :
    s.Unused name device ↔ Agrees (s.register_device name device) := by
  have hget := s.devices.get_set name
  have hcount : ∀ d, (s.register_device name device).vbus.devices.count d =
      s.vbus.devices.count d + if device = d then 1 else 0 := by
    intro d
    show (s.vbus.devices ++ [device]).count d = _
    rw [List.count_append, List.count_singleton]
    simp
  constructor
  · rintro ⟨hname, hdevice⟩
    -- the device is not on the bus yet
    have hnot : device ∉ s.vbus.devices := by
      intro hmem
      obtain ⟨name', hget'⟩ := h.registered device hmem
      exact hdevice name' hget'
    constructor
    · intro name' d hget'
      rw [hcount]
      change (s.devices.set name device).get name' = some d at hget'
      rw [hget] at hget'
      split at hget'
      · cases hget'
        rw [if_pos rfl, List.count_eq_zero.mpr hnot]
      · have hne : device ≠ d := by
          rintro rfl
          exact hdevice name' hget'
        rw [if_neg hne, h.attached name' d hget']
    · intro d hmem
      show ∃ name', (s.devices.set name device).get name' = some d
      rcases List.mem_append.mp hmem with hmem | hmem
      · obtain ⟨name', hget'⟩ := h.registered d hmem
        have hne : name' ≠ name := by
          rintro rfl
          cases hname.symm.trans hget'
        exact ⟨name', by rw [hget, if_neg hne, hget']⟩
      · obtain rfl := List.mem_singleton.mp hmem
        exact ⟨name, by rw [hget, if_pos rfl]⟩
  · intro hafter
    have hself := hafter.attached name device (by
      show (s.devices.set name device).get name = _
      rw [hget, if_pos rfl])
    rw [hcount, if_pos rfl] at hself
    -- the device was not on the bus, so it was not registered
    have hdevice : ∀ name', s.devices.get name' ≠ some device := by
      intro name' hget'
      have hbefore := h.attached name' device hget'
      omega
    refine ⟨?_, hdevice⟩
    cases hold : s.devices.get name with
    | none => rfl
    | some old =>
      -- the old device is on the bus, and nobody's
      have hne : device ≠ old := by
        rintro rfl
        exact hdevice name hold
      have hbus : old ∈ (s.register_device name device).vbus.devices := by
        rw [← List.count_pos_iff, hcount, h.attached name old hold]
        omega
      obtain ⟨name', hget'⟩ := hafter.registered old hbus
      change (s.devices.set name device).get name' = some old at hget'
      rw [hget] at hget'
      split at hget'
      · exact absurd (Option.some.inj hget') hne
      · next hname => exact absurd (hone name' name old hget' hold) hname

omit [DecidableEq D] [DecidableEq S] in
theorem register_device_oneName {s : HAL D S} (hone : OneName s) {name : String}
    {device : Device D S} (hnew : s.Unused name device) :
    OneName (s.register_device name device) := by
  intro name₁ name₂ d h₁ h₂
  change (s.devices.set name device).get name₁ = some d at h₁
  change (s.devices.set name device).get name₂ = some d at h₂
  rw [Dict.get_set] at h₁ h₂
  split at h₁
  · next heq₁ =>
    cases h₁
    split at h₂
    · next heq₂ => rw [heq₁, heq₂]
    · exact absurd h₂ (hnew.2 name₂)
  · split at h₂
    · cases h₂
      exact absurd h₁ (hnew.2 name₁)
    · exact hone name₁ name₂ d h₁ h₂

/-! ### Steps -/

/-- Registry and bus agree after a step if and only if the step is careful, and then no
    device has two names. -/
theorem step_agrees_iff {s s' : HAL D S} {l : Label D S} {os : List Obs}
    (h : Agrees s ∧ OneName s) (hs : (machine D S).step s l = some (s', os)) :
    (Careful s l ↔ Agrees s') ∧ (Careful s l → OneName s') := by
  obtain ⟨hagrees, hone⟩ := h
  cases l with
  | start =>
    cases hs
    have hstart : Agrees s.start := ⟨hagrees.attached, hagrees.registered⟩
    exact ⟨iff_of_true trivial hstart, fun _ => hone⟩
  | stop =>
    cases hs
    refine ⟨⟨fun hnone => (agrees_of_empty (s := s.stop) hnone rfl).1, fun hafter name => ?_⟩,
      fun _ => hone⟩
    cases hget : s.devices.get name with
    | none => rfl
    | some device =>
      have hzero := hafter.attached name device hget
      exact absurd hzero (by simp [HAL.stop, VBus.detach_all])
  | register_device name device =>
    cases hs
    exact ⟨register_device_agrees_iff hagrees hone name device, register_device_oneName hone⟩
  | enable_projection =>
    cases hs
    have henable : Agrees s.enable_projection := ⟨hagrees.attached, hagrees.registered⟩
    exact ⟨iff_of_true trivial henable, fun _ => hone⟩
  | project device_spec =>
    unfold machine project at hs
    cases hactive : s.projection_active with
    | false =>
      simp only [hactive, Bool.not_false, if_true] at hs
      cases hs
      refine ⟨iff_of_true (fun hon => ?_) hagrees, fun _ => hone⟩
      cases hactive.symm.trans hon
    | true =>
      simp only [hactive, Bool.not_true, Bool.false_eq_true, if_false] at hs
      cases hs
      unfold Careful
      simp only [hactive, true_implies]
      exact ⟨register_device_agrees_iff hagrees hone _ _, register_device_oneName hone⟩
  | teardown_all =>
    cases hs
    have hempty := agrees_of_empty (s := s.teardown_all) (fun _ => rfl) rfl
    exact ⟨iff_of_true trivial hempty.1, fun _ => hempty.2⟩

omit [DecidableEq D] [DecidableEq S] in
/-- A careful step replaces nothing. -/
theorem step_not_replaced {s s' : HAL D S} {l : Label D S} {os : List Obs}
    (hcareful : Careful s l) (hs : (machine D S).step s l = some (s', os)) :
    NotReplaced s l s' := by
  cases l with
  | project device_spec =>
    intro _ name device hget
    unfold machine project at hs
    cases hactive : s.projection_active with
    | false =>
      simp only [hactive, Bool.not_false, if_true] at hs
      cases hs
      exact hget
    | true =>
      simp only [hactive, Bool.not_true, Bool.false_eq_true, if_false] at hs
      cases hs
      have hne : name ≠ s.projected_name device_spec := by
        rintro rfl
        cases (hcareful hactive).1.symm.trans hget
      show (s.devices.set _ _).get name = some device
      rw [Dict.get_set, if_neg hne, hget]
  | start => trivial
  | stop => trivial
  | register_device => trivial
  | enable_projection => trivial
  | teardown_all => trivial

/-! ### Runs -/

theorem init_agrees : Agrees (init : HAL D S) ∧ OneName (init : HAL D S) :=
  agrees_of_empty (fun _ => rfl) rfl

/-- If registry and bus agree throughout a run, no device has two names in it. -/
theorem oneName_of_agrees {ls : List (Label D S)}
    (h : ∀ pre t tr, pre <+: ls → (machine D S).run init pre = some (t, tr) → Agrees t)
    {pre : List (Label D S)} {t : HAL D S} {tr : List Obs} (hpre : pre <+: ls)
    (hrun : (machine D S).run init pre = some (t, tr)) : OneName t := by
  induction pre using List.reverseRecOn generalizing t tr with
  | nil =>
    simp only [Machine.run_nil, Option.some.injEq, Prod.mk.injEq] at hrun
    obtain ⟨rfl, rfl⟩ := hrun
    exact init_agrees.2
  | append_singleton pre l ih =>
    obtain ⟨u, tr₁, os, hbefore, hs, rfl⟩ := (machine D S).run_snoc_iff.mp hrun
    have hshort := (List.prefix_append pre [l]).trans hpre
    have hstep := step_agrees_iff ⟨h pre u tr₁ hshort hbefore, ih hshort hbefore⟩ hs
    exact hstep.2 (hstep.1.mpr (h _ t _ hpre hrun))

/-- **Agreement of registry and bus**: throughout a run each registered device is on the
    bus once, no other device is, and no projection without a name replaces a device, if
    and only if all steps are careful. -/
theorem agrees_iff_careful {ls : List (Label D S)} {s : HAL D S} {tr : List Obs}
    (hrun : (machine D S).run init ls = some (s, tr)) :
    ((∀ pre t tr', pre <+: ls → (machine D S).run init pre = some (t, tr') → Agrees t) ∧
      ∀ pre l t tr' t' os, pre ++ [l] <+: ls → (machine D S).run init pre = some (t, tr') →
        (machine D S).step t l = some (t', os) → NotReplaced t l t') ↔
      (machine D S).Along Careful init ls := by
  have hthroughout := (machine D S).along_iff_throughout (C := Careful)
    (I := fun t _ => Agrees t ∧ OneName t) init_agrees
    (fun pre l t tr' t' os _ _ h hs => by
      have hstep := step_agrees_iff h hs
      exact ⟨fun hc => ⟨hstep.1.mp hc, hstep.2 hc⟩, fun h' => hstep.1.mpr h'.1⟩) hrun
  rw [hthroughout]
  constructor
  · rintro ⟨hagrees, -⟩ pre t tr' hpre hbefore
    exact ⟨hagrees pre t tr' hpre hbefore, oneName_of_agrees hagrees hpre hbefore⟩
  · intro h
    refine ⟨fun pre t tr' hpre hbefore => (h pre t tr' hpre hbefore).1, ?_⟩
    intro pre l t tr' t' os hpre hbefore hs
    have hcareful := (machine D S).along_iff_forall.mp (hthroughout.mpr h)
    exact step_not_replaced (hcareful pre l t tr' hpre hbefore) hs

/-- Two devices are projected, the second without a name, after a start. -/
theorem agrees_iff_careful_projected :
    let ls : List (Label String String) := [.start, .register_device "net" (.object "eth"),
      .project ⟨some "gpu", "early"⟩, .enable_projection, .project ⟨none, "lidar"⟩,
      .teardown_all, .stop]
    ∃ (s : HAL String String) (tr : List Obs),
      (machine String String).run init ls = some (s, tr) ∧
      (((∀ pre t tr', pre <+: ls → (machine String String).run init pre = some (t, tr') →
          Agrees t) ∧
        ∀ pre l t tr' t' os, pre ++ [l] <+: ls →
          (machine String String).run init pre = some (t, tr') →
          (machine String String).step t l = some (t', os) → NotReplaced t l t') ↔
        (machine String String).Along Careful init ls) := by
  intro ls
  obtain ⟨s, tr, hrun, -⟩ := (machine String String).exists_run init ls (fun _ _ => true) (by
    decide)
  exact ⟨s, tr, hrun, agrees_iff_careful hrun⟩

/-- A name is registered again, and the device that it had stays on the bus. -/
theorem replaced_still_attached :
    let ls : List (Label String String) :=
      [.register_device "net" (.object "eth"), .register_device "net" (.object "wifi")]
    ∃ (s : HAL String String) (tr : List Obs),
      (machine String String).run init ls = some (s, tr) ∧
      .object "eth" ∈ s.vbus.devices ∧ ¬ Agrees s := by
  intro ls
  refine ⟨_, _, rfl, List.mem_cons_self, fun h => ?_⟩
  obtain ⟨name, hget⟩ := h.registered (.object "eth") List.mem_cons_self
  have hmem := Dict.mem_of_get hget
  revert hmem
  simp [register_device, init, Dict.set, Dict.assign, Dict.empty]

end HAL
