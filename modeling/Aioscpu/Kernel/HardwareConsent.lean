import Aioscpu.Kernel.HardwareMode

/-! # Hardware Consent

  A token is checked when a mode is activated and never again: a projection
  asks only whether the layer of the kernel allows it. So a mode projects
  without consent exactly when its token ceases to be valid while its kernel
  allows projections, or when another mode enables them on its kernel again.
-/

namespace HardwareMode

variable {D S : Type}

/-! ### Consent -/

/-- The token that the mode was activated with is valid. -/
def Consented (s : State D S) (i : Nat) : Prop :=
  ∃ token, s.activated_with i = some token ∧ token ∈ s.valid_tokens

/-- The mode is on a kernel whose layer allows projections. -/
def Projecting (s : State D S) (i : Nat) : Prop :=
  ∃ kernel, (s.modes i).kernel = some kernel ∧ (s.kernels kernel).projection_active = true

/-- All modes that can project have consent. -/
def Safe (s : State D S) : Prop := ∀ i, Projecting s i → Consented s i

/-- The layer allows projections afterwards. -/
def Adapters.enables : Adapters D → Bool
  | .bridge_raises _ => false
  | _ => true

/-- No token becomes invalid with which a mode projects, and no projection is
    enabled for a mode without consent. -/
def Careful (s : State D S) : Label D S → Prop
  | .issue_consent_token _ => True
  | .revoke_consent_token token => ∀ i, Projecting s i → s.activated_with i ≠ some token
  | .activate i kernel token adapters =>
    token ∈ s.valid_tokens → adapters.enables = true →
      ∀ j, j ≠ i → (s.modes j).kernel = some kernel → Consented s j
  | .project _ _ => True
  -- the modes on the kernel of the mode do not project afterwards
  | .revoke i => ∀ kernel token, (s.modes i).kernel = some kernel →
      (s.modes i).consent_token = some token → token ≠ "" →
      ∀ j, Projecting s j → (s.modes j).kernel ≠ some kernel → s.activated_with j ≠ some token

/-- A call of `project` succeeds if and only if the layer allows it. -/
theorem projected_iff (s : State D S) (i : Nat) (device_spec : DeviceSpec S) :
    .projected i device_spec ∈ (project s i device_spec).2 ↔ Projecting s i := by
  unfold project Projecting
  cases hkernel : (s.modes i).kernel with
  | none => simp
  | some kernel =>
    rcases (s.kernels kernel).project_spec device_spec with
      ⟨hactive, hal, hproject, -⟩ | ⟨hinactive, hproject⟩
    · simp [hproject, hactive]
    · simp [hproject, hinactive]

/-! ### Steps -/

/-- The layer of another kernel stays. -/
theorem withHal_projecting_iff (s : State D S) (kernel : Nat) (f : HAL D S → HAL D S) (i : Nat) :
    Projecting (withHal s kernel f) i ↔
      ((s.modes i).kernel = some kernel ∧ (f (s.kernels kernel)).projection_active = true) ∨
      ((s.modes i).kernel ≠ some kernel ∧ Projecting s i) := by
  unfold Projecting withHal
  by_cases hkernel : (s.modes i).kernel = some kernel
  · simp [hkernel]
  · -- the mode is on another kernel, whose layer is the same
    simp only [hkernel, false_and, ne_eq, not_false_eq_true, true_and, false_or]
    refine exists_congr fun k => and_congr_right ?_
    intro hk
    have hne : k ≠ kernel := fun heq => hkernel (heq ▸ hk)
    rw [Function.update_of_ne hne]

/-- A token becomes invalid. -/
theorem revoke_consent_token_safe_iff {s : State D S} (h : Safe s) (token : String) :
    Safe (revoke_consent_token s token) ↔
      ∀ i, Projecting s i → s.activated_with i ≠ some token := by
  refine forall_congr' fun i => imp_congr_right fun hproject => ?_
  obtain ⟨token', htoken, hvalid⟩ := h i hproject
  have hconsented : Consented (revoke_consent_token s token) i ↔ token' ≠ token := by
    simp [Consented, revoke_consent_token, htoken, hvalid]
  rw [hconsented, htoken]
  simp

/-- A mode takes a kernel and a valid token. -/
theorem hold_safe {s : State D S} (h : Safe s) (i kernel : Nat) {token : String}
    (hvalid : token ∈ s.valid_tokens) : Safe (hold s i kernel token) := by
  intro j hproject
  by_cases hj : j = i
  · exact ⟨token, by simp [hold, hj], hvalid⟩
  · have hsame : Projecting s j := by
      simpa [Projecting, hold, withMode, hj] using hproject
    simpa [Consented, hold, withMode, hj] using h j hsame

/-- Projections are enabled on the kernel of a mode that took a valid token. -/
theorem hold_enabled_safe_iff {s : State D S} (h : Safe s) (i kernel : Nat) {token : String}
    (hvalid : token ∈ s.valid_tokens) {f : HAL D S → HAL D S}
    (hf : ∀ hal, (f hal).projection_active = true) :
    Safe (withHal (hold s i kernel token) kernel f) ↔
      ∀ j, j ≠ i → (s.modes j).kernel = some kernel → Consented s j := by
  have hheld := hold_safe h i kernel hvalid
  have hother : ∀ j, j ≠ i → (hold s i kernel token).modes j = s.modes j := by
    intro j hj
    simp [hold, withMode, hj]
  have hconsent : ∀ j, j ≠ i →
      (Consented (withHal (hold s i kernel token) kernel f) j ↔ Consented s j) := by
    intro j hj
    simp [Consented, withHal, hold, withMode, hj]
  constructor
  · -- every mode on the kernel projects now
    intro hsafe j hj hkernel
    refine (hconsent j hj).mp (hsafe j ?_)
    exact (withHal_projecting_iff ..).mpr (Or.inl ⟨by rw [hother j hj, hkernel], hf _⟩)
  · intro hall j hproject
    by_cases hj : j = i
    · exact ⟨token, by simp [withHal, hold, hj], hvalid⟩
    · rw [withHal_projecting_iff, hother j hj] at hproject
      rcases hproject with ⟨hkernel, -⟩ | ⟨-, hproject⟩
      · exact (hconsent j hj).mpr (hall j hj hkernel)
      · exact hheld j hproject

theorem activate_safe_iff {s : State D S} (h : Safe s) (i kernel : Nat) (token : String)
    (adapters : Adapters D) :
    Safe (activate s i kernel token adapters).1 ↔
      (token ∈ s.valid_tokens → adapters.enables = true →
        ∀ j, j ≠ i → (s.modes j).kernel = some kernel → Consented s j) := by
  unfold activate
  by_cases hvalid : token ∈ s.valid_tokens
  · simp only [hvalid, not_true_eq_false, if_false, true_imp_iff]
    -- projections are enabled before the adapters are made
    cases adapters with
    | bridge_raises text =>
      exact iff_of_true (hold_safe h i kernel hvalid) fun henables => by cases henables
    | network_raises text =>
      simp only [Adapters.enables, true_imp_iff]
      exact hold_enabled_safe_iff h i kernel hvalid fun _ => rfl
    | display_raises net text =>
      simp only [Adapters.enables, true_imp_iff]
      exact hold_enabled_safe_iff h i kernel hvalid fun _ => rfl
    | made net display =>
      simp only [Adapters.enables, true_imp_iff]
      exact hold_enabled_safe_iff h i kernel hvalid fun _ => rfl
  · simp only [hvalid, not_false_eq_true, if_true, false_imp_iff, iff_true]
    exact h

theorem project_safe {s : State D S} (h : Safe s) (i : Nat) (device_spec : DeviceSpec S) :
    Safe (project s i device_spec).1 := by
  unfold project
  cases hkernel : (s.modes i).kernel with
  | none => exact h
  | some kernel =>
    rcases (s.kernels kernel).project_spec device_spec with
      ⟨hactive, hal, hproject, -⟩ | ⟨-, hproject⟩
    · -- the layer allowed projections before, so the same modes project
      simp only [hproject]
      intro j hj
      rw [withHal_projecting_iff] at hj
      rcases hj with ⟨hj, -⟩ | ⟨-, hj⟩
      · exact h j ⟨kernel, hj, hactive⟩
      · exact h j hj
    · simp only [hproject]
      exact h

/-- A teardown stops the projections on one kernel. -/
theorem teardown_projecting_iff (s : State D S) (kernel i : Nat) :
    Projecting (withHal s kernel HAL.teardown_all) i ↔
      (s.modes i).kernel ≠ some kernel ∧ Projecting s i := by
  rw [withHal_projecting_iff]
  simp

theorem revoke_safe_iff {s : State D S} (h : Safe s) (i : Nat) :
    Safe (revoke s i).1 ↔
      ∀ kernel token, (s.modes i).kernel = some kernel →
        (s.modes i).consent_token = some token → token ≠ "" →
        ∀ j, Projecting s j → (s.modes j).kernel ≠ some kernel →
          s.activated_with j ≠ some token := by
  unfold revoke
  cases hkernel : (s.modes i).kernel with
  | none => exact iff_of_true h fun _ _ hnone => by cases hnone
  | some kernel =>
    -- the teardown comes first, so only the modes on other kernels matter
    have hdown : Safe (withHal s kernel HAL.teardown_all) := by
      intro j hj
      exact h j ((teardown_projecting_iff s kernel j).mp hj).2
    have hmodes : (withHal s kernel HAL.teardown_all).modes = s.modes := rfl
    simp only [hmodes]
    cases htoken : (s.modes i).consent_token with
    | none => exact iff_of_true hdown fun _ _ _ hnone => by cases hnone
    | some token =>
      by_cases hempty : token = ""
      · simp only [hempty, if_true]
        refine iff_of_true hdown ?_
        intro _ token' _ htoken' hne
        exact absurd (Option.some.inj htoken').symm hne
      · simp only [hempty, if_false]
        -- the mode keeps its kernel, so the same modes project
        have hsame : ∀ s' : State D S, (s'.modes i).kernel = some kernel →
            (Safe (withMode s' i ⟨some kernel, none⟩) ↔ Safe s') := by
          intro s' hs'
          refine forall_congr' fun j => ?_
          by_cases hj : j = i
          · simp [Projecting, Consented, withMode, hj, hs']
          · simp [Projecting, Consented, withMode, hj]
        rw [hsame (revoke_consent_token (withHal s kernel HAL.teardown_all) token) hkernel,
          revoke_consent_token_safe_iff hdown]
        constructor
        · intro hno kernel' token' hkernel' htoken' _ j hproject hne
          obtain rfl := Option.some.inj hkernel'
          obtain rfl := Option.some.inj htoken'
          exact hno j ((teardown_projecting_iff s kernel j).mpr ⟨hne, hproject⟩)
        · intro hno j hj
          obtain ⟨hne, hproject⟩ := (teardown_projecting_iff s kernel j).mp hj
          exact hno kernel token rfl rfl hempty j hproject hne

/-- A step keeps the modes safe if and only if it is careful. -/
theorem step_safe_iff {s s' : State D S} {l : Label D S} {os : List (Obs S)} (h : Safe s)
    (hs : machine.step s l = some (s', os)) : Careful s l ↔ Safe s' := by
  cases l with
  | issue_consent_token token =>
    cases hs
    refine iff_of_true trivial ?_
    intro i hproject
    obtain ⟨token', htoken, hvalid⟩ := h i hproject
    exact ⟨token', htoken, Finset.mem_insert_of_mem hvalid⟩
  | revoke_consent_token token =>
    cases hs
    exact (revoke_consent_token_safe_iff h token).symm
  | activate i kernel token adapters =>
    have hs' : (activate s i kernel token adapters).1 = s' :=
      congrArg Prod.fst (Option.some.inj hs)
    exact hs' ▸ (activate_safe_iff h i kernel token adapters).symm
  | project i device_spec =>
    have hs' : (project s i device_spec).1 = s' := congrArg Prod.fst (Option.some.inj hs)
    exact hs' ▸ iff_of_true trivial (project_safe h i device_spec)
  | revoke i =>
    have hs' : (revoke s i).1 = s' := congrArg Prod.fst (Option.some.inj hs)
    exact hs' ▸ (revoke_safe_iff h i).symm

/-! ### Runs -/

/-- **Hardware consent**: at every moment of a run, the projections that would
    succeed are those of modes whose token is valid, if and only if no step of
    the run takes a token away from a mode that projects or enables the
    projections of a mode without consent. -/
theorem projections_consented_iff_careful [Inhabited S] {ls : List (Label D S)} {s : State D S}
    {tr : List (Obs S)} (hrun : machine.run start ls = some (s, tr)) :
    (∀ pre t tr', pre <+: ls → machine.run start pre = some (t, tr') →
      ∀ i device_spec t' os, machine.step t (.project i device_spec) = some (t', os) →
        .projected i device_spec ∈ os → Consented t i) ↔
    machine.Along Careful start ls := by
  -- what can project is what does so when it is asked to
  have hsafe : ∀ t : State D S, Safe t ↔ ∀ i device_spec t' os,
      machine.step t (.project i device_spec) = some (t', os) →
        .projected i device_spec ∈ os → Consented t i := by
    intro t
    constructor
    · intro h i device_spec t' os hs hmem
      have hos : (project t i device_spec).2 = os := congrArg Prod.snd (Option.some.inj hs)
      exact h i ((projected_iff t i device_spec).mp (hos ▸ hmem))
    · intro h i hproject
      exact h i ⟨none, default⟩ _ _ rfl ((projected_iff t i _).mpr hproject)
  rw [machine.along_iff_throughout (I := fun t _ => Safe t) ?_ ?_ hrun]
  · simp only [hsafe]
  · intro i hproject
    obtain ⟨kernel, hkernel, -⟩ := hproject
    cases hkernel
  · intro pre l t tr' t' os _ _ h hs
    exact step_safe_iff h hs

/-- A mode revokes its consent, and another mode gets a token and a kernel of
    its own. -/
def renewedConsent : List (Label Unit Unit) :=
  [.issue_consent_token "a", .activate 0 0 "a" (.made () ()), .project 0 ⟨some "gpu", ()⟩,
    .revoke 0, .issue_consent_token "b", .activate 1 1 "b" (.made () ()),
    .project 1 ⟨none, ()⟩]

theorem projections_consented_iff_careful_renewed :
    ∃ s tr, machine.run start renewedConsent = some (s, tr) ∧
      ((∀ pre t tr', pre <+: renewedConsent → machine.run start pre = some (t, tr') →
        ∀ i device_spec t' os, machine.step t (.project i device_spec) = some (t', os) →
          .projected i device_spec ∈ os → Consented t i) ↔
      machine.Along Careful start renewedConsent) := by
  obtain ⟨s, tr, hrun⟩ := machine.run_total (fun _ l => by cases l <;> exact ⟨_, _, rfl⟩) start
    renewedConsent
  exact ⟨s, tr, hrun, projections_consented_iff_careful hrun⟩

/-- A token is revoked while the mode projects. -/
theorem projection_after_revocation :
    ∃ (ls : List (Label Unit Unit)) (s : State Unit Unit) (tr : List (Obs Unit)),
      machine.run start ls = some (s, tr) ∧
      .projected 0 ⟨none, ()⟩ ∈ (project s 0 ⟨none, ()⟩).2 ∧ ¬ Consented s 0 := by
  refine ⟨[.issue_consent_token "a", .activate 0 0 "a" (.made () ()),
    .revoke_consent_token "a"], _, _, rfl, ?_, ?_⟩
  · rw [projected_iff]
    exact ⟨0, rfl, rfl⟩
  · rintro ⟨token, htoken, hvalid⟩
    obtain rfl : "a" = token := Option.some.inj htoken
    exact Finset.notMem_erase _ _ hvalid

end HardwareMode
