import Aioscpu.Kernel.Api
import Aioscpu.Kernel.PermissionHistory

/-! # Capability Changes through the Kernel API

  `grant_capability` and `revoke_capability` change the permission model
  without a check, and publish the change afterwards, which is checked.

  - A run of API calls stays within the tier of the mode it started in if and
    only if no call grants a known capability from above that tier.
  - A call is atomic if and only if its event can be published or there is
    nothing to change.
-/

namespace KernelAPI

variable {V H J R K : Type}

/-! ### Escalation -/

/-- A call that grants a capability grants an unknown one (which raises) or
    one of the tier of the mode. -/
def GrantsWithin (m : Mode) : Label V H J K → Prop
  | .call (.grant_capability c) => c ∈ TIER_3 → c ∈ m.TIER_MAP
  | _ => True

/-- The mode is the one of the start, and the grants lie in its tier. -/
def Confined (m : Mode) (st : ApiState V H K) : Prop :=
  st.perms.mode = m ∧ st.perms.granted ⊆ m.TIER_MAP

theorem Confined.within {m : Mode} {st : ApiState V H K} (h : Confined m st) {c : String}
    (hallowed : st.perms.is_allowed c = true) : c ∈ m.TIER_MAP := by
  rcases ((PermissionModel.is_allowed_iff _ c).mp hallowed).2 with htier | hgrant
  · exact h.1 ▸ htier
  · exact h.2 hgrant

theorem step_confined {sys : Subsystems V H J R K} {m : Mode} {st st' : ApiState V H K}
    {l : Label V H J K} {os : List (Except ApiError Unit)}
    (h : (machine sys).step st l = some (st', os)) (hl : GrantsWithin m l)
    (hst : Confined m st) : Confined m st' := by
  obtain ⟨hmode, hgranted⟩ := hst
  cases l with
  | kernel k =>
    cases h
    exact ⟨hmode, hgranted⟩
  | call c =>
    cases h
    unfold Confined
    rw [call_perms]
    cases c with
    | grant_capability c =>
      simp only [changedPerms]
      by_cases hc : CAPABILITY_TIER c = none
      · rw [PermissionModel.grant_unknown _ hc]
        exact ⟨hmode, hgranted⟩
      · obtain ⟨-, hmode', hgranted', -⟩ := st.perms.grant_known hc
        rw [hmode', hgranted']
        refine ⟨hmode, Finset.insert_subset ?_ hgranted⟩
        exact hl (not_not.mp ((CAPABILITY_TIER_eq_none_iff c).not.mp hc))
    | revoke_capability c => exact ⟨hmode, (Finset.erase_subset _ _).trans hgranted⟩
    | _ => exact ⟨hmode, hgranted⟩

/-- Every label is possible in every state. -/
theorem step_total (sys : Subsystems V H J R K) (st : ApiState V H K) (l : Label V H J K) :
    ∃ st' os, (machine sys).step st l = some (st', os) := by
  cases l with
  | call c => exact ⟨_, _, rfl⟩
  | kernel k => exact ⟨_, _, rfl⟩

/-- A known capability is allowed right after its grant. -/
theorem allowed_after_grant (sys : Subsystems V H J R K) {c : String} (hc : c ∈ TIER_3)
    (st : ApiState V H K) :
    (call sys (.grant_capability c) st).2.perms.is_allowed c = true := by
  have hknown : CAPABILITY_TIER c ≠ none := by
    rw [Ne, CAPABILITY_TIER_eq_none_iff]
    exact not_not.mpr hc
  obtain ⟨-, -, hgranted, hrevoked⟩ := st.perms.grant_known hknown
  rw [call_perms, changedPerms, PermissionModel.is_allowed_iff, hgranted, hrevoked]
  simp

/-- **Escalation through the API**: from a fresh permission model, every
    capability that is allowed at any point of a run was in the tier of the
    mode it started in if and only if no call of `grant_capability` in the run
    names a known capability outside that tier. -/
theorem within_tier_iff_grants_within (sys : Subsystems V H J R K) (m : Mode)
    (k : Kernel V H K) (ls : List (Label V H J K)) :
    (∀ pre t tr, pre <+: ls →
      (machine sys).run ⟨k, PermissionModel.init m⟩ pre = some (t, tr) →
      ∀ c, t.perms.is_allowed c = true → c ∈ m.TIER_MAP) ↔
    ∀ c, .call (.grant_capability c) ∈ ls → c ∈ TIER_3 → c ∈ m.TIER_MAP := by
  constructor
  · intro hwithin c hmem hc
    obtain ⟨pre, post, rfl⟩ := List.append_of_mem hmem
    obtain ⟨st, tr, hrun⟩ := (machine sys).run_total (step_total sys)
      ⟨k, PermissionModel.init m⟩ pre
    -- the state right after the grant
    have hrun' := (machine sys).run_snoc_iff.mpr
      ⟨st, tr, _, hrun, (rfl : (machine sys).step st (.call (.grant_capability c)) = _), rfl⟩
    exact hwithin _ _ _ (by simp) hrun' c (allowed_after_grant sys hc st)
  · intro hgrants pre t tr hpre hrun
    have halong : (machine sys).Along (fun _ l => GrantsWithin m l)
        ⟨k, PermissionModel.init m⟩ pre := by
      apply (machine sys).along_of_mem
      intro l hl _
      cases l with
      | kernel k => trivial
      | call c =>
        cases c with
        | grant_capability c => exact hgrants c (hpre.subset hl)
        | _ => trivial
    have hconfined : Confined m t :=
      (machine sys).run_induction_along (P := fun _ s _ => Confined m s)
        ⟨rfl, Finset.empty_subset _⟩
        (fun ls s tr l s' os _ ih hl hs => step_confined hs hl ih) halong hrun
    intro c hallowed
    exact hconfined.within hallowed

/-- Subsystems that do nothing. -/
def inert : Subsystems Unit Unit Unit Unit Unit where
  services_registry _ := []
  record_state _ := ""
  services_start _ k := (.ok false, k)
  services_stop _ k := (.ok false, k)
  scheduler_submit_task _ _ k := (.ok (), k)
  scheduler_schedule_job _ _ k := (.ok (), k)
  aura_query _ k := (.ok "", k)
  aura_get_state_snapshot k := (.ok [], k)
  storage_read _ k := (.ok none, k)
  storage_write _ _ k := (.ok (), k)
  mode_name _ := none

/-- One call in universal mode gives itself a capability of the hardware tier. -/
theorem grant_escalates :
    ∃ t tr, (machine inert).run ⟨⟨EventBus.init, 0, ()⟩, PermissionModel.init .universal⟩
        [.call (.grant_capability "hal.project")] = some (t, tr) ∧
      t.perms.is_allowed "hal.project" = true ∧ "hal.project" ∉ Mode.universal.TIER_MAP := by
  obtain ⟨t, tr, hrun, htest⟩ := (machine inert).exists_run
    ⟨⟨EventBus.init, 0, ()⟩, PermissionModel.init .universal⟩
    [.call (.grant_capability "hal.project")]
    (fun t _ => t.perms.is_allowed "hal.project") (by decide +kernel)
  exact ⟨t, tr, hrun, htest, by decide⟩

/-! ### Atomicity -/

/-- The call raises and changes nothing, or it returns, the capability is
    `changed`, and one event of this type about it is queued. -/
def Atomic (m : Api V H K Unit) (event_type capability : String)
    (changed : PermissionModel → Prop) (st : ApiState V H K) : Prop :=
  (∃ e, (m st).1 = .error e ∧ (m st).2.perms = st.perms ∧
    (m st).2.kernel.event_bus.queue = st.kernel.event_bus.queue) ∨
  ((m st).1 = .ok () ∧ changed (m st).2.perms ∧
    ∃ e : Event (Payload V), e.event_type = event_type ∧
      e.payload = [("capability", .str capability)] ∧
      (m st).2.kernel.event_bus.queue.Perm (e :: st.kernel.event_bus.queue))

/-- An event can be published, in any mode, unless that was revoked. -/
theorem publish_allowed_iff (p : PermissionModel) :
    p.is_allowed "event.publish" = true ↔ "event.publish" ∉ p.revoked := by
  have htier : "event.publish" ∈ p.mode.TIER_MAP := p.mode.TIER_0_subset (by decide)
  rw [PermissionModel.is_allowed_iff]
  exact and_iff_left (Or.inl htier)

/-- A change followed by its publication is atomic if and only if the event
    can be published after the change, or nothing changed. -/
theorem atomic_publish_iff {m : Api V H K Unit} {event_type capability : String}
    {changed : PermissionModel → Prop} {st : ApiState V H K} {p : PermissionModel}
    (hm : m st = publish event_type (some [("capability", .str capability)]) "high"
      { st with perms := p })
    (hchanged : changed p) :
    Atomic m event_type capability changed st ↔ "event.publish" ∉ p.revoked ∨ p = st.perms := by
  unfold Atomic
  rw [hm, publish_eq, ← publish_allowed_iff, ← PermissionModel.check_ok_iff]
  cases hc : p.check "event.publish" with
  -- the change is made and its event is queued
  | ok u =>
    refine iff_of_true (Or.inr ⟨rfl, hchanged, ?_⟩) (Or.inl rfl)
    exact ⟨_, rfl, rfl, EventBus.publish_queue_perm _ _⟩
  -- the call raises, so it is atomic only if nothing has changed
  | error e =>
    simp

/-- **Atomicity of capability changes**: a grant is atomic if and only if the
    capability is unknown, or events can be published (`event.publish` is not
    revoked, or is what is granted), or it is granted already; a revocation is
    atomic if and only if `event.publish` neither is revoked nor is what is
    revoked, or the capability is revoked already. -/
theorem capability_change_atomic_iff (st : ApiState V H K) (c : String) :
    (Atomic (grant_capability c) "CAPABILITY_GRANTED" c
        (fun p => c ∈ p.granted ∧ c ∉ p.revoked) st ↔
      c ∉ TIER_3 ∨ "event.publish" ∉ st.perms.revoked ∨ c = "event.publish" ∨
        c ∈ st.perms.granted) ∧
    (Atomic (revoke_capability c) "CAPABILITY_REVOKED" c
        (fun p => c ∈ p.revoked ∧ c ∉ p.granted) st ↔
      ("event.publish" ∉ st.perms.revoked ∧ c ≠ "event.publish") ∨
        c ∈ st.perms.revoked) := by
  constructor
  · by_cases hc : c ∈ TIER_3
    · have hknown : CAPABILITY_TIER c ≠ none := by
        rw [Ne, CAPABILITY_TIER_eq_none_iff]
        exact not_not.mpr hc
      obtain ⟨-, -, hgranted, hrevoked⟩ := st.perms.grant_known hknown
      have hm := grant_capability_eq c st
      rw [if_neg hknown] at hm
      rw [atomic_publish_iff hm (by rw [hgranted, hrevoked]; simp),
        st.perms.grant_eq_self_iff hknown, hrevoked, Finset.mem_erase]
      grind
    · have hunknown := (CAPABILITY_TIER_eq_none_iff c).mpr hc
      have hm := grant_capability_eq c st
      rw [if_pos hunknown] at hm
      refine iff_of_true (Or.inl ?_) (Or.inl hc)
      rw [hm]
      exact ⟨_, rfl, rfl, rfl⟩
  · have hchanged : c ∈ (st.perms.revoke c).revoked ∧ c ∉ (st.perms.revoke c).granted := by
      simp [PermissionModel.revoke]
    rw [atomic_publish_iff (revoke_capability_eq c st) hchanged, st.perms.revoke_eq_self_iff]
    show "event.publish" ∉ insert c st.perms.revoked ∨ _ ↔ _
    rw [Finset.mem_insert]
    grind

/-- After `event.publish` is revoked, a grant is made although its call raises. -/
theorem grant_raises_after_change :
    ∃ p tr, PermissionModel.machine.run (PermissionModel.init .universal)
        [.revoke "event.publish"] = some (p, tr) ∧
      ¬ Atomic (grant_capability "net.listen" : Api Unit Unit Unit Unit) "CAPABILITY_GRANTED"
        "net.listen" (fun p => "net.listen" ∈ p.granted ∧ "net.listen" ∉ p.revoked)
        ⟨⟨EventBus.init, 0, ()⟩, p⟩ := by
  refine ⟨(PermissionModel.init .universal).revoke "event.publish", _, rfl, ?_⟩
  have hknown : CAPABILITY_TIER "net.listen" ≠ none := by decide +kernel
  have hm := grant_capability_eq "net.listen"
    (⟨⟨EventBus.init, 0, ()⟩, (PermissionModel.init .universal).revoke "event.publish"⟩ :
      ApiState Unit Unit Unit)
  rw [if_neg hknown] at hm
  rw [atomic_publish_iff hm (by decide +kernel), PermissionModel.grant_eq_self_iff _ hknown]
  decide +kernel

end KernelAPI
