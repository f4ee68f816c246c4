import Aioscpu.Framework.Machine
import Aioscpu.Kernel.Permissions

/-! # The History of a Permission Model

  The mode, the granted and the revoked set of a permission model are updated
  by four operations that partly undo one another. What they amount to is a
  function of the history: the last operation that concerns a capability
  decides whether it is revoked, and the last one that concerns its grant,
  a downgrade included, decides whether it is granted.
-/

namespace PermissionModel

/-! ### Runs of calls -/

inductive Call where
  | grant (capability : String)
  | revoke (capability : String)
  | set_mode (new_mode : String)
  | reset_grants
deriving DecidableEq, Repr

/-- What a call did. A call that raises did nothing. -/
inductive Obs where
  | granted (capability : String)
  | revoked (capability : String)
  | switched (old new : Mode)
  | reset
  | raised (e : ValueError)
deriving DecidableEq, Repr

/-- A permission model under calls of its operations. -/
def machine : Machine PermissionModel Call Obs where
  step := fun self l =>
    match l with
    | .grant capability =>
      match self.grant capability with
      | (.ok (), self') => some (self', [.granted capability])
      | (.error e, self') => some (self', [.raised e])
    | .revoke capability => some (self.revoke capability, [.revoked capability])
    | .set_mode new_mode =>
      match self.set_mode new_mode with
      | (.ok (), self') => some (self', [.switched self.mode self'.mode])
      | (.error e, self') => some (self', [.raised e])
    | .reset_grants => some (self.reset_grants, [.reset])

/-- What a step can do, with one constructor for each case. -/
inductive Step : PermissionModel → Obs → PermissionModel → Prop where
  | granted {s s'} (c : String) (hgranted : s'.granted = insert c s.granted)
      (hrevoked : s'.revoked = s.revoked.erase c) : Step s (.granted c) s'
  | revoked {s} (c : String) : Step s (.revoked c) (s.revoke c)
  | switched {s s'} (new : Mode) (hmode : s'.mode = new) (hrevoked : s'.revoked = s.revoked)
      (hgranted : s'.granted = if new.MODE_TIER < s.mode.MODE_TIER then ∅ else s.granted) :
      Step s (.switched s.mode new) s'
  | reset {s} : Step s .reset s.reset_grants
  | raised {s} (e : ValueError) : Step s (.raised e) s

theorem step_sound {s s' : PermissionModel} {l : Call} {os : List Obs}
    (h : machine.step s l = some (s', os)) : ∃ o, os = [o] ∧ Step s o s' := by
  cases l with
  | grant c =>
    simp only [machine, grant] at h
    by_cases hc : CAPABILITY_TIER c = none
    · simp only [hc, if_true] at h
      cases h
      exact ⟨_, rfl, .raised _⟩
    · simp only [hc, if_false] at h
      cases h
      exact ⟨_, rfl, .granted c rfl rfl⟩
  | revoke c =>
    cases h
    exact ⟨_, rfl, .revoked c⟩
  | set_mode new_mode =>
    simp only [machine, set_mode] at h
    cases hmode : validate_mode new_mode with
    | error e =>
      simp only [hmode] at h
      cases h
      exact ⟨_, rfl, .raised e⟩
    | ok m =>
      simp only [hmode] at h
      by_cases hdown : m.MODE_TIER < s.mode.MODE_TIER
      · simp only [hdown, if_true] at h
        cases h
        exact ⟨_, rfl, .switched m rfl rfl (if_pos hdown).symm⟩
      · simp only [hdown, if_false] at h
        cases h
        exact ⟨_, rfl, .switched m rfl rfl (if_neg hdown).symm⟩
  | reset_grants =>
    cases h
    exact ⟨_, rfl, .reset⟩

/-! ### The last word on a capability -/

/-- `grant c`, `revoke c` and `reset_grants`. -/
def Concerns (c : String) : Obs → Bool
  | .granted c' => c' = c
  | .revoked c' => c' = c
  | .reset => true
  | _ => false

/-- These, and a `set_mode` to a strictly lower mode. -/
def ConcernsGrant (c : String) : Obs → Bool
  | .switched old new => new.MODE_TIER < old.MODE_TIER
  | o => Concerns c o

/-- The last observation of a kind. -/
def lastOf (p : Obs → Bool) (tr : List Obs) : Option Obs := (tr.filter p).getLast?

theorem lastOf_snoc (p : Obs → Bool) (tr : List Obs) (o : Obs) :
    lastOf p (tr ++ [o]) = if p o then some o else lastOf p tr := by
  unfold lastOf
  by_cases hp : p o
  · simp [hp]
  · simp [hp]

/-- The last observation is not before a later one of its kind. -/
theorem lastOf_append_cons {p : Obs → Bool} {o : Obs} (hp : p o = true) (tr tr' : List Obs) :
    ∃ o', lastOf p (tr ++ o :: tr') = some o' ∧ (o' = o ∨ o' ∈ tr') := by
  unfold lastOf
  rw [List.filter_append, List.filter_cons_of_pos hp, List.getLast?_append_cons]
  cases hlast : (o :: tr'.filter p).getLast? with
  | none => simp at hlast
  | some o' =>
    refine ⟨o', rfl, ?_⟩
    rcases List.mem_cons.mp (List.mem_of_getLast? hlast) with heq | hmem
    · exact Or.inl heq
    · exact Or.inr (List.mem_filter.mp hmem).1

/-- The two sets are what the history says of each capability. -/
def Tracks (s : PermissionModel) (tr : List Obs) : Prop :=
  ∀ c, (c ∈ s.revoked ↔ lastOf (Concerns c) tr = some (.revoked c)) ∧
    (c ∈ s.granted ↔ lastOf (ConcernsGrant c) tr = some (.granted c))

theorem step_tracks {s s' : PermissionModel} {o : Obs} (h : Step s o s') {tr : List Obs}
    (ht : Tracks s tr) : Tracks s' (tr ++ [o]) := by
  intro c
  obtain ⟨hrev, hgrant⟩ := ht c
  rw [lastOf_snoc, lastOf_snoc]
  cases h with
  | granted c' hgranted hrevoked =>
    rw [hgranted, hrevoked, Finset.mem_insert, Finset.mem_erase, hrev, hgrant]
    by_cases hc : c' = c
    · simp [Concerns, ConcernsGrant, hc]
    · simp [Concerns, ConcernsGrant, hc, Ne.symm hc]
  | revoked c' =>
    simp only [revoke, Finset.mem_insert, Finset.mem_erase, hrev, hgrant]
    by_cases hc : c' = c
    · simp [Concerns, ConcernsGrant, hc]
    · simp [Concerns, ConcernsGrant, hc, Ne.symm hc]
  | switched new _ hrevoked hgranted =>
    rw [hrevoked, hgranted, hrev]
    refine ⟨by simp [Concerns], ?_⟩
    -- a downgrade is a word on every grant, and it clears them all
    by_cases hdown : new.MODE_TIER < s.mode.MODE_TIER
    · simp [ConcernsGrant, hdown]
    · simp [ConcernsGrant, hdown, hgrant]
  | reset => simp [reset_grants, Concerns, ConcernsGrant]
  | raised e => simp [Concerns, ConcernsGrant, hrev, hgrant]

theorem run_tracks {mode : Mode} {ls : List Call} {s : PermissionModel} {tr : List Obs}
    (hrun : machine.run (init mode) ls = some (s, tr)) : Tracks s tr := by
  apply machine.run_induction (P := fun _ s tr => Tracks s tr) ?_ ?_ hrun
  · intro c
    simp [init, lastOf]
  · intro ls s tr l s' os _ ih hs
    obtain ⟨o, rfl, hstep⟩ := step_sound hs
    exact step_tracks hstep ih

end PermissionModel
