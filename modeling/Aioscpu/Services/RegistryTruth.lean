import Aioscpu.Services.PackageManager

/-! # Truth of the Package Registry

  What the registry says against what pip did. The file has the registry at all times,
  so a restart changes nothing. `uninstall` takes the package from the registry also
  when pip could not remove it, and then the registry denies a package that is there.
-/

namespace PackageManager

variable {T : Type}

/-! ### Reading the file back -/

theorem foldl_put_records (peers : Packages T) (recs : List (PackageRecord T)) :
    (recs.foldl Packages.put peers).records =
      recs.foldl (fun d rec => d.set rec.name rec) peers.records := by
  induction recs generalizing peers with
  | nil => rfl
  | cons rec recs ih => exact ih (peers.put rec)

/-- The registry that is saved is the registry that is loaded. -/
theorem load_save_registry (self : PackageManager T) (updated : T) (clock : Nat → T) :
    load_registry (self.save_registry updated).file clock = self.registry := by
  have hentries : (self.registry.to_list.zipIdx.map fun entry =>
      PackageRecord.from_dict entry.1 (clock entry.2)) = self.registry.records.values := by
    unfold Packages.to_list
    rw [List.zipIdx_map, List.map_map]
    have hfrom : ((fun entry : PackageEntry T × Nat =>
        PackageRecord.from_dict entry.1 (clock entry.2)) ∘ Prod.map PackageRecord.to_dict id) =
        Prod.fst := rfl
    rw [hfrom, List.zipIdx_map_fst]
  have hrecords : (self.registry.records.values.foldl Packages.put .empty).records =
      self.registry.records := by
    rw [foldl_put_records]
    unfold Dict.values
    rw [List.foldl_map]
    -- a record stands under its own name
    have hset : self.registry.records.items.foldl (fun d item => d.set item.2.name item.2)
        Dict.empty = self.registry.records.items.foldl (fun d item => d.set item.1 item.2)
        Dict.empty := by
      refine List.foldl_ext _ _ _ fun d item hmem => ?_
      rw [self.registry.named item.1 item.2 (Dict.get_of_mem hmem)]
    exact hset.trans self.registry.records.foldl_set_items
  unfold load_registry save_registry
  dsimp only
  rw [hentries]
  obtain ⟨event_bus, ⟨records, named⟩, file⟩ := self
  generalize List.foldl Packages.put .empty _ = loaded at hrecords
  obtain ⟨records', named'⟩ := loaded
  obtain rfl : records' = records := hrecords
  rfl

/-- The file has what the registry has. -/
def Reloads (s : PackageManager T) : Prop := ∀ clock, load_registry s.file clock = s.registry

theorem reloads_save_registry (self : PackageManager T) (updated : T) :
    Reloads (self.save_registry updated) := load_save_registry self updated

/-! ### What pip has done -/

/-- pip completed the operation. -/
def PipRun.succeeded : PipRun → Bool
  | .completed returncode _ _ => returncode = 0
  | _ => false

/-- The package that pip has dealt with, and whether it is there since. -/
def Label.done : Label T → Option (String × Bool)
  | .install package _ pip _ _ => if pip.succeeded then some (package, true) else none
  | .upgrade package pip _ _ => if pip.succeeded then some (package, true) else none
  | .uninstall package pip _ => if pip.succeeded then some (package, false) else none
  | .restart _ => none

/-- What the last operation that pip completed for the package has done, if there was
    one. -/
def lastDone (lower : String → String) (package : String) (ls : List (Label T)) : Option Bool :=
  (((ls.filterMap Label.done).filter fun d => lower d.1 = lower package).getLast?).map Prod.snd

variable {lower : String → String}

theorem lastDone_snoc (package : String) (ls : List (Label T)) (l : Label T) :
    lastDone lower package (ls ++ [l]) =
      match l.done with
      | none => lastDone lower package ls
      | some d => if lower d.1 = lower package then some d.2 else lastDone lower package ls := by
  unfold lastDone
  rw [List.filterMap_append, List.filter_append]
  cases hdone : l.done with
  | none => simp [hdone]
  | some d =>
    by_cases hname : lower d.1 = lower package
    · simp [hdone, hname]
    · simp [hdone, hname]

/-- The registry tells what pip has done, and so does the one that a restart makes. -/
def Truthful (lower : String → String) (s : PackageManager T) (ls : List (Label T)) : Prop :=
  ∀ package, (s.is_installed lower package = true ↔ lastDone lower package ls = some true) ∧
    ∀ clock, (init s.event_bus s.file clock).is_installed lower package = true ↔
      lastDone lower package ls = some true

/-- An operation that is reported as failed leaves the registry as it is. -/
def FailureKeeps (s s' : PackageManager T) (os : List Obs) : Prop :=
  ∀ result, .returned result ∈ os → result.success = false →
    s'.registry = s.registry ∧
      ∀ clock, load_registry s'.file clock = load_registry s.file clock

/-- pip does not refuse to remove a package that is in the registry. -/
def Careful (lower : String → String) (s : PackageManager T) : Label T → Prop
  | .uninstall package (.completed returncode _ _) _ =>
    returncode = 0 ∨ s.is_installed lower package = false
  | _ => True

/-! ### Steps -/

/-- What a step can do. -/
inductive Step (lower : String → String) (s : PackageManager T) :
    Label T → PackageManager T → List Obs → Prop
  | installed {l : Label T} {package : String} {rec : PackageRecord T} {updated : T}
      {os : List Obs} (hdone : l.done = some (package, true)) (hname : rec.name = lower package)
      (hos : ∀ result, .returned result ∈ os → result.success = true)
      (hcareful : Careful lower s l) :
      Step lower s l (save_registry { s with registry := s.registry.put rec } updated) os
  | removed {l : Label T} {package : String} {updated : T} {os : List Obs}
      (hdone : l.done = some (package, false))
      (hos : ∀ result, .returned result ∈ os → result.success = true)
      (hcareful : Careful lower s l) :
      Step lower s l
        (save_registry { s with registry := s.registry.pop (lower package) } updated) os
  /-- pip could not remove the package. -/
  | refused {package : String} {returncode : Int} {stderr stdout : String} {updated : T}
      {os : List Obs} (hcode : returncode ≠ 0)
      (hos : ∃ result, .returned result ∈ os ∧ result.success = false) :
      Step lower s (.uninstall package (.completed returncode stderr stdout) updated)
        (save_registry { s with registry := s.registry.pop (lower package) } updated) os
  | failed {l : Label T} {os : List Obs} (hdone : l.done = none) (hcareful : Careful lower s l) :
      Step lower s l s os
  | restart (clock : Nat → T) : Step lower s (.restart clock) (init s.event_bus s.file clock) []

/-- An operation that succeeds returns that result only. -/
theorem returned_of_success {s : PackageManager T} {args : List String} {timeout : Nat}
    {event_type : String} {payload : List (String × String)} {result result' : Result}
    (h : .returned result' ∈ (.pip args timeout :: s.publish_event event_type payload ++
      [.returned result] : List Obs)) : result' = result := by
  unfold publish_event at h
  split at h
  · simpa using h
  · simpa using h

theorem install_sound (s : PackageManager T) {l : Label T} {package : String} {upgrade : Bool}
    {pip : PipRun} {shown : Shown} {now : Stamps T} (hcareful : Careful lower s l)
    (hdone : l.done = if pip.succeeded then some (package, true) else none) :
    Step lower s l (s.install lower package upgrade pip shown now).1
      (s.install lower package upgrade pip shown now).2 := by
  unfold install
  cases pip with
  | completed returncode stderr stdout =>
    by_cases hcode : returncode = 0
    · subst hcode
      simp only [if_true]
      refine .installed hdone rfl (fun result hmem => ?_) hcareful
      rw [returned_of_success hmem]
    · simp only [if_neg hcode]
      refine .failed ?_ hcareful
      rw [hdone]
      simp [PipRun.succeeded, hcode]
  | timed_out text => exact .failed hdone hcareful
  | raised text => exact .failed hdone hcareful

theorem step_sound {s s' : PackageManager T} {l : Label T} {os : List Obs}
    (hs : (machine lower).step s l = some (s', os)) : Step lower s l s' os := by
  cases l with
  | install package upgrade pip shown now =>
    obtain ⟨rfl, rfl⟩ := Prod.mk.inj (Option.some.inj hs)
    exact install_sound s trivial rfl
  | upgrade package pip shown now =>
    obtain ⟨rfl, rfl⟩ := Prod.mk.inj (Option.some.inj hs)
    exact install_sound s trivial rfl
  | uninstall package pip updated =>
    obtain ⟨rfl, rfl⟩ := Prod.mk.inj (Option.some.inj hs)
    cases pip with
    | completed returncode stderr stdout =>
      by_cases hcode : returncode = 0
      · subst hcode
        simp only [if_true]
        refine .removed rfl (fun result hmem => ?_) (Or.inl rfl)
        rw [returned_of_success hmem]
      · simp only [if_neg hcode]
        exact .refused hcode ⟨_, List.mem_cons_of_mem _ List.mem_cons_self, rfl⟩
    | timed_out text => exact .failed rfl trivial
    | raised text => exact .failed rfl trivial
  | restart clock =>
    obtain ⟨rfl, rfl⟩ := Prod.mk.inj (Option.some.inj hs)
    exact .restart clock

theorem step_reloads {s s' : PackageManager T} {l : Label T} {os : List Obs} (h : Reloads s)
    (hs : (machine lower).step s l = some (s', os)) : Reloads s' := by
  cases step_sound hs with
  | installed => exact reloads_save_registry _ _
  | removed => exact reloads_save_registry _ _
  | refused => exact reloads_save_registry _ _
  | failed => exact h
  | restart clock => exact fun clock' => (h clock').trans (h clock).symm

/-- A careful step changes for a package what pip has done to it. -/
theorem step_is_installed {s s' : PackageManager T} {l : Label T} {os : List Obs}
    (h : Reloads s) (hcareful : Careful lower s l)
    (hs : (machine lower).step s l = some (s', os)) (package : String) :
    s'.is_installed lower package =
      match l.done with
      | none => s.is_installed lower package
      | some d => if lower d.1 = lower package then d.2 else s.is_installed lower package := by
  unfold is_installed
  cases step_sound hs with
  | @installed _ package' rec updated _ hdone hname =>
    have hget := s.registry.get_put rec (lower package)
    rw [hdone]
    show (Packages.get _ _).isSome = _
    dsimp only [save_registry]
    rw [hget, hname]
    by_cases heq : lower package' = lower package
    · rw [if_pos heq, if_pos heq.symm]
      rfl
    · rw [if_neg heq, if_neg fun h => heq h.symm]
  | @removed _ package' updated _ hdone =>
    have hget := s.registry.get_pop (lower package') (lower package)
    rw [hdone]
    show (Packages.get _ _).isSome = _
    dsimp only [save_registry]
    rw [hget]
    by_cases heq : lower package' = lower package
    · rw [if_pos heq, if_pos heq.symm]
      rfl
    · rw [if_neg heq, if_neg fun h => heq h.symm]
  | @refused package' returncode stderr stdout updated _ hcode =>
    -- the package was not there
    have hnone : s.registry.get (lower package') = none :=
      Option.isSome_eq_false_iff.mp (hcareful.resolve_left hcode) |> Option.isNone_iff_eq_none.mp
    have hdone : (Label.uninstall package' (.completed returncode stderr stdout) updated).done =
        none := by
      simp [Label.done, PipRun.succeeded, hcode]
    rw [hdone]
    dsimp only [save_registry]
    rw [(s.registry.pop_eq_self_iff _).mpr hnone]
  | failed hdone => rw [hdone]
  | restart clock =>
    show ((load_registry s.file clock).get _).isSome = _
    rw [h clock]
    rfl

/-- A failure leaves the registry as it is if and only if the step is careful. -/
theorem step_careful_iff {s s' : PackageManager T} {l : Label T} {os : List Obs}
    (h : Reloads s) (hs : (machine lower).step s l = some (s', os)) :
    Careful lower s l ↔ FailureKeeps s s' os := by
  cases step_sound hs with
  | installed _ _ hos hcareful =>
    refine iff_of_true hcareful fun result hmem hfailed => ?_
    cases (hos result hmem).symm.trans hfailed
  | removed _ hos hcareful =>
    refine iff_of_true hcareful fun result hmem hfailed => ?_
    cases (hos result hmem).symm.trans hfailed
  | @refused package returncode stderr stdout updated _ hcode hos =>
    obtain ⟨result, hmem, hfailed⟩ := hos
    have hcareful : Careful lower s (.uninstall package (.completed returncode stderr stdout)
        updated) ↔ s.registry.get (lower package) = none := by
      show returncode = 0 ∨ (s.registry.get (lower package)).isSome = false ↔ _
      rw [or_iff_right hcode, Option.isSome_eq_false_iff, Option.isNone_iff_eq_none]
    rw [hcareful, ← s.registry.pop_eq_self_iff]
    constructor
    · intro hpop result' _ _
      refine ⟨hpop, fun clock => ?_⟩
      rw [load_save_registry, h clock]
      exact hpop
    · intro hkeeps
      exact (hkeeps result hmem hfailed).1
  | failed _ hcareful => exact iff_of_true hcareful fun _ _ _ => ⟨rfl, fun _ => rfl⟩
  | restart => exact iff_of_true trivial fun _ hmem => absurd hmem List.not_mem_nil

/-! ### Runs -/

theorem run_reloads {event_bus : Bool} {clock : Nat → T} {ls : List (Label T)}
    {s : PackageManager T} {tr : List Obs}
    (hrun : (machine lower).run (init event_bus none clock) ls = some (s, tr)) : Reloads s :=
  (machine lower).run_invariant (I := Reloads) (fun _ => rfl)
    (fun _ _ _ _ h hs => step_reloads h hs) hrun

theorem run_truthful {event_bus : Bool} {clock : Nat → T} {ls : List (Label T)}
    {s : PackageManager T} {tr : List Obs}
    (hcareful : (machine lower).Along (Careful lower) (init event_bus none clock) ls)
    (hrun : (machine lower).run (init event_bus none clock) ls = some (s, tr)) :
    Truthful lower s ls := by
  have hmemory : ∀ package,
      s.is_installed lower package = true ↔ lastDone lower package ls = some true := by
    refine (machine lower).run_induction_along (P := fun ls s _ => ∀ package,
      s.is_installed lower package = true ↔ lastDone lower package ls = some true)
      ?_ ?_ hcareful hrun
    · intro package
      exact iff_of_false (by simp [is_installed, init, load_registry]) (by simp [lastDone])
    · intro ls s tr l s' os hpre ih hc hs package
      rw [step_is_installed (run_reloads hpre) hc hs, lastDone_snoc]
      cases l.done with
      | none => exact ih package
      | some d =>
        by_cases hname : lower d.1 = lower package
        · simp [hname]
        · simp [hname, ih package]
  intro package
  refine ⟨hmemory package, fun clock' => ?_⟩
  rw [← hmemory package]
  show ((load_registry s.file clock').get _).isSome = true ↔ _
  rw [run_reloads hrun clock']
  rfl

/-- **Truth of the registry**: the registry tells throughout a run what pip has done last
    to each package, also after a restart, and failures leave it as it is, if and only if
    pip never refuses to remove a package that is in the registry. -/
theorem registry_truthful_iff_careful {event_bus : Bool} {clock : Nat → T} {ls : List (Label T)}
    {s : PackageManager T} {tr : List Obs}
    (hrun : (machine lower).run (init event_bus none clock) ls = some (s, tr)) :
    ((∀ pre t tr', pre <+: ls →
        (machine lower).run (init event_bus none clock) pre = some (t, tr') →
        Truthful lower t pre) ∧
      ∀ pre l t tr' t' os, pre ++ [l] <+: ls →
        (machine lower).run (init event_bus none clock) pre = some (t, tr') →
        (machine lower).step t l = some (t', os) → FailureKeeps t t' os) ↔
      (machine lower).Along (Careful lower) (init event_bus none clock) ls := by
  constructor
  · rintro ⟨-, hkeeps⟩
    rw [Machine.along_iff_forall]
    intro pre l t tr' hpre hbefore
    obtain ⟨⟨t', os⟩, hs⟩ : ∃ r, (machine lower).step t l = some r := by cases l <;> exact ⟨_, rfl⟩
    exact (step_careful_iff (run_reloads hbefore) hs).mpr
      (hkeeps pre l t tr' t' os hpre hbefore hs)
  · intro hcareful
    have hall := (machine lower).along_iff_forall.mp hcareful
    refine ⟨fun pre t tr' hpre hbefore => ?_, fun pre l t tr' t' os hpre hbefore hs => ?_⟩
    · refine run_truthful ((machine lower).along_iff_forall.mpr ?_) hbefore
      exact fun pre' l t' tr'' hpre' => hall pre' l t' tr'' (hpre'.trans hpre)
    · exact (step_careful_iff (run_reloads hbefore) hs).mp (hall pre l t tr' hpre hbefore)

/-- A package is upgraded under another spelling, and pip does not know a second one. -/
theorem registry_truthful_iff_careful_upgraded :
    let ls : List (Label Nat) := [.install "Flask" false (.completed 0 "" "") ⟨none, none⟩ ⟨1, 1⟩,
      .uninstall "numpy" (.completed 1 "not installed" "") 2,
      .upgrade "flask" (.completed 0 "" "") ⟨some "Version: 3.0", none⟩ ⟨3, 3⟩]
    let start := init true none fun _ => 0
    ∃ (s : PackageManager Nat) (tr : List Obs),
      (machine PyStr.lower).run start ls = some (s, tr) ∧
      (((∀ pre t tr', pre <+: ls → (machine PyStr.lower).run start pre = some (t, tr') →
          Truthful PyStr.lower t pre) ∧
        ∀ pre l t tr' t' os, pre ++ [l] <+: ls →
          (machine PyStr.lower).run start pre = some (t, tr') →
          (machine PyStr.lower).step t l = some (t', os) → FailureKeeps t t' os) ↔
        (machine PyStr.lower).Along (Careful PyStr.lower) start ls) := by
  intro ls start
  obtain ⟨s, tr, hrun⟩ := (machine PyStr.lower).run_total
    (fun _ l => by cases l <;> exact ⟨_, _, rfl⟩) start ls
  exact ⟨s, tr, hrun, registry_truthful_iff_careful hrun⟩

/-- pip may not remove a package, and the registry loses it. -/
theorem package_denied :
    let ls : List (Label Nat) := [.install "flask" false (.completed 0 "" "") ⟨none, none⟩ ⟨1, 1⟩,
      .uninstall "flask" (.completed 1 "Permission denied" "") 2]
    ∃ (s : PackageManager Nat) (tr : List Obs),
      (machine PyStr.lower).run (init false none fun _ => 0) ls = some (s, tr) ∧
      ¬ Truthful PyStr.lower s ls := by
  intro ls
  refine ⟨_, _, rfl, fun h => ?_⟩
  have hthere : lastDone PyStr.lower "flask" ls = some true := by decide
  have hgone := (h "flask").1.mpr hthere
  revert hgone
  decide

end PackageManager
