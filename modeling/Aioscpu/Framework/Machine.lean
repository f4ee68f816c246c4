import Mathlib.Data.List.Induction

/-! # Labelled Machines with Observations

  A machine takes one atomic section of a program per label and emits the
  observations of that section. A label carries what the environment decides
  (the arguments of a call, the clock reading, whether a callback raised), so
  a run is a list of labels and every order of steps is some list.

  The rules below package the induction over runs once:

  - `run_induction`: a property of (labels, state, trace) that every step keeps.
  - `run_induction_along`: the same, in runs whose steps all meet a condition
    on the state before the step and the label.
  - `along_iff_trace`: where the condition is exact for a law of the trace.
  - `along_iff_throughout`: where it is exact for an invariant of the run.
  - `forall_iff_throughout`: the same, for a condition on the trace as well.
  - `countP_le_rank`: a rank that bounds how often steps of a kind are taken.
-/

universe u v w

/-- A labelled machine: `step s l` is `none` when `l` cannot happen in `s`. -/
structure Machine (σ : Type u) (L : Type v) (O : Type w) where
  /-- The next state and the observations the step emits. -/
  step : σ → L → Option (σ × List O)

namespace Machine

variable {σ : Type u} {L : Type v} {O : Type w} (m : Machine σ L O)

/-! ### Runs -/

/-- The state and the trace after the labels `ls`, taken in order from `s`. -/
def run (s : σ) : List L → Option (σ × List O)
  | [] => some (s, [])
  | l :: ls =>
    match m.step s l with
    | none => none
    | some (s', os) => (run s' ls).map fun r => (r.1, os ++ r.2)

@[simp] theorem run_nil (s : σ) : m.run s [] = some (s, []) := rfl

theorem run_cons {s s' : σ} {l : L} {os : List O} (h : m.step s l = some (s', os))
    (ls : List L) :
    m.run s (l :: ls) = (m.run s' ls).map fun r => (r.1, os ++ r.2) := by
  simp only [run, h]

/-- The first step of a run. -/
theorem run_cons_iff {s u : σ} {l : L} {ls : List L} {tr : List O} :
    m.run s (l :: ls) = some (u, tr) ↔
      ∃ t os tr', m.step s l = some (t, os) ∧ m.run t ls = some (u, tr') ∧ tr = os ++ tr' := by
  cases hstep : m.step s l with
  | none => simp [run, hstep]
  | some r =>
    obtain ⟨t, os⟩ := r
    rw [m.run_cons hstep, Option.map_eq_some_iff]
    constructor
    · rintro ⟨⟨u', tr'⟩, hrun, heq⟩
      obtain ⟨rfl, rfl⟩ := Prod.mk.inj heq
      exact ⟨t, os, tr', rfl, hrun, rfl⟩
    · rintro ⟨t', os', tr', heq, hrun, rfl⟩
      obtain ⟨rfl, rfl⟩ := Prod.mk.inj (Option.some.inj heq)
      exact ⟨(u, tr'), hrun, rfl⟩

/-- A run splits at every position. -/
theorem run_append_iff {s u : σ} {ls ls' : List L} {tr : List O} :
    m.run s (ls ++ ls') = some (u, tr) ↔
      ∃ t tr₁ tr₂, m.run s ls = some (t, tr₁) ∧ m.run t ls' = some (u, tr₂) ∧
        tr = tr₁ ++ tr₂ := by
  induction ls generalizing s tr with
  | nil =>
    constructor
    · intro h; exact ⟨s, [], tr, rfl, h, rfl⟩
    · rintro ⟨t, tr₁, tr₂, h₁, h₂, rfl⟩
      simp only [run_nil, Option.some.injEq, Prod.mk.injEq] at h₁
      obtain ⟨rfl, rfl⟩ := h₁
      exact h₂
  | cons l ls ih =>
    cases hstep : m.step s l with
    | none => simp [run, hstep]
    | some r =>
      obtain ⟨s', os⟩ := r
      simp only [List.cons_append, m.run_cons hstep, Option.map_eq_some_iff, Prod.mk.injEq,
        Prod.exists]
      constructor
      · rintro ⟨u', tr', hrun, rfl, rfl⟩
        obtain ⟨t, tr₁, tr₂, h₁, h₂, rfl⟩ := ih.mp hrun
        exact ⟨t, os ++ tr₁, tr₂, ⟨t, tr₁, h₁, rfl, rfl⟩, h₂, (List.append_assoc ..).symm⟩
      · rintro ⟨t, tr₁, tr₂, ⟨t', tr₁', h₁, rfl, rfl⟩, h₂, rfl⟩
        exact ⟨u, tr₁' ++ tr₂, ih.mpr ⟨t', tr₁', tr₂, h₁, h₂, rfl⟩, rfl,
          (List.append_assoc ..).symm⟩

/-- What comes after a part of the run whose end is known. -/
theorem run_after {s t u : σ} {ls ls' : List L} {tr₁ tr : List O}
    (hpre : m.run s ls = some (t, tr₁)) (hrun : m.run s (ls ++ ls') = some (u, tr)) :
    ∃ tr₂, m.run t ls' = some (u, tr₂) := by
  obtain ⟨t', tr₁', tr₂, hpre', hpost, -⟩ := m.run_append_iff.mp hrun
  obtain ⟨rfl, -⟩ := Prod.mk.inj (Option.some.inj (hpre.symm.trans hpre'))
  exact ⟨tr₂, hpost⟩

/-- A run of one label is one step. -/
theorem run_singleton {s s' : σ} {l : L} {os : List O} :
    m.run s [l] = some (s', os) ↔ m.step s l = some (s', os) := by
  cases hstep : m.step s l with
  | none => simp [run, hstep]
  | some r =>
    obtain ⟨t, tr⟩ := r
    simp [run, hstep]

/-- The last step of a run. -/
theorem run_snoc_iff {s u : σ} {ls : List L} {l : L} {tr : List O} :
    m.run s (ls ++ [l]) = some (u, tr) ↔
      ∃ t tr₁ os, m.run s ls = some (t, tr₁) ∧ m.step t l = some (u, os) ∧
        tr = tr₁ ++ os := by
  simp only [run_append_iff, run_singleton]

/-- A machine in which every label is always possible runs every list of labels. -/
theorem run_total (htotal : ∀ s l, ∃ t os, m.step s l = some (t, os)) (s : σ) (ls : List L) :
    ∃ t tr, m.run s ls = some (t, tr) := by
  induction ls generalizing s with
  | nil => exact ⟨s, [], rfl⟩
  | cons l ls ih =>
    obtain ⟨t, os, hstep⟩ := htotal s l
    obtain ⟨u, tr, hrun⟩ := ih t
    exact ⟨u, os ++ tr, m.run_cons_iff.mpr ⟨t, os, tr, hstep, hrun, rfl⟩⟩

/-- A run whose end passes a test exists: for runs that are evaluated. -/
theorem exists_run (s : σ) (ls : List L) (test : σ → List O → Bool)
    (h : (m.run s ls).any (fun r => test r.1 r.2) = true) :
    ∃ t tr, m.run s ls = some (t, tr) ∧ test t tr = true := by
  obtain ⟨r, hr, htest⟩ := (Option.any_eq_true ..).mp h
  exact ⟨r.1, r.2, hr, htest⟩

/-! ### Conditions along a run -/

/-- Every step of the run meets `C`, a condition on the state before the step
    and the label. -/
def Along (C : σ → L → Prop) (s : σ) : List L → Prop
  | [] => True
  | l :: ls =>
    C s l ∧
    match m.step s l with
    | none => True
    | some (s', _) => Along C s' ls

instance Along.decidable (C : σ → L → Prop) [∀ s l, Decidable (C s l)] :
    ∀ (s : σ) (ls : List L), Decidable (m.Along C s ls)
  | _, [] => inferInstanceAs (Decidable True)
  | s, l :: ls =>
    have : Decidable (match m.step s l with
        | none => True
        | some (s', _) => m.Along C s' ls) :=
      match m.step s l with
      | none => inferInstanceAs (Decidable True)
      | some (s', _) => Along.decidable C s' ls
    inferInstanceAs (Decidable (_ ∧ _))

/-- The condition holds along a run and at its last step. -/
theorem along_snoc_iff {C : σ → L → Prop} {s : σ} {ls : List L} {l : L} :
    m.Along C s (ls ++ [l]) ↔
      m.Along C s ls ∧ ∀ t tr, m.run s ls = some (t, tr) → C t l := by
  induction ls generalizing s with
  | nil =>
    have hone : m.Along C s [l] ↔ C s l := by
      unfold Along
      refine and_iff_left ?_
      cases m.step s l with
      | none => trivial
      | some r => trivial
    rw [List.nil_append, hone]
    simp [Along]
  | cons l' ls ih =>
    cases hstep : m.step s l' with
    | none => simp [Along, run, hstep]
    | some r =>
      obtain ⟨s', os⟩ := r
      have hlast : (∀ t tr, m.run s (l' :: ls) = some (t, tr) → C t l) ↔
          ∀ t tr, m.run s' ls = some (t, tr) → C t l := by
        rw [m.run_cons hstep]
        constructor
        · intro h t tr hrun
          exact h t (os ++ tr) (by rw [hrun]; rfl)
        · intro h t tr hrun
          obtain ⟨r, hr, heq⟩ := Option.map_eq_some_iff.mp hrun
          exact (Prod.mk.inj heq).1 ▸ h r.1 r.2 hr
      rw [hlast]
      simp only [List.cons_append, Along, hstep, ih, and_assoc]

/-- The condition holds along a run if and only if every step meets it. -/
theorem along_iff_forall {C : σ → L → Prop} {s₀ : σ} {ls : List L} :
    m.Along C s₀ ls ↔
      ∀ pre l t tr, pre ++ [l] <+: ls → m.run s₀ pre = some (t, tr) → C t l := by
  induction ls using List.reverseRecOn with
  | nil =>
    refine iff_of_true trivial ?_
    intro pre l t tr hpre
    simp at hpre
  | append_singleton ls l ih =>
    rw [m.along_snoc_iff, ih]
    constructor
    · rintro ⟨hbefore, hlast⟩ pre l' t tr hpre hrun
      rcases List.prefix_concat_iff.mp hpre with heq | hpre
      · obtain ⟨rfl, hl⟩ := List.append_inj' heq rfl
        obtain rfl := List.singleton_inj.mp hl
        exact hlast t tr hrun
      · exact hbefore pre l' t tr hpre hrun
    · intro hall
      refine ⟨?_, fun t tr hrun => hall ls l t tr (List.prefix_refl _) hrun⟩
      intro pre l' t tr hpre hrun
      exact hall pre l' t tr (hpre.trans (List.prefix_append _ _)) hrun

/-- A condition that all labels of a run meet in every state. -/
theorem along_of_mem {C : σ → L → Prop} {ls : List L} (hC : ∀ l ∈ ls, ∀ s, C s l) (s : σ) :
    m.Along C s ls := by
  induction ls generalizing s with
  | nil => trivial
  | cons l ls ih =>
    refine ⟨hC l List.mem_cons_self s, ?_⟩
    cases m.step s l with
    | none => trivial
    | some r => exact ih (fun l' hl' => hC l' (List.mem_cons_of_mem l hl')) r.1

/-! ### Induction over runs -/

/-- **Induction over the runs whose steps all meet `C`**: what holds of the
    empty run and survives every step that meets `C` holds of the run. -/
theorem run_induction_along {C : σ → L → Prop} {s₀ : σ} {P : List L → σ → List O → Prop}
    (hnil : P [] s₀ [])
    (hsnoc : ∀ ls s tr l s' os, m.run s₀ ls = some (s, tr) → P ls s tr → C s l →
      m.step s l = some (s', os) → P (ls ++ [l]) s' (tr ++ os))
    {ls : List L} {s : σ} {tr : List O} (halong : m.Along C s₀ ls)
    (hrun : m.run s₀ ls = some (s, tr)) : P ls s tr := by
  induction ls using List.reverseRecOn generalizing s tr with
  | nil =>
    simp only [run_nil, Option.some.injEq, Prod.mk.injEq] at hrun
    obtain ⟨rfl, rfl⟩ := hrun
    exact hnil
  | append_singleton ls l ih =>
    obtain ⟨t, tr₁, os, hpre, hstep, rfl⟩ := m.run_snoc_iff.mp hrun
    obtain ⟨halong', hlast⟩ := m.along_snoc_iff.mp halong
    exact hsnoc ls t tr₁ l s os hpre (ih halong' hpre) (hlast t tr₁ hpre) hstep

/-- **Induction over all runs.** -/
theorem run_induction {s₀ : σ} {P : List L → σ → List O → Prop}
    (hnil : P [] s₀ [])
    (hsnoc : ∀ ls s tr l s' os, m.run s₀ ls = some (s, tr) → P ls s tr →
      m.step s l = some (s', os) → P (ls ++ [l]) s' (tr ++ os))
    {ls : List L} {s : σ} {tr : List O} (hrun : m.run s₀ ls = some (s, tr)) :
    P ls s tr :=
  m.run_induction_along (C := fun _ _ => True) hnil
    (fun ls s tr l s' os h hP _ hs => hsnoc ls s tr l s' os h hP hs)
    (m.along_of_mem (fun _ _ _ => trivial) s₀) hrun

/-- **Conditions that are exact at every step are exact over runs**: if under an
    invariant the observations of a step obey a law `Q` if and only if the
    step meets `C`, the trace of a run does if and only if all its steps do. -/
theorem along_iff_trace {C : σ → L → Prop} {Q : List O → Prop} {I : σ → Prop}
    (hnil : Q []) (happend : ∀ os os', Q (os ++ os') ↔ Q os ∧ Q os')
    (hstep : ∀ s l s' os, I s → m.step s l = some (s', os) → I s' ∧ (C s l ↔ Q os))
    {s₀ s : σ} (hinit : I s₀) {ls : List L} {tr : List O}
    (hrun : m.run s₀ ls = some (s, tr)) : m.Along C s₀ ls ↔ Q tr := by
  induction ls generalizing s₀ tr with
  | nil =>
    simp only [run_nil, Option.some.injEq, Prod.mk.injEq] at hrun
    obtain ⟨-, rfl⟩ := hrun
    exact iff_of_true trivial hnil
  | cons l ls ih =>
    obtain ⟨t, os, tr', hs, hrest, rfl⟩ := m.run_cons_iff.mp hrun
    obtain ⟨hI, hiff⟩ := hstep s₀ l t os hinit hs
    have halong : m.Along C s₀ (l :: ls) ↔ C s₀ l ∧ m.Along C t ls := by
      simp only [Along, hs]
    rw [halong, happend, hiff, ih hI hrest]

/-- **Conditions on the trace that are exact for an invariant**: as
    `along_iff_throughout`, for a condition that also looks at the trace of the
    run before the step. -/
theorem forall_iff_throughout {C : σ → List O → L → Prop} {I : σ → List O → Prop} {s₀ s : σ}
    {ls : List L} {tr : List O} (hinit : I s₀ [])
    (hstep : ∀ pre l t tr' t' os, pre ++ [l] <+: ls → m.run s₀ pre = some (t, tr') → I t tr' →
      m.step t l = some (t', os) → (C t tr' l ↔ I t' (tr' ++ os)))
    (hrun : m.run s₀ ls = some (s, tr)) :
    (∀ pre l t tr', pre ++ [l] <+: ls → m.run s₀ pre = some (t, tr') → C t tr' l) ↔
      ∀ pre t tr', pre <+: ls → m.run s₀ pre = some (t, tr') → I t tr' := by
  constructor
  · intro hC pre
    induction pre using List.reverseRecOn with
    | nil =>
      rintro t tr' - hrun'
      simp only [run_nil, Option.some.injEq, Prod.mk.injEq] at hrun'
      obtain ⟨rfl, rfl⟩ := hrun'
      exact hinit
    | append_singleton pre l ih =>
      intro t tr' hpre hrun'
      obtain ⟨u, tr₁, os, hbefore, hlast, rfl⟩ := m.run_snoc_iff.mp hrun'
      have hI := ih u tr₁ ((List.prefix_append _ _).trans hpre) hbefore
      exact (hstep pre l u tr₁ t os hpre hbefore hI hlast).mp (hC pre l u tr₁ hpre hbefore)
  · intro hI pre l t tr' hpre hrun'
    -- the run goes on with the label
    obtain ⟨rest, rfl⟩ := hpre
    obtain ⟨u, tr₁, tr₂, hsnoc, -, -⟩ := m.run_append_iff.mp hrun
    obtain ⟨t', tr₁', os, hbefore, hlast, rfl⟩ := m.run_snoc_iff.mp hsnoc
    obtain ⟨rfl, rfl⟩ := Prod.mk.inj (Option.some.inj (hrun'.symm.trans hbefore))
    have hprefix : pre <+: pre ++ [l] ++ rest := by
      rw [List.append_assoc]
      exact List.prefix_append _ _
    exact (hstep pre l t tr' u os (List.prefix_append _ _) hrun' (hI pre t tr' hprefix hrun')
      hlast).mpr (hI (pre ++ [l]) u _ (List.prefix_append _ _) hsnoc)

/-- **Conditions that are exact for an invariant**: if in every state that a
    run reaches under the invariant `I` its next step keeps `I` if and only if
    it meets `C`, then `I` holds throughout the run if and only if all its
    steps meet `C`. -/
theorem along_iff_throughout {C : σ → L → Prop} {I : σ → List O → Prop} {s₀ s : σ}
    {ls : List L} {tr : List O} (hinit : I s₀ [])
    (hstep : ∀ pre l t tr' t' os, pre ++ [l] <+: ls → m.run s₀ pre = some (t, tr') → I t tr' →
      m.step t l = some (t', os) → (C t l ↔ I t' (tr' ++ os)))
    (hrun : m.run s₀ ls = some (s, tr)) :
    m.Along C s₀ ls ↔ ∀ pre t tr', pre <+: ls → m.run s₀ pre = some (t, tr') → I t tr' := by
  rw [m.along_iff_forall]
  exact m.forall_iff_throughout (C := fun t _ l => C t l) hinit hstep hrun

/-- A state invariant that every step keeps holds after every run. -/
theorem run_invariant {s₀ : σ} {I : σ → Prop} (hinit : I s₀)
    (hstep : ∀ s l s' os, I s → m.step s l = some (s', os) → I s')
    {ls : List L} {s : σ} {tr : List O} (hrun : m.run s₀ ls = some (s, tr)) : I s :=
  m.run_induction (P := fun _ s _ => I s) hinit
    (fun _ s _ l s' os _ hI hs => hstep s l s' os hI hs) hrun

/-! ### Progress -/

/-- **A rank bounds the steps of a kind**: under an invariant, a rank that every step of the kind
    lowers and no other step raises is at least their number in every run. -/
theorem countP_le_rank {I : σ → Prop} (kind : L → Bool) (rank : σ → Nat)
    (hstep : ∀ s l s' os, I s → m.step s l = some (s', os) →
      I s' ∧ rank s' + (if kind l then 1 else 0) ≤ rank s)
    {s s' : σ} {ls : List L} {tr : List O} (hI : I s) (hrun : m.run s ls = some (s', tr)) :
    I s' ∧ rank s' + ls.countP kind ≤ rank s := by
  induction ls generalizing s tr with
  | nil =>
    cases hrun
    exact ⟨hI, Nat.le_refl _⟩
  | cons l ls ih =>
    obtain ⟨t, os, tr', hs, hrest, -⟩ := m.run_cons_iff.mp hrun
    obtain ⟨ht, hle⟩ := hstep s l t os hI hs
    obtain ⟨hI', hle'⟩ := ih ht hrest
    refine ⟨hI', ?_⟩
    rw [List.countP_cons]
    omega

end Machine
