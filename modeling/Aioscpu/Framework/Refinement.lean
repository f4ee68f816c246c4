import Aioscpu.Framework.Machine

/-! # Refinement

  A specification says which steps are right: from which state a label may be taken, with which
  observations, and which states may follow. It need not be computable, and it may leave open
  which of several answers is given.

  - `Machine.refines`: a machine whose steps are right, under a map from its states to those of
    the specification, behaves as specified in all its runs.
  - `Machine.embeds`: a machine whose steps are each some steps of another one goes through runs
    of that one only.
-/

universe u v w x

structure Specification (τ : Type u) (L : Type v) (O : Type w) where
  Step : τ → L → List O → τ → Prop

/-- The labels may be taken one after the other from `a` to `a'`, with this trace. -/
inductive Specification.Behaves {τ : Type u} {L : Type v} {O : Type w}
    (spec : Specification τ L O) : τ → List L → List O → τ → Prop
  | nil (a : τ) : Behaves spec a [] [] a
  | cons {a b c : τ} {l : L} {ls : List L} {os tr : List O} (first : spec.Step a l os b)
      (rest : Behaves spec b ls tr c) : Behaves spec a (l :: ls) (os ++ tr) c

/-- **The refinement rule**: under an invariant, it is enough that each step is right. -/
theorem Machine.refines {σ : Type u} {τ : Type x} {L : Type v} {O : Type w}
    (m : Machine σ L O) (spec : Specification τ L O) (abs : σ → τ) {I : σ → Prop}
    (hstep : ∀ s l s' os, I s → m.step s l = some (s', os) →
      I s' ∧ spec.Step (abs s) l os (abs s'))
    {s s' : σ} {ls : List L} {tr : List O} (hI : I s) (hrun : m.run s ls = some (s', tr)) :
    I s' ∧ spec.Behaves (abs s) ls tr (abs s') := by
  induction ls generalizing s tr with
  | nil =>
    cases hrun
    exact ⟨hI, .nil _⟩
  | cons l ls ih =>
    obtain ⟨t, os, tr', hs, hrest, rfl⟩ := m.run_cons_iff.mp hrun
    obtain ⟨ht, hright⟩ := hstep s l t os hI hs
    obtain ⟨hI', hbehaves⟩ := ih ht hrest
    exact ⟨hI', .cons hright hbehaves⟩

/-- **The embedding rule**: if each step that ends in `I` has begun in it and is a run of another
    machine, with labels that are related to its own by a relation that can be concatenated, then
    so is each run that ends in `I`. `shown` is what the other machine observes of it. -/
theorem Machine.embeds {σ : Type u} {τ : Type x} {L L' : Type v} {O O' : Type w}
    (m : Machine σ L O) (m' : Machine τ L' O') (abs : σ → τ) (shown : O → Option O')
    {I : σ → Prop} {R : List L → List L' → Prop} (hnil : R [] [])
    (happend : ∀ ls ls' ks ks', R ls ls' → R ks ks' → R (ls ++ ks) (ls' ++ ks'))
    (hstep : ∀ s l s' os, I s' → m.step s l = some (s', os) →
      I s ∧ ∃ ls', R [l] ls' ∧ m'.run (abs s) ls' = some (abs s', os.filterMap shown))
    {s s' : σ} {ls : List L} {tr : List O} (hI : I s') (hrun : m.run s ls = some (s', tr)) :
    I s ∧ ∃ ls', R ls ls' ∧ m'.run (abs s) ls' = some (abs s', tr.filterMap shown) := by
  induction ls generalizing s tr with
  | nil =>
    cases hrun
    exact ⟨hI, [], hnil, rfl⟩
  | cons l ls ih =>
    obtain ⟨t, os, tr', hs, hrest, rfl⟩ := m.run_cons_iff.mp hrun
    obtain ⟨ht, ks', hR', hrun'⟩ := ih hrest
    obtain ⟨hs', ks, hR, hfirst⟩ := hstep s l t os ht hs
    refine ⟨hs', ks ++ ks', happend _ _ _ _ hR hR', ?_⟩
    rw [m'.run_append_iff]
    exact ⟨_, _, _, hfirst, hrun', List.filterMap_append⟩
