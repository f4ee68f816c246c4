import Mathlib.Data.List.Infix

/-! # Command Interpreters

  An interpreter takes one command after the other. A command changes the state and answers, or
  it raises: what it has changed by then stays, and no command after it is taken.

  - `completed_iff`: the commands all answer exactly when each of them does, in the state that the
    ones before it leave.
  - `Triple P cs Q`: where `P` holds and the commands all answer, `Q` holds of the answers and the
    state at the end, with the rules `Triple.command`, `Triple.seq`, `Triple.consequence` and
    `Triple.frame`.
-/

universe u v w

structure Interpreter (σ : Type u) (C : Type v) (O : Type w) where
  /-- The state after a command, and its answer; `none` where it raises. -/
  exec : σ → C → σ × Option O

namespace Interpreter

/-- What a list of commands comes to. -/
structure Outcome (σ : Type u) (O : Type w) where
  state : σ
  answers : List O
  /-- No command has raised. -/
  completed : Bool

variable {σ : Type u} {C : Type v} {O : Type w} (m : Interpreter σ C O)

/-! ### Runs -/

def run (s : σ) : List C → Outcome σ O
  | [] => ⟨s, [], true⟩
  | c :: cs =>
    match m.exec s c with
    | (s', none) => ⟨s', [], false⟩
    | (s', some o) =>
      let rest := run s' cs
      { rest with answers := o :: rest.answers }

@[simp] theorem run_nil (s : σ) : m.run s [] = ⟨s, [], true⟩ := rfl

theorem run_cons_raises {s : σ} {c : C} (h : (m.exec s c).2 = none) (cs : List C) :
    m.run s (c :: cs) = ⟨(m.exec s c).1, [], false⟩ := by
  unfold run
  split
  · next s' heq => rw [heq]
  · next s' o heq =>
    rw [heq] at h
    cases h

theorem run_cons_answers {s : σ} {c : C} {o : O} (h : (m.exec s c).2 = some o) (cs : List C) :
    m.run s (c :: cs) =
      { m.run (m.exec s c).1 cs with answers := o :: (m.run (m.exec s c).1 cs).answers } := by
  rw [run]
  split
  · next s' heq =>
    rw [heq] at h
    cases h
  · next s' o' heq =>
    rw [heq] at h
    rw [Option.some.inj h, heq]

/-- A list of commands that starts with one, case by case. -/
theorem run_cons_cases (s : σ) (c : C) (cs : List C) :
    ((m.exec s c).2 = none ∧ m.run s (c :: cs) = ⟨(m.exec s c).1, [], false⟩) ∨
      ∃ o, (m.exec s c).2 = some o ∧ m.run s (c :: cs) =
        { m.run (m.exec s c).1 cs with answers := o :: (m.run (m.exec s c).1 cs).answers } := by
  cases h : (m.exec s c).2 with
  | none => exact Or.inl ⟨rfl, m.run_cons_raises h cs⟩
  | some o => exact Or.inr ⟨o, rfl, m.run_cons_answers h cs⟩

/-- A run that completes goes on with the commands that follow. -/
theorem run_append {s : σ} {cs : List C} (h : (m.run s cs).completed = true) (cs' : List C) :
    m.run s (cs ++ cs') =
      { m.run (m.run s cs).state cs' with
        answers := (m.run s cs).answers ++ (m.run (m.run s cs).state cs').answers } := by
  induction cs generalizing s with
  | nil => rfl
  | cons c cs ih =>
    rcases m.run_cons_cases s c cs with ⟨-, heq⟩ | ⟨o, ho, heq⟩
    · rw [heq] at h
      cases h
    · rw [heq] at h ⊢
      rw [List.cons_append, m.run_cons_answers ho, ih h]
      rfl

/-- A run that does not complete stands where it is, whatever follows. -/
theorem run_append_of_raised {s : σ} {cs : List C} (h : (m.run s cs).completed = false)
    (cs' : List C) : m.run s (cs ++ cs') = m.run s cs := by
  induction cs generalizing s with
  | nil => cases h
  | cons c cs ih =>
    rcases m.run_cons_cases s c cs with ⟨hnone, heq⟩ | ⟨o, ho, heq⟩
    · rw [heq, List.cons_append, m.run_cons_raises hnone]
    · rw [heq] at h ⊢
      rw [List.cons_append, m.run_cons_answers ho, ih h]

theorem run_singleton (s : σ) (c : C) :
    m.run s [c] = ⟨(m.exec s c).1, (m.exec s c).2.toList, (m.exec s c).2.isSome⟩ := by
  rcases m.run_cons_cases s c [] with ⟨hnone, heq⟩ | ⟨o, ho, heq⟩
  · rw [heq, hnone]
    rfl
  · rw [heq, ho]
    rfl

/-- **The commands complete exactly when each of them answers** in the state that the ones before
    it leave. -/
theorem completed_iff {s : σ} {cs : List C} :
    (m.run s cs).completed = true ↔
      ∀ pre c, pre ++ [c] <+: cs → (m.run s pre).completed = true →
        (m.exec (m.run s pre).state c).2 ≠ none := by
  constructor
  · intro h pre c hpre hcompleted hnone
    obtain ⟨rest, rfl⟩ := hpre
    rw [List.append_assoc, m.run_append hcompleted, List.singleton_append,
      m.run_cons_raises hnone] at h
    cases h
  · intro h
    induction cs generalizing s with
    | nil => rfl
    | cons c cs ih =>
      have hc : (m.exec s c).2 ≠ none := by
        exact h [] c (List.cons_prefix_cons.mpr ⟨rfl, List.nil_prefix⟩) rfl
      obtain ⟨o, ho⟩ := Option.ne_none_iff_exists'.mp hc
      rw [m.run_cons_answers ho]
      refine ih fun pre c' hpre hcompleted => ?_
      have hrun := m.run_cons_answers ho pre
      have hlater := h (c :: pre) c' (List.cons_prefix_cons.mpr ⟨rfl, hpre⟩)
      rw [hrun] at hlater
      exact hlater hcompleted

/-! ### Triples -/

/-- Where `P` holds and the commands all answer, `Q` holds of the answers and the state. -/
def Triple (P : σ → Prop) (cs : List C) (Q : List O → σ → Prop) : Prop :=
  ∀ s, P s → (m.run s cs).completed = true → Q (m.run s cs).answers (m.run s cs).state

variable {m} {P P' R I : σ → Prop} {Q Q' : List O → σ → Prop} {cs cs' : List C}

/-- The rule for one command. -/
theorem Triple.command {c : C}
    (h : ∀ s o, P s → (m.exec s c).2 = some o → Q [o] (m.exec s c).1) : m.Triple P [c] Q := by
  intro s hP hcompleted
  rw [m.run_singleton] at hcompleted ⊢
  obtain ⟨o, ho⟩ := Option.isSome_iff_exists.mp hcompleted
  have hQ := h s o hP ho
  simpa [ho] using hQ

theorem Triple.consequence (h : m.Triple P cs Q) (hpre : ∀ s, P' s → P s)
    (hpost : ∀ os s, Q os s → Q' os s) : m.Triple P' cs Q' :=
  fun s hP' hcompleted => hpost _ _ (h s (hpre s hP') hcompleted)

/-- Commands one after the other, with what the first have answered. -/
theorem Triple.seq {Q' : List O → List O → σ → Prop} (h : m.Triple P cs Q)
    (h' : ∀ os, m.Triple (Q os) cs' (Q' os)) :
    m.Triple P (cs ++ cs') fun os s => ∃ os₁ os₂, os = os₁ ++ os₂ ∧ Q' os₁ os₂ s := by
  intro s hP hcompleted
  by_cases hfirst : (m.run s cs).completed = true
  · rw [m.run_append hfirst] at hcompleted ⊢
    exact ⟨_, _, rfl, h' _ _ (h s hP hfirst) hcompleted⟩
  · rw [m.run_append_of_raised (Bool.not_eq_true _ ▸ hfirst)] at hcompleted
    exact absurd hcompleted hfirst

/-- What every command keeps, the commands keep; also where one of them raises. -/
theorem run_invariant (h : ∀ c ∈ cs, ∀ s, I s → I (m.exec s c).1) {s : σ} (hI : I s) :
    I (m.run s cs).state := by
  induction cs generalizing s with
  | nil => exact hI
  | cons c cs ih =>
    have hc := h c List.mem_cons_self s hI
    rcases m.run_cons_cases s c cs with ⟨-, heq⟩ | ⟨o, -, heq⟩
    · rw [heq]
      exact hc
    · rw [heq]
      exact ih (fun c' hc' => h c' (List.mem_cons_of_mem c hc')) hc

/-! ### Frames -/

section Frame

variable {K : Type*} {V : Type*}

variable (m) in
/-- A command changes the view of the state only at the keys that it touches. -/
def Local (view : σ → K → V) (touches : C → K → Prop) : Prop :=
  ∀ s c k, ¬ touches c k → view (m.exec s c).1 k = view s k

/-- `R` looks at these keys only. -/
def DependsOn (view : σ → K → V) (R : σ → Prop) (keys : K → Prop) : Prop :=
  ∀ s s', (∀ k, keys k → view s k = view s' k) → R s → R s'

variable {view : σ → K → V} {touches : C → K → Prop}

/-- What no command touches is as it was, also where one of them raises. -/
theorem Local.run (hlocal : m.Local view touches) {k : K} (h : ∀ c ∈ cs, ¬ touches c k) (s : σ) :
    view (m.run s cs).state k = view s k :=
  run_invariant (I := fun s' => view s' k = view s k)
    (fun c hc s' hI => (hlocal s' c k (h c hc)).trans hI) rfl

/-- **The frame rule**: what the commands do not touch may be added to both sides. -/
theorem Triple.frame (hlocal : m.Local view touches) {keys : K → Prop} (h : m.Triple P cs Q)
    (hR : DependsOn view R keys) (hapart : ∀ c ∈ cs, ∀ k, keys k → ¬ touches c k) :
    m.Triple (fun s => P s ∧ R s) cs fun os s => Q os s ∧ R s := by
  rintro s ⟨hP, hRs⟩ hcompleted
  refine ⟨h s hP hcompleted, hR s _ (fun k hk => ?_) hRs⟩
  exact (hlocal.run (fun c hc => hapart c hc k hk) s).symm

end Frame

end Interpreter
