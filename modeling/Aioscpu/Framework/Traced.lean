import Mathlib.Data.List.Count

/-! # Traced Computations

  A computation that emits observations and then returns or raises. What it has
  emitted stays when it raises.
-/

universe u v w

/-- `ω` is the type of observations, `ε` that of exceptions. -/
structure Traced (ω : Type u) (ε : Type v) (α : Type w) where
  trace : List ω
  result : Except ε α

namespace Traced

variable {ω : Type u} {ε : Type v} {α β : Type w}

def raise (e : ε) : Traced ω ε α := ⟨[], .error e⟩

/-- Emits `o` and returns or raises. -/
def observe (o : ω) (result : Except ε α) : Traced ω ε α := ⟨[o], result⟩

/-- The function goes on with what the computation returns. -/
def andThen (x : Traced ω ε α) (f : α → Traced ω ε β) : Traced ω ε β :=
  match x.result with
  | .ok a => ⟨x.trace ++ (f a).trace, (f a).result⟩
  | .error e => ⟨x.trace, .error e⟩

/-- The handler goes on with what the computation raises. -/
def catching (x : Traced ω ε α) (handler : ε → Traced ω ε α) : Traced ω ε α :=
  match x.result with
  | .ok a => ⟨x.trace, .ok a⟩
  | .error e => ⟨x.trace ++ (handler e).trace, (handler e).result⟩

instance : Monad (Traced ω ε) where
  pure a := ⟨[], .ok a⟩
  bind := andThen

/-- The value of an option, or the exception. -/
def ofOption (e : ε) (a : Option α) : Traced ω ε α := ⟨[], a.elim (.error e) .ok⟩

@[simp] theorem pure_eq (a : α) : (pure a : Traced ω ε α) = ⟨[], .ok a⟩ := rfl

@[simp] theorem bind_eq (x : Traced ω ε α) (f : α → Traced ω ε β) : x >>= f = x.andThen f := rfl

theorem andThen_of_ok {x : Traced ω ε α} {a : α} (h : x.result = .ok a)
    (f : α → Traced ω ε β) : x.andThen f = ⟨x.trace ++ (f a).trace, (f a).result⟩ := by
  unfold andThen
  rw [h]

theorem andThen_of_error {x : Traced ω ε α} {e : ε} (h : x.result = .error e)
    (f : α → Traced ω ε β) : x.andThen f = ⟨x.trace, .error e⟩ := by
  unfold andThen
  rw [h]

theorem andThen_ok_iff {x : Traced ω ε α} {f : α → Traced ω ε β} {b : β} :
    (x.andThen f).result = .ok b ↔ ∃ a, x.result = .ok a ∧ (f a).result = .ok b := by
  cases h : x.result with
  | ok a => simp [andThen_of_ok h]
  | error e => simp [andThen_of_error h]

theorem ofOption_ok_iff {e : ε} {o : Option α} {a : α} :
    (ofOption e o : Traced ω ε α).result = .ok a ↔ o = some a := by
  cases o <;> simp [ofOption]

theorem catching_of_ok {x : Traced ω ε α} {a : α} (h : x.result = .ok a)
    (handler : ε → Traced ω ε α) : x.catching handler = x := by
  obtain ⟨trace, result⟩ := x
  obtain rfl : result = .ok a := h
  rfl

theorem catching_of_error {x : Traced ω ε α} {e : ε} (h : x.result = .error e)
    (handler : ε → Traced ω ε α) :
    x.catching handler = ⟨x.trace ++ (handler e).trace, (handler e).result⟩ := by
  unfold catching
  rw [h]

/-! ### Computations that emit one observation of a kind -/

variable (p : ω → Bool)

/-- No observation of the kind. -/
def Quiet (x : Traced ω ε α) : Prop := x.trace.countP p = 0

/-- The computation returns, and emits exactly one observation of the kind. -/
def Once (x : Traced ω ε α) : Prop := x.trace.countP p = 1 ∧ ∃ a, x.result = .ok a

variable {p}

theorem quiet_raise (e : ε) : Quiet p (raise e : Traced ω ε α) := rfl

theorem quiet_observe {o : ω} (h : p o = false) (result : Except ε α) :
    Quiet p (observe o result) := by
  simp [Quiet, observe, h]

theorem once_observe {o : ω} (h : p o = true) (a : α) :
    Once p (observe o (.ok a) : Traced ω ε α) :=
  ⟨by simp [observe, h], a, rfl⟩

theorem Quiet.not_once {x : Traced ω ε α} (h : Quiet p x) : ¬ Once p x := by
  rintro ⟨hone, -⟩
  unfold Quiet at h
  omega

theorem Quiet.andThen {x : Traced ω ε α} (hx : Quiet p x) {f : α → Traced ω ε β}
    (hf : ∀ a, x.result = .ok a → Quiet p (f a)) : Quiet p (x.andThen f) := by
  cases h : x.result with
  | error e => rwa [andThen_of_error h]
  | ok a =>
    rw [andThen_of_ok h]
    unfold Quiet at hx ⊢
    rw [List.countP_append, hx, hf a h]

theorem Quiet.catching {x : Traced ω ε α} (hx : Quiet p x) {handler : ε → Traced ω ε α}
    (hf : ∀ e, Quiet p (handler e)) : Quiet p (x.catching handler) := by
  cases h : x.result with
  | ok a => rwa [catching_of_ok h]
  | error e =>
    rw [catching_of_error h]
    unfold Quiet at hx ⊢
    rw [List.countP_append, hx, hf e]

/-- After a quiet computation, what follows has to emit the observation. -/
theorem Quiet.once_andThen_iff {x : Traced ω ε α} (hx : Quiet p x)
    {f : α → Traced ω ε β} : Once p (x.andThen f) ↔ ∃ a, x.result = .ok a ∧ Once p (f a) := by
  unfold Quiet at hx
  cases h : x.result with
  | error e =>
    rw [andThen_of_error h]
    unfold Once
    simp
  | ok a =>
    rw [andThen_of_ok h]
    unfold Once
    rw [List.countP_append, hx, Nat.zero_add]
    simp

/-- A handler of exceptions takes over only where nothing is emitted yet. -/
theorem once_catching {x : Traced ω ε α} {handler : ε → Traced ω ε α}
    (hx : Once p x ∨ Quiet p x ∧ ∃ e, x.result = .error e) (hf : ∀ e, Once p (handler e)) :
    Once p (x.catching handler) := by
  rcases hx with hx | ⟨hquiet, e, he⟩
  · obtain ⟨a, ha⟩ := hx.2
    rwa [catching_of_ok ha]
  · rw [catching_of_error he]
    unfold Quiet at hquiet
    unfold Once
    rw [List.countP_append, hquiet, Nat.zero_add]
    exact hf e

end Traced
