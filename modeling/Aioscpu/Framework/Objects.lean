import Mathlib.Data.List.Basic

/-! # Objects with an Identity

  Objects that are created one after the other and never go away, each known
  by its number. Several variables may hold the number of one object, and a
  change of the object is seen through all of them.
-/

universe u

/-- The objects created so far. -/
structure Objects (α : Type u) where
  list : List α
deriving DecidableEq, Repr

namespace Objects

variable {α : Type u}

def empty : Objects α := ⟨[]⟩

/-- The number that the next object gets. -/
def next (o : Objects α) : Nat := o.list.length

def get (o : Objects α) (i : Nat) : Option α := o.list[i]?

/-- One more object. -/
def create (o : Objects α) (a : α) : Objects α := ⟨o.list ++ [a]⟩

/-- The object changes. -/
def set (o : Objects α) (i : Nat) (a : α) : Objects α := ⟨o.list.set i a⟩

@[simp] theorem get_empty (i : Nat) : (empty : Objects α).get i = none := rfl

@[simp] theorem get_next (o : Objects α) : o.get o.next = none :=
  List.getElem?_eq_none (Nat.le_refl _)

theorem lt_next {o : Objects α} {i : Nat} {a : α} (h : o.get i = some a) : i < o.next :=
  (List.getElem?_eq_some_iff.mp h).1

theorem ne_next {o : Objects α} {i : Nat} {a : α} (h : o.get i = some a) : i ≠ o.next :=
  Nat.ne_of_lt (lt_next h)

theorem get_create (o : Objects α) (a : α) (i : Nat) :
    (o.create a).get i = if i = o.next then some a else o.get i := by
  unfold get create next
  by_cases h : i = o.list.length
  · simp [h]
  · rw [if_neg h]
    rcases Nat.lt_or_gt_of_ne h with hlt | hgt
    · exact List.getElem?_append_left hlt
    · rw [List.getElem?_eq_none (by simp; omega), List.getElem?_eq_none (by omega)]

@[simp] theorem get_create_self (o : Objects α) (a : α) : (o.create a).get o.next = some a := by
  rw [get_create, if_pos rfl]

/-- The other objects stay. -/
theorem get_create_of_get {o : Objects α} {i : Nat} {b : α} (h : o.get i = some b) (a : α) :
    (o.create a).get i = some b := by
  rw [get_create, if_neg (ne_next h), h]

theorem get_set {o : Objects α} {i : Nat} {b : α} (h : o.get i = some b) (a : α) (j : Nat) :
    (o.set i a).get j = if j = i then some a else o.get j := by
  unfold get at h
  have hlt : i < o.list.length := (List.getElem?_eq_some_iff.mp h).1
  unfold get set
  rw [List.getElem?_set]
  by_cases hij : i = j
  · subst hij
    simp [hlt]
  · rw [if_neg hij, if_neg (fun heq => hij heq.symm)]

theorem get_set_self {o : Objects α} {i : Nat} {b : α} (h : o.get i = some b) (a : α) :
    (o.set i a).get i = some a := by
  rw [get_set h, if_pos rfl]

theorem get_set_of_ne {o : Objects α} {i j : Nat} {b : α} (h : o.get i = some b) (hne : j ≠ i)
    (a : α) : (o.set i a).get j = o.get j := by
  rw [get_set h, if_neg hne]

/-- A change of one object leaves an object with another value. -/
theorem get_set_of_get {o : Objects α} {i j : Nat} {b c : α} (h : o.get i = some b)
    (hj : o.get j = some c) (hne : c ≠ b) (a : α) : (o.set i a).get j = some c := by
  rw [get_set_of_ne h, hj]
  rintro rfl
  exact hne (Option.some.inj (hj.symm.trans h))

@[simp] theorem next_set (o : Objects α) (i : Nat) (a : α) : (o.set i a).next = o.next := by
  unfold next set
  exact List.length_set

@[simp] theorem next_create (o : Objects α) (a : α) : (o.create a).next = o.next + 1 := by
  simp [next, create]

/-- What holds of all objects. -/
theorem forall_get_iff (o : Objects α) (P : α → Prop) :
    (∀ i a, o.get i = some a → P a) ↔ ∀ a ∈ o.list, P a := by
  unfold get
  constructor
  · intro h a ha
    obtain ⟨i, hi⟩ := List.mem_iff_getElem?.mp ha
    exact h i a hi
  · intro h i a hi
    exact h a (List.mem_iff_getElem?.mpr ⟨i, hi⟩)

/-- A new object has what all objects have. -/
theorem forall_get_create {o : Objects α} {P : α → Prop} (h : ∀ j b, o.get j = some b → P b)
    {a : α} (ha : P a) : ∀ j b, (o.create a).get j = some b → P b := by
  intro j b hj
  rw [get_create] at hj
  split at hj
  · exact Option.some.inj hj ▸ ha
  · exact h j b hj

/-- A changed object still has what all objects have. -/
theorem forall_get_set {o : Objects α} {P : α → Prop} (h : ∀ j b, o.get j = some b → P b)
    {i : Nat} {c : α} (hi : o.get i = some c) {a : α} (ha : P a) :
    ∀ j b, (o.set i a).get j = some b → P b := by
  intro j b hj
  rw [get_set hi] at hj
  split at hj
  · exact Option.some.inj hj ▸ ha
  · exact h j b hj

/-- The sum of the weights of all objects. -/
def weight (o : Objects α) (f : α → Nat) : Nat := o.list.foldr (fun a n => f a + n) 0

@[simp] theorem weight_empty (f : α → Nat) : (empty : Objects α).weight f = 0 := rfl

@[simp] theorem weight_create (o : Objects α) (f : α → Nat) (a : α) :
    (o.create a).weight f = o.weight f + f a := by
  obtain ⟨list⟩ := o
  unfold weight create
  show (list ++ [a]).foldr (fun a n => f a + n) 0 = list.foldr (fun a n => f a + n) 0 + f a
  induction list with
  | nil => simp
  | cons x xs ih =>
    simp only [List.cons_append, List.foldr_cons, ih]
    omega

/-- A change of an object changes the weight by what it changes of the object. -/
theorem weight_set {o : Objects α} {i : Nat} {b : α} (h : o.get i = some b) (f : α → Nat)
    (a : α) : (o.set i a).weight f + f b = o.weight f + f a := by
  obtain ⟨list⟩ := o
  unfold get at h
  unfold weight set
  show (list.set i a).foldr (fun a n => f a + n) 0 + f b =
    list.foldr (fun a n => f a + n) 0 + f a
  induction list generalizing i with
  | nil => cases h
  | cons x xs ih =>
    cases i with
    | zero =>
      obtain rfl := Option.some.inj h
      simp only [List.set_cons_zero, List.foldr_cons]
      omega
    | succ i =>
      have := ih h
      simp only [List.set_cons_succ, List.foldr_cons]
      omega

end Objects
