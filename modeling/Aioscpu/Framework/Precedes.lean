import Mathlib.Data.List.Sublists
import Mathlib.Data.List.Nodup

/-! # One Entry before Another

  `Precedes l a b`: some occurrence of `a` stands before some occurrence of
  `b` in `l`. Order laws about traces and queues are stated with it.
-/

universe u

variable {α : Type u}

/-- `a` occurs before `b` in `l`. -/
def Precedes (l : List α) (a b : α) : Prop := [a, b].Sublist l

namespace Precedes

instance [DecidableEq α] (l : List α) (a b : α) : Decidable (Precedes l a b) :=
  inferInstanceAs (Decidable ([a, b].Sublist l))

theorem mem_left {l : List α} {a b : α} (h : Precedes l a b) : a ∈ l :=
  h.subset (by simp)

theorem mem_right {l : List α} {a b : α} (h : Precedes l a b) : b ∈ l :=
  h.subset (by simp)

@[simp] theorem not_nil (a b : α) : ¬ Precedes [] a b := by
  unfold Precedes
  simp

theorem cons_iff {l : List α} {x a b : α} :
    Precedes (x :: l) a b ↔ Precedes l a b ∨ (a = x ∧ b ∈ l) := by
  unfold Precedes
  rw [List.sublist_cons_iff]
  constructor
  · rintro (h | ⟨r, hr, h⟩)
    · exact Or.inl h
    · obtain ⟨rfl, rfl⟩ := List.cons.inj hr
      exact Or.inr ⟨rfl, List.singleton_sublist.mp h⟩
  · rintro (h | ⟨rfl, h⟩)
    · exact Or.inl h
    · exact Or.inr ⟨[b], rfl, List.singleton_sublist.mpr h⟩

/-- Either within one part, or across the parts. -/
theorem append_iff {l l' : List α} {a b : α} :
    Precedes (l ++ l') a b ↔ Precedes l a b ∨ (a ∈ l ∧ b ∈ l') ∨ Precedes l' a b := by
  induction l with
  | nil => simp
  | cons x l ih =>
    simp only [List.cons_append, cons_iff, ih, List.mem_append, List.mem_cons]
    grind

/-- Two distinct members are ordered one way or the other. -/
theorem total {l : List α} {a b : α} (ha : a ∈ l) (hb : b ∈ l) (hne : a ≠ b) :
    Precedes l a b ∨ Precedes l b a := by
  induction l with
  | nil => cases ha
  | cons x l ih =>
    simp only [cons_iff]
    rcases List.mem_cons.mp ha with rfl | ha'
    · exact Or.inl (Or.inr ⟨rfl, (List.mem_cons.mp hb).resolve_left (Ne.symm hne)⟩)
    · rcases List.mem_cons.mp hb with rfl | hb'
      · exact Or.inr (Or.inr ⟨rfl, ha'⟩)
      · exact (ih ha' hb').imp Or.inl Or.inl

/-- In a list without repetitions the order is transitive. -/
theorem trans {l : List α} (hl : l.Nodup) {a b c : α} (hab : Precedes l a b)
    (hbc : Precedes l b c) : Precedes l a c := by
  induction l with
  | nil => exact absurd hab (not_nil a b)
  | cons x l ih =>
    obtain ⟨hout, hl⟩ := List.nodup_cons.mp hl
    rw [cons_iff] at hab hbc ⊢
    rcases hab with hab | ⟨rfl, hb⟩
    · rcases hbc with hbc | ⟨rfl, -⟩
      · exact Or.inl (ih hl hab hbc)
      · exact absurd hab.mem_right hout
    · rcases hbc with hbc | ⟨rfl, -⟩
      · exact Or.inr ⟨rfl, hbc.mem_right⟩
      · exact absurd hb hout

/-- In a list without repetitions, what precedes the entry at a position
    stands in front of it. -/
theorem mem_of_split {l l' : List α} {a b : α} (hl : (l ++ b :: l').Nodup)
    (h : Precedes (l ++ b :: l') a b) : a ∈ l := by
  obtain ⟨-, hrest, hdisj⟩ := List.nodup_append'.mp hl
  have hb : b ∉ l' := (List.nodup_cons.mp hrest).1
  rcases append_iff.mp h with h | ⟨ha, -⟩ | h
  · exact absurd List.mem_cons_self (hdisj h.mem_right)
  · exact ha
  · rcases cons_iff.mp h with h | ⟨-, hmem⟩
    · exact absurd h.mem_right hb
    · exact absurd hmem hb

/-- A relation that holds pairwise holds between the earlier and the later. -/
theorem rel {R : α → α → Prop} {l : List α} (hl : l.Pairwise R) {a b : α}
    (h : Precedes l a b) : R a b :=
  List.pairwise_pair.mp (hl.sublist h)

/-- Two distinct members stand as such a relation has them, unless it has them
    both ways. -/
theorem iff_rel {R : α → α → Prop} {l : List α} (hl : l.Pairwise R) {a b : α} (ha : a ∈ l)
    (hb : b ∈ l) (hne : a ≠ b) (hasymm : R a b → ¬ R b a) : Precedes l a b ↔ R a b := by
  refine ⟨rel hl, fun h => ?_⟩
  rcases total ha hb hne with hbefore | hafter
  · exact hbefore
  · exact absurd (rel hl hafter) (hasymm h)

end Precedes
