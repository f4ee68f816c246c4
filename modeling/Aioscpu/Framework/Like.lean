import Mathlib

/-! # Patterns of `LIKE`

  The pattern language of SQL's `LIKE`, as SQLite documents it: `%` stands for any text, `_` for
  any character, and a letter of ASCII for itself in either case.

  - `like_iff`: a text matches if it can be had from the pattern.
  - `like_prefix_iff`: a pattern with `%` at the end is matched by what begins as it says.
  - `Variant.eq_of_plain`, `exists_variant`: the patterns that only they themselves match.
-/

namespace Like

/-- `text LIKE pattern`. -/
def like : List Char → List Char → Bool
  | [], t => t.isEmpty
  | c :: p, t =>
    if c = '%' then t.tails.any fun u => like p u
    else t.head?.any (fun d => decide (c = '_') || decide (c.toLower = d.toLower)) && like p t.tail

/-- What may stand for one character of a pattern. -/
def Stands (c : Char) (t : List Char) : Prop :=
  c = '%' ∨ ∃ d, t = [d] ∧ (c = '_' ∨ c.toLower = d.toLower)

/-- A text that can be had from a pattern. -/
inductive Variant : List Char → List Char → Prop where
  | nil : Variant [] []
  | cons {c : Char} {u p t : List Char} : Stands c u → Variant p t → Variant (c :: p) (u ++ t)

/-! ### Variants -/

theorem stands_self (c : Char) : Stands c [c] := Or.inr ⟨c, rfl, Or.inr rfl⟩

theorem variant_nil_iff {t : List Char} : Variant [] t ↔ t = [] := by
  constructor
  · intro h
    cases h
    rfl
  · rintro rfl
    exact .nil

theorem variant_cons_iff {c : Char} {p t : List Char} :
    Variant (c :: p) t ↔ ∃ u v, t = u ++ v ∧ Stands c u ∧ Variant p v := by
  constructor
  · intro h
    cases h with
    | cons hc hp => exact ⟨_, _, rfl, hc, hp⟩
  · rintro ⟨u, v, rfl, hc, hp⟩
    exact .cons hc hp

theorem Variant.refl (p : List Char) : Variant p p := by
  induction p with
  | nil => exact .nil
  | cons c p ih => exact .cons (stands_self c) ih

theorem Variant.append {p p' t t' : List Char} (h : Variant p t) (h' : Variant p' t') :
    Variant (p ++ p') (t ++ t') := by
  induction h with
  | nil => exact h'
  | cons hc _ ih =>
    rw [List.append_assoc]
    exact .cons hc ih

/-- Anything may follow a pattern with `%` at its end. -/
theorem variant_concat_iff {p t : List Char} :
    Variant (p ++ ['%']) t ↔ ∃ u, u <+: t ∧ Variant p u := by
  induction p generalizing t with
  | nil =>
    constructor
    · intro _
      exact ⟨[], List.nil_prefix, .nil⟩
    · intro _
      exact variant_cons_iff.mpr ⟨t, [], (List.append_nil t).symm, Or.inl rfl, .nil⟩
  | cons c p ih =>
    rw [List.cons_append, variant_cons_iff]
    constructor
    · rintro ⟨u, v, rfl, hc, hv⟩
      obtain ⟨w, hw, hp⟩ := ih.mp hv
      exact ⟨u ++ w, (List.prefix_append_right_inj u).mpr hw, .cons hc hp⟩
    · rintro ⟨w, ⟨rest, rfl⟩, hw⟩
      obtain ⟨u, v, rfl, hc, hp⟩ := variant_cons_iff.mp hw
      exact ⟨u, v ++ rest, List.append_assoc .., hc, ih.mpr ⟨v, List.prefix_append v rest, hp⟩⟩

/-! ### Matching -/

/-- A text matches a pattern if it can be had from it. -/
theorem like_iff (p t : List Char) : like p t = true ↔ Variant p t := by
  induction p generalizing t with
  | nil => rw [like, List.isEmpty_iff, variant_nil_iff]
  | cons c p ih =>
    rw [like, variant_cons_iff]
    by_cases hc : c = '%'
    · rw [if_pos hc, List.any_eq_true]
      constructor
      · rintro ⟨v, hv, hlike⟩
        obtain ⟨u, rfl⟩ := (List.mem_tails v t).mp hv
        exact ⟨u, v, rfl, Or.inl hc, (ih v).mp hlike⟩
      · rintro ⟨u, v, rfl, -, hv⟩
        exact ⟨v, (List.mem_tails _ _).mpr (List.suffix_append u v), (ih v).mpr hv⟩
    · rw [if_neg hc]
      cases t with
      | nil =>
        refine iff_of_false (by simp) ?_
        rintro ⟨u, v, heq, hu, -⟩
        obtain ⟨d, rfl, -⟩ := hu.resolve_left hc
        cases heq
      | cons d t =>
        simp only [List.head?_cons, Option.any_some, List.tail_cons, Bool.and_eq_true,
          Bool.or_eq_true, decide_eq_true_eq, ih]
        constructor
        · rintro ⟨hd, hv⟩
          exact ⟨[d], t, rfl, Or.inr ⟨d, rfl, hd⟩, hv⟩
        · rintro ⟨u, v, heq, hu, hv⟩
          obtain ⟨d', rfl, hd⟩ := hu.resolve_left hc
          cases heq
          exact ⟨hd, hv⟩

/-- What matches a pattern with `%` at its end. -/
theorem like_prefix_iff (p t : List Char) :
    like (p ++ ['%']) t = true ↔ ∃ u, u <+: t ∧ Variant p u := by
  rw [like_iff, variant_concat_iff]

/-! ### Plain patterns -/

/-- A character that stands only for itself. -/
def Plain (c : Char) : Prop := c ≠ '%' ∧ c ≠ '_' ∧ c.isAlpha = false

theorem not_isUpper {c : Char} (h : c.isAlpha = false) : ¬ c.isUpper = true := by
  have halpha : c.isAlpha = (c.isUpper || c.isLower) := rfl
  rw [halpha, Bool.or_eq_false_iff] at h
  rw [h.1]
  decide

theorem Plain.eq {c : Char} (h : Plain c) {t : List Char} (ht : Stands c t) : t = [c] := by
  obtain ⟨hpercent, hunderscore, halpha⟩ := h
  obtain ⟨d, rfl, hd⟩ := ht.resolve_left hpercent
  have hlower : c.toLower = d.toLower := hd.resolve_left hunderscore
  have hd : d.isAlpha = false := by
    rw [← Char.isAlpha_toLower_eq_isAlpha, ← hlower, Char.isAlpha_toLower_eq_isAlpha, halpha]
  rw [Char.toLower_eq_of_not_isUpper (not_isUpper halpha),
    Char.toLower_eq_of_not_isUpper (not_isUpper hd)] at hlower
  rw [hlower]

theorem Variant.eq_of_plain {p t : List Char} (h : Variant p t) (hp : ∀ c ∈ p, Plain c) :
    t = p := by
  induction h with
  | nil => rfl
  | cons hc _ ih =>
    rw [List.forall_mem_cons] at hp
    rw [hp.1.eq hc, ih hp.2]
    rfl

/-- Another character may stand for one that is not plain. -/
theorem exists_stands {c : Char} (h : ¬ Plain c) : ∃ d, d ≠ c ∧ Stands c [d] := by
  by_cases hpercent : c = '%'
  · exact ⟨'_', by rw [hpercent]; decide, Or.inl hpercent⟩
  by_cases hunderscore : c = '_'
  · exact ⟨'%', by rw [hunderscore]; decide, Or.inr ⟨'%', rfl, Or.inl hunderscore⟩⟩
  -- the same letter in the other case
  have halpha : c.isAlpha = true := by
    by_contra hnot
    exact h ⟨hpercent, hunderscore, Bool.eq_false_iff.mpr hnot⟩
  by_cases hupper : c.isUpper = true
  · refine ⟨c.toLower, ?_, Or.inr ⟨_, rfl, Or.inr (Char.toLower_toLower_eq_toLower c).symm⟩⟩
    intro heq
    have hfalse := Char.isUpper_toLower_eq_false c
    rw [heq, hupper] at hfalse
    cases hfalse
  · refine ⟨c.toUpper, ?_, Or.inr ⟨_, rfl, Or.inr (Char.toLower_toUpper_eq_toLower c).symm⟩⟩
    intro heq
    have hsplit : c.isAlpha = (c.isUpper || c.isLower) := rfl
    have hfalse := Char.isLower_toUpper_eq_false c
    rw [heq] at hfalse
    rw [hsplit, hfalse, Bool.or_false] at halpha
    exact hupper halpha

/-- A pattern with a character that is not plain has another variant of its length. -/
theorem exists_variant {p : List Char} (h : ¬ ∀ c ∈ p, Plain c) :
    ∃ t, Variant p t ∧ t.length = p.length ∧ t ≠ p := by
  obtain ⟨c, hc, hplain⟩ : ∃ c ∈ p, ¬ Plain c := by
    by_contra hnone
    exact h fun c hc => by_contra fun hplain => hnone ⟨c, hc, hplain⟩
  obtain ⟨a, b, rfl⟩ := List.append_of_mem hc
  obtain ⟨d, hne, hd⟩ := exists_stands hplain
  refine ⟨a ++ d :: b, (Variant.refl a).append (.cons hd (.refl b)), ?_, ?_⟩
  · rw [List.length_append, List.length_append]
    rfl
  · intro heq
    exact hne (List.cons.inj (List.append_cancel_left heq)).1

end Like
