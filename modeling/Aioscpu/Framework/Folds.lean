import Mathlib.Data.List.Induction

/-! # Folds that May Fail

  A loop over a list whose body may raise is a monadic fold in `Option`. The
  rule below packages the induction over such a loop.
-/

universe u v

variable {σ : Type u} {α : Type v}

/-- One more round of a loop. -/
theorem foldlM_concat_eq_some {f : σ → α → Option σ} {s t : σ} {l : List α} {a : α} :
    (l ++ [a]).foldlM f s = some t ↔ ∃ u, l.foldlM f s = some u ∧ f u a = some t := by
  rw [List.foldlM_append]
  show (l.foldlM f s).bind (fun u => [a].foldlM f u) = some t ↔ _
  rw [Option.bind_eq_some_iff]
  simp

/-- **Induction over the rounds of a loop**: what holds before and survives every round holds
    when the loop has ended. -/
theorem foldlM_induction {f : σ → α → Option σ} {P : List α → σ → Prop} {s t : σ} {l : List α}
    (h : l.foldlM f s = some t) (hnil : P [] s)
    (hround : ∀ pre a u u', pre ++ [a] <+: l → P pre u → f u a = some u' → P (pre ++ [a]) u') :
    P l t := by
  induction l using List.reverseRecOn generalizing t with
  | nil =>
    obtain rfl := Option.some.inj h
    exact hnil
  | append_singleton l a ih =>
    obtain ⟨u, hbefore, hlast⟩ := foldlM_concat_eq_some.mp h
    refine hround l a u t (List.prefix_refl _) (ih hbefore fun pre b v v' hpre => ?_) hlast
    exact hround pre b v v' (hpre.trans (List.prefix_append _ _))

/-- A loop ends when every round does. -/
theorem exists_foldlM {f : σ → α → Option σ} {l : List α}
    (h : ∀ a ∈ l, ∀ s, ∃ t, f s a = some t) (s : σ) : ∃ t, l.foldlM f s = some t := by
  induction l generalizing s with
  | nil => exact ⟨s, rfl⟩
  | cons a l ih =>
    obtain ⟨t, hround⟩ := h a List.mem_cons_self s
    obtain ⟨u, hrest⟩ := ih (fun b hb => h b (List.mem_cons_of_mem a hb)) t
    refine ⟨u, ?_⟩
    rw [List.foldlM_cons, hround]
    exact hrest
