import Aioscpu.Framework.Precedes
import Mathlib.Data.Finset.Card
import Mathlib.Logic.Relation

/-! # Depth-First Search

  A recursive traversal of a directed graph with one shared visited set. A
  node is marked when its visit begins, and appended to the order when the
  visits of its successors have ended.

  The recursion is bounded by a depth, and a traversal that needs more depth
  is `none`. Three groups of results, for arbitrary graphs:

  - `visitAll_total`: over a finite set of nodes, its size is depth enough.
  - `order_mem_iff`: the order holds each node reached from the roots once.
  - `order_precedes`: a successor stands before its node, unless it leads back
    to the node.
-/

universe u

namespace DepthFirst

open Relation

variable {α : Type u} [DecidableEq α] (succ : α → List α)

/-- The edges of the graph. -/
def Edge (a b : α) : Prop := b ∈ succ a

/-- The marked nodes, and the finished ones in order. -/
structure State (α : Type u) where
  visited : Finset α
  order : List α

/-- Visit a node, with so many nested visits at most. -/
def visit : Nat → α → State α → Option (State α)
  | 0, _, _ => none
  | depth + 1, a, s =>
    if a ∈ s.visited then some s
    else
      match (succ a).foldlM (fun s b => visit depth b s)
        { s with visited := insert a s.visited } with
      | none => none
      | some s => some { s with order := s.order ++ [a] }

/-- Visit the nodes of a list in turn. -/
def visitAll (depth : Nat) (nodes : List α) (s : State α) : Option (State α) :=
  nodes.foldlM (fun s a => visit succ depth a s) s

@[simp] theorem visitAll_nil (depth : Nat) (s : State α) :
    visitAll succ depth [] s = some s := rfl

theorem visitAll_cons (depth : Nat) (a : α) (nodes : List α) (s : State α) :
    visitAll succ depth (a :: nodes) s = (visit succ depth a s).bind (visitAll succ depth nodes) :=
  rfl

theorem visit_visited (depth : Nat) {a : α} {s : State α} (h : a ∈ s.visited) :
    visit succ (depth + 1) a s = some s := by
  simp only [visit, h, if_true]

theorem visit_fresh (depth : Nat) {a : α} {s : State α} (h : a ∉ s.visited) :
    visit succ (depth + 1) a s =
      (visitAll succ depth (succ a) { s with visited := insert a s.visited }).map
        fun s => { s with order := s.order ++ [a] } := by
  simp only [visit, h, if_false, visitAll]
  split
  · next hnone => rw [hnone]; rfl
  · next s' hsome => rw [hsome]; rfl

/-! ### What a traversal does -/

/-- Visits of the `roots` lead from `s` to `s'` and finish the nodes `l`. -/
structure Grows (roots : List α) (s s' : State α) (l : List α) : Prop where
  order : s'.order = s.order ++ l
  visited : s'.visited = s.visited ∪ l.toFinset
  nodup : l.Nodup
  fresh : ∀ x ∈ l, x ∉ s.visited
  /-- The roots are marked, and so are the successors of what is finished. -/
  marked : ∀ a ∈ roots, a ∈ s'.visited
  closed : ∀ x ∈ l, ∀ y ∈ succ x, y ∈ s'.visited
  reached : ∀ x ∈ l, ∃ a ∈ roots, ReflTransGen (Edge succ) a x
  /-- If all unfinished nodes lead to the roots, a successor comes before its
      node unless it leads back to it. -/
  before : (∀ g ∈ s.visited, g ∉ s.order → ∀ a ∈ roots, ReflTransGen (Edge succ) g a) →
    ∀ x ∈ l, ∀ y ∈ succ x, ¬ TransGen (Edge succ) y x → Precedes s'.order y x

variable {succ}

theorem Grows.refl {roots : List α} {s : State α} (h : ∀ a ∈ roots, a ∈ s.visited) :
    Grows succ roots s s [] where
  order := by simp
  visited := by simp
  nodup := List.nodup_nil
  fresh := by simp
  marked := h
  closed := by simp
  reached := by simp
  before := by simp

/-- A node that a traversal marks is finished by it. -/
theorem Grows.unfinished {roots : List α} {s s' : State α} {l : List α}
    (h : Grows succ roots s s' l) {g : α} (hg : g ∈ s'.visited) (hout : g ∉ s'.order) :
    g ∈ s.visited ∧ g ∉ s.order := by
  rw [h.order, List.mem_append, not_or] at hout
  rw [h.visited, Finset.mem_union, List.mem_toFinset] at hg
  exact ⟨hg.resolve_right hout.2, hout.1⟩

/-- One traversal after another. -/
theorem Grows.append {roots roots' : List α} {s s' s'' : State α} {l l' : List α}
    (h : Grows succ roots s s' l) (h' : Grows succ roots' s' s'' l') :
    Grows succ (roots ++ roots') s s'' (l ++ l') := by
  have hmono : ∀ x ∈ s'.visited, x ∈ s''.visited := by
    intro x hx
    rw [h'.visited]
    exact Finset.mem_union_left _ hx
  have hnew : ∀ x ∈ l, x ∈ s'.visited := by
    intro x hx
    rw [h.visited]
    exact Finset.mem_union_right _ (List.mem_toFinset.mpr hx)
  refine
    { order := by rw [h'.order, h.order, List.append_assoc]
      visited := by rw [h'.visited, h.visited, List.toFinset_append, Finset.union_assoc]
      nodup := ?_
      fresh := ?_
      marked := ?_
      closed := ?_
      reached := ?_
      before := ?_ }
  · -- what the first has finished is marked when the second begins
    refine h.nodup.append h'.nodup ?_
    intro x hx hx'
    exact h'.fresh x hx' (hnew x hx)
  · intro x hx hvis
    rcases List.mem_append.mp hx with hx | hx
    · exact h.fresh x hx hvis
    · exact h'.fresh x hx (by rw [h.visited]; exact Finset.mem_union_left _ hvis)
  · intro a ha
    rcases List.mem_append.mp ha with ha | ha
    · exact hmono a (h.marked a ha)
    · exact h'.marked a ha
  · intro x hx y hy
    rcases List.mem_append.mp hx with hx | hx
    · exact hmono y (h.closed x hx y hy)
    · exact h'.closed x hx y hy
  · intro x hx
    rcases List.mem_append.mp hx with hx | hx
    · obtain ⟨a, ha, hreach⟩ := h.reached x hx
      exact ⟨a, List.mem_append_left _ ha, hreach⟩
    · obtain ⟨a, ha, hreach⟩ := h'.reached x hx
      exact ⟨a, List.mem_append_right _ ha, hreach⟩
  · intro hgrey x hx y hy hback
    rcases List.mem_append.mp hx with hx | hx
    · have hprec := h.before (fun g hg hout a ha => hgrey g hg hout a (List.mem_append_left _ ha))
        x hx y hy hback
      rw [h'.order]
      exact Precedes.append_iff.mpr (Or.inl hprec)
    · -- the unfinished nodes are those of the first traversal
      refine h'.before ?_ x hx y hy hback
      intro g hg hout a ha
      obtain ⟨hg', hout'⟩ := h.unfinished hg hout
      exact hgrey g hg' hout' a (List.mem_append_right _ ha)

/-- The visit of a node, from those of its successors. -/
theorem Grows.node {a : α} {s s' : State α} {l : List α} (ha : a ∉ s.visited)
    (h : Grows succ (succ a) { s with visited := insert a s.visited } s' l) :
    Grows succ [a] s { s' with order := s'.order ++ [a] } (l ++ [a]) := by
  have hout : a ∉ l := fun hmem => h.fresh a hmem (Finset.mem_insert_self _ _)
  have hvisited : s'.visited = s.visited ∪ (l ++ [a]).toFinset := by
    rw [h.visited]
    ext x
    simp only [Finset.mem_union, Finset.mem_insert, List.mem_toFinset, List.mem_append,
      List.mem_singleton]
    tauto
  have hmarked : a ∈ s'.visited := by
    rw [h.visited]
    exact Finset.mem_union_left _ (Finset.mem_insert_self _ _)
  refine
    { order := by simp only [h.order, List.append_assoc]
      visited := hvisited
      nodup := ?_
      fresh := ?_
      marked := by simpa using hmarked
      closed := ?_
      reached := ?_
      before := ?_ }
  · refine h.nodup.append (List.nodup_singleton a) ?_
    intro x hx hxa
    exact hout (List.mem_singleton.mp hxa ▸ hx)
  · intro x hx hvis
    rcases List.mem_append.mp hx with hx | hx
    · exact h.fresh x hx (Finset.mem_insert_of_mem hvis)
    · exact ha (List.mem_singleton.mp hx ▸ hvis)
  · intro x hx y hy
    rcases List.mem_append.mp hx with hx | hx
    · exact h.closed x hx y hy
    · rw [List.mem_singleton.mp hx] at hy
      exact h.marked y hy
  · intro x hx
    refine ⟨a, List.mem_singleton_self a, ?_⟩
    rcases List.mem_append.mp hx with hx | hx
    · obtain ⟨b, hb, hreach⟩ := h.reached x hx
      exact ReflTransGen.head hb hreach
    · rw [List.mem_singleton.mp hx]
  · intro hgrey x hx y hy hback
    have hgrey_a : ∀ g ∈ s.visited, g ∉ s.order → ReflTransGen (Edge succ) g a :=
      fun g hg hout => hgrey g hg hout a (List.mem_singleton_self a)
    rcases List.mem_append.mp hx with hx | hx
    · -- below `a`, the node itself is unfinished and leads to its successors
      refine Precedes.append_iff.mpr (Or.inl (h.before ?_ x hx y hy hback))
      intro g hg hout b hb
      rcases Finset.mem_insert.mp hg with rfl | hg
      · exact ReflTransGen.single hb
      · exact (hgrey_a g hg hout).tail hb
    · obtain rfl := List.mem_singleton.mp hx
      by_cases hfin : y ∈ s'.order
      · exact Precedes.append_iff.mpr (Or.inr (Or.inl ⟨hfin, List.mem_singleton_self _⟩))
      · -- an unfinished successor is on the path to `a`, so it leads back
        obtain ⟨hg, hout⟩ := h.unfinished (h.marked y hy) hfin
        exfalso
        rcases Finset.mem_insert.mp hg with rfl | hg
        · exact hback (TransGen.single hy)
        · rcases reflTransGen_iff_eq_or_transGen.mp (hgrey_a y hg hout) with heq | htrans
          · exact ha (heq ▸ hg)
          · exact hback htrans

theorem visitAll_grows_of {depth : Nat}
    (hvisit : ∀ a s s', visit succ depth a s = some s' → ∃ l, Grows succ [a] s s' l)
    {nodes : List α} {s s' : State α} (h : visitAll succ depth nodes s = some s') :
    ∃ l, Grows succ nodes s s' l := by
  induction nodes generalizing s with
  | nil =>
    obtain rfl := Option.some.inj h
    exact ⟨[], Grows.refl (by simp)⟩
  | cons a nodes ih =>
    rw [visitAll_cons, Option.bind_eq_some_iff] at h
    obtain ⟨t, hfirst, hrest⟩ := h
    obtain ⟨l, hl⟩ := hvisit a s t hfirst
    obtain ⟨l', hl'⟩ := ih hrest
    exact ⟨l ++ l', hl.append hl'⟩

theorem visit_grows {depth : Nat} {a : α} {s s' : State α}
    (h : visit succ depth a s = some s') : ∃ l, Grows succ [a] s s' l := by
  induction depth generalizing a s s' with
  | zero => cases h
  | succ depth ih =>
    by_cases ha : a ∈ s.visited
    · rw [visit_visited succ depth ha] at h
      obtain rfl := Option.some.inj h
      exact ⟨[], Grows.refl (by simpa using ha)⟩
    · rw [visit_fresh succ depth ha, Option.map_eq_some_iff] at h
      obtain ⟨t, hsuccs, rfl⟩ := h
      obtain ⟨l, hl⟩ := visitAll_grows_of (fun _ _ _ => ih) hsuccs
      exact ⟨l ++ [a], hl.node ha⟩

/-- What the visits of a list of nodes do. -/
theorem visitAll_grows {depth : Nat} {nodes : List α} {s s' : State α}
    (h : visitAll succ depth nodes s = some s') : ∃ l, Grows succ nodes s s' l :=
  visitAll_grows_of (fun _ _ _ => visit_grows) h

/-! ### Depth -/

/-- More depth changes nothing. -/
theorem visit_mono {depth depth' : Nat} (hle : depth ≤ depth') {a : α} {s s' : State α}
    (h : visit succ depth a s = some s') : visit succ depth' a s = some s' := by
  induction depth generalizing depth' a s s' with
  | zero => cases h
  | succ depth ih =>
    obtain ⟨depth', rfl⟩ : ∃ d, depth' = d + 1 := ⟨depth' - 1, by omega⟩
    by_cases ha : a ∈ s.visited
    · rwa [visit_visited succ depth ha, ← visit_visited succ depth' ha] at h
    · rw [visit_fresh succ depth ha, Option.map_eq_some_iff] at h
      obtain ⟨t, hsuccs, rfl⟩ := h
      rw [visit_fresh succ depth' ha, Option.map_eq_some_iff]
      refine ⟨t, ?_, rfl⟩
      -- the visits of the successors, one by one
      generalize { s with visited := insert a s.visited } = s₁ at hsuccs
      generalize succ a = nodes at hsuccs
      induction nodes generalizing s₁ with
      | nil => exact hsuccs
      | cons b nodes ihnodes =>
        rw [visitAll_cons, Option.bind_eq_some_iff] at hsuccs ⊢
        obtain ⟨s₂, hfirst, hrest⟩ := hsuccs
        exact ⟨s₂, ih (by omega) hfirst, ihnodes s₂ hrest⟩

theorem visitAll_mono {depth depth' : Nat} (hle : depth ≤ depth') {nodes : List α}
    {s s' : State α} (h : visitAll succ depth nodes s = some s') :
    visitAll succ depth' nodes s = some s' := by
  induction nodes generalizing s with
  | nil => exact h
  | cons a nodes ih =>
    rw [visitAll_cons, Option.bind_eq_some_iff] at h ⊢
    obtain ⟨t, hfirst, hrest⟩ := h
    exact ⟨t, visit_mono hle hfirst, ih hrest⟩

theorem visitAll_total_of {nodes : Finset α} {depth : Nat}
    (hvisit : ∀ a ∈ nodes, ∀ s : State α, (nodes \ s.visited).card < depth →
      ∃ s', visit succ depth a s = some s')
    {roots : List α} (hroots : ∀ a ∈ roots, a ∈ nodes) {s : State α}
    (hcard : (nodes \ s.visited).card < depth) :
    ∃ s', visitAll succ depth roots s = some s' := by
  induction roots generalizing s with
  | nil => exact ⟨s, rfl⟩
  | cons a roots ih =>
    obtain ⟨t, hfirst⟩ := hvisit a (hroots a List.mem_cons_self) s hcard
    obtain ⟨l, hl⟩ := visit_grows hfirst
    -- marks are never taken back
    have hcard' : (nodes \ t.visited).card < depth := by
      refine lt_of_le_of_lt (Finset.card_le_card ?_) hcard
      rw [hl.visited]
      exact Finset.sdiff_subset_sdiff (Finset.Subset.refl _) Finset.subset_union_left
    obtain ⟨s', hrest⟩ := ih (fun b hb => hroots b (List.mem_cons_of_mem a hb)) hcard'
    exact ⟨s', by rw [visitAll_cons, hfirst]; exact hrest⟩

section Total

-- a finite set of nodes that no edge leaves
variable {nodes : Finset α} (hclosed : ∀ a ∈ nodes, ∀ b ∈ succ a, b ∈ nodes)
include hclosed

theorem visit_total {depth : Nat} {a : α} (ha : a ∈ nodes) {s : State α}
    (hcard : (nodes \ s.visited).card < depth) : ∃ s', visit succ depth a s = some s' := by
  induction depth generalizing a s with
  | zero => omega
  | succ depth ih =>
    by_cases hvis : a ∈ s.visited
    · exact ⟨s, visit_visited succ depth hvis⟩
    · -- marking `a` leaves fewer nodes to mark
      have hlt : (nodes \ insert a s.visited).card < (nodes \ s.visited).card := by
        apply Finset.card_lt_card
        rw [Finset.ssubset_iff_of_subset
          (Finset.sdiff_subset_sdiff (Finset.Subset.refl _) (Finset.subset_insert _ _))]
        exact ⟨a, by simp [ha, hvis], by simp⟩
      have hcard' : (nodes \ ({ s with visited := insert a s.visited } : State α).visited).card <
          depth := by
        show (nodes \ insert a s.visited).card < depth
        omega
      obtain ⟨t, ht⟩ := visitAll_total_of (fun b hb s' => ih hb) (hclosed a ha) hcard'
      exact ⟨_, by rw [visit_fresh succ depth hvis, ht]; rfl⟩

/-- A depth above the number of nodes is enough. -/
theorem visitAll_total {depth : Nat} {roots : List α} (hroots : ∀ a ∈ roots, a ∈ nodes)
    {s : State α} (hcard : (nodes \ s.visited).card < depth) :
    ∃ s', visitAll succ depth roots s = some s' :=
  visitAll_total_of (fun _ ha _ => visit_total hclosed ha) hroots hcard

end Total

/-! ### The order of a whole traversal -/

/-- Nothing is marked, nothing is finished. -/
def start : State α := ⟨∅, []⟩

variable {depth : Nat} {roots : List α} {s : State α}

theorem order_nodup (h : visitAll succ depth roots start = some s) : s.order.Nodup := by
  obtain ⟨l, hl⟩ := visitAll_grows h
  rw [hl.order]
  exact hl.nodup

/-- **The order holds exactly the nodes that are reached from the roots.** -/
theorem order_mem_iff (h : visitAll succ depth roots start = some s) (x : α) :
    x ∈ s.order ↔ ∃ a ∈ roots, ReflTransGen (Edge succ) a x := by
  obtain ⟨l, hl⟩ := visitAll_grows h
  have horder : s.order = l := hl.order
  have hvisited : ∀ y, y ∈ s.visited ↔ y ∈ l := by
    intro y
    rw [hl.visited]
    simp [start]
  rw [horder]
  constructor
  · exact hl.reached x
  · rintro ⟨a, ha, hreach⟩
    induction hreach with
    | refl => exact (hvisited a).mp (hl.marked a ha)
    | tail _ hedge ih => exact (hvisited _).mp (hl.closed _ ih _ hedge)

/-- **A successor stands before its node**, unless it leads back to it. -/
theorem order_precedes (h : visitAll succ depth roots start = some s) {a b : α}
    (ha : a ∈ s.order) (hb : b ∈ succ a) (hback : ¬ TransGen (Edge succ) b a) :
    Precedes s.order b a := by
  obtain ⟨l, hl⟩ := visitAll_grows h
  rw [show s.order = l from hl.order] at ha
  exact hl.before (by simp [start]) a ha b hb hback

end DepthFirst
