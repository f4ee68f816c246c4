import Mathlib.Data.List.Perm.Basic
import Mathlib.Order.Lattice
import Mathlib.Tactic.Common

/-! # Binary Heaps on Lists with Comparisons that may Raise

  The heap queue of Python's standard library, on a list: `heappush` bubbles
  the new last entry up, `heappop` moves the last entry to the root, lets the
  smaller children rise past it down to a leaf and bubbles it up again, and
  `heapify` sifts the inner positions from the last one back to the root.

  Entries move by exchanges only. A comparison `lt` may raise (`.error e`);
  the operation then ends there and leaves the list as the exchanges so far
  have made it. So each operation answers with its outcome and its list.

  Three groups of results:

  - whatever the comparisons do, the list stays a permutation;
  - where `lt` decides a linear order of keys (`Decides`), nothing raises,
    the list stays a heap and the root is least;
  - where it raises for equal keys at most (`Follows`), a push leaves a heap in
    any case, and a pop leaves one if it does not raise.
-/

universe u v w

namespace Heapq

variable {α : Type u} {ε : Type v}

/-! ## Section 1: Operations -/

/-- The parent of a position. Position 0 is no position's child. -/
def parent (i : Nat) : Nat := (i - 1) / 2

/-- Exchange the entries at `i` and `j`. -/
def swap (h : List α) (i j : Nat) : List α :=
  match h[i]?, h[j]? with
  | some x, some y => (h.set i y).set j x
  | _, _ => h

/-- The loop of `_siftdown`. The first number bounds the iterations: the
    position itself is enough, since the parent of `pos` is below it. -/
def siftdownLoop (lt : α → α → Except ε Bool) (startpos : Nat) :
    Nat → Nat → List α → Except ε Unit × List α
  | 0, _, h => (.ok (), h)
  | fuel + 1, pos, h =>
    if pos ≤ startpos then (.ok (), h)
    else
      match h[pos]?, h[parent pos]? with
      | some newitem, some parentitem =>
        match lt newitem parentitem with
        | .error e => (.error e, h)
        | .ok false => (.ok (), h)
        | .ok true => siftdownLoop lt startpos fuel (parent pos) (swap h pos (parent pos))
      | _, _ => (.ok (), h)

/-- `_siftdown(heap, startpos, pos)`: bubble the entry at `pos` up, no
    further than `startpos`. -/
def siftdown (lt : α → α → Except ε Bool) (startpos pos : Nat) (h : List α) :
    Except ε Unit × List α :=
  siftdownLoop lt startpos pos pos h

/-- The loop of `_siftup`: the smaller child of `pos` rises until `pos` is a
    leaf. The first number bounds the iterations; the length is enough. -/
def siftupLoop (lt : α → α → Except ε Bool) (startpos : Nat) :
    Nat → Nat → List α → Except ε Unit × List α
  | 0, pos, h => siftdown lt startpos pos h
  | fuel + 1, pos, h =>
    match h[2 * pos + 1]?, h[2 * pos + 2]? with
    | none, _ => siftdown lt startpos pos h
    | some _, none => siftupLoop lt startpos fuel (2 * pos + 1) (swap h pos (2 * pos + 1))
    | some left, some right =>
      match lt left right with
      | .error e => (.error e, h)
      | .ok true => siftupLoop lt startpos fuel (2 * pos + 1) (swap h pos (2 * pos + 1))
      | .ok false => siftupLoop lt startpos fuel (2 * pos + 2) (swap h pos (2 * pos + 2))

/-- `_siftup(heap, pos)`. -/
def siftup (lt : α → α → Except ε Bool) (pos : Nat) (h : List α) : Except ε Unit × List α :=
  siftupLoop lt pos h.length pos h

/-- `heappush(heap, item)`. -/
def heappush (lt : α → α → Except ε Bool) (h : List α) (item : α) : Except ε Unit × List α :=
  siftdown lt 0 h.length (h ++ [item])

/-- `heappop(heap)`; `none` is the `IndexError` of an empty heap. When a
    comparison raises, the old root has left the list and is not returned. -/
def heappop (lt : α → α → Except ε Bool) : List α → Option (Except ε α × List α)
  | [] => none
  | root :: rest =>
    match rest.getLast? with
    | none => some (.ok root, [])
    | some last =>
      match siftup lt 0 (last :: rest.dropLast) with
      | (.ok (), h) => some (.ok root, h)
      | (.error e, h) => some (.error e, h)

/-- The loop of `heapify`: sift the positions below the first number, the
    last of them first. -/
def heapifyLoop (lt : α → α → Except ε Bool) : Nat → List α → Except ε Unit × List α
  | 0, h => (.ok (), h)
  | i + 1, h =>
    match siftup lt i h with
    | (.error e, h') => (.error e, h')
    | (.ok (), h') => heapifyLoop lt i h'

/-- `heapify(heap)`. -/
def heapify (lt : α → α → Except ε Bool) (h : List α) : Except ε Unit × List α :=
  heapifyLoop lt (h.length / 2) h

/-! ## Section 2: The list stays a permutation -/

@[simp] theorem length_swap (h : List α) (i j : Nat) : (swap h i j).length = h.length := by
  unfold swap
  split <;> simp

theorem swap_perm (h : List α) (i j : Nat) : (swap h i j).Perm h := by
  unfold swap
  split
  · next x y hx hy =>
    obtain ⟨hi, rfl⟩ := List.getElem?_eq_some_iff.mp hx
    obtain ⟨hj, rfl⟩ := List.getElem?_eq_some_iff.mp hy
    exact List.set_set_perm hi hj
  · exact List.Perm.refl h

theorem siftdownLoop_perm (lt : α → α → Except ε Bool) (startpos fuel pos : Nat) (h : List α) :
    (siftdownLoop lt startpos fuel pos h).2.Perm h := by
  induction fuel generalizing pos h with
  | zero => exact List.Perm.refl h
  | succ fuel ih =>
    unfold siftdownLoop
    split
    · exact List.Perm.refl h
    · split
      · split
        · exact List.Perm.refl h
        · exact List.Perm.refl h
        · exact (ih _ _).trans (swap_perm h _ _)
      · exact List.Perm.refl h

theorem siftupLoop_perm (lt : α → α → Except ε Bool) (startpos fuel pos : Nat) (h : List α) :
    (siftupLoop lt startpos fuel pos h).2.Perm h := by
  induction fuel generalizing pos h with
  | zero => exact siftdownLoop_perm lt startpos pos pos h
  | succ fuel ih =>
    unfold siftupLoop
    split
    · exact siftdownLoop_perm lt startpos pos pos h
    · exact (ih _ _).trans (swap_perm h _ _)
    · split
      · exact List.Perm.refl h
      · exact (ih _ _).trans (swap_perm h _ _)
      · exact (ih _ _).trans (swap_perm h _ _)

theorem heappush_perm (lt : α → α → Except ε Bool) (h : List α) (item : α) :
    (heappush lt h item).2.Perm (item :: h) :=
  (siftdownLoop_perm lt 0 h.length h.length (h ++ [item])).trans
    (List.perm_append_singleton item h)

/-- The list `heappop` sifts holds the entries after the root. -/
theorem cons_dropLast_perm {rest : List α} {last : α} (hlast : rest.getLast? = some last) :
    (last :: rest.dropLast).Perm rest := by
  have hrest : rest.dropLast ++ [last] = rest := List.dropLast_append_getLast? last hlast
  conv_rhs => rw [← hrest]
  exact (List.perm_append_singleton last _).symm

/-- A pop takes the root away, also when a comparison raises. -/
theorem heappop_perm {lt : α → α → Except ε Bool} {root : α} {rest h : List α}
    {r : Except ε α} (hpop : heappop lt (root :: rest) = some (r, h)) :
    h.Perm rest ∧ ∀ x, r = .ok x → x = root := by
  unfold heappop at hpop
  cases hlast : rest.getLast? with
  | none =>
    obtain rfl := List.getLast?_eq_none_iff.mp hlast
    simp only [List.getLast?_nil, Option.some.injEq, Prod.mk.injEq] at hpop
    obtain ⟨rfl, rfl⟩ := hpop
    exact ⟨List.Perm.refl _, fun x hx => (Except.ok.inj hx).symm⟩
  | some last =>
    have hperm := cons_dropLast_perm hlast
    have hsift := siftupLoop_perm lt 0 (last :: rest.dropLast).length 0 (last :: rest.dropLast)
    simp only [hlast, siftup] at hpop
    generalize siftupLoop lt 0 (last :: rest.dropLast).length 0 (last :: rest.dropLast) = r'
      at hpop hsift
    obtain ⟨_ | _, h'⟩ := r'
    · simp only [Option.some.injEq, Prod.mk.injEq] at hpop
      obtain ⟨rfl, rfl⟩ := hpop
      exact ⟨hsift.trans hperm, fun x hx => by cases hx⟩
    · simp only [Option.some.injEq, Prod.mk.injEq] at hpop
      obtain ⟨rfl, rfl⟩ := hpop
      exact ⟨hsift.trans hperm, fun x hx => (Except.ok.inj hx).symm⟩

theorem heapifyLoop_perm (lt : α → α → Except ε Bool) (i : Nat) (h : List α) :
    (heapifyLoop lt i h).2.Perm h := by
  induction i generalizing h with
  | zero => exact List.Perm.refl h
  | succ i ih =>
    have hsift := siftupLoop_perm lt i h.length i h
    unfold heapifyLoop siftup
    generalize siftupLoop lt i h.length i h = r at hsift
    obtain ⟨_ | _, h'⟩ := r
    · exact hsift
    · exact (ih h').trans hsift

theorem heapify_perm (lt : α → α → Except ε Bool) (h : List α) : (heapify lt h).2.Perm h :=
  heapifyLoop_perm lt (h.length / 2) h

/-- A pop answers on every heap that is not empty. -/
theorem heappop_cons (lt : α → α → Except ε Bool) (root : α) (rest : List α) :
    ∃ r h, heappop lt (root :: rest) = some (r, h) := by
  cases hlast : rest.getLast? with
  | none => exact ⟨.ok root, [], by simp only [heappop, hlast]⟩
  | some last =>
    cases hsift : siftup lt 0 (last :: rest.dropLast) with
    | mk r h =>
      cases r with
      | error e => exact ⟨.error e, h, by simp only [heappop, hlast, hsift]⟩
      | ok _ => exact ⟨.ok root, h, by simp only [heappop, hlast, hsift]⟩

/-! ## Section 3: Comparisons that decide an order of keys -/

section order

variable {κ : Type w} [LinearOrder κ] (key : α → κ)

/-- On the entries of `h` no comparison raises, and `lt` decides the order of
    the keys. -/
def Decides (lt : α → α → Except ε Bool) (h : List α) : Prop :=
  ∀ a ∈ h, ∀ b ∈ h, lt a b = .ok (decide (key a < key b))

variable {key}

theorem Decides.perm {lt : α → α → Except ε Bool} {h h' : List α}
    (hd : Decides key lt h) (hp : h'.Perm h) : Decides key lt h' :=
  fun a ha b hb => hd a (hp.mem_iff.mp ha) b (hp.mem_iff.mp hb)

/-- The comparison of two positions. -/
theorem Decides.lt_eq {lt : α → α → Except ε Bool} {h : List α} (hd : Decides key lt h)
    {i j : Nat} {x y : α} (hx : h[i]? = some x) (hy : h[j]? = some y) :
    lt x y = .ok (decide (key x < key y)) :=
  hd x (List.mem_of_getElem? hx) y (List.mem_of_getElem? hy)

variable (key)

/-- On the entries of `h`, `lt` decides the order of the keys, but it may raise for
    two entries of the same key. -/
def Follows (lt : α → α → Except ε Bool) (h : List α) : Prop :=
  ∀ a ∈ h, ∀ b ∈ h,
    lt a b = .ok (decide (key a < key b)) ∨ key a = key b ∧ ∃ e, lt a b = .error e

variable {key}

theorem Decides.follows {lt : α → α → Except ε Bool} {h : List α} (hd : Decides key lt h) :
    Follows key lt h :=
  fun a ha b hb => .inl (hd a ha b hb)

theorem Follows.perm {lt : α → α → Except ε Bool} {h h' : List α}
    (hf : Follows key lt h) (hp : h'.Perm h) : Follows key lt h' :=
  fun a ha b hb => hf a (hp.mem_iff.mp ha) b (hp.mem_iff.mp hb)

theorem Follows.lt_eq {lt : α → α → Except ε Bool} {h : List α} (hf : Follows key lt h)
    {i j : Nat} {x y : α} (hx : h[i]? = some x) (hy : h[j]? = some y) :
    lt x y = .ok (decide (key x < key y)) ∨ key x = key y ∧ ∃ e, lt x y = .error e :=
  hf x (List.mem_of_getElem? hx) y (List.mem_of_getElem? hy)

variable (key)

/-- The entry at `j` is not above the entry at `i`, where both exist. -/
def Le (h : List α) (j i : Nat) : Prop :=
  ∀ x ∈ h[j]?, ∀ y ∈ h[i]?, key x ≤ key y

/-- Every edge of the tree whose parent is at or after `s` is in order. -/
def HeapFrom (s : Nat) (h : List α) : Prop :=
  ∀ i, 0 < i → s ≤ parent i → Le key h (parent i) i

/-- The heap invariant. -/
def IsHeap (h : List α) : Prop := HeapFrom key 0 h

variable {key}

theorem isHeap_nil : IsHeap key ([] : List α) := by
  intro i _ _ x hx
  simp at hx

/-- The root of a heap is least. -/
theorem IsHeap.root_le {root : α} {rest : List α} (hh : IsHeap key (root :: rest)) :
    ∀ x ∈ root :: rest, key root ≤ key x := by
  have hidx : ∀ (i : Nat) (x : α), (root :: rest)[i]? = some x → key root ≤ key x := by
    intro i
    induction i using Nat.strongRecOn with
    | ind i ih =>
      intro x hx
      rcases Nat.eq_zero_or_pos i with rfl | hpos
      · simp only [List.getElem?_cons_zero, Option.some.injEq] at hx
        exact hx ▸ le_refl _
      · have hlt : parent i < i := by unfold parent; omega
        have hi := (List.getElem?_eq_some_iff.mp hx).1
        have hp : (root :: rest)[parent i]? = some (root :: rest)[parent i] :=
          List.getElem?_eq_getElem (by omega)
        exact le_trans (ih _ hlt _ hp) (hh i hpos (Nat.zero_le _) _ hp _ hx)
  intro x hx
  obtain ⟨i, hi⟩ := List.mem_iff_getElem?.mp hx
  exact hidx i x hi

theorem getElem?_swap {h : List α} {i j : Nat} (hi : i < h.length) (hj : j < h.length)
    (k : Nat) :
    (swap h i j)[k]? = if k = i then h[j]? else if k = j then h[i]? else h[k]? := by
  unfold swap
  rw [List.getElem?_eq_getElem hi, List.getElem?_eq_getElem hj]
  simp only [List.getElem?_set, List.length_set]
  grind

/-! ### Paths from the start position -/

/-- `p` lies in the subtree below `s`. -/
inductive Below (s : Nat) : Nat → Prop where
  | refl : Below s s
  | child : ∀ {p c}, Below s p → 0 < c → parent c = p → Below s c

theorem Below.le {s p : Nat} (hb : Below s p) : s ≤ p := by
  induction hb with
  | refl => exact Nat.le_refl s
  | child _ hpos hpar ih => unfold parent at hpar; omega

theorem Below.up {s p : Nat} (hb : Below s p) (hlt : s < p) : Below s (parent p) := by
  cases hb with
  | refl => exact absurd hlt (Nat.lt_irrefl s)
  | child hb' _ hpar => exact hpar ▸ hb'

theorem below_zero (p : Nat) : Below 0 p := by
  induction p using Nat.strongRecOn with
  | ind p ih =>
    rcases Nat.eq_zero_or_pos p with rfl | hpos
    · exact .refl
    · exact .child (ih (parent p) (by unfold parent; omega)) hpos rfl

/-! ### Bubbling up -/

variable (key)

/-- What `siftdown` needs: only the edge into `p` may be out of order, and the
    children of `p` are not below its parent. -/
structure UpReady (s p : Nat) (h : List α) : Prop where
  lt_length : p < h.length
  below : Below s p
  edges : ∀ i, 0 < i → s ≤ parent i → i ≠ p → Le key h (parent i) i
  grand : s < p → ∀ c, 0 < c → parent c = p → Le key h (parent p) c

variable {key}

/-- One exchange of `siftdown` moves the possible disorder to the parent. -/
theorem UpReady.move {s p : Nat} {h : List α} (hr : UpReady key s p h) (hlt : s < p)
    {x y : α} (hx : h[p]? = some x) (hy : h[parent p]? = some y) (hxy : key x < key y) :
    UpReady key s (parent p) (swap h p (parent p)) := by
  have hp := hr.lt_length
  have hq : parent p < p := by unfold parent; omega
  have hql : parent p < h.length := by omega
  refine ⟨by simpa using hql, hr.below.up hlt, ?_, ?_⟩
  · intro i hi hs hne a ha b hb
    rw [getElem?_swap hp hql] at ha hb
    by_cases hip : i = p
    · -- the exchanged edge: the smaller key is now the parent
      subst hip
      rw [if_neg (by omega), if_pos rfl, hx] at ha
      rw [if_pos rfl, hy] at hb
      obtain rfl := Option.some.inj ha
      obtain rfl := Option.some.inj hb
      exact le_of_lt hxy
    · rw [if_neg hip, if_neg hne] at hb
      by_cases hpi : parent i = p
      · rw [if_pos hpi] at ha
        exact hr.grand hlt i hi hpi a ha b hb
      · rw [if_neg hpi] at ha
        have hup := hr.edges i hi hs hip
        split at ha
        · -- a sibling of `p`: it is not below the old parent
          next heq =>
          rw [hx] at ha
          obtain rfl := Option.some.inj ha
          exact le_trans (le_of_lt hxy) (hup y (heq ▸ hy) b hb)
        · exact hup a ha b hb
  · intro hslt c hc hpc a ha b hb
    have hsq := ((hr.below.up hlt).up hslt).le
    have hqq : parent (parent p) < parent p := by unfold parent at *; omega
    rw [getElem?_swap hp hql, if_neg (by omega), if_neg (by omega)] at ha
    rw [getElem?_swap hp hql] at hb
    have hinto : key a ≤ key y := hr.edges (parent p) (by omega) hsq (by omega) a ha y hy
    by_cases hcp : c = p
    · rw [if_pos hcp, hy] at hb
      exact Option.some.inj hb ▸ hinto
    · have hpar : parent c < c := by unfold parent; omega
      rw [if_neg hcp, if_neg (by omega)] at hb
      exact le_trans hinto (hr.edges c hc (by omega) hcp y (hpc ▸ hy) b hb)

/-- Where the entry at `p` is not below its parent, there is nothing to exchange. -/
theorem UpReady.stop {s p : Nat} {h : List α} (hr : UpReady key s p h)
    (hedge : s < p → Le key h (parent p) p) : HeapFrom key s h := by
  intro i hi hs
  by_cases hip : i = p
  · subst hip
    exact hedge (by unfold parent at hs; omega)
  · exact hr.edges i hi hs hip

/-- `siftdown` puts the heap from `s` on in order, also when it raises. -/
theorem siftdownLoop_keeps {lt : α → α → Except ε Bool} {s fuel p : Nat} {h : List α}
    (hf : Follows key lt h) (hr : UpReady key s p h) (hfuel : p ≤ fuel) :
    HeapFrom key s (siftdownLoop lt s fuel p h).2 := by
  induction fuel generalizing p h with
  | zero => exact hr.stop fun hlt => absurd hlt (by omega)
  | succ fuel ih =>
    unfold siftdownLoop
    split
    · next hps => exact hr.stop fun hlt => absurd hlt (by omega)
    · next hps =>
      have hlt : s < p := by omega
      have hq : parent p < p := by unfold parent; omega
      obtain ⟨x, hx⟩ : ∃ x, h[p]? = some x := ⟨_, List.getElem?_eq_getElem hr.lt_length⟩
      obtain ⟨y, hy⟩ : ∃ y, h[parent p]? = some y :=
        ⟨_, List.getElem?_eq_getElem (by have := hr.lt_length; omega)⟩
      have hstop : ¬ key x < key y → HeapFrom key s h := by
        intro hxy
        refine hr.stop fun _ a ha b hb => ?_
        rw [hy] at ha
        rw [hx] at hb
        obtain rfl := Option.some.inj ha
        obtain rfl := Option.some.inj hb
        exact le_of_not_gt hxy
      rw [hx, hy]
      rcases hf.lt_eq hx hy with hok | ⟨heq, e, herr⟩
      · simp only [hok]
        by_cases hxy : key x < key y
        · simp only [hxy, decide_true]
          exact ih (hf.perm (swap_perm h _ _)) (hr.move hlt hx hy hxy) (by omega)
        · simp only [hxy, decide_false]
          exact hstop hxy
      · simp only [herr]
        exact hstop (by rw [heq]; exact lt_irrefl _)

theorem siftdownLoop_ok {lt : α → α → Except ε Bool} {s fuel p : Nat} {h : List α}
    (hd : Decides key lt h) : (siftdownLoop lt s fuel p h).1 = .ok () := by
  induction fuel generalizing p h with
  | zero => rfl
  | succ fuel ih =>
    unfold siftdownLoop
    split
    · rfl
    · split
      · next x y hx hy =>
        rw [hd.lt_eq hx hy]
        by_cases hxy : key x < key y
        · simp only [hxy, decide_true]
          exact ih (hd.perm (swap_perm h _ _))
        · simp only [hxy, decide_false]
      · rfl

/-- `siftdown` raises nothing and puts the heap from `s` on in order. -/
theorem siftdownLoop_heap {lt : α → α → Except ε Bool} {s fuel p : Nat} {h : List α}
    (hd : Decides key lt h) (hr : UpReady key s p h) (hfuel : p ≤ fuel) :
    (siftdownLoop lt s fuel p h).1 = .ok () ∧
      HeapFrom key s (siftdownLoop lt s fuel p h).2 :=
  ⟨siftdownLoop_ok hd, siftdownLoop_keeps hd.follows hr hfuel⟩

/-! ### Rising children -/

variable (key)

/-- What the loop of `siftup` needs: only the edges at `p` may be out of order,
    and the children of `p` are not below its parent. -/
structure DownReady (s p : Nat) (h : List α) : Prop where
  lt_length : p < h.length
  below : Below s p
  edges : ∀ i, 0 < i → s ≤ parent i → i ≠ p → parent i ≠ p → Le key h (parent i) i
  grand : s < p → ∀ c, 0 < c → parent c = p → Le key h (parent p) c

variable {key}

/-- The children of a position. -/
theorem child_cases {c p : Nat} (hc : 0 < c) (hp : parent c = p) :
    c = 2 * p + 1 ∨ c = 2 * p + 2 := by
  unfold parent at hp; omega

/-- At a leaf the possible disorder is only in the edge into `p`. -/
theorem DownReady.leaf {s p : Nat} {h : List α} (hr : DownReady key s p h)
    (hleaf : h[2 * p + 1]? = none) : UpReady key s p h := by
  have hlen := List.getElem?_eq_none_iff.mp hleaf
  refine ⟨hr.lt_length, hr.below, ?_, hr.grand⟩
  intro i hi hs hip
  by_cases hpi : parent i = p
  · intro a _ b hb
    have hi' := child_cases hi hpi
    rw [List.getElem?_eq_none (by omega)] at hb
    cases hb
  · exact hr.edges i hi hs hip hpi

/-- One exchange of `siftup` with the least child `c` of `p`. -/
theorem DownReady.move {s p c : Nat} {h : List α} (hr : DownReady key s p h)
    (hc : 0 < c) (hpc : parent c = p) {z : α} (hz : h[c]? = some z)
    (hleast : ∀ d, 0 < d → parent d = p → ∀ b ∈ h[d]?, key z ≤ key b) :
    DownReady key s c (swap h p c) := by
  have hcl := (List.getElem?_eq_some_iff.mp hz).1
  have hpl := hr.lt_length
  have hlt : p < c := by unfold parent at hpc; omega
  have hsp := hr.below.le
  refine ⟨by simpa using hcl, hr.below.child hc hpc, ?_, ?_⟩
  · intro i hi hs hic hpic a ha b hb
    rw [getElem?_swap hpl hcl] at ha hb
    by_cases hip : i = p
    · -- the edge into `p` now ends in the old child
      subst hip
      rw [if_neg (by unfold parent; omega), if_neg hpic] at ha
      rw [if_pos rfl] at hb
      refine hr.grand ?_ c hc hpc a ha b hb
      unfold parent at hs; omega
    · rw [if_neg hip, if_neg hic] at hb
      by_cases hpi : parent i = p
      · rw [if_pos hpi, hz] at ha
        obtain rfl := Option.some.inj ha
        exact hleast i hi hpi b hb
      · rw [if_neg hpi, if_neg hpic] at ha
        exact hr.edges i hi hs hip hpi a ha b hb
  · intro hsc d hd hpd a ha b hb
    have hcd : c < d := by unfold parent at hpd; omega
    rw [hpc, getElem?_swap hpl hcl, if_pos rfl, hz] at ha
    rw [getElem?_swap hpl hcl, if_neg (by omega), if_neg (by omega)] at hb
    obtain rfl := Option.some.inj ha
    exact hr.edges d hd (by omega) (by omega) (by omega) z (hpd ▸ hz) b hb

/-- The loop of `siftup` puts the heap from `s` on in order, if it does not raise. -/
theorem siftupLoop_keeps {lt : α → α → Except ε Bool} {s fuel p : Nat} {h : List α}
    (hf : Follows key lt h) (hr : DownReady key s p h) (hfuel : h.length ≤ p + fuel)
    (hok : (siftupLoop lt s fuel p h).1 = .ok ()) :
    HeapFrom key s (siftupLoop lt s fuel p h).2 := by
  have hpar₁ : ∀ p, parent (2 * p + 1) = p := fun p => by unfold parent; omega
  have hpar₂ : ∀ p, parent (2 * p + 2) = p := fun p => by unfold parent; omega
  induction fuel generalizing p h with
  | zero => exact absurd hr.lt_length (by omega)
  | succ fuel ih =>
    unfold siftupLoop at hok ⊢
    split
    · next hnone => exact siftdownLoop_keeps hf (hr.leaf hnone) (Nat.le_refl p)
    · next left hleft hright =>
      -- an only child
      simp only [hleft, hright] at hok
      refine ih (hf.perm (swap_perm h _ _)) (hr.move (by omega) (hpar₁ p) hleft ?_)
        (by simp; omega) hok
      intro d hd' hpd b hb
      rcases child_cases hd' hpd with rfl | rfl
      · rw [hleft] at hb
        exact le_of_eq (congrArg key (Option.some.inj hb))
      · rw [hright] at hb
        cases hb
    · next left right hleft hright =>
      simp only [hleft, hright] at hok
      rcases hf.lt_eq hleft hright with hlt | ⟨-, e, herr⟩
      · simp only [hlt] at hok ⊢
        by_cases hlr : key left < key right
        · simp only [hlr, decide_true] at hok ⊢
          refine ih (hf.perm (swap_perm h _ _)) (hr.move (by omega) (hpar₁ p) hleft ?_)
            (by simp; omega) hok
          intro d hd' hpd b hb
          rcases child_cases hd' hpd with rfl | rfl
          · rw [hleft] at hb
            exact le_of_eq (congrArg key (Option.some.inj hb))
          · rw [hright] at hb
            exact Option.some.inj hb ▸ le_of_lt hlr
        · simp only [hlr, decide_false] at hok ⊢
          refine ih (hf.perm (swap_perm h _ _)) (hr.move (by omega) (hpar₂ p) hright ?_)
            (by simp; omega) hok
          intro d hd' hpd b hb
          rcases child_cases hd' hpd with rfl | rfl
          · rw [hleft] at hb
            exact Option.some.inj hb ▸ le_of_not_gt hlr
          · rw [hright] at hb
            exact le_of_eq (congrArg key (Option.some.inj hb))
      · simp only [herr] at hok
        cases hok

theorem siftupLoop_ok {lt : α → α → Except ε Bool} {s fuel p : Nat} {h : List α}
    (hd : Decides key lt h) : (siftupLoop lt s fuel p h).1 = .ok () := by
  induction fuel generalizing p h with
  | zero => exact siftdownLoop_ok hd
  | succ fuel ih =>
    unfold siftupLoop
    split
    · exact siftdownLoop_ok hd
    · exact ih (hd.perm (swap_perm h _ _))
    · next left right hleft hright =>
      rw [hd.lt_eq hleft hright]
      by_cases hlr : key left < key right
      · simp only [hlr, decide_true]
        exact ih (hd.perm (swap_perm h _ _))
      · simp only [hlr, decide_false]
        exact ih (hd.perm (swap_perm h _ _))

theorem siftupLoop_heap {lt : α → α → Except ε Bool} {s fuel p : Nat} {h : List α}
    (hd : Decides key lt h) (hr : DownReady key s p h) (hfuel : h.length ≤ p + fuel) :
    (siftupLoop lt s fuel p h).1 = .ok () ∧ HeapFrom key s (siftupLoop lt s fuel p h).2 :=
  ⟨siftupLoop_ok hd, siftupLoop_keeps hd.follows hr hfuel (siftupLoop_ok hd)⟩

/-- What the loop of `siftup` needs holds above a part that is in order. -/
theorem HeapFrom.downReady {s : Nat} {h : List α} (hh : HeapFrom key (s + 1) h)
    (hs : s < h.length) : DownReady key s s h := by
  refine ⟨hs, .refl, ?_, ?_⟩
  · intro i hi hsi _ hne
    exact hh i hi (by omega)
  · intro hlt
    exact absurd hlt (Nat.lt_irrefl s)

/-- `siftup` puts the position `s` in order above a part that is. -/
theorem siftup_heap {lt : α → α → Except ε Bool} {s : Nat} {h : List α}
    (hd : Decides key lt h) (hh : HeapFrom key (s + 1) h) (hs : s < h.length) :
    (siftup lt s h).1 = .ok () ∧ HeapFrom key s (siftup lt s h).2 :=
  siftupLoop_heap hd (hh.downReady hs) (by omega)

/-! ### The operations keep the heap -/

/-- A new last entry is ready to bubble up. -/
theorem IsHeap.upReady {h : List α} (hh : IsHeap key h) (item : α) :
    UpReady key 0 h.length (h ++ [item]) := by
  refine ⟨by simp, below_zero _, ?_, ?_⟩
  · intro i hi _ hne a ha b hb
    have hil := (List.getElem?_eq_some_iff.mp hb).1
    simp only [List.length_append, List.length_singleton] at hil
    rw [List.getElem?_append_left (by unfold parent; omega)] at ha
    rw [List.getElem?_append_left (by omega)] at hb
    exact hh i hi (Nat.zero_le _) a ha b hb
  · intro _ c hc hpc a _ b hb
    rw [List.getElem?_eq_none (by unfold parent at hpc; simp; omega)] at hb
    cases hb

/-- A push of an entry onto a heap. -/
theorem heappush_heap {lt : α → α → Except ε Bool} {h : List α} {item : α}
    (hd : Decides key lt (item :: h)) (hh : IsHeap key h) :
    (heappush lt h item).1 = .ok () ∧ IsHeap key (heappush lt h item).2 :=
  siftdownLoop_heap (hd.perm (List.perm_append_singleton item h)) (hh.upReady item)
    (Nat.le_refl _)

/-- A push leaves a heap, also when it raises. -/
theorem heappush_keeps {lt : α → α → Except ε Bool} {h : List α} {item : α}
    (hf : Follows key lt (item :: h)) (hh : IsHeap key h) :
    IsHeap key (heappush lt h item).2 :=
  siftdownLoop_keeps (hf.perm (List.perm_append_singleton item h)) (hh.upReady item)
    (Nat.le_refl _)

/-- With the last entry at the root, nothing has changed below it. -/
theorem IsHeap.below_root {root last : α} {rest : List α} (hh : IsHeap key (root :: rest))
    (hlast : rest.getLast? = some last) : HeapFrom key 1 (last :: rest.dropLast) := by
  have hrest : rest.dropLast ++ [last] = rest := List.dropLast_append_getLast? last hlast
  intro i hi hpi a ha b hb
  have hshift : ∀ j, 0 < j → ∀ x ∈ (last :: rest.dropLast)[j]?, x ∈ (root :: rest)[j]? := by
    intro j hj x hx
    obtain ⟨j, rfl⟩ := Nat.exists_eq_succ_of_ne_zero (by omega : j ≠ 0)
    simp only [List.getElem?_cons_succ] at hx ⊢
    have hjl := (List.getElem?_eq_some_iff.mp hx).1
    rw [← hrest, List.getElem?_append_left hjl]
    exact hx
  exact hh i hi (Nat.zero_le _) a (hshift _ hpi a ha) b (hshift _ hi b hb)

/-- A pop from a heap answers with the root, which is least, and leaves a heap. -/
theorem heappop_heap {lt : α → α → Except ε Bool} {root : α} {rest : List α}
    (hd : Decides key lt (root :: rest)) (hh : IsHeap key (root :: rest)) :
    ∃ h, heappop lt (root :: rest) = some (.ok root, h) ∧ IsHeap key h ∧ h.Perm rest := by
  cases hlast : rest.getLast? with
  | none =>
    obtain rfl := List.getLast?_eq_none_iff.mp hlast
    exact ⟨[], rfl, isHeap_nil, List.Perm.refl _⟩
  | some last =>
    have hperm := cons_dropLast_perm hlast
    have hd' : Decides key lt (last :: rest.dropLast) := by
      intro a ha b hb
      exact hd a (List.mem_cons_of_mem _ (hperm.mem_iff.mp ha)) b
        (List.mem_cons_of_mem _ (hperm.mem_iff.mp hb))
    obtain ⟨hok, hheap⟩ := siftup_heap hd' (hh.below_root hlast) (by simp)
    refine ⟨(siftup lt 0 (last :: rest.dropLast)).2, ?_, hheap,
      (siftupLoop_perm lt 0 _ 0 _).trans hperm⟩
    simp only [heappop, hlast]
    generalize siftup lt 0 (last :: rest.dropLast) = r at hok
    obtain ⟨r, h⟩ := r
    obtain rfl : r = .ok () := hok
    rfl

/-- A pop that does not raise leaves a heap. -/
theorem heappop_keeps {lt : α → α → Except ε Bool} {root x : α} {rest h : List α}
    (hf : Follows key lt (root :: rest)) (hh : IsHeap key (root :: rest))
    (hpop : heappop lt (root :: rest) = some (.ok x, h)) : IsHeap key h := by
  cases hlast : rest.getLast? with
  | none =>
    simp only [heappop, hlast] at hpop
    cases hpop
    exact isHeap_nil
  | some last =>
    have hperm := cons_dropLast_perm hlast
    have hf' : Follows key lt (last :: rest.dropLast) := by
      intro a ha b hb
      exact hf a (List.mem_cons_of_mem _ (hperm.mem_iff.mp ha)) b
        (List.mem_cons_of_mem _ (hperm.mem_iff.mp hb))
    have hkeeps := siftupLoop_keeps hf' ((hh.below_root hlast).downReady (by simp))
      (Nat.le_add_left _ _)
    simp only [heappop, hlast] at hpop
    change (siftup lt 0 (last :: rest.dropLast)).1 = .ok () → _ at hkeeps
    cases hsift : siftup lt 0 (last :: rest.dropLast) with
    | mk r h' =>
      rw [hsift] at hpop
      cases r with
      | error e => cases hpop
      | ok u =>
        cases hpop
        have hheap := hkeeps (by rw [hsift])
        change IsHeap key (siftup lt 0 (last :: rest.dropLast)).2 at hheap
        rw [hsift] at hheap
        exact hheap

theorem heapifyLoop_heap {lt : α → α → Except ε Bool} {i : Nat} {h : List α}
    (hd : Decides key lt h) (hh : HeapFrom key i h) (hi : i ≤ h.length) :
    (heapifyLoop lt i h).1 = .ok () ∧ IsHeap key (heapifyLoop lt i h).2 := by
  induction i generalizing h with
  | zero => exact ⟨rfl, hh⟩
  | succ i ih =>
    obtain ⟨hok, hfrom⟩ := siftup_heap hd hh (by omega)
    have hperm := siftupLoop_perm lt i h.length i h
    unfold heapifyLoop
    change (siftup lt i h).2.Perm h at hperm
    generalize siftup lt i h = r at hok hfrom hperm
    obtain ⟨r, h'⟩ := r
    obtain rfl : r = .ok () := hok
    exact ih (hd.perm hperm) hfrom (by have := hperm.length_eq; simp only at this; omega)

/-- `heapify` turns any list into a heap. -/
theorem heapify_heap {lt : α → α → Except ε Bool} {h : List α} (hd : Decides key lt h) :
    (heapify lt h).1 = .ok () ∧ IsHeap key (heapify lt h).2 := by
  refine heapifyLoop_heap hd ?_ (by omega)
  intro i hi hpi a _ b hb
  -- positions from the middle on have no children
  have hil := (List.getElem?_eq_some_iff.mp hb).1
  unfold parent at hpi; omega

end order

/-! ## Section 4: Comparisons that never raise

  The operations for a `__lt__` that answers on all entries, with results
  that carry no outcome. -/

section total

variable (less : α → α → Bool)

/-- A comparison that never raises. -/
def total (a b : α) : Except Empty Bool := .ok (less a b)

/-- `heappush` with a comparison that never raises. -/
def push (h : List α) (item : α) : List α := (heappush (total less) h item).2

/-- `heappop` with a comparison that never raises. -/
def pop (h : List α) : Option (α × List α) :=
  match heappop (total less) h with
  | none => none
  | some (.ok x, h') => some (x, h')
  | some (.error e, _) => e.elim

/-- `heapify` with a comparison that never raises. -/
def rebuild (h : List α) : List α := (heapify (total less) h).2

theorem push_perm (h : List α) (item : α) : (push less h item).Perm (item :: h) :=
  heappush_perm _ h item

theorem rebuild_perm (h : List α) : (rebuild less h).Perm h :=
  heapify_perm _ h

@[simp] theorem pop_nil : pop less ([] : List α) = none := rfl

/-- What a pop answers: the root, and a list of the other entries. -/
theorem pop_cons (root : α) (rest : List α) :
    ∃ h, pop less (root :: rest) = some (root, h) ∧ h.Perm rest := by
  obtain ⟨r, h, hpop⟩ := heappop_cons (total less) root rest
  obtain ⟨hperm, hroot⟩ := heappop_perm hpop
  cases r with
  | error e => exact e.elim
  | ok x =>
    obtain rfl := hroot x rfl
    exact ⟨h, by simp only [pop, hpop], hperm⟩

theorem pop_eq_none {h : List α} (hpop : pop less h = none) : h = [] := by
  cases h with
  | nil => rfl
  | cons root rest =>
    obtain ⟨h', hpop', -⟩ := pop_cons less root rest
    rw [hpop'] at hpop
    cases hpop

theorem pop_eq_some {h h' : List α} {x : α} (hpop : pop less h = some (x, h')) :
    h[0]? = some x ∧ (x :: h').Perm h := by
  cases h with
  | nil => cases hpop
  | cons root rest =>
    obtain ⟨h'', hpop', hperm⟩ := pop_cons less root rest
    rw [hpop'] at hpop
    obtain ⟨rfl, rfl⟩ := Prod.mk.inj (Option.some.inj hpop)
    exact ⟨rfl, hperm.cons root⟩

variable {less} {κ : Type w} [LinearOrder κ] {key : α → κ}

theorem decides_total (hless : ∀ a b, less a b = decide (key a < key b)) (h : List α) :
    Decides key (total less) h :=
  fun a _ b _ => congrArg Except.ok (hless a b)

theorem push_heap (hless : ∀ a b, less a b = decide (key a < key b)) {h : List α} {item : α}
    (hh : IsHeap key h) : IsHeap key (push less h item) :=
  (heappush_heap (decides_total hless _) hh).2

theorem rebuild_heap (hless : ∀ a b, less a b = decide (key a < key b)) (h : List α) :
    IsHeap key (rebuild less h) :=
  (heapify_heap (decides_total hless h)).2

/-- A pop from a heap answers with a least entry and leaves a heap. -/
theorem pop_heap (hless : ∀ a b, less a b = decide (key a < key b)) {h h' : List α} {x : α}
    (hh : IsHeap key h) (hpop : pop less h = some (x, h')) :
    IsHeap key h' ∧ ∀ y ∈ h, key x ≤ key y := by
  cases h with
  | nil => cases hpop
  | cons root rest =>
    obtain ⟨h'', hpop', hheap, -⟩ := heappop_heap (decides_total hless _) hh
    simp only [pop, hpop', Option.some.injEq, Prod.mk.injEq] at hpop
    obtain ⟨rfl, rfl⟩ := hpop
    exact ⟨hheap, hh.root_le⟩

end total

end Heapq
