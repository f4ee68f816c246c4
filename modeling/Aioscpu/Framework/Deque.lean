import Mathlib.Data.List.DropRight

/-! # Bounded Deques

  `collections.deque(maxlen=n)`: a list that keeps its newest `n` items.
-/

universe u

/-- A deque with at most `maxlen` items, the oldest first. -/
structure Deque (α : Type u) where
  maxlen : Nat
  items : List α
  bounded : items.length ≤ maxlen

namespace Deque

variable {α : Type u}

theorem length_rtake (l : List α) (n : Nat) : (l.rtake n).length = min n l.length := by
  rw [List.rtake, List.length_drop]
  omega

theorem map_rtake {β : Type*} (f : α → β) (l : List α) (n : Nat) :
    (l.rtake n).map f = (l.map f).rtake n := by
  rw [List.rtake, List.rtake, List.map_drop, List.length_map]

/-- `deque(maxlen=n)`. -/
def empty (n : Nat) : Deque α := ⟨n, [], Nat.zero_le n⟩

/-- `d.append(a)`: the oldest item leaves a full deque. -/
def append (d : Deque α) (a : α) : Deque α where
  maxlen := d.maxlen
  items := (d.items ++ [a]).rtake d.maxlen
  bounded := by
    rw [length_rtake]
    exact Nat.min_le_left _ _

/-- What is cut off first may be cut off last. -/
theorem rtake_rtake_append (l : List α) (n : Nat) (a : α) :
    (l.rtake n ++ [a]).rtake n = (l ++ [a]).rtake n := by
  have hle : l.length - n ≤ l.length := Nat.sub_le _ _
  simp only [List.rtake, List.length_append, List.length_drop, List.length_singleton]
  rw [← List.drop_append_of_le_length hle, List.drop_drop]
  congr 1
  omega

/-- The deque keeps the newest of all items that were appended to it. -/
theorem append_items {d : Deque α} {l : List α} (h : d.items = l.rtake d.maxlen) (a : α) :
    (d.append a).items = (l ++ [a]).rtake d.maxlen := by
  show (d.items ++ [a]).rtake d.maxlen = _
  rw [h, rtake_rtake_append]

/-- `d.clear()`. -/
def clear (d : Deque α) : Deque α := empty d.maxlen

/-- `l[-n:]`, which is all of `l` for 0. -/
def lastItems (l : List α) (n : Nat) : List α := if n = 0 then l else l.rtake n

theorem rtake_rtake (l : List α) (m n : Nat) : (l.rtake m).rtake n = l.rtake (min m n) := by
  simp only [List.rtake, List.length_drop, List.drop_drop]
  congr 1
  omega

/-- The last items of a long enough end are those of the whole list. -/
theorem rtake_of_suffix {l l' : List α} (h : l <:+ l') {n : Nat}
    (hlen : min n l'.length ≤ l.length) : l.rtake n = l'.rtake n := by
  obtain ⟨front, rfl⟩ := h
  rw [List.length_append] at hlen
  have hcut : front.length + l.length - n = front.length + (l.length - n) ∨ l.length < n := by omega
  rcases hcut with hcut | hshort
  · rw [List.rtake, List.rtake, List.length_append, hcut, ← List.drop_drop, List.drop_left]
  · -- then there is nothing before it
    have hnil : front = [] := List.length_eq_zero_iff.mp (by omega)
    rw [hnil, List.nil_append]

/-- Likewise for items that are appended together. -/
theorem rtake_append_rtake (l l' : List α) (n : Nat) :
    (l.rtake n ++ l').rtake n = (l ++ l').rtake n := by
  have hsuffix : l.rtake n ++ l' <:+ l ++ l' := by
    obtain ⟨front, hfront⟩ := List.drop_suffix (l.length - n) l
    refine ⟨front, ?_⟩
    rw [← List.append_assoc]
    exact congrArg (· ++ l') hfront
  refine rtake_of_suffix hsuffix ?_
  rw [List.length_append, List.length_append, length_rtake]
  omega

theorem rtake_of_length_le {l : List α} {n : Nat} (h : l.length ≤ n) : l.rtake n = l := by
  rw [List.rtake, Nat.sub_eq_zero_of_le h, List.drop_zero]

/-- A list that an item is appended to, and that loses its oldest item when it is too long, keeps
    the newest items. -/
theorem tail_append {items l : List α} {n : Nat} (h : items = l.rtake n) (a : α) :
    (if (items ++ [a]).length > n then (items ++ [a]).tail else items ++ [a]) =
      (l ++ [a]).rtake n := by
  have hlength : items.length ≤ n := by
    rw [h, length_rtake]
    exact Nat.min_le_left _ _
  rw [← rtake_rtake_append, ← h]
  split
  · next hlong =>
    -- then it is one item too many
    have hone : (items ++ [a]).length - n = 1 := by
      rw [List.length_append, List.length_singleton] at hlong ⊢
      omega
    rw [List.rtake, hone, List.drop_one]
  · next hshort => rw [rtake_of_length_le (Nat.le_of_not_lt hshort)]

theorem mem_of_mem_rtake {l : List α} {n : Nat} {a : α} (h : a ∈ l.rtake n) : a ∈ l :=
  List.mem_of_mem_drop h

@[simp] theorem append_maxlen (d : Deque α) (a : α) : (d.append a).maxlen = d.maxlen := rfl

theorem foldl_append_maxlen (d : Deque α) (l : List α) : (l.foldl append d).maxlen = d.maxlen := by
  induction l generalizing d with
  | nil => rfl
  | cons a l ih => rw [List.foldl_cons, ih, append_maxlen]

/-- Of all items that are appended one after another the newest stay. -/
theorem foldl_append_items {d : Deque α} {l₀ : List α} (h : d.items = l₀.rtake d.maxlen)
    (l : List α) : (l.foldl append d).items = (l₀ ++ l).rtake d.maxlen := by
  induction l generalizing d l₀ with
  | nil => rw [List.foldl_nil, List.append_nil, h]
  | cons a l ih =>
    rw [List.foldl_cons, ih (append_items h a), append_maxlen, List.append_assoc]
    rfl

/-- The last items fill a deque as all items do. -/
theorem lastItems_items (d : Deque α) (l : List α) :
    ((lastItems l d.maxlen).foldl append d.clear).items = l.rtake d.maxlen := by
  have hempty : d.clear.items = ([] : List α).rtake d.clear.maxlen := by simp [clear, empty]
  rw [foldl_append_items hempty, List.nil_append]
  show (lastItems l d.maxlen).rtake d.maxlen = l.rtake d.maxlen
  unfold lastItems
  split
  · rfl
  · rw [rtake_rtake, Nat.min_self]

end Deque
