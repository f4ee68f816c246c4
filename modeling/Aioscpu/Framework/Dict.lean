import Mathlib.Data.List.Induction
import Mathlib.Data.List.Nodup

/-! # Dictionaries that Keep the Order of Insertion

  The `dict` of Python as the list of its items, each key once. An assignment
  to a present key changes the value where it stands, and an assignment to a
  new key adds an item at the end.
-/

universe u v w

/-- A dictionary. -/
@[ext]
structure Dict (κ : Type u) (ν : Type v) where
  items : List (κ × ν)
  nodup : (items.map Prod.fst).Nodup

namespace Dict

variable {κ : Type u} {ν : Type v}

/-- `list(d)`. -/
def keys (d : Dict κ ν) : List κ := d.items.map Prod.fst

/-- `list(d.values())`. -/
def values (d : Dict κ ν) : List ν := d.items.map Prod.snd

/-- `{}`. -/
def empty : Dict κ ν := ⟨[], List.nodup_nil⟩

@[simp] theorem keys_empty : (empty : Dict κ ν).keys = [] := rfl

variable [DecidableEq κ]

instance [DecidableEq ν] : DecidableEq (Dict κ ν) := fun _ _ => decidable_of_iff _ Dict.ext_iff.symm

/-- `d.get(k)`. -/
def get (d : Dict κ ν) (k : κ) : Option ν := d.items.lookup k

/-- The items after an assignment. -/
def assign (k : κ) (v : ν) : List (κ × ν) → List (κ × ν)
  | [] => [(k, v)]
  | item :: items => if item.1 = k then (k, v) :: items else item :: assign k v items

theorem assign_keys (k : κ) (v : ν) (items : List (κ × ν)) :
    (assign k v items).map Prod.fst =
      if k ∈ items.map Prod.fst then items.map Prod.fst else items.map Prod.fst ++ [k] := by
  induction items with
  | nil => rfl
  | cons item items ih =>
    by_cases h : item.1 = k
    · simp [assign, h]
    · have hne : k ≠ item.1 := fun heq => h heq.symm
      simp only [assign, h, if_false, List.map_cons, ih, List.mem_cons, hne, false_or]
      split <;> rfl

theorem lookup_item (k : κ) (item : κ × ν) (items : List (κ × ν)) :
    (item :: items).lookup k = if k = item.1 then some item.2 else items.lookup k := by
  by_cases h : k = item.1
  · rw [if_pos h, List.lookup_cons, beq_iff_eq.mpr h]
  · rw [if_neg h, List.lookup_cons, beq_eq_false_iff_ne.mpr h]

theorem assign_lookup (k k' : κ) (v : ν) (items : List (κ × ν)) :
    (assign k v items).lookup k' = if k' = k then some v else items.lookup k' := by
  induction items with
  | nil => simp only [assign, lookup_item]
  | cons item items ih =>
    by_cases h : item.1 = k
    · simp only [assign, h, if_true, lookup_item]
      split <;> rfl
    · simp only [assign, h, if_false, lookup_item, ih]
      by_cases h' : k' = item.1
      · have hne : k' ≠ k := fun heq => h (h'.symm.trans heq)
        rw [if_pos h', if_neg hne, if_pos h']
      · rw [if_neg h', if_neg h']

/-- `d[k] = v`. -/
def set (d : Dict κ ν) (k : κ) (v : ν) : Dict κ ν where
  items := assign k v d.items
  nodup := by
    rw [assign_keys]
    split
    · exact d.nodup
    · next hnew =>
      refine d.nodup.append (List.nodup_singleton k) ?_
      intro x hx hk
      exact hnew (List.mem_singleton.mp hk ▸ hx)

@[simp] theorem get_empty (k : κ) : (empty : Dict κ ν).get k = none := rfl

theorem get_set (d : Dict κ ν) (k k' : κ) (v : ν) :
    (d.set k v).get k' = if k' = k then some v else d.get k' := assign_lookup k k' v d.items

@[simp] theorem get_set_self (d : Dict κ ν) (k : κ) (v : ν) : (d.set k v).get k = some v := by
  rw [get_set, if_pos rfl]

theorem get_set_of_ne {d : Dict κ ν} {k k' : κ} (h : k' ≠ k) (v : ν) :
    (d.set k v).get k' = d.get k' := by
  rw [get_set, if_neg h]

theorem keys_set (d : Dict κ ν) (k : κ) (v : ν) :
    (d.set k v).keys = if k ∈ d.keys then d.keys else d.keys ++ [k] :=
  assign_keys k v d.items

theorem lookup_isSome_iff (k : κ) (items : List (κ × ν)) :
    (items.lookup k).isSome = true ↔ k ∈ items.map Prod.fst := by
  induction items with
  | nil => simp
  | cons item items ih =>
    by_cases h : k = item.1
    · simp [lookup_item, h]
    · simp [lookup_item, h, ih]

/-- The keys are those with a value. -/
theorem mem_keys_iff (d : Dict κ ν) (k : κ) : k ∈ d.keys ↔ ∃ v, d.get k = some v := by
  rw [← Option.isSome_iff_exists]
  exact (lookup_isSome_iff k d.items).symm

theorem mem_of_get {d : Dict κ ν} {k : κ} {v : ν} (h : d.get k = some v) : (k, v) ∈ d.items := by
  unfold get at h
  generalize d.items = items at h
  induction items with
  | nil => cases h
  | cons item items ih =>
    rw [lookup_item] at h
    split at h
    · next heq =>
      obtain rfl := Option.some.inj h
      exact heq ▸ List.mem_cons_self
    · exact List.mem_cons_of_mem _ (ih h)

theorem get_of_mem {d : Dict κ ν} {k : κ} {v : ν} (h : (k, v) ∈ d.items) : d.get k = some v := by
  obtain ⟨items, hnodup⟩ := d
  unfold get
  induction items with
  | nil => cases h
  | cons item items ih =>
    obtain ⟨hnew, hnodup⟩ := List.nodup_cons.mp hnodup
    rw [lookup_item]
    rcases List.mem_cons.mp h with heq | hmem
    · rw [← heq, if_pos rfl]
    · rw [if_neg, ih hnodup hmem]
      rintro rfl
      exact hnew (List.mem_map.mpr ⟨_, hmem, rfl⟩)

/-- An assignment to a present key leaves the keys as they are. -/
theorem keys_set_of_get (d : Dict κ ν) {k : κ} {v : ν} (h : d.get k = some v) (v' : ν) :
    (d.set k v').keys = d.keys := by
  rw [keys_set, if_pos ((d.mem_keys_iff k).mpr ⟨v, h⟩)]

/-! ### Removal -/

/-- The items whose keys pass a test. -/
theorem lookup_filter_key (p : κ → Bool) (k : κ) (items : List (κ × ν)) :
    (items.filter fun item => p item.1).lookup k = if p k then items.lookup k else none := by
  induction items with
  | nil => simp
  | cons item items ih =>
    by_cases h : p item.1 = true
    · rw [List.filter_cons_of_pos (by simpa using h), lookup_item, lookup_item, ih]
      by_cases hk : k = item.1
      · rw [if_pos hk, if_pos hk, if_pos (hk ▸ h)]
      · rw [if_neg hk, if_neg hk]
    · rw [List.filter_cons_of_neg (by simpa using h), ih, lookup_item]
      by_cases hk : k = item.1
      · rw [if_neg (hk ▸ h), if_neg (hk ▸ h)]
      · rw [if_neg hk]

theorem lookup_filter (k k' : κ) (items : List (κ × ν)) :
    (items.filter fun item => item.1 ≠ k).lookup k' =
      if k' = k then none else items.lookup k' := by
  rw [lookup_filter_key fun key => decide (key ≠ k)]
  by_cases h : k' = k
  · simp [h]
  · simp [h]

/-- `del d[k]`, if the key is present. -/
def erase (d : Dict κ ν) (k : κ) : Dict κ ν where
  items := d.items.filter fun item => item.1 ≠ k
  nodup := d.nodup.sublist (List.filter_sublist.map Prod.fst)

theorem get_erase (d : Dict κ ν) (k k' : κ) :
    (d.erase k).get k' = if k' = k then none else d.get k' := lookup_filter k k' d.items

theorem erase_of_get_eq_none {d : Dict κ ν} {k : κ} (h : d.get k = none) : d.erase k = d := by
  refine Dict.ext (List.filter_eq_self.mpr fun item hmem => ?_)
  rw [decide_eq_true_eq]
  rintro rfl
  cases h.symm.trans (get_of_mem (d := d) hmem)

/-- The items whose keys pass the test. -/
def filterKeys (d : Dict κ ν) (p : κ → Bool) : Dict κ ν where
  items := d.items.filter fun item => p item.1
  nodup := d.nodup.sublist (List.filter_sublist.map Prod.fst)

theorem get_filterKeys (d : Dict κ ν) (p : κ → Bool) (k : κ) :
    (d.filterKeys p).get k = if p k then d.get k else none := lookup_filter_key p k d.items

/-! ### Comprehensions -/

/-- The items whose values `f` keeps, as `{k: f(v) for k, v in d.items()}`. -/
def filterMap {μ : Type w} (d : Dict κ ν) (f : ν → Option μ) : Dict κ μ where
  items := d.items.filterMap fun item => (f item.2).map (Prod.mk item.1)
  nodup := by
    refine d.nodup.sublist ?_
    generalize d.items = items
    induction items with
    | nil => exact List.Sublist.refl _
    | cons item items ih =>
      cases h : f item.2 with
      | none =>
        rw [List.filterMap_cons_none (by rw [h]; rfl)]
        exact ih.cons _
      | some v =>
        rw [List.filterMap_cons_some (by rw [h]; rfl)]
        exact ih.cons_cons _

theorem lookup_of_notMem {k : κ} {items : List (κ × ν)} (h : k ∉ items.map Prod.fst) :
    items.lookup k = none := by
  induction items with
  | nil => rfl
  | cons item items ih =>
    rw [List.map_cons, List.mem_cons, not_or] at h
    rw [lookup_item, if_neg h.1, ih h.2]

theorem get_filterMap {μ : Type w} (d : Dict κ ν) (f : ν → Option μ) (k : κ) :
    (d.filterMap f).get k = (d.get k).bind f := by
  obtain ⟨items, hnodup⟩ := d
  unfold get filterMap
  show (items.filterMap fun item => (f item.2).map (Prod.mk item.1)).lookup k =
    (items.lookup k).bind f
  induction items with
  | nil => rfl
  | cons item items ih =>
    obtain ⟨hnew, hnodup⟩ := List.nodup_cons.mp hnodup
    have hrest := ih hnodup
    cases h : f item.2 with
    | none =>
      rw [List.filterMap_cons_none (by rw [h]; rfl), hrest, lookup_item]
      split
      · next heq =>
        subst heq
        rw [lookup_of_notMem hnew, Option.bind_some, h]
        rfl
      · rfl
    | some v =>
      rw [List.filterMap_cons_some (by rw [h]; rfl), lookup_item, lookup_item, hrest]
      split
      · rw [Option.bind_some, h]
      · rfl

/-! ### Equality -/

theorem items_eq_of_lookup {items items' : List (κ × ν)}
    (hkeys : items.map Prod.fst = items'.map Prod.fst) (hnodup : (items.map Prod.fst).Nodup)
    (hlookup : ∀ k, items.lookup k = items'.lookup k) : items = items' := by
  induction items generalizing items' with
  | nil => exact (List.map_eq_nil_iff.mp hkeys.symm).symm
  | cons item items ih =>
    cases items' with
    | nil => cases hkeys
    | cons item' items' =>
      obtain ⟨hkey, hkeys⟩ := List.cons.inj hkeys
      obtain ⟨hnew, hnodup⟩ := List.nodup_cons.mp hnodup
      have hvalue : item.2 = item'.2 := by
        have h := hlookup item.1
        rw [lookup_item, if_pos rfl, lookup_item, if_pos hkey] at h
        exact Option.some.inj h
      have hrest : items = items' := by
        refine ih hkeys hnodup fun k => ?_
        by_cases hk : k = item.1
        · -- the key stands at the head, and nowhere else
          rw [hk, lookup_of_notMem hnew, lookup_of_notMem (hkeys ▸ hnew)]
        · have h := hlookup k
          rwa [lookup_item, if_neg hk, lookup_item, if_neg (fun heq => hk (heq.trans hkey.symm))]
            at h
      rw [Prod.ext hkey hvalue, hrest]

/-- Dictionaries with the same keys in the same order are equal if they have
    the same values. -/
theorem eq_of_get {d d' : Dict κ ν} (hkeys : d.keys = d'.keys)
    (hget : ∀ k, d.get k = d'.get k) : d = d' :=
  Dict.ext (items_eq_of_lookup hkeys d.nodup hget)

/-- `d.update(items)`. -/
def update (d : Dict κ ν) (items : List (κ × ν)) : Dict κ ν :=
  items.foldl (fun d item => d.set item.1 item.2) d

theorem update_append (d : Dict κ ν) (items items' : List (κ × ν)) :
    d.update (items ++ items') = (d.update items).update items' :=
  List.foldl_append

/-- The newest of the items counts, and if there is none the dictionary before. -/
theorem get_update (d : Dict κ ν) (items : List (κ × ν)) (k : κ) :
    (d.update items).get k = (items.reverse.lookup k).or (d.get k) := by
  unfold update
  induction items using List.reverseRecOn with
  | nil => rfl
  | append_singleton items item ih =>
    rw [List.foldl_append, List.foldl_cons, List.foldl_nil, get_set, ih, List.reverse_append,
      List.reverse_singleton, List.singleton_append, lookup_item]
    by_cases hk : item.1 = k
    · simp [hk]
    · simp [hk, Ne.symm hk]

/-- A dictionary is what the assignments of its items build. -/
theorem foldl_set_items (d : Dict κ ν) :
    d.items.foldl (fun d' item => d'.set item.1 item.2) empty = d := by
  obtain ⟨items, hnodup⟩ := d
  induction items using List.reverseRecOn with
  | nil => rfl
  | append_singleton items item ih =>
    have hsplit := hnodup
    rw [List.map_append, List.nodup_append'] at hsplit
    obtain ⟨hbefore, -, hdisjoint⟩ := hsplit
    simp only [List.foldl_append, ih hbefore, List.foldl_cons, List.foldl_nil]
    refine Dict.ext ?_
    have hnew : item.1 ∉ items.map Prod.fst := fun hmem =>
      hdisjoint hmem (List.mem_singleton.mpr rfl)
    show assign item.1 item.2 items = items ++ [item]
    clear ih hbefore hdisjoint hnodup
    induction items with
    | nil => rfl
    | cons item' items ih =>
      rw [List.map_cons, List.mem_cons, not_or] at hnew
      simp only [assign, if_neg (Ne.symm hnew.1), ih hnew.2, List.cons_append]

/-- `dict(sorted(d.items()))`. -/
def sort (d : Dict κ ν) (le : κ × ν → κ × ν → Bool) : Dict κ ν where
  items := d.items.mergeSort le
  nodup := ((List.mergeSort_perm d.items le).map Prod.fst).nodup_iff.mpr d.nodup

omit [DecidableEq κ] in
theorem mem_sort (d : Dict κ ν) (le : κ × ν → κ × ν → Bool) (item : κ × ν) :
    item ∈ (d.sort le).items ↔ item ∈ d.items :=
  (List.mergeSort_perm d.items le).mem_iff

/-! ### Renaming -/

omit [DecidableEq κ] in
theorem rename_nodup {μ : Type w} {f : κ → Option μ}
    (hinj : ∀ k k' x, f k = some x → f k' = some x → k = k') (d : Dict κ ν) :
    ((d.items.filterMap fun item => (f item.1).map fun k => (k, item.2)).map Prod.fst).Nodup := by
  have hkeys : (d.items.filterMap fun item => (f item.1).map fun k => (k, item.2)).map Prod.fst =
      (d.items.map Prod.fst).filterMap f := by
    rw [List.map_filterMap, List.filterMap_map]
    congr 1
    funext item
    simp only [Option.map_map, Function.comp_def]
    exact Option.map_id'
  rw [hkeys]
  exact d.nodup.filterMap fun k k' x hk hk' => hinj k k' x hk hk'

/-- The items whose keys get a new name, under that name. -/
def rename {μ : Type w} (d : Dict κ ν) (f : κ → Option μ)
    (hinj : ∀ k k' x, f k = some x → f k' = some x → k = k') : Dict μ ν where
  items := d.items.filterMap fun item => (f item.1).map fun k => (k, item.2)
  nodup := rename_nodup hinj d

theorem get_eq_some_iff {d : Dict κ ν} {k : κ} {v : ν} : d.get k = some v ↔ (k, v) ∈ d.items :=
  ⟨mem_of_get, get_of_mem⟩

theorem get_rename_iff {μ : Type w} [DecidableEq μ] {d : Dict κ ν} {f : κ → Option μ}
    {hinj : ∀ k k' x, f k = some x → f k' = some x → k = k'} {x : μ} {v : ν} :
    (d.rename f hinj).get x = some v ↔ ∃ k, f k = some x ∧ d.get k = some v := by
  rw [get_eq_some_iff]
  show (x, v) ∈ d.items.filterMap _ ↔ _
  rw [List.mem_filterMap]
  constructor
  · rintro ⟨⟨k, v'⟩, hmem, hmap⟩
    obtain ⟨x', hk, heq⟩ := Option.map_eq_some_iff.mp hmap
    obtain ⟨rfl, rfl⟩ := Prod.mk.inj heq
    exact ⟨k, hk, get_of_mem hmem⟩
  · rintro ⟨k, hk, hget⟩
    exact ⟨(k, v), mem_of_get hget, by rw [hk]; rfl⟩

section image

variable {μ : Type w} {ξ : Type*} {f : κ → μ}

/-- All the items, with other keys and other values. -/
def image (d : Dict κ ν) (f : κ → μ) (hinj : Function.Injective f) (g : ν → ξ) : Dict μ ξ where
  items := d.items.map (Prod.map f g)
  nodup := by
    have hmap := d.nodup.map hinj
    rw [List.map_map] at hmap ⊢
    exact hmap

variable [DecidableEq μ]

theorem get_image (d : Dict κ ν) (hinj : Function.Injective f) (g : ν → ξ) (k : κ) :
    (d.image f hinj g).get (f k) = (d.get k).map g := by
  obtain ⟨items, hnodup⟩ := d
  show (items.map (Prod.map f g)).lookup (f k) = (items.lookup k).map g
  clear hnodup
  induction items with
  | nil => rfl
  | cons item items ih =>
    rw [List.map_cons, lookup_item, lookup_item, ih, Prod.map_fst, Prod.map_snd]
    by_cases h : k = item.1
    · rw [if_pos h, if_pos (congrArg f h), Option.map_some]
    · rw [if_neg h, if_neg fun heq => h (hinj heq)]

theorem set_image (d : Dict κ ν) (hinj : Function.Injective f) (g : ν → ξ) (k : κ) (v : ν) :
    (d.image f hinj g).set (f k) (g v) = (d.set k v).image f hinj g := by
  obtain ⟨items, hnodup⟩ := d
  refine Dict.ext ?_
  show assign (f k) (g v) (items.map (Prod.map f g)) = (assign k v items).map (Prod.map f g)
  clear hnodup
  induction items with
  | nil => rfl
  | cons item items ih =>
    rw [List.map_cons, assign, assign, Prod.map_fst]
    by_cases h : item.1 = k
    · rw [if_pos h, if_pos (congrArg f h)]
      rfl
    · rw [if_neg h, if_neg fun heq => h (hinj heq), ih]
      rfl

end image

/-- The items of two dictionaries that share no key. -/
def union (d d' : Dict κ ν) (hdisjoint : ∀ k ∈ d.keys, k ∉ d'.keys) : Dict κ ν where
  items := d.items ++ d'.items
  nodup := by
    rw [List.map_append]
    exact d.nodup.append d'.nodup hdisjoint

theorem get_union_iff {d d' : Dict κ ν} {hdisjoint : ∀ k ∈ d.keys, k ∉ d'.keys} {k : κ} {v : ν} :
    (d.union d' hdisjoint).get k = some v ↔ d.get k = some v ∨ d'.get k = some v := by
  rw [get_eq_some_iff, get_eq_some_iff, get_eq_some_iff]
  exact List.mem_append

end Dict
