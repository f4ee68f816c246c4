import Aioscpu.Kernel.Config

/-! # Layers of the Configuration

  What each layer of the configuration makes of a value, as long as all sections are
  objects: the merging of a document over another one, and the overriding by variables.
-/

namespace Json

variable {T : Type}

/-- The induction over the values of objects within objects. -/
@[elab_as_elim]
theorem obj_induction {P : Json T → Prop}
    (obj : ∀ fields, (∀ field ∈ fields, P field.2) → P (.obj fields))
    (other : ∀ v, (¬∃ fields, v = .obj fields) → P v) (v : Json T) : P v := by
  have hdepth : ∀ n, ∀ v : Json T, v.depth ≤ n → P v := by
    intro n
    induction n with
    | zero =>
      intro v hv
      refine other v ?_
      rintro ⟨fields, rfl⟩
      simp at hv
    | succ n ih =>
      intro v hv
      by_cases hobj : ∃ fields, v = .obj fields
      · obtain ⟨fields, rfl⟩ := hobj
        have hless : depthFields fields ≤ n := Nat.le_of_succ_le_succ hv
        exact obj fields fun field hfield =>
          ih field.2 ((depthFields_le_iff fields n).mp hless field hfield)
      · exact other v hobj
  exact hdepth v.depth v (Nat.le_refl _)

end Json

namespace Config

open Json

variable {T : Type}

/-! ### Sections -/

/-- All sections are objects. -/
def Objects (data : Fields T) : Prop :=
  ∀ sect v, data.lookup sect = some v → ∃ fields, v = .obj fields

/-- The value of a key in a section that is an object. -/
def entry (data : Fields T) (sect key : String) : Option (Json T) :=
  match data.lookup sect with
  | some (.obj fields) => fields.lookup key
  | _ => none

theorem entry_of_none {data : Fields T} {sect : String} (h : data.lookup sect = none)
    (key : String) : entry data sect key = none := by
  unfold entry
  rw [h]

theorem entry_of_obj {data fields : Fields T} {sect : String}
    (h : data.lookup sect = some (.obj fields)) (key : String) :
    entry data sect key = fields.lookup key := by
  unfold entry
  rw [h]

theorem get_eq {self : Config T} (h : Objects self.data) (sect key : String) (default : Json T) :
    self.get sect key default = .ok ((entry self.data sect key).getD default) := by
  unfold get
  cases hsect : self.data.lookup sect with
  | none =>
    rw [entry_of_none hsect]
    rfl
  | some v =>
    obtain ⟨fields, rfl⟩ := h sect v hsect
    rw [entry_of_obj hsect]
    rfl

theorem objects_nil : Objects ([] : Fields T) := by
  intro sect v h
  cases h

theorem objects_assign {data : Fields T} (h : Objects data) (sect : String) (fields : Fields T) :
    Objects (Dict.assign sect (.obj fields) data) := by
  intro sect' v hv
  rw [Dict.assign_lookup] at hv
  split at hv
  · cases hv
    exact ⟨fields, rfl⟩
  · exact h sect' v hv

/-! ### Merging -/

theorem deep_merge_lookup (base : Fields T) {override : Fields T}
    (h : (override.map Prod.fst).Nodup) (k : String) :
    (deep_merge base override).lookup k =
      match override.lookup k with
      | none => base.lookup k
      | some v => some (merged (base.lookup k) v) := by
  induction override generalizing base with
  | nil =>
    rw [deep_merge]
    rfl
  | cons field override ih =>
    obtain ⟨k', v⟩ := field
    rw [List.map_cons, List.nodup_cons] at h
    rw [deep_merge, merge_field, ih _ h.2, Dict.assign_lookup, Dict.lookup_item]
    by_cases heq : k = k'
    · subst heq
      rw [if_pos rfl, Dict.lookup_of_notMem h.1, if_pos rfl]
    · rw [if_neg heq, if_neg heq]

theorem merged_obj (old : Option (Json T)) (override : Fields T) :
    ∃ fields, merged old (.obj override) = .obj fields := by
  unfold merged
  split
  · exact ⟨_, rfl⟩
  · exact ⟨_, rfl⟩

theorem merged_of_not_objects {old : Option (Json T)} {new : Json T}
    (h : ¬((∃ fields, old = some (.obj fields)) ∧ ∃ fields, new = .obj fields)) :
    merged old new = new := by
  cases new with
  | obj override =>
    unfold merged
    split
    · next base => exact absurd ⟨⟨base, rfl⟩, override, rfl⟩ h
    · rfl
  | _ => rfl

/-- The merge of values, where a document has none or the other has none. -/
def mergedAt (old new : Option (Json T)) : Option (Json T) :=
  match new with
  | none => old
  | some v => some (merged old v)

theorem merged_none (v : Json T) : merged none v = v := by
  apply merged_of_not_objects
  rintro ⟨⟨fields, h⟩, -⟩
  cases h

theorem mergedAt_none (new : Option (Json T)) : mergedAt none new = new := by
  cases new with
  | none => rfl
  | some v => exact congrArg some (merged_none v)

/-- Sections are merged key by key. -/
theorem entry_deep_merge {base override : Fields T} (hbase : Objects base)
    (hover : Objects override) (hdistinct : (Json.obj override).Distinct) (sect key : String) :
    entry (deep_merge base override) sect key =
      mergedAt (entry base sect key) (entry override sect key) := by
  obtain ⟨hnodup, hfields⟩ := hdistinct
  have hlookup := deep_merge_lookup base hnodup sect
  cases hnew : override.lookup sect with
  | none =>
    rw [hnew] at hlookup
    rw [entry_of_none hnew]
    unfold entry mergedAt
    rw [hlookup]
  | some v =>
    rw [hnew] at hlookup
    obtain ⟨fields, rfl⟩ := hover sect v hnew
    rw [entry_of_obj hnew]
    cases hold : base.lookup sect with
    | none =>
      rw [hold] at hlookup
      rw [entry_of_obj hlookup, entry_of_none hold]
      unfold mergedAt
      cases fields.lookup key with
      | none => rfl
      | some v =>
        -- nothing is merged into a value that was not there
        cases v <;> rfl
    | some old =>
      obtain ⟨old', rfl⟩ := hbase sect old hold
      have hmem : (sect, Json.obj fields) ∈ override :=
        Dict.mem_of_get (d := ⟨override, hnodup⟩) hnew
      have hfields' : (fields.map Prod.fst).Nodup :=
        ((distinctFields_iff override).mp hfields _ hmem).1
      rw [hold] at hlookup
      rw [entry_of_obj hlookup, entry_of_obj hold, deep_merge_lookup old' hfields']
      rfl

theorem deep_merge_objects {base override : Fields T} (hbase : Objects base)
    (hover : Objects override) (hnodup : (override.map Prod.fst).Nodup) :
    Objects (deep_merge base override) := by
  intro sect v hv
  rw [deep_merge_lookup base hnodup] at hv
  cases hnew : override.lookup sect with
  | none =>
    rw [hnew] at hv
    exact hbase sect v hv
  | some new =>
    rw [hnew] at hv
    obtain ⟨fields, rfl⟩ := hover sect new hnew
    obtain ⟨fields', heq⟩ := merged_obj (base.lookup sect) fields
    cases hv
    exact ⟨fields', heq⟩

/-! ### Variables -/

/-- The text of the last variable that is for the section and the key. -/
def override (env : List (String × String)) (sect key : String) : Option String :=
  ((env.filter fun var => env_parts var.1 = some (sect, key)).getLast?).map Prod.snd

theorem override_cons (name val : String) (env : List (String × String)) (sect key : String) :
    override ((name, val) :: env) sect key =
      match override env sect key with
      | some val' => some val'
      | none => if env_parts name = some (sect, key) then some val else none := by
  unfold override
  rw [List.filter_cons]
  by_cases h : env_parts name = some (sect, key)
  · simp only [h, decide_true, if_true, List.getLast?_cons]
    cases (env.filter fun var => decide (env_parts var.1 = some (sect, key))).getLast? with
    | none => rfl
    | some var => rfl
  · simp only [h, decide_false, Bool.false_eq_true, if_false]
    cases (env.filter fun var => decide (env_parts var.1 = some (sect, key))).getLast? with
    | none => rfl
    | some var => rfl

/-- A key that is set in a section with these fields. -/
theorem entry_assign {data fields : Fields T} {sect₀ : String}
    (h : ∀ key, entry data sect₀ key = fields.lookup key) (key₀ : String) (v : Json T)
    (sect key : String) :
    entry (Dict.assign sect₀ (.obj (Dict.assign key₀ v fields)) data) sect key =
      if (sect₀, key₀) = (sect, key) then some v else entry data sect key := by
  by_cases hs : sect = sect₀
  · subst hs
    have hself : (Dict.assign sect (.obj (Dict.assign key₀ v fields)) data).lookup sect =
        some (.obj (Dict.assign key₀ v fields)) := by rw [Dict.assign_lookup, if_pos rfl]
    rw [entry_of_obj hself, h, Dict.assign_lookup]
    by_cases hk : key = key₀
    · subst hk
      rw [if_pos rfl, if_pos rfl]
    · have hne : (sect, key₀) ≠ (sect, key) := fun heq => hk (Prod.mk.inj heq).2.symm
      rw [if_neg hk, if_neg hne]
  · have hne : (sect₀, key₀) ≠ (sect, key) := fun heq => hs (Prod.mk.inj heq).1.symm
    unfold entry
    rw [Dict.assign_lookup, if_neg hs, if_neg hne]

theorem isSome_assign {data : Fields T} {sect₀ : String} (h : (data.lookup sect₀).isSome = true)
    (v : Json T) (sect : String) :
    ((Dict.assign sect₀ v data).lookup sect).isSome = (data.lookup sect).isSome := by
  rw [Dict.assign_lookup]
  split
  · next heq =>
    rw [heq, h]
    rfl
  · rfl

/-- A value is what the last variable for it gives, if its section is there. -/
theorem apply_env_spec (float : String → Option T) {data : Fields T} (h : Objects data)
    (env : List (String × String)) :
    ∃ data', apply_env_overrides float data env = .ok data' ∧ Objects data' ∧
      ∀ sect key, entry data' sect key =
        match override env sect key with
        | none => entry data sect key
        | some val =>
          if (data.lookup sect).isSome then some (parse_env_val float val) else none := by
  induction env generalizing data with
  | nil => exact ⟨data, rfl, h, fun sect key => rfl⟩
  | cons var env ih =>
    obtain ⟨name, val⟩ := var
    rw [apply_env_overrides]
    cases hparts : env_parts name with
    | none =>
      obtain ⟨data', hrest, hobjects, hdata'⟩ := ih h
      refine ⟨data', hrest, hobjects, fun sect key => ?_⟩
      rw [hdata' sect key, override_cons, hparts]
      cases override env sect key with
      | none => rfl
      | some val' => rfl
    | some parts =>
      obtain ⟨sect₀, key₀⟩ := parts
      dsimp only
      cases hsect : data.lookup sect₀ with
      | none =>
        obtain ⟨data', hrest, hobjects, hdata'⟩ := ih h
        refine ⟨data', hrest, hobjects, fun sect key => ?_⟩
        rw [hdata' sect key, override_cons, hparts]
        cases override env sect key with
        | some val' => rfl
        | none =>
          by_cases heq : (sect₀, key₀) = (sect, key)
          · obtain ⟨rfl, rfl⟩ := Prod.mk.inj heq
            simp [hsect, entry_of_none hsect]
          · simp [heq]
      | some v =>
        obtain ⟨fields, rfl⟩ := h sect₀ v hsect
        have hset : (Json.obj fields).setItem key₀ (parse_env_val float val) =
            .ok (.obj (Dict.assign key₀ (parse_env_val float val) fields)) := rfl
        have hsome : (data.lookup sect₀).isSome = true := by
          rw [hsect]
          rfl
        dsimp only
        rw [hset]
        obtain ⟨data', hrest, hobjects, hdata'⟩ :=
          ih (objects_assign h sect₀ (Dict.assign key₀ (parse_env_val float val) fields))
        refine ⟨data', hrest, hobjects, fun sect key => ?_⟩
        rw [hdata' sect key, override_cons, hparts, isSome_assign hsome,
          entry_assign (entry_of_obj hsect)]
        cases override env sect key with
        | some val' => rfl
        | none =>
          by_cases heq : (sect₀, key₀) = (sect, key)
          · obtain ⟨rfl, rfl⟩ := Prod.mk.inj heq
            simp [hsome]
          · simp [heq]

/-! ### Documents -/

/-- A document of sections. -/
structure Sections (T : Type) where
  fields : Fields T
  distinct : (Json.obj fields).Distinct
  objects : Objects fields

namespace Sections

def file (d : Sections T) : FileContent T := .document ⟨.obj d.fields, d.distinct⟩

def value (d : Sections T) (sect key : String) : Option (Json T) := entry d.fields sect key

/-- A document with one key. -/
def single (sect key : String) (b : Bool) : Sections T where
  fields := [(sect, .obj [(key, .bool b)])]
  distinct := by simp
  objects := by
    intro sect' v hv
    rw [Dict.lookup_item] at hv
    split at hv
    · exact ⟨_, (Option.some.inj hv).symm⟩
    · cases hv

def empty : Sections T where
  fields := []
  distinct := by simp
  objects := objects_nil

theorem value_of_notMem (d : Sections T) {sect : String} (h : sect ∉ d.fields.map Prod.fst)
    (key : String) : d.value sect key = none :=
  entry_of_none (Dict.lookup_of_notMem h) key

theorem value_distinct (d : Sections T) {sect key : String} {v : Json T}
    (h : d.value sect key = some v) : v.Distinct := by
  obtain ⟨hnodup, hfields⟩ := d.distinct
  unfold value at h
  cases hsect : d.fields.lookup sect with
  | none =>
    rw [entry_of_none hsect] at h
    cases h
  | some section_value =>
    obtain ⟨fields, rfl⟩ := d.objects sect section_value hsect
    rw [entry_of_obj hsect] at h
    have hmem : (sect, Json.obj fields) ∈ d.fields :=
      Dict.mem_of_get (d := ⟨d.fields, hnodup⟩) hsect
    obtain ⟨hnodup', hfields'⟩ := (distinctFields_iff d.fields).mp hfields _ hmem
    exact (distinctFields_iff fields).mp hfields' _
      (Dict.mem_of_get (d := ⟨fields, hnodup'⟩) h)

end Sections

theorem load_files_eq (default user : Sections T) :
    load_files default.file user.file = deep_merge (deep_merge [] default.fields) user.fields :=
  rfl

theorem load_files_objects (default user : Sections T) :
    Objects (load_files default.file user.file) := by
  rw [load_files_eq]
  exact deep_merge_objects (deep_merge_objects objects_nil default.objects default.distinct.1)
    user.objects user.distinct.1

theorem load_files_entry (default user : Sections T) (sect key : String) :
    entry (load_files default.file user.file) sect key =
      mergedAt (default.value sect key) (user.value sect key) := by
  rw [load_files_eq, entry_deep_merge (deep_merge_objects objects_nil default.objects
    default.distinct.1) user.objects user.distinct, entry_deep_merge objects_nil default.objects
    default.distinct, entry_of_none rfl, mergedAt_none]
  rfl

end Config
