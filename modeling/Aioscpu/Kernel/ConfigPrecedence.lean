import Mathlib
import Aioscpu.Kernel.ConfigLayers

/-! # Precedence of the Configuration

  A variable comes before the file of the user, and that file before the default one.
  "AURA_CFG_<SECTION>_<KEY>=value overrides any config key", but the section ends at the
  first underscore of the name: no variable is for a section whose name has one.
-/

/-! ### Letters -/

namespace PyStr

theorem lower_upper {s : String} (h : lower s = s) : lower (upper s) = s := by
  have hmap : lower (upper s) = lower s := by
    unfold lower upper
    rw [String.toList_ofList, List.map_map]
    congr 2
    funext c
    exact Char.toLower_toUpper_eq_toLower c
  rw [hmap, h]

theorem upper_lower {s : String} (h : upper s = s) : upper (lower s) = s := by
  have hmap : upper (lower s) = upper s := by
    unfold lower upper
    rw [String.toList_ofList, List.map_map]
    congr 2
    funext c
    exact Char.toUpper_toLower_eq_toUpper c
  rw [hmap, h]

theorem lower_append (s t : String) : lower (s ++ t) = lower s ++ lower t := by
  unfold lower
  rw [String.toList_append, List.map_append, String.ofList_append]

theorem upper_append (s t : String) : upper (s ++ t) = upper s ++ upper t := by
  unfold upper
  rw [String.toList_append, List.map_append, String.ofList_append]

theorem startswith_iff (s start : String) :
    startswith s start = true ↔ ∃ t, s = start ++ t := by
  unfold startswith
  rw [List.isPrefixOf_iff_prefix]
  constructor
  · rintro ⟨t, ht⟩
    refine ⟨String.ofList t, String.toList_injective ?_⟩
    rw [String.toList_append, String.toList_ofList, ht]
  · rintro ⟨t, rfl⟩
    exact ⟨t.toList, String.toList_append.symm⟩

end PyStr

namespace Config

open Json

variable {T : Type}

/-! ### Names of variables -/

/-- `AURA_CFG_<SECTION>_<KEY>`. -/
def variable_name (sect key : String) : String :=
  env_start ++ (PyStr.upper sect ++ ("_" ++ PyStr.upper key))

theorem upper_parts {rest sect key : String} (h : PyStr.upper rest = rest)
    (hparts : PyStr.lower rest = sect ++ ("_" ++ key)) :
    rest = PyStr.upper sect ++ ("_" ++ PyStr.upper key) := by
  calc rest = PyStr.upper (PyStr.lower rest) := (PyStr.upper_lower h).symm
    _ = PyStr.upper sect ++ (PyStr.upper "_" ++ PyStr.upper key) := by
      rw [hparts, PyStr.upper_append, PyStr.upper_append]
    _ = PyStr.upper sect ++ ("_" ++ PyStr.upper key) := by rfl

theorem lower_parts {sect key : String} (hsect : PyStr.lower sect = sect)
    (hkey : PyStr.lower key = key) :
    PyStr.lower (PyStr.upper sect ++ ("_" ++ PyStr.upper key)) = sect ++ ("_" ++ key) := by
  rw [PyStr.lower_append, PyStr.lower_append, PyStr.lower_upper hsect, PyStr.lower_upper hkey]
  rfl

theorem env_parts_append (rest : String) :
    env_parts (env_start ++ rest) =
      if '_' ∈ (PyStr.lower rest).toList then
        some (String.ofList ((PyStr.lower rest).toList.takeWhile (· ≠ '_')),
          String.ofList ((PyStr.lower rest).toList.dropWhile (· ≠ '_')).tail)
      else none := by
  have hstart : PyStr.startswith (env_start ++ rest) env_start = true :=
    (PyStr.startswith_iff _ _).mpr ⟨rest, rfl⟩
  have hdrop : (env_start ++ rest).toList.drop env_start.length = rest.toList := by
    rw [String.toList_append, ← String.length_toList, List.drop_left]
  unfold env_parts
  rw [if_pos hstart, hdrop, String.ofList_toList]

/-- A text is split at its first underscore. -/
theorem split_underscore {cs : List Char} (h : '_' ∈ cs) (s k : List Char) :
    cs.takeWhile (· ≠ '_') = s ∧ (cs.dropWhile (· ≠ '_')).tail = k ↔
      '_' ∉ s ∧ cs = s ++ '_' :: k := by
  induction cs generalizing s with
  | nil => cases h
  | cons c cs ih =>
    by_cases hc : c = '_'
    · -- the split is here, so nothing comes before it
      subst hc
      cases s with
      | nil => simp
      | cons d s => simp; grind
    · have hmem : '_' ∈ cs := by
        rcases List.mem_cons.mp h with heq | hmem
        · exact absurd heq.symm hc
        · exact hmem
      cases s with
      | nil => simp [hc]
      | cons d s =>
        have hrest := ih hmem s
        simp only [ne_eq, decide_not] at hrest
        simp [hc]
        grind

theorem upper_rest {rest : String} (h : PyStr.upper (env_start ++ rest) = env_start ++ rest) :
    PyStr.upper rest = rest := by
  have hstart : PyStr.upper env_start = env_start := by decide
  rw [PyStr.upper_append, hstart] at h
  have hlist := congrArg String.toList h
  rw [String.toList_append, String.toList_append] at hlist
  exact String.toList_injective (List.append_cancel_left hlist)

/-- Which variable is for a key: none if the name of the section has an underscore. -/
theorem env_parts_iff {name sect key : String} (hname : PyStr.upper name = name)
    (hsect : PyStr.lower sect = sect) (hkey : PyStr.lower key = key) :
    env_parts name = some (sect, key) ↔ '_' ∉ sect.toList ∧ name = variable_name sect key := by
  by_cases hstart : ∃ rest, name = env_start ++ rest
  · obtain ⟨rest, rfl⟩ := hstart
    have hrest := upper_rest hname
    have hparts : (PyStr.lower rest).toList = sect.toList ++ '_' :: key.toList ↔
        env_start ++ rest = variable_name sect key := by
      have htext : (PyStr.lower rest).toList = sect.toList ++ '_' :: key.toList ↔
          PyStr.lower rest = sect ++ ("_" ++ key) := by
        rw [← String.toList_inj, String.toList_append, String.toList_append]
        rfl
      rw [htext]
      constructor
      · intro h
        rw [upper_parts hrest h]
        rfl
      · intro h
        have hlist := congrArg String.toList h
        unfold variable_name at hlist
        rw [String.toList_append, String.toList_append] at hlist
        rw [String.toList_injective (List.append_cancel_left hlist), lower_parts hsect hkey]
    rw [env_parts_append]
    -- a name without a second underscore is for no key
    by_cases hunder : '_' ∈ (PyStr.lower rest).toList
    · rw [if_pos hunder, Option.some.injEq, Prod.mk.injEq, ← hparts,
        ← split_underscore hunder]
      rw [← String.toList_inj, ← String.toList_inj, String.toList_ofList, String.toList_ofList]
    · rw [if_neg hunder, ← hparts]
      constructor
      · intro h
        cases h
      · intro h
        rw [h.2] at hunder
        exact absurd (List.mem_append_right _ (List.mem_cons_self ..)) hunder
  · have hnone : env_parts name = none := by
      unfold env_parts
      rw [if_neg fun h => hstart ((PyStr.startswith_iff _ _).mp h)]
    rw [hnone]
    constructor
    · intro h
      cases h
    · intro h
      exact absurd ⟨_, h.2⟩ hstart

/-- Variables of other keys and sections change nothing of a key. -/
theorem override_eq {env : List (String × String)} (hnodup : (env.map Prod.fst).Nodup)
    (hupper : ∀ name ∈ env.map Prod.fst, PyStr.upper name = name) {sect key : String}
    (hsect : PyStr.lower sect = sect) (hkey : PyStr.lower key = key) :
    override env sect key =
      if '_' ∈ sect.toList then none else env.lookup (variable_name sect key) := by
  induction env with
  | nil =>
    show none = if '_' ∈ sect.toList then none else none
    rw [ite_self]
  | cons var env ih =>
    obtain ⟨name, val⟩ := var
    rw [List.map_cons, List.nodup_cons] at hnodup
    rw [List.map_cons, List.forall_mem_cons] at hupper
    have hparts := env_parts_iff hupper.1 hsect hkey
    rw [override_cons, ih hnodup.2 hupper.2, Dict.lookup_item]
    by_cases hunder : '_' ∈ sect.toList
    · have hnone : env_parts name ≠ some (sect, key) := fun h => (hparts.mp h).1 hunder
      rw [if_pos hunder, if_pos hunder, if_neg hnone]
    · rw [if_neg hunder, if_neg hunder]
      by_cases heq : name = variable_name sect key
      · -- the name is not there once more
        subst heq
        rw [Dict.lookup_of_notMem hnodup.1, if_pos rfl]
        dsimp only
        rw [if_pos (hparts.mpr ⟨hunder, rfl⟩)]
      · have hne : ¬variable_name sect key = name := fun h => heq h.symm
        have hnone : env_parts name ≠ some (sect, key) := fun h => heq (hparts.mp h).2
        rw [if_neg hne, if_neg hnone]
        cases env.lookup (variable_name sect key) with
        | none => rfl
        | some val' => rfl

/-! ### Merging -/

/-- What two documents make of a value: the second comes first, but objects are
    merged key by key. -/
inductive Merged : Option (Json T) → Option (Json T) → Option (Json T) → Prop where
  | default (old : Option (Json T)) : Merged old none old
  | user (old : Option (Json T)) (new : Json T)
      (h : ¬((∃ fields, old = some (.obj fields)) ∧ ∃ fields, new = .obj fields)) :
      Merged old (some new) (some new)
  | objects (old new fields : Fields T)
      (h : ∀ key, Merged (old.lookup key) (new.lookup key) (fields.lookup key)) :
      Merged (some (.obj old)) (some (.obj new)) (some (.obj fields))

theorem merged_spec {new : Json T} (hdistinct : new.Distinct) (old : Option (Json T)) :
    Merged old (some new) (some (merged old new)) := by
  induction new using obj_induction generalizing old with
  | other v hv =>
    have hnot : ¬((∃ fields, old = some (.obj fields)) ∧ ∃ fields, v = .obj fields) :=
      fun h => hv h.2
    rw [merged_of_not_objects hnot]
    exact .user old v hnot
  | obj override ih =>
    by_cases hnot : (∃ fields, old = some (.obj fields)) ∧ ∃ fields, Json.obj override = .obj fields
    · obtain ⟨⟨base, rfl⟩, -⟩ := hnot
      obtain ⟨hnodup, hfields⟩ := hdistinct
      refine .objects base override _ fun key => ?_
      rw [deep_merge_lookup base hnodup]
      cases hnew : override.lookup key with
      | none => exact .default _
      | some v =>
        have hmem : (key, v) ∈ override := Dict.mem_of_get (d := ⟨override, hnodup⟩) hnew
        exact ih _ hmem ((distinctFields_iff override).mp hfields _ hmem) (base.lookup key)
    · rw [merged_of_not_objects hnot]
      exact .user old _ hnot

theorem mergedAt_spec {old new : Option (Json T)} (h : ∀ v, new = some v → v.Distinct) :
    Merged old new (mergedAt old new) := by
  cases new with
  | none => exact .default old
  | some v => exact merged_spec (h v rfl) old

/-- A value that is no object is the one or the other. -/
theorem mergedAt_eq_some_iff {v : Json T} (hv : ¬∃ fields, v = .obj fields)
    (old new : Option (Json T)) : mergedAt old new = some v ↔ new.or old = some v := by
  cases new with
  | none => exact Iff.rfl
  | some w =>
    show some (merged old w) = some v ↔ some w = some v
    by_cases hobjects : (∃ fields, old = some (.obj fields)) ∧ ∃ fields, w = .obj fields
    · obtain ⟨-, override, rfl⟩ := hobjects
      obtain ⟨fields, hmerged⟩ := merged_obj old override
      rw [hmerged]
      constructor
      · intro h
        exact absurd ⟨fields, (Option.some.inj h).symm⟩ hv
      · intro h
        exact absurd ⟨override, (Option.some.inj h).symm⟩ hv
    · rw [merged_of_not_objects hobjects]

theorem parse_env_val_not_obj (float : String → Option T) (val : String) :
    ¬∃ fields, parse_env_val float val = .obj fields := by
  rintro ⟨fields, h⟩
  unfold parse_env_val at h
  split at h
  · cases h
  · split at h
    · cases h
    · split at h
      · cases h
      · split at h
        · cases h
        · cases h

/-! ### The three layers -/

/-- A document of sections with names in lower case. -/
structure SectionDocument (T : Type) extends Sections T where
  lower : ∀ sect ∈ fields.map Prod.fst, PyStr.lower sect = sect

namespace SectionDocument

/-- A document with one key. -/
def single (sect key : String) (b : Bool) (h : PyStr.lower sect = sect) : SectionDocument T where
  toSections := .single sect key b
  lower := by
    intro sect' hmem
    rw [List.mem_singleton.mp hmem]
    exact h

def empty : SectionDocument T where
  toSections := .empty
  lower := by simp [Sections.empty]

end SectionDocument

/-- The section is in one of the files. -/
def Listed (default user : SectionDocument T) (sect : String) : Prop :=
  sect ∈ default.fields.map Prod.fst ∨ sect ∈ user.fields.map Prod.fst

instance (default user : SectionDocument T) (sect : String) :
    Decidable (Listed default user sect) :=
  inferInstanceAs (Decidable (_ ∨ _))

theorem load_files_listed (default user : SectionDocument T) (sect : String) :
    ((load_files default.file user.file).lookup sect).isSome = true ↔
      Listed default user sect := by
  rw [load_files_eq, deep_merge_lookup _ user.distinct.1, deep_merge_lookup _ default.distinct.1]
  unfold Listed
  rw [← Dict.lookup_isSome_iff, ← Dict.lookup_isSome_iff]
  cases user.fields.lookup sect with
  | some v => simp
  | none =>
    cases default.fields.lookup sect with
    | some v => simp
    | none => simp

/-- The value that the three layers give a key. -/
def effective (float : String → Option T) (default user : SectionDocument T)
    (environ : Dict String String) (sect key : String) : Option (Json T) :=
  match if '_' ∈ sect.toList then none else environ.get (variable_name sect key) with
  | none => mergedAt (default.value sect key) (user.value sect key)
  | some text => if Listed default user sect then some (parse_env_val float text) else none

theorem init_spec (float : String → Option T) (default user : SectionDocument T)
    {environ : Dict String String} (hupper : ∀ name ∈ environ.keys, PyStr.upper name = name) :
    ∃ self, init float default.file user.file environ = .ok self ∧
      ∀ sect key, PyStr.lower sect = sect → PyStr.lower key = key → ∀ d,
        self.get sect key d =
          .ok ((effective float default user environ sect key).getD d) := by
  obtain ⟨data, hdata, hobjects, hvalues⟩ :=
    apply_env_spec float (load_files_objects default.toSections user.toSections) environ.items
  refine ⟨⟨data⟩, ?_, ?_⟩
  · unfold init
    rw [hdata]
    rfl
  · intro sect key hsect hkey d
    rw [get_eq hobjects, hvalues sect key, override_eq environ.nodup hupper hsect hkey,
      load_files_entry]
    simp only [load_files_listed]
    rfl

/-! ### Precedence -/

/-- The value of a key is that of its variable, else of the file of the user, else the
    default one, and other variables do not change it. -/
structure Precedence (float : String → Option T) (default user : SectionDocument T)
    (environ : Dict String String) : Prop where
  value : ∃ self, init float default.file user.file environ = .ok self ∧
    ∀ sect key, PyStr.lower sect = sect → PyStr.lower key = key → ∃ v,
      (∀ d, self.get sect key d = .ok (v.getD d)) ∧
      match environ.get (variable_name sect key) with
      | some text =>
        if Listed default user sect then v = some (parse_env_val float text)
        else Merged (default.value sect key) (user.value sect key) v
      | none => Merged (default.value sect key) (user.value sect key) v
  independent : ∀ name text, PyStr.upper name = name → ∀ sect key, PyStr.lower sect = sect →
    PyStr.lower key = key → name ≠ variable_name sect key → ∀ d,
    (init float default.file user.file (environ.set name text)).map (·.get sect key d) =
      (init float default.file user.file environ).map (·.get sect key d)

/-- The condition. -/
def Overridable (float : String → Option T) (default user : SectionDocument T)
    (environ : Dict String String) : Prop :=
  ∀ sect key text, Listed default user sect → '_' ∈ sect.toList → PyStr.lower key = key →
    environ.get (variable_name sect key) = some text →
    (user.value sect key).or (default.value sect key) = some (parse_env_val float text)

theorem getD_injective {x y : Option (Json T)} (h : ∀ d, x.getD d = y.getD d) : x = y := by
  cases x with
  | none =>
    cases y with
    | none => rfl
    | some w => cases (h .null).trans (h (.bool true)).symm
  | some v =>
    cases y with
    | none => cases (h .null).symm.trans (h (.bool true))
    | some w => exact congrArg some (h .null)

theorem mergedAt_values (default user : SectionDocument T) (sect key : String) :
    Merged (default.value sect key) (user.value sect key)
      (mergedAt (default.value sect key) (user.value sect key)) :=
  mergedAt_spec fun _ h => user.value_distinct h

theorem effective_of_underscore (float : String → Option T) (default user : SectionDocument T)
    (environ : Dict String String) {sect : String} (h : '_' ∈ sect.toList) (key : String) :
    effective float default user environ sect key =
      mergedAt (default.value sect key) (user.value sect key) := by
  unfold effective
  rw [if_pos h]

theorem independent (float : String → Option T) (default user : SectionDocument T)
    {environ : Dict String String} (hupper : ∀ name ∈ environ.keys, PyStr.upper name = name)
    {name : String} (text : String) (hname : PyStr.upper name = name) {sect key : String}
    (hsect : PyStr.lower sect = sect) (hkey : PyStr.lower key = key)
    (hne : name ≠ variable_name sect key) (d : Json T) :
    (init float default.file user.file (environ.set name text)).map (·.get sect key d) =
      (init float default.file user.file environ).map (·.get sect key d) := by
  have hupper' : ∀ name' ∈ (environ.set name text).keys, PyStr.upper name' = name' := by
    intro name' hmem
    rw [Dict.keys_set] at hmem
    split at hmem
    · exact hupper name' hmem
    · rcases List.mem_append.mp hmem with hmem | hmem
      · exact hupper name' hmem
      · rw [List.mem_singleton.mp hmem]
        exact hname
  obtain ⟨self, hself, hget⟩ := init_spec float default user hupper
  obtain ⟨self', hself', hget'⟩ := init_spec float default user hupper'
  have heffective : effective float default user (environ.set name text) sect key =
      effective float default user environ sect key := by
    unfold effective
    rw [Dict.get_set_of_ne fun h => hne h.symm]
  rw [hself, hself']
  show Except.ok (self'.get sect key d) = Except.ok (self.get sect key d)
  rw [hget sect key hsect hkey, hget' sect key hsect hkey, heffective]

end Config
