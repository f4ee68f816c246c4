import Aioscpu.Kernel.ConfigRobustness

/-! # Saving the Configuration

  `save_user` writes all the configuration to the file of the user, which the next `Config` merges
  over the default file. The merge gives back what was saved, unless `set` has put an object over
  a default one and left out keys of it: these come back.
-/

/-! ### Values -/

namespace Json

variable {T : Type}

/-- The values are the same but for the order of keys. -/
inductive Same : Json T → Json T → Prop where
  | refl (v : Json T) : Same v v
  | arr {items items' : List (Json T)} (h : List.Forall₂ Same items items') :
      Same (.arr items) (.arr items')
  | obj {fields fields' : Fields T}
      (h : ∀ key, Option.Rel Same (fields.lookup key) (fields'.lookup key)) :
      Same (.obj fields) (.obj fields')

theorem same_obj_iff {fields fields' : Fields T} :
    Same (.obj fields) (.obj fields') ↔
      ∀ key, Option.Rel Same (fields.lookup key) (fields'.lookup key) := by
  constructor
  · intro h key
    cases h with
    | refl =>
      cases fields.lookup key with
      | none => exact .none
      | some v => exact .some (.refl v)
    | obj h => exact h key
  · exact .obj

mutual

/-- The new value has all keys of the old one, those of objects within objects included. A value
    that is no object takes the place of any other one. -/
def covers : Json T → Json T → Bool
  | .obj old, .obj new => coversFields old new
  | _, _ => true

def coversFields : Fields T → Fields T → Bool
  | [], _ => true
  | field :: old, new => coversField field new && coversFields old new

def coversField : String × Json T → Fields T → Bool
  | (key, v), new =>
    match new.lookup key with
    | some w => covers v w
    | none => false

end

theorem coversFields_iff (old new : Fields T) :
    coversFields old new = true ↔
      ∀ field ∈ old, ∃ w, new.lookup field.1 = some w ∧ covers field.2 w = true := by
  induction old with
  | nil => simp [coversFields]
  | cons field old ih =>
    have hfield : coversField field new = true ↔
        ∃ w, new.lookup field.1 = some w ∧ covers field.2 w = true := by
      obtain ⟨key, v⟩ := field
      rw [coversField]
      cases new.lookup key with
      | none => simp
      | some w => simp
    rw [coversFields, Bool.and_eq_true, hfield, ih, List.forall_mem_cons]

theorem covers_obj_iff {old : Fields T} (h : (old.map Prod.fst).Nodup) (new : Fields T) :
    covers (.obj old) (.obj new) = true ↔
      ∀ key v, old.lookup key = some v → ∃ w, new.lookup key = some w ∧ covers v w = true := by
  rw [covers, coversFields_iff]
  constructor
  · intro hall key v hv
    exact hall _ (Dict.mem_of_get (d := ⟨old, h⟩) hv)
  · intro hall field hfield
    exact hall _ _ (Dict.get_of_mem (d := ⟨old, h⟩) hfield)

theorem covers_of_not_objects {old new : Json T}
    (h : ¬((∃ fields, old = .obj fields) ∧ ∃ fields, new = .obj fields)) :
    covers old new = true := by
  cases old with
  | obj fields =>
    cases new with
    | obj fields' => exact absurd ⟨⟨fields, rfl⟩, fields', rfl⟩ h
    | _ => rfl
  | _ => rw [covers]; simp

mutual

/-- The digits of the longest integer in the value. -/
def digits : Json T → Nat
  | .null => 0
  | .bool _ => 0
  | .int i => (Nat.toDigits 10 i.natAbs).length
  | .float _ => 0
  | .str _ => 0
  | .arr items => digitsItems items
  | .obj fields => digitsFields fields

def digitsItems : List (Json T) → Nat
  | [] => 0
  | v :: items => max (digits v) (digitsItems items)

def digitsFields : Fields T → Nat
  | [] => 0
  | field :: fields => max (digitsField field) (digitsFields fields)

def digitsField : String × Json T → Nat
  | (_, v) => digits v

end

/-- `json.dump` writes the value: it is nested no deeper than the recursion limit allows, and no
    integer has too many digits for `str`. -/
def dumpable (limit : Nat) (v : Json T) : Bool := v.depth ≤ limit && v.digits ≤ 4300

/-- The values of an object have distinct keys. -/
theorem Distinct.lookup {fields : Fields T} (h : (Json.obj fields).Distinct) {key : String}
    {v : Json T} (hv : fields.lookup key = some v) : v.Distinct :=
  (distinctFields_iff fields).mp h.2 _ (Dict.mem_of_get (d := ⟨fields, h.1⟩) hv)

theorem distinct_obj_iff {fields : Fields T} (h : (fields.map Prod.fst).Nodup) :
    (Json.obj fields).Distinct ↔ ∀ key v, fields.lookup key = some v → v.Distinct := by
  constructor
  · intro hdistinct key v hv
    exact hdistinct.lookup hv
  · intro hall
    refine ⟨h, (distinctFields_iff fields).mpr fun field hfield => ?_⟩
    exact hall _ _ (Dict.get_of_mem (d := ⟨fields, h⟩) hfield)

end Json

/-! ### Merging again -/

namespace Config

open Json

variable {T : Type}

theorem deep_merge_nodup {base : Fields T} (h : (base.map Prod.fst).Nodup) (new : Fields T) :
    ((deep_merge base new).map Prod.fst).Nodup := by
  induction new generalizing base with
  | nil =>
    rw [deep_merge]
    exact h
  | cons field new ih =>
    obtain ⟨key, v⟩ := field
    rw [deep_merge, merge_field]
    exact ih (Dict.set ⟨base, h⟩ key (merged (base.lookup key) v)).nodup

theorem deep_merge_mergedAt (base : Fields T) {new : Fields T}
    (h : (new.map Prod.fst).Nodup) (key : String) :
    (deep_merge base new).lookup key = mergedAt (base.lookup key) (new.lookup key) :=
  deep_merge_lookup base h key

@[simp] theorem mergedAt_some (old : Option (Json T)) (v : Json T) :
    mergedAt old (some v) = some (merged old v) := rfl

theorem merged_distinct {new : Json T} (hnew : new.Distinct) {old : Option (Json T)}
    (hold : ∀ v, old = some v → v.Distinct) : (merged old new).Distinct := by
  induction new using obj_induction generalizing old with
  | other v hv =>
    rw [merged_of_not_objects fun h => hv h.2]
    exact hnew
  | obj new ih =>
    by_cases hobj : ∃ base, old = some (.obj base)
    · obtain ⟨base, rfl⟩ := hobj
      have hbase := hold _ rfl
      show (Json.obj (deep_merge base new)).Distinct
      rw [distinct_obj_iff (deep_merge_nodup hbase.1 new)]
      intro key v hv
      rw [deep_merge_mergedAt base hnew.1] at hv
      cases hlookup : new.lookup key with
      | none =>
        rw [hlookup] at hv
        exact hbase.lookup hv
      | some w =>
        rw [hlookup, mergedAt_some] at hv
        obtain rfl := Option.some.inj hv
        exact ih _ (Dict.mem_of_get (d := ⟨new, hnew.1⟩) hlookup) (hnew.lookup hlookup)
          fun v hv => hbase.lookup hv
    · rw [merged_of_not_objects fun h => hobj h.1]
      exact hnew

/-- A value that is merged over an old one comes back if and only if it covers the old one. -/
theorem merged_same_iff {old new : Json T} (hold : old.Distinct) (hnew : new.Distinct) :
    Same (merged (some old) new) new ↔ covers old new = true := by
  induction new using obj_induction generalizing old with
  | other v hv =>
    rw [merged_of_not_objects fun h => hv h.2, covers_of_not_objects fun h => hv h.2]
    exact iff_of_true (.refl v) rfl
  | obj new ih =>
    by_cases hobj : ∃ base, old = .obj base
    · obtain ⟨base, rfl⟩ := hobj
      show Same (.obj (deep_merge base new)) (.obj new) ↔ _
      rw [same_obj_iff, covers_obj_iff hold.1]
      refine forall_congr' fun key => ?_
      rw [deep_merge_mergedAt base hnew.1]
      cases hlookup : new.lookup key with
      | none =>
        -- the key comes back, unless the old value has none either
        cases base.lookup key with
        | none => exact iff_of_true .none (by simp)
        | some v =>
          refine iff_of_false (fun h => ?_) (by simp)
          cases h
      | some w =>
        have hmem : (key, w) ∈ new := Dict.mem_of_get (d := ⟨new, hnew.1⟩) hlookup
        cases hbase : base.lookup key with
        | none =>
          rw [mergedAt_some, merged_none]
          exact iff_of_true (.some (.refl w)) (by simp)
        | some v =>
          have hsame := ih _ hmem (hold.lookup hbase) (hnew.lookup hlookup)
          rw [mergedAt_some, Option.rel_some_some, hsame]
          simp
    · have hnot : ¬((∃ fields, some old = some (.obj fields)) ∧
          ∃ fields, Json.obj new = .obj fields) := by
        rintro ⟨⟨fields, h⟩, -⟩
        exact hobj ⟨fields, Option.some.inj h⟩
      rw [merged_of_not_objects hnot, covers_of_not_objects fun h => hobj h.1]
      exact iff_of_true (.refl _) rfl

theorem covers_self {v : Json T} (h : v.Distinct) : covers v v = true := by
  induction v using obj_induction with
  | other v hv => exact covers_of_not_objects fun h => hv h.1
  | obj fields ih =>
    rw [covers_obj_iff h.1]
    intro key v hv
    exact ⟨v, hv, ih _ (Dict.mem_of_get (d := ⟨fields, h.1⟩) hv) (h.lookup hv)⟩

/-- The merge keeps all keys of the old value. -/
theorem covers_merged {old new : Json T} (hold : old.Distinct) (hnew : new.Distinct) :
    covers old (merged (some old) new) = true := by
  induction new using obj_induction generalizing old with
  | other v hv =>
    rw [merged_of_not_objects fun h => hv h.2]
    exact covers_of_not_objects fun h => hv h.2
  | obj new ih =>
    by_cases hobj : ∃ base, old = .obj base
    · obtain ⟨base, rfl⟩ := hobj
      show covers (.obj base) (.obj (deep_merge base new)) = true
      rw [covers_obj_iff hold.1]
      intro key v hv
      rw [deep_merge_mergedAt base hnew.1, hv]
      cases hlookup : new.lookup key with
      | none =>
        -- the old value stays
        exact ⟨v, rfl, covers_self (hold.lookup hv)⟩
      | some w =>
        have hmem : (key, w) ∈ new := Dict.mem_of_get (d := ⟨new, hnew.1⟩) hlookup
        exact ⟨_, rfl, ih _ hmem (hold.lookup hv) (hnew.lookup hlookup)⟩
    · exact covers_of_not_objects fun h => hobj h.1

/-! ### Settings and files -/

/-- A call of `set`. -/
structure Setting (T : Type) where
  sect : String
  key : String
  value : JsonDocument T

/-- The configuration after these calls. -/
def set_all (self : Config T) (settings : List (Setting T)) : Config T :=
  settings.foldl (fun self s => (self.set s.sect s.key s.value.value).2) self

/-- What the last call for the key has set. -/
def lastSet (settings : List (Setting T)) (sect key : String) : Option (Json T) :=
  (settings.filter fun s => (s.sect, s.key) = (sect, key)).getLast?.map (·.value.value)

/-- Whether `Config.save_user` returns, and what is in the file then. Where `json.dump` raises, a
    part of the text is. -/
def save_user (limit : Nat) (self : Config T) (distinct : (Json.obj self.data).Distinct) :
    Bool × FileContent T :=
  if dumpable limit (.obj self.data) then (true, .document ⟨.obj self.data, distinct⟩)
  else (false, .unreadable)

theorem distinct_assign {fields : Fields T} (h : (Json.obj fields).Distinct) (key : String)
    {v : Json T} (hv : v.Distinct) : (Json.obj (Dict.assign key v fields)).Distinct := by
  have hnodup : ((Dict.assign key v fields).map Prod.fst).Nodup :=
    (Dict.set ⟨fields, h.1⟩ key v).nodup
  rw [distinct_obj_iff hnodup]
  intro key' v' hv'
  rw [Dict.assign_lookup] at hv'
  split at hv'
  · exact Option.some.inj hv' ▸ hv
  · exact h.lookup hv'

/-- The data of a configuration: sections, and no key twice. -/
structure Valid (data : Fields T) : Prop where
  objects : Objects data
  distinct : (Json.obj data).Distinct

theorem set_spec {self : Config T} (h : Valid self.data) (s : Setting T) :
    Valid (self.set s.sect s.key s.value.value).2.data ∧
      ∀ sect key, entry (self.set s.sect s.key s.value.value).2.data sect key =
        if (s.sect, s.key) = (sect, key) then some s.value.value else entry self.data sect key := by
  obtain ⟨fields, hfields, hset⟩ := set_eq h.objects s.sect s.key s.value.value
  have hsection : (Json.obj fields).Distinct ∧
      ∀ key, entry self.data s.sect key = fields.lookup key := by
    cases hsect : self.data.lookup s.sect with
    | none =>
      -- the section is a new one
      rw [hsect] at hfields
      cases hfields
      exact ⟨⟨List.nodup_nil, trivial⟩, fun key => entry_of_none hsect key⟩
    | some v =>
      rw [hsect] at hfields
      obtain rfl : v = .obj fields := hfields
      exact ⟨h.distinct.lookup hsect, fun key => entry_of_obj hsect key⟩
  rw [hset]
  refine ⟨⟨objects_assign h.objects _ _, ?_⟩, entry_assign hsection.2 _ _⟩
  exact distinct_assign h.distinct _ (distinct_assign hsection.1 _ s.value.distinct)

/-- After calls of `set` a key has the value that was set last. -/
theorem set_all_spec {data : Fields T} (h : Valid data) (settings : List (Setting T)) :
    Valid (set_all ⟨data⟩ settings).data ∧
      ∀ sect key, entry (set_all ⟨data⟩ settings).data sect key =
        (lastSet settings sect key).or (entry data sect key) := by
  induction settings using List.reverseRecOn with
  | nil => exact ⟨h, fun _ _ => rfl⟩
  | append_singleton settings s ih =>
    have hall : set_all ⟨data⟩ (settings ++ [s]) =
        ((set_all ⟨data⟩ settings).set s.sect s.key s.value.value).2 := List.foldl_concat ..
    obtain ⟨hvalid, hentry⟩ := set_spec ih.1 s
    rw [hall]
    refine ⟨hvalid, fun sect key => ?_⟩
    rw [hentry, ih.2, lastSet, lastSet, List.filter_append]
    by_cases heq : (s.sect, s.key) = (sect, key)
    · rw [if_pos heq, List.filter_cons_of_pos (by simpa using heq)]
      simp
    · rw [if_neg heq, List.filter_cons_of_neg (by simpa using heq), List.filter_nil,
        List.append_nil]

/-- The file of the user is as good as a document of sections. -/
theorem load_files_sections (default : Sections T) {user : FileContent T} (h : Wellformed user) :
    ∃ d : Sections T, load_files default.file user = load_files default.file d.file := by
  by_cases hobj : ∃ d fields, user = .document d ∧ d.value = .obj fields
  · obtain ⟨⟨v, hdistinct⟩, fields, rfl, rfl⟩ := hobj
    exact ⟨⟨fields, hdistinct, h _ fields rfl rfl⟩, rfl⟩
  · refine ⟨.empty, ?_⟩
    rw [load_files_default default fun d fields hd hv => hobj ⟨d, fields, hd, hv⟩, load_files_eq]
    rfl

theorem load_files_valid (default d : Sections T) :
    Valid (load_files default.file d.file) := by
  refine ⟨load_files_objects default d, ?_⟩
  have hdefault : (merged (some (.obj [])) (.obj default.fields)).Distinct :=
    merged_distinct default.distinct fun v hv => by
      cases hv
      exact ⟨List.nodup_nil, trivial⟩
  show (merged (some (merged (some (.obj [])) (.obj default.fields))) (.obj d.fields)).Distinct
  exact merged_distinct d.distinct fun v hv => Option.some.inj hv ▸ hdefault

/-- Variables for no key override nothing. -/
theorem apply_env_none (float : String → Option T) (data : Fields T)
    {env : List (String × String)} (h : ∀ name ∈ env.map Prod.fst, env_parts name = none) :
    apply_env_overrides float data env = .ok data := by
  induction env with
  | nil => rfl
  | cons var env ih =>
    obtain ⟨name, val⟩ := var
    rw [List.map_cons, List.forall_mem_cons] at h
    rw [apply_env_overrides, h.1]
    exact ih h.2

theorem init_eq (float : String → Option T) (default user : FileContent T)
    {environ : Dict String String} (h : ∀ name ∈ environ.keys, env_parts name = none) :
    init float default user environ = .ok ⟨load_files default user⟩ := by
  unfold init
  rw [apply_env_none float _ h]
  rfl

/-! ### Reloading -/

/-- `save_user` returns, and the next configuration has the same values. -/
def Reloads (limit : Nat) (float : String → Option T) (default : Sections T)
    (user : FileContent T) (environ : Dict String String) (settings : List (Setting T)) : Prop :=
  ∃ first, init float default.file user environ = .ok first ∧
    ∃ distinct : (Json.obj (first.set_all settings).data).Distinct,
      ((first.set_all settings).save_user limit distinct).1 = true ∧
      ∃ second, init float default.file ((first.set_all settings).save_user limit distinct).2
          environ = .ok second ∧
        ∀ sect key d, ∃ v v', (first.set_all settings).get sect key d = .ok v ∧
          second.get sect key d = .ok v' ∧ Same v' v

/-- `json.dump` writes the data that is saved. -/
def Saves (limit : Nat) (float : String → Option T) (default : Sections T)
    (user : FileContent T) (environ : Dict String String) (settings : List (Setting T)) : Prop :=
  ∀ first, init float default.file user environ = .ok first →
    dumpable limit (.obj (first.set_all settings).data) = true

/-- What is set last over a default value has all keys of it. -/
def Covering (default : Sections T) (settings : List (Setting T)) : Prop :=
  ∀ sect key v, lastSet settings sect key = some v →
    ∀ old, default.value sect key = some old → covers old v = true

/-- The same values are read back from the file if what it holds covers the default values. -/
theorem mergedAt_same_iff {old new : Option (Json T)} (hold : ∀ v, old = some v → v.Distinct)
    (hnew : ∀ v, new = some v → v.Distinct) (hkept : new = none → old = none) :
    (∀ d, Same ((mergedAt old new).getD d) (new.getD d)) ↔
      ∀ v, new = some v → ∀ w, old = some w → covers w v = true := by
  cases new with
  | none =>
    rw [hkept rfl]
    exact iff_of_true (fun d => .refl d) (by simp)
  | some v =>
    cases old with
    | none =>
      rw [mergedAt_some, merged_none]
      exact iff_of_true (fun d => .refl v) (by simp)
    | some w =>
      have hsame := merged_same_iff (hold w rfl) (hnew v rfl)
      constructor
      · intro hall v' hv' w' hw'
        cases hv'
        cases hw'
        exact hsame.mp (hall .null)
      · intro hcovers d
        exact hsame.mpr (hcovers v rfl w rfl)

theorem Valid.entry_distinct {data : Fields T} (h : Valid data) {sect key : String} {v : Json T}
    (hv : entry data sect key = some v) : v.Distinct :=
  Sections.value_distinct ⟨data, h.distinct, h.objects⟩ hv

/-- The files agree with themselves: what they give a key covers its default value. -/
theorem load_files_covers (default d : Sections T) {sect key : String} {v w : Json T}
    (hv : entry (load_files default.file d.file) sect key = some v)
    (hw : default.value sect key = some w) : covers w v = true := by
  have hdistinct := default.value_distinct hw
  rw [load_files_entry, hw] at hv
  cases huser : d.value sect key with
  | none =>
    rw [huser] at hv
    obtain rfl := Option.some.inj hv
    exact covers_self hdistinct
  | some u =>
    rw [huser, mergedAt_some] at hv
    obtain rfl := Option.some.inj hv
    exact covers_merged hdistinct (d.value_distinct huser)

/-- The values after a reload, for data that come from the files and from settings. -/
theorem reloaded_iff (default d : Sections T) (settings : List (Setting T)) {saved : Config T}
    (hsaved : saved = set_all ⟨load_files default.file d.file⟩ settings)
    (distinct : (Json.obj saved.data).Distinct) :
    (∀ sect key d', ∃ v v', saved.get sect key d' = .ok v ∧
      get ⟨load_files default.file (.document ⟨.obj saved.data, distinct⟩)⟩ sect key d' = .ok v' ∧
        Same v' v) ↔ Covering default settings := by
  obtain ⟨hvalid, hentry⟩ := set_all_spec (load_files_valid default d) settings
  rw [← hsaved] at hvalid hentry
  let document : Sections T := ⟨saved.data, distinct, hvalid.objects⟩
  -- a default value is never lost
  have hkept : ∀ sect key, entry saved.data sect key = none → default.value sect key = none := by
    intro sect key hnone
    rw [hentry, Option.or_eq_none_iff, load_files_entry] at hnone
    cases hw : default.value sect key with
    | none => rfl
    | some w =>
      have hsome := hnone.2
      rw [hw] at hsome
      cases huser : d.value sect key with
      | none => rw [huser] at hsome; cases hsome
      | some u => rw [huser] at hsome; cases hsome
  have hsame : ∀ sect key, (∀ d', ∃ v v', saved.get sect key d' = .ok v ∧
      get ⟨load_files default.file document.file⟩ sect key d' = .ok v' ∧ Same v' v) ↔
      ∀ v, entry saved.data sect key = some v → ∀ w, default.value sect key = some w →
        covers w v = true := by
    intro sect key
    rw [← mergedAt_same_iff (fun v => default.value_distinct) (fun v => hvalid.entry_distinct)
      (hkept sect key)]
    refine forall_congr' fun d' => ?_
    have hreloaded : get ⟨load_files default.file document.file⟩ sect key d' =
        .ok ((mergedAt (default.value sect key) (entry saved.data sect key)).getD d') := by
      rw [get_eq (by exact load_files_objects default document)]
      show Except.ok ((entry (load_files default.file document.file) sect key).getD d') = _
      rw [load_files_entry]
      rfl
    rw [get_eq hvalid.objects, hreloaded]
    constructor
    · rintro ⟨v, v', hv, hv', h⟩
      cases hv
      cases hv'
      exact h
    · exact fun h => ⟨_, _, rfl, rfl, h⟩
  refine (forall_congr' fun sect => forall_congr' fun key => hsame sect key).trans ?_
  constructor
  · intro h sect key v hv
    exact h sect key v (by rw [hentry, hv]; rfl)
  · intro h sect key v hv w hw
    rw [hentry] at hv
    cases hlast : lastSet settings sect key with
    | some v' =>
      rw [hlast] at hv
      obtain rfl : v' = v := Option.some.inj hv
      exact h sect key v' hlast w hw
    | none =>
      -- the value is still that of the files
      rw [hlast, Option.none_or] at hv
      exact load_files_covers default d hv hw

/-- **A saved configuration is the one that is loaded next if and only if** `json.dump` writes it
    and each value that is set over a default one covers it. -/
theorem reloads_iff (limit : Nat) (float : String → Option T) (default : Sections T)
    {user : FileContent T} (huser : Wellformed user) {environ : Dict String String}
    (hnone : ∀ name ∈ environ.keys, env_parts name = none) (settings : List (Setting T)) :
    Reloads limit float default user environ settings ↔
      Saves limit float default user environ settings ∧ Covering default settings := by
  obtain ⟨d, hd⟩ := load_files_sections default huser
  have hinit := init_eq float default.file user hnone
  constructor
  · rintro ⟨first, hfirst, distinct, hsave, second, hsecond, hget⟩
    obtain rfl := Except.ok.inj (hinit.symm.trans hfirst)
    -- otherwise the file is cut off, and `save_user` raises
    have hdumps : dumpable limit (.obj (set_all ⟨load_files default.file user⟩ settings).data) =
        true := by
      by_contra hnot
      rw [save_user, if_neg hnot] at hsave
      cases hsave
    have hfile : (save_user limit (set_all ⟨load_files default.file user⟩ settings) distinct).2 =
        .document ⟨_, distinct⟩ := by
      rw [save_user, if_pos hdumps]
    rw [hfile, init_eq float _ _ hnone] at hsecond
    obtain rfl := Except.ok.inj hsecond
    refine ⟨fun first hfirst' => ?_, ?_⟩
    · obtain rfl := Except.ok.inj (hfirst.symm.trans hfirst')
      exact hdumps
    · exact (reloaded_iff default d settings (by rw [hd]) distinct).mp hget
  · rintro ⟨hsaves, hcovering⟩
    have hdumps := hsaves _ hinit
    have hvalid := (set_all_spec (load_files_valid default d) settings).1
    rw [← hd] at hvalid
    refine ⟨_, hinit, hvalid.distinct, ?_, _, init_eq float _ _ hnone, ?_⟩
    · rw [save_user, if_pos hdumps]
    · rw [save_user, if_pos hdumps]
      exact (reloaded_iff default d settings (by rw [hd]) hvalid.distinct).mpr hcovering

/-- A default value that is an object. -/
def limits : Sections Int where
  fields := [("hal", .obj [("limits", .obj [("memory", .int 512)])])]
  distinct := by simp
  objects := by
    intro sect v hv
    rw [Dict.lookup_item] at hv
    split at hv
    · exact ⟨_, (Option.some.inj hv).symm⟩
    · cases hv

/-- `set("hal", "limits", value)`. -/
def setLimits (value : JsonDocument Int) : Setting Int := ⟨"hal", "limits", value⟩

/-- An object with the default key, and one more. -/
theorem reloads_iff_more_keys : Reloads 900 (fun _ => none) limits .missing .empty
    [setLimits ⟨.obj [("cores", .int 4), ("memory", .int 256)], by simp⟩] := by
  have huser : Wellformed (.missing : FileContent Int) := by
    intro d fields hd
    cases hd
  refine (reloads_iff 900 _ limits huser (fun name hname => ?_) _).mpr ⟨?_, ?_⟩
  · cases hname
  · intro first hfirst
    cases hfirst
    decide
  · intro sect key v hv old hold
    unfold lastSet at hv
    by_cases heq : ("hal", "limits") = (sect, key)
    · cases heq
      cases hv
      cases hold
      decide
    · rw [List.filter_cons_of_neg (by simpa [setLimits] using heq)] at hv
      cases hv

/-- `{}` over `{"memory": 512}`: the key is back after the reload. -/
theorem removed_key_comes_back :
    dumpable 900 (.obj (set_all ⟨load_files limits.file .missing⟩
      [setLimits ⟨.obj [], by simp⟩]).data) = true ∧
    ¬Reloads 900 (fun _ => none) limits .missing .empty [setLimits ⟨.obj [], by simp⟩] := by
  refine ⟨by decide, ?_⟩
  rintro ⟨first, hfirst, distinct, -, second, hsecond, hget⟩
  cases hfirst
  cases hsecond
  obtain ⟨v, v', hv, hv', hsame⟩ := hget "hal" "limits" .null
  cases hv
  cases hv'
  have hmemory := same_obj_iff.mp hsame "memory"
  cases hmemory

end Config
