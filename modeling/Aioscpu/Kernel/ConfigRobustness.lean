import Aioscpu.Kernel.ConfigLayers

/-! # Robustness of the Configuration

  A file of the user that holds no JSON, or no object, changes nothing. But
  `_deep_merge` puts whatever an object has in the place of a section, and where that is
  no object, each accessor raises.
-/

namespace Config

open Json

variable {T : Type}

/-! ### Calls -/

inductive Call (T : Type) where
  | get (sect key : String) (default : Json T)
  | get_section (sect : String)
  | set (sect key : String) (value : Json T)
  | apply_mobile_profile

/-- What a call raises, and the configuration after it. -/
def call (self : Config T) : Call T → Except String Unit × Config T
  | .get sect key default => ((self.get sect key default).map fun _ => (), self)
  | .get_section sect => ((self.get_section sect).map fun _ => (), self)
  | .set sect key value => self.set sect key value
  | .apply_mobile_profile => self.apply_mobile_profile

/-- The same for calls one after the other. -/
def calls (self : Config T) : List (Call T) → List (Except String Unit) × Config T
  | [] => ([], self)
  | c :: cs => ((self.call c).1 :: ((self.call c).2.calls cs).1, ((self.call c).2.calls cs).2)

/-- A value is set in the section, or in a new one. -/
theorem set_eq {self : Config T} (h : Objects self.data) (sect key : String) (value : Json T) :
    ∃ fields, (self.data.lookup sect).getD (.obj []) = .obj fields ∧
      self.set sect key value =
        (.ok (), ⟨Dict.assign sect (.obj (Dict.assign key value fields)) self.data⟩) := by
  have hsection : ∃ fields, (self.data.lookup sect).getD (.obj []) = .obj fields := by
    cases hsect : self.data.lookup sect with
    | none => exact ⟨[], rfl⟩
    | some v => exact h sect v hsect
  obtain ⟨fields, hfields⟩ := hsection
  refine ⟨fields, hfields, ?_⟩
  unfold set
  rw [hfields]
  rfl

theorem set_objects {self : Config T} (h : Objects self.data) (sect key : String)
    (value : Json T) :
    (self.set sect key value).1 = .ok () ∧ Objects (self.set sect key value).2.data := by
  obtain ⟨fields, -, hset⟩ := set_eq h sect key value
  rw [hset]
  exact ⟨rfl, objects_assign h sect (Dict.assign key value fields)⟩

theorem set_mobile_objects {self : Config T} (h : Objects self.data) (mobile : Fields T)
    (sect key key' : String) (default : Int) :
    (self.set_mobile (.obj mobile) sect key key' default).1 = .ok () ∧
      Objects (self.set_mobile (.obj mobile) sect key key' default).2.data :=
  set_objects h sect key ((mobile.lookup key').getD (.int default))

theorem apply_mobile_profile_objects {self : Config T} (h : Objects self.data) :
    self.apply_mobile_profile.1 = .ok () ∧ Objects self.apply_mobile_profile.2.data := by
  have hsection : ∃ mobile, (self.data.lookup "mobile").getD (.obj []) = .obj mobile := by
    cases hsect : self.data.lookup "mobile" with
    | none => exact ⟨[], rfl⟩
    | some v => exact h "mobile" v hsect
  obtain ⟨mobile, hmobile⟩ := hsection
  unfold apply_mobile_profile
  rw [hmobile]
  dsimp only
  have htick := set_mobile_objects h mobile "kernel" "tick_interval_ms" "tick_interval_ms" 100
  generalize self.set_mobile (.obj mobile) "kernel" "tick_interval_ms" "tick_interval_ms" 100 =
    first at htick ⊢
  obtain ⟨r, self₁⟩ := first
  obtain ⟨rfl, hobjects₁⟩ := htick
  have hmemory := set_mobile_objects hobjects₁ mobile "hal" "max_memory_mb" "max_memory_mb" 256
  dsimp only
  generalize self₁.set_mobile (.obj mobile) "hal" "max_memory_mb" "max_memory_mb" 256 =
    second at hmemory ⊢
  obtain ⟨r, self₂⟩ := second
  obtain ⟨rfl, hobjects₂⟩ := hmemory
  exact set_mobile_objects hobjects₂ mobile "kernel" "max_task_queue" "max_task_queue" 256

theorem get_section_ok {self : Config T} (h : Objects self.data) (sect : String) :
    (self.get_section sect).map (fun _ => ()) = .ok () := by
  unfold get_section
  cases hsect : self.data.lookup sect with
  | none => rfl
  | some v =>
    obtain ⟨fields, rfl⟩ := h sect v hsect
    rfl

/-- While all sections are objects, a call raises nothing and keeps them so. -/
theorem call_objects {self : Config T} (h : Objects self.data) (c : Call T) :
    (self.call c).1 = .ok () ∧ Objects (self.call c).2.data := by
  cases c with
  | get sect key default =>
    refine ⟨?_, h⟩
    show (self.get sect key default).map (fun _ => ()) = .ok ()
    rw [get_eq h]
    rfl
  | get_section sect => exact ⟨get_section_ok h sect, h⟩
  | set sect key value => exact set_objects h sect key value
  | apply_mobile_profile => exact apply_mobile_profile_objects h

theorem calls_ok {self : Config T} (h : Objects self.data) (cs : List (Call T)) :
    ∀ r ∈ (self.calls cs).1, r = .ok () := by
  induction cs generalizing self with
  | nil =>
    intro r hr
    cases hr
  | cons c cs ih =>
    obtain ⟨hok, hobjects⟩ := call_objects h c
    intro r hr
    rcases List.mem_cons.mp hr with rfl | hr
    · exact hok
    · exact ih hobjects r hr

/-! ### Sections that are no objects -/

/-- No variable makes an object of a section that is none. -/
theorem apply_env_lookup (float : String → Option T) {data data' : Fields T}
    {env : List (String × String)} (h : apply_env_overrides float data env = .ok data')
    {sect : String} {v : Json T} (hsect : data.lookup sect = some v)
    (hv : ¬∃ fields, v = .obj fields) : data'.lookup sect = some v := by
  induction env generalizing data with
  | nil =>
    cases h
    exact hsect
  | cons var env ih =>
    obtain ⟨name, val⟩ := var
    rw [apply_env_overrides] at h
    cases hparts : env_parts name with
    | none =>
      rw [hparts] at h
      exact ih h hsect
    | some parts =>
      obtain ⟨sect₀, key₀⟩ := parts
      rw [hparts] at h
      dsimp only at h
      cases hsect₀ : data.lookup sect₀ with
      | none =>
        rw [hsect₀] at h
        exact ih h hsect
      | some w =>
        rw [hsect₀] at h
        dsimp only at h
        cases hset : w.setItem key₀ (parse_env_val float val) with
        | error text =>
          rw [hset] at h
          cases h
        | ok w' =>
          rw [hset] at h
          refine ih h ?_
          have hne : sect ≠ sect₀ := by
            rintro rfl
            cases hsect.symm.trans hsect₀
            cases v with
            | obj fields => exact hv ⟨fields, rfl⟩
            | _ => cases hset
          rw [Dict.assign_lookup, if_neg hne]
          exact hsect

theorem get_error {self : Config T} {sect : String} {v : Json T}
    (h : self.data.lookup sect = some v) (hv : ¬∃ fields, v = .obj fields) (key : String)
    (default : Json T) : ∃ text, self.get sect key default = .error text := by
  unfold get
  rw [h]
  cases v with
  | obj fields => exact absurd ⟨fields, rfl⟩ hv
  | _ => exact ⟨_, rfl⟩

/-! ### Robustness -/

/-- The value is an object of objects. -/
def ObjectOfObjects (v : Json T) : Prop := ∃ fields, v = .obj fields ∧ Objects fields

/-- The document overrides the section by an object. -/
def ValidlyOverrides (v : Json T) (sect : String) : Prop :=
  ∃ fields fields', v = .obj fields ∧ fields.lookup sect = some (.obj fields')

/-- No content of the file of the user stops the configuration. -/
structure Robust (float : String → Option T) (default : Sections T) (user : FileContent T)
    (environ : Dict String String) : Prop where
  constructs : ∃ self, init float default.file user environ = .ok self
  calls : ∀ self, init float default.file user environ = .ok self →
    ∀ cs, ∀ r ∈ (self.calls cs).1, r = .ok ()
  /-- A default value is there, but where a variable is for its key. -/
  readable : ∀ self, init float default.file user environ = .ok self → ∀ d, user = .document d →
    ¬ObjectOfObjects d.value → ∀ sect, ¬ValidlyOverrides d.value sect → ∀ key v,
    default.value sect key = some v → override environ.items sect key = none →
    ∀ v', self.get sect key v' = .ok v

/-- If there is an object in the file of the user, then its sections are objects. -/
def Wellformed (user : FileContent T) : Prop :=
  ∀ d fields, user = .document d → d.value = .obj fields → Objects fields

theorem load_files_default (default : Sections T) {user : FileContent T}
    (h : ∀ d fields, user = .document d → d.value ≠ .obj fields) :
    load_files default.file user = deep_merge [] default.fields := by
  cases user with
  | missing => rfl
  | unreadable => rfl
  | document d =>
    obtain ⟨v, hdistinct⟩ := d
    cases v with
    | obj fields => exact absurd rfl (h _ fields rfl)
    | _ => rfl

theorem load_files_wellformed (default : Sections T) {user : FileContent T}
    (h : Wellformed user) : Objects (load_files default.file user) := by
  have hdefault : Objects (deep_merge [] default.fields) :=
    deep_merge_objects objects_nil default.objects default.distinct.1
  by_cases hobj : ∃ d fields, user = .document d ∧ d.value = .obj fields
  · obtain ⟨⟨v, hdistinct⟩, fields, rfl, rfl⟩ := hobj
    exact deep_merge_objects hdefault (h _ fields rfl rfl) hdistinct.1
  · rw [load_files_default default fun d fields hd hv => hobj ⟨d, fields, hd, hv⟩]
    exact hdefault

theorem value_readable {float : String → Option T} {default : Sections T} {user : FileContent T}
    {environ : Dict String String} {self : Config T}
    (hself : init float default.file user environ = .ok self)
    (huser : ∀ d fields, user = .document d → d.value ≠ .obj fields) {sect key : String}
    {v : Json T} (hv : default.value sect key = some v)
    (hnone : override environ.items sect key = none) (v' : Json T) :
    self.get sect key v' = .ok v := by
  have hdefault : Objects (deep_merge [] default.fields) :=
    deep_merge_objects objects_nil default.objects default.distinct.1
  obtain ⟨data, hdata, hobjects, hvalues⟩ := apply_env_spec float hdefault environ.items
  unfold init at hself
  rw [load_files_default default huser, hdata] at hself
  cases hself
  have hentry : entry data sect key = some v := by
    rw [hvalues sect key, hnone]
    show entry (deep_merge [] default.fields) sect key = some v
    rw [entry_deep_merge objects_nil default.objects default.distinct, entry_of_none rfl,
      mergedAt_none]
    exact hv
  rw [get_eq hobjects, hentry]
  rfl

/-- A section that is no object replaces the one by default. -/
theorem not_robust {float : String → Option T} {default : Sections T} {fields : Fields T}
    {hdistinct : (Json.obj fields).Distinct} {environ : Dict String String} {sect : String}
    {v : Json T} (hsect : fields.lookup sect = some v) (hv : ¬∃ fields, v = .obj fields) :
    ¬Robust float default (.document ⟨.obj fields, hdistinct⟩) environ := by
  intro h
  obtain ⟨self, hself⟩ := h.constructs
  have hload : (load_files default.file (.document ⟨.obj fields, hdistinct⟩)).lookup sect =
      some v := by
    show (deep_merge (deep_merge [] default.fields) fields).lookup sect = some v
    rw [deep_merge_lookup _ hdistinct.1, hsect]
    dsimp only
    rw [merged_of_not_objects fun h => hv h.2]
  have hdata : self.data.lookup sect = some v := by
    unfold init at hself
    cases henv : apply_env_overrides float
        (load_files default.file (.document ⟨.obj fields, hdistinct⟩)) environ.items with
    | error text =>
      rw [henv] at hself
      cases hself
    | ok data =>
      rw [henv] at hself
      cases hself
      exact apply_env_lookup float henv hload hv
  obtain ⟨text, hget⟩ := get_error hdata hv "" .null
  have hcall := h.calls self hself [.get sect "" .null] ((self.get sect "" .null).map fun _ => ())
    (List.mem_singleton_self _)
  rw [hget] at hcall
  cases hcall

theorem robust_iff_wellformed (float : String → Option T) (default : Sections T)
    (user : FileContent T) (environ : Dict String String) :
    Robust float default user environ ↔ Wellformed user := by
  constructor
  · rintro h ⟨v, hdistinct⟩ fields rfl rfl sect w hw
    by_contra hnot
    exact not_robust hw hnot h
  · intro h
    have hobjects := load_files_wellformed default h
    obtain ⟨data, hdata, hdata', -⟩ := apply_env_spec float hobjects environ.items
    have hself : init float default.file user environ = .ok ⟨data⟩ := by
      unfold init
      rw [hdata]
      rfl
    refine ⟨⟨⟨data⟩, hself⟩, ?_, ?_⟩
    · intro self hself' cs
      cases hself.symm.trans hself'
      exact calls_ok hdata' cs
    · intro self hself' d huser hnot sect _ key v hv hnone v'
      -- the document is no object at all
      refine value_readable hself' (fun d' fields hd' hobj => ?_) hv hnone v'
      cases huser.symm.trans hd'
      exact hnot ⟨fields, hobj, h d fields huser hobj⟩

/-- `"kernel": null`. -/
theorem null_section : ¬Robust (T := Int) (fun _ => none) (.single "kernel" "adaptive_tick" true)
    (.document ⟨.obj [("kernel", .null)], by simp⟩) .empty := by
  have hsect : List.lookup "kernel" [("kernel", (.null : Json Int))] = some .null := rfl
  refine not_robust hsect ?_
  rintro ⟨fields, h⟩
  cases h

end Config
