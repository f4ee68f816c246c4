import Aioscpu.Models.ModelManager

/-! # Active Model

  Which models are shown as loaded, and which one is active. `unload` takes the
  flag of the active model back; the other operations that change the active
  name do not, and `register` puts a new entry in the place of an old one.

  Main result (`agrees_iff_keeps`): flags and name agree throughout a run if
  and only if each step meets a condition on the state it finds.
-/

namespace ModelManager

/-! ### Agreement -/

/-- An entry is shown as loaded if and only if its name is the active one. -/
def Agrees (s : State) : Prop :=
  ∀ name info, s.registry.get name = some info → (info.loaded = true ↔ s.active = some name)

/-- At most one entry is shown as loaded. -/
def AtMostOne (s : State) : Prop :=
  ∀ name name' info info', s.registry.get name = some info → s.registry.get name' = some info' →
    info.loaded = true → info'.loaded = true → name = name'

theorem Agrees.atMostOne {s : State} (h : Agrees s) : AtMostOne s := by
  intro name name' info info' hget hget' hloaded hloaded'
  have hactive := (h name info hget).mp hloaded
  have hactive' := (h name' info' hget').mp hloaded'
  exact Option.some.inj (hactive.symm.trans hactive')

/-- A model file, and not yet registered. -/
def Wanted (s : State) (entry : DirEntry) : Prop :=
  entry.is_file = true ∧ PyStr.lower (splitext entry.name) ∈ MODEL_EXTENSIONS ∧
    s.registry.get (stem entry.name) = none

/-- The name can become the active one: of the registered names, it is or becomes active with
    this one only. -/
def Takes (s : State) (name : String) : Prop :=
  ∀ other info, s.registry.get other = some info → (s.active = some other ↔ name = other)

/-- What each step has to find. -/
def Keeps (s : State) : Label → Prop
  | .register name .. => s.active ≠ some name
  | .scan_models_dir entries =>
    ∀ entry ∈ entries, Wanted s entry → s.active ≠ some (stem entry.name)
  | .load name _ => ∀ info, s.registry.get name = some info → s.disk info.path ≠ none →
    ¬ (s.max_memory_mb : ℚ) < info.size_mb.value →
      ∀ other info', other ≠ name → s.registry.get other = some info' → s.active ≠ some other
  | .unload => s.active = some "" → s.registry.get "" = none
  | .load_ollama model _ is_available => is_available = true → Takes s ("ollama:" ++ model)
  | .load_openai model .. => Takes s ("openai:" ++ orElse model "gpt-4o-mini")
  | .change _ => True
  | .restart _ => True

/-! ### Steps -/

theorem register_get (s : State) (name path model_type description : String) (save : Save)
    (other : String) : ∃ info : ModelInfo, info.loaded = false ∧
      (register s name path model_type description save).registry.get other =
        if other = name then some info else s.registry.get other := by
  let path' := if isabs path then path else join s.models_dir path
  exact ⟨⟨name, path', model_type, SizeMb.of ((s.disk path').getD 0), description, false⟩, rfl,
    Dict.get_set ..⟩

theorem register_agrees {s : State} (h : Agrees s) (name path model_type description : String)
    (save : Save) : Agrees (register s name path model_type description save) ↔
      s.active ≠ some name := by
  constructor
  · intro hagrees hactive
    obtain ⟨info, hnew, hget⟩ := register_get s name path model_type description save name
    rw [if_pos rfl] at hget
    have hloaded := (hagrees name info hget).mpr hactive
    rw [hnew] at hloaded
    cases hloaded
  · intro hactive other info hget
    obtain ⟨info', hnew, hget'⟩ := register_get s name path model_type description save other
    rw [hget'] at hget
    split at hget
    · next heq =>
      obtain rfl := Option.some.inj hget
      subst heq
      rw [hnew]
      exact iff_of_false (by simp) hactive
    · exact h other info hget

/-- What a scan leaves of the registry. -/
structure Scanned (s s' : State) (entries : List DirEntry) : Prop where
  active : s'.active = s.active
  kept : ∀ name info, s.registry.get name = some info → s'.registry.get name = some info
  fresh : ∀ name info, s.registry.get name = none → s'.registry.get name = some info →
    info.loaded = false ∧ ∃ entry ∈ entries, Wanted s entry ∧ stem entry.name = name
  found : ∀ entry ∈ entries, Wanted s entry → s'.registry.get (stem entry.name) ≠ none

theorem scan_entry_of_wanted {s : State} {entry : DirEntry} (h : Wanted s entry) :
    scan_entry s entry = register s (stem entry.name) (join s.models_dir entry.name)
      (PyStr.lstrip (PyStr.lower (splitext entry.name)) '.') "" entry.save := by
  obtain ⟨hfile, hext, hnew⟩ := h
  unfold scan_entry
  dsimp only
  rw [if_neg (not_not.mpr hfile), if_neg (not_not.mpr hext), if_neg (not_not.mpr hnew)]

theorem scan_entry_of_not_wanted {s : State} {entry : DirEntry} (h : ¬ Wanted s entry) :
    scan_entry s entry = s := by
  unfold scan_entry
  dsimp only
  split
  · rfl
  · next hfile =>
    split
    · rfl
    · next hext =>
      split
      · rfl
      · next hnew => exact absurd ⟨not_not.mp hfile, not_not.mp hext, not_not.mp hnew⟩ h

/-- An entry that is registered, and the rest of the directory. -/
theorem Scanned.wanted {s s' : State} {entry : DirEntry} {entries : List DirEntry}
    (hwanted : Wanted s entry) (hrest : Scanned (scan_entry s entry) s' entries) :
    Scanned s s' (entry :: entries) := by
  rw [scan_entry_of_wanted hwanted] at hrest
  have hget := register_get s (stem entry.name) (join s.models_dir entry.name)
    (PyStr.lstrip (PyStr.lower (splitext entry.name)) '.') "" entry.save
  -- a name that the rest finds new is new before
  have hbefore : ∀ entry', Wanted (register s (stem entry.name)
      (join s.models_dir entry.name) (PyStr.lstrip (PyStr.lower (splitext entry.name)) '.') ""
        entry.save) entry' → Wanted s entry' := by
    rintro entry' ⟨hfile, hext, hnone⟩
    obtain ⟨info, -, hother⟩ := hget (stem entry'.name)
    rw [hother] at hnone
    split at hnone
    · cases hnone
    · exact ⟨hfile, hext, hnone⟩
  refine ⟨hrest.active, fun name info hsome => ?_, fun name info hnone hsome => ?_,
    fun entry' hmem hwanted' => ?_⟩
  · obtain ⟨info', -, hother⟩ := hget name
    refine hrest.kept name info ?_
    rw [hother, if_neg]
    · exact hsome
    · rintro rfl
      rw [hwanted.2.2] at hsome
      cases hsome
  · obtain ⟨info', hnew, hother⟩ := hget name
    by_cases heq : name = stem entry.name
    · rw [if_pos heq] at hother
      have hkept := hrest.kept name info' hother
      rw [hkept] at hsome
      obtain rfl := Option.some.inj hsome
      exact ⟨hnew, entry, List.mem_cons_self, hwanted, heq.symm⟩
    · rw [if_neg heq] at hother
      obtain ⟨hloaded, entry', hmem, hwanted', hname⟩ :=
        hrest.fresh name info (hother.trans hnone) hsome
      exact ⟨hloaded, entry', List.mem_cons_of_mem _ hmem, hbefore entry' hwanted', hname⟩
  · obtain ⟨info', -, hother⟩ := hget (stem entry'.name)
    by_cases heq : stem entry'.name = stem entry.name
    · rw [if_pos heq] at hother
      rw [hrest.kept _ info' hother]
      exact Option.some_ne_none _
    · rw [if_neg heq] at hother
      rcases List.mem_cons.mp hmem with rfl | hmem
      · exact absurd rfl heq
      · exact hrest.found entry' hmem ⟨hwanted'.1, hwanted'.2.1, hother.trans hwanted'.2.2⟩

/-- An entry that is passed over, and the rest of the directory. -/
theorem Scanned.not_wanted {s s' : State} {entry : DirEntry} {entries : List DirEntry}
    (hwanted : ¬ Wanted s entry) (hrest : Scanned (scan_entry s entry) s' entries) :
    Scanned s s' (entry :: entries) := by
  rw [scan_entry_of_not_wanted hwanted] at hrest
  refine ⟨hrest.active, hrest.kept, fun name info hnone hsome => ?_,
    fun entry' hmem hwanted' => ?_⟩
  · obtain ⟨hloaded, entry', hmem, hrest'⟩ := hrest.fresh name info hnone hsome
    exact ⟨hloaded, entry', List.mem_cons_of_mem _ hmem, hrest'⟩
  · rcases List.mem_cons.mp hmem with rfl | hmem
    · exact absurd hwanted' hwanted
    · exact hrest.found entry' hmem hwanted'

theorem scan_scanned (s : State) (entries : List DirEntry) :
    Scanned s (scan_models_dir s entries) entries := by
  induction entries generalizing s with
  | nil =>
    refine ⟨rfl, fun _ _ h => h, fun name info hnone hsome => ?_,
      fun _ hmem => absurd hmem List.not_mem_nil⟩
    have hsame : s.registry.get name = some info := hsome
    rw [hnone] at hsame
    cases hsame
  | cons entry entries ih =>
    by_cases hwanted : Wanted s entry
    · exact Scanned.wanted hwanted (ih (scan_entry s entry))
    · exact Scanned.not_wanted hwanted (ih (scan_entry s entry))

theorem scan_agrees {s : State} (h : Agrees s) (entries : List DirEntry) :
    Agrees (scan_models_dir s entries) ↔
      ∀ entry ∈ entries, Wanted s entry → s.active ≠ some (stem entry.name) := by
  have hscanned := scan_scanned s entries
  constructor
  · intro hagrees entry hmem hwanted hactive
    obtain ⟨info, hget⟩ := Option.ne_none_iff_exists'.mp (hscanned.found entry hmem hwanted)
    obtain ⟨hloaded, -⟩ := hscanned.fresh _ info hwanted.2.2 hget
    have htrue := (hagrees _ info hget).mpr (hscanned.active.trans hactive)
    rw [hloaded] at htrue
    cases htrue
  · intro hactive name info hget
    rw [hscanned.active]
    cases hbefore : s.registry.get name with
    | some info' =>
      rw [hscanned.kept name info' hbefore] at hget
      obtain rfl := Option.some.inj hget
      exact h name info' hbefore
    | none =>
      obtain ⟨hloaded, entry, hmem, hwanted, rfl⟩ := hscanned.fresh name info hbefore hget
      rw [hloaded]
      exact iff_of_false (by simp) (hactive entry hmem hwanted)

theorem load_agrees {s : State} (h : Agrees s) (name : String) (starts : Bool) :
    Agrees (load s name starts).1 ↔ Keeps s (.load name starts) := by
  cases hreturned : (load s name starts).2 with
  | false =>
    rw [load_of_false hreturned]
    refine iff_of_true h fun info hget hfile hsize => ?_
    -- such a model would have been loaded
    have htrue : (load s name starts).2 = true := load_iff.mpr ⟨info, hget, hfile, hsize⟩
    rw [hreturned] at htrue
    cases htrue
  | true =>
    obtain ⟨info, hget, hactive, hregistry⟩ := load_of_true hreturned
    obtain ⟨info₁, hget₁, hfile, hsize⟩ := load_iff.mp hreturned
    obtain rfl := Option.some.inj (hget₁.symm.trans hget)
    unfold Agrees
    rw [hactive, hregistry]
    constructor
    · intro hagrees info' hget' _ _ other info'' hne hother hother_active
      have hiff := hagrees other info'' (by rw [Dict.get_set, if_neg hne, hother])
      have hname := hiff.mp ((h other info'' hother).mpr hother_active)
      exact hne (Option.some.inj hname).symm
    · intro hkeeps other info' hother
      rw [Dict.get_set] at hother
      split at hother
      · next heq =>
        obtain rfl := Option.some.inj hother
        rw [heq]
        exact iff_of_true rfl rfl
      · next hne =>
        rw [h other info' hother]
        refine iff_of_false (hkeeps info₁ hget hfile hsize other info' hne hother) fun heq => ?_
        exact hne (Option.some.inj heq).symm

theorem unload_agrees {s : State} (h : Agrees s) :
    Agrees (unload s) ↔ (s.active = some "" → s.registry.get "" = none) := by
  unfold Agrees unload clear_loaded
  cases hactive : s.active with
  | none =>
    refine iff_of_true (fun name info hget => ?_) fun heq => by cases heq
    have hiff := h name info hget
    rw [hactive] at hiff
    exact hiff
  | some active =>
    dsimp only
    by_cases hempty : active = ""
    · subst hempty
      rw [if_pos rfl]
      constructor
      · intro hagrees _
        by_contra hsome
        obtain ⟨info, hget⟩ := Option.ne_none_iff_exists'.mp hsome
        have hfalse := (hagrees "" info hget).mp ((h "" info hget).mpr hactive)
        cases hfalse
      · intro hnone name info hget
        refine iff_of_false (fun hloaded => ?_) (by simp)
        have heq := (h name info hget).mp hloaded
        rw [hactive] at heq
        rw [← Option.some.inj heq, hnone rfl] at hget
        cases hget
    · rw [if_neg hempty]
      refine iff_of_true (fun name info hget => ?_) fun heq =>
        absurd (Option.some.inj heq) hempty
      refine iff_of_false (fun hloaded => ?_) (by simp)
      cases hbefore : s.registry.get active with
      | none =>
        rw [hbefore] at hget
        have heq := (h name info hget).mp hloaded
        rw [hactive] at heq
        obtain rfl := Option.some.inj heq
        rw [hbefore] at hget
        cases hget
      | some info' =>
        rw [hbefore] at hget
        dsimp only at hget
        rw [Dict.get_set] at hget
        split at hget
        · obtain rfl := Option.some.inj hget
          cases hloaded
        · next hne =>
          have heq := (h name info hget).mp hloaded
          rw [hactive] at heq
          exact hne (Option.some.inj heq).symm

/-- A remote backend becomes active; the flags stay as they are. -/
theorem takes_agrees {s s' : State} (h : Agrees s) {name : String}
    (hregistry : s'.registry = s.registry) (hactive : s'.active = some name) :
    Agrees s' ↔ Takes s name := by
  unfold Agrees Takes
  rw [hregistry, hactive]
  constructor
  · intro hagrees other info hget
    rw [← h other info hget, hagrees other info hget, Option.some_inj]
  · intro htakes other info hget
    rw [h other info hget, htakes other info hget, Option.some_inj]

theorem new_agrees (models_dir : String) (max_memory_mb : Int) (saved : Saved) (disk : Disk) :
    Agrees (new models_dir max_memory_mb saved disk) := by
  intro name info hget
  rw [(load_registry_get hget).1]
  exact iff_of_false (by simp) (by simp [new])

/-- **One step**: the agreement is kept if and only if the step finds what it has to. -/
theorem step_agrees {s : State} (h : Agrees s) (l : Label) :
    Agrees (step s l).1 ↔ Keeps s l := by
  cases l with
  | register name path model_type description save =>
    exact register_agrees h name path model_type description save
  | scan_models_dir entries => exact scan_agrees h entries
  | load name starts => exact load_agrees h name starts
  | unload => exact unload_agrees h
  | load_ollama model base_url is_available =>
    cases is_available with
    | false => exact iff_of_true h fun htrue => by cases htrue
    | true =>
      have htakes : Agrees (load_ollama s model base_url true).1 ↔ Takes s ("ollama:" ++ model) :=
        takes_agrees h rfl rfl
      exact htakes.trans ⟨fun ht _ => ht, fun ht => ht rfl⟩
  | load_openai model api_key api_base environ_key =>
    have htakes : Agrees (load_openai s model api_key api_base environ_key) ↔
        Takes s ("openai:" ++ orElse model "gpt-4o-mini") := takes_agrees h rfl rfl
    exact htakes
  | change disk => exact iff_of_true h trivial
  | restart max_memory_mb => exact iff_of_true (new_agrees _ _ _ _) trivial

/-! ### Runs -/

/-- **Active and loaded**: in every state of a run the flags agree with the active name, and so at
    most one entry is shown as loaded, if and only if no step registers the active name, makes
    a name active besides an entry that is, or unloads a model with an empty name. -/
theorem agrees_iff_keeps {models_dir : String} {max_memory_mb : Int} {saved : Saved} {disk : Disk}
    {ls : List Label} {s : State} {tr : List Loading}
    (hrun : machine.run (new models_dir max_memory_mb saved disk) ls = some (s, tr)) :
    machine.Along Keeps (new models_dir max_memory_mb saved disk) ls ↔
      ∀ pre t tr', pre <+: ls →
        machine.run (new models_dir max_memory_mb saved disk) pre = some (t, tr') →
          Agrees t ∧ AtMostOne t := by
  rw [machine.along_iff_throughout (I := fun t _ => Agrees t) (new_agrees _ _ _ _)
    (fun pre l t tr' t' os _ _ hagrees hstep => ?_) hrun]
  · constructor
    · intro h pre t tr' hpre hrun'
      have hagrees := h pre t tr' hpre hrun'
      exact ⟨hagrees, hagrees.atMostOne⟩
    · exact fun h pre t tr' hpre hrun' => (h pre t tr' hpre hrun').1
  · rw [(machine_step hstep).1]
    exact (step_agrees hagrees l).symm

/-- Every file has one byte. -/
def smallFiles : Disk := fun _ => some 1

/-- Two models, and the calls after their registration. -/
def twoModels (calls : List Label) : List Label :=
  [.register "a" "a.gguf" "gguf" "" .written, .register "b" "b.gguf" "gguf" "" .written] ++ calls

theorem agrees_iff_keeps_unloaded :
    ∃ s tr, machine.run (new "m" 512 .missing smallFiles)
        (twoModels [.load "a" true, .unload, .load "b" true]) = some (s, tr) ∧
      (machine.Along Keeps (new "m" 512 .missing smallFiles)
          (twoModels [.load "a" true, .unload, .load "b" true]) ↔
        ∀ pre t tr', pre <+: twoModels [.load "a" true, .unload, .load "b" true] →
          machine.run (new "m" 512 .missing smallFiles) pre = some (t, tr') →
            Agrees t ∧ AtMostOne t) := by
  obtain ⟨s, tr, hrun, -⟩ := machine.exists_run (new "m" 512 .missing smallFiles)
    (twoModels [.load "a" true, .unload, .load "b" true]) (fun _ _ => true) (by decide +kernel)
  exact ⟨s, tr, hrun, agrees_iff_keeps hrun⟩

/-- The second model is loaded after the first one: both are shown as loaded. -/
theorem both_shown_loaded :
    ∃ s tr, machine.run (new "m" 512 .missing smallFiles)
        (twoModels [.load "a" true, .load "b" true]) = some (s, tr) ∧
      ¬ Agrees s ∧ ¬ AtMostOne s := by
  obtain ⟨s, tr, hrun, htest⟩ := machine.exists_run (new "m" 512 .missing smallFiles)
    (twoModels [.load "a" true, .load "b" true])
    (fun s _ => (s.registry.get "a").any ModelInfo.loaded &&
      (s.registry.get "b").any ModelInfo.loaded) (by decide +kernel)
  rw [Bool.and_eq_true, Option.any_eq_true, Option.any_eq_true] at htest
  obtain ⟨⟨a, ha, hloaded⟩, b, hb, hloaded'⟩ := htest
  have hmany : ¬ AtMostOne s := fun h =>
    absurd (h "a" "b" a b ha hb hloaded hloaded') (by decide)
  exact ⟨s, tr, hrun, fun h => hmany h.atMostOne, hmany⟩

end ModelManager
