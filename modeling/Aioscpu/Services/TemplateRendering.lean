import Aioscpu.Framework.Format
import Aioscpu.Services.DescriptorRoundTrip

/-! # Rendered Templates

  What `_render_service` and `_render_plugin` make of their templates, beside what the
  templates stand for. The expression for the underline has a name in it that `eval` is not
  given, and the doubled braces stay doubled.

  Main results:
  - `rendered_eq`: the placeholders are filled in at once, with what stands in the braces of the
    description evaluated, and all else is left as it is in the template.
  - `never_formatted`: so no name and no description give the text that is meant.
-/

namespace ModuleBuilder

open ConfigParser Template
open scoped PyStr

/-! ### The templates -/

/-- The expressions for the underlines of the titles. -/
def SERVICE_UNDERLINE : Text := "\"=\" * (len(class_name) + 24)".toList

def PLUGIN_UNDERLINE : Text := "\"=\" * (len(name) + 28)".toList

/-- What `_SERVICE_TEMPLATE` has in doubled braces. -/
def STATUS : Text := "\n            \"running\": self._running,\n        ".toList

/-- What `_PLUGIN_TEMPLATE` has in doubled braces. -/
def ARGS : Text := "args!r".toList

/-- `eval` where `len` is the only name. -/
structure Evaluator where
  eval : Text → Option Text
  class_name_unbound : eval SERVICE_UNDERLINE = none
  name_unbound : eval PLUGIN_UNDERLINE = none
  /-- These are no expressions. -/
  status : eval STATUS = none
  args : eval ARGS = none

/-- The fields of `_SERVICE_TEMPLATE`, but for the description. -/
def serviceFields (name : Text) : List (Text × Text) :=
  [("class_name".toList, to_class_name name), ("lower_name".toList, name),
    ("UPPER_NAME".toList, name.map Char.toUpper)]

/-- The fields of `_PLUGIN_TEMPLATE`, but for the description. -/
def pluginFields (name : Text) : List (Text × Text) :=
  [("name".toList, to_class_name name), ("lower_name".toList, name)]

/-- The text that `_SERVICE_TEMPLATE` stands for. -/
def service_text (name description : Text) : Text :=
  format
    (fun field => (serviceFields name ++ [("description".toList, description),
      (SERVICE_UNDERLINE, List.replicate ((to_class_name name).length + 24) '=')]).lookup field)
    SERVICE_TEMPLATE

/-- The text that `_PLUGIN_TEMPLATE` stands for. -/
def plugin_text (name description : Text) : Text :=
  format
    (fun field => (pluginFields name ++ [("description".toList, description),
      (PLUGIN_UNDERLINE, List.replicate ((to_class_name name).length + 28) '=')]).lookup field)
    PLUGIN_TEMPLATE

/-! ### What the templates look like -/

/-- A character or one of these fields. -/
def isPlain (names : List Text) : Part → Bool
  | .lit _ => true
  | .key name => names.contains name
  | .block _ => false

/-- The parts of a template with these fields, an underline and some text in doubled braces. -/
def isKnown (names : List Text) (line inner : Text) : Part → Bool
  | .lit _ => true
  | .key name => name = line || name = "description".toList || names.contains name
  | .block inner' => inner' = [] || inner' = inner

/-- The template has such parts, and after the last doubled braces no description. -/
structure Shape (names : List Text) (line inner t : Text) : Prop where
  free : ∀ part ∈ parse t, part.Free
  known : ∀ part ∈ parse t, isKnown names line inner part = true
  last : ((parse t).rdropWhile (isPlain names)).getLast? = some (.block inner)

theorem shape_iff {names : List Text} {line inner t : Text} :
    ((∀ part ∈ parse t, part.Free) ∧ (∀ part ∈ parse t, isKnown names line inner part = true) ∧
      ((parse t).rdropWhile (isPlain names)).getLast? = some (.block inner)) ↔
      Shape names line inner t :=
  ⟨fun h => ⟨h.1, h.2.1, h.2.2⟩, fun h => ⟨h.free, h.known, h.last⟩⟩

instance (names : List Text) (line inner t : Text) : Decidable (Shape names line inner t) :=
  decidable_of_iff _ shape_iff

theorem service_shape :
    Shape ["class_name".toList, "lower_name".toList, "UPPER_NAME".toList]
      SERVICE_UNDERLINE STATUS SERVICE_TEMPLATE := by
  unfold SERVICE_UNDERLINE STATUS SERVICE_TEMPLATE SERVICE_TEMPLATE_HEAD SERVICE_TEMPLATE_BODY
    unlines
  simp only [List.cons_append, List.nil_append, List.flatMap_cons]
  repeat rw [String.toList_ofList]
  decide +kernel

theorem plugin_shape :
    Shape ["name".toList, "lower_name".toList] PLUGIN_UNDERLINE ARGS PLUGIN_TEMPLATE := by
  unfold PLUGIN_UNDERLINE ARGS PLUGIN_TEMPLATE unlines
  simp only [List.flatMap_cons]
  repeat rw [String.toList_ofList]
  decide +kernel

/-! ### Rendering a template of that shape -/

section Rendering

variable {line inner t : Text} {fields : List (Text × Text)}

/-- What `_render_service` and `_render_plugin` do with their templates. -/
def rendered (eval : Text → Option Text) (fields : List (Text × Text)) (description t : Text) :
    Text :=
  expand_format_exprs eval
    (replace (braces "description".toList) description (replaceAll fields t))

/-- The fields and the texts in doubled braces are different, and have no braces. -/
structure Separate (fields : List (Text × Text)) (inner : Text) : Prop where
  free : ∀ field ∈ fields, Free field.1 ∧ Free field.2
  no_block : ∀ field ∈ fields, field.1 ≠ [] ∧ field.1 ≠ inner
  inner_free : Free inner
  inner_ne : inner ≠ [] ∧ inner ≠ "description".toList

theorem Shape.block (hshape : Shape (fields.map Prod.fst) line inner t) {inner' : Text}
    (h : Part.block inner' ∈ parse t) : inner' = [] ∨ inner' = inner := by
  have hknown := hshape.known _ h
  simpa only [isKnown, Bool.or_eq_true, decide_eq_true_eq] using hknown

/-- The text before `eval` comes in. -/
theorem Shape.replaced (hshape : Shape (fields.map Prod.fst) line inner t)
    (hsep : Separate fields inner) (description : Text) :
    replace (braces "description".toList) description (replaceAll fields t) =
        source (((parse t).map (Part.substAll fields)).map
          (Part.subst "description".toList description)) ∧
      ∀ part ∈ (parse t).map (Part.substAll fields), part.Free := by
  have hblock : ∀ field ∈ fields, Part.block field.1 ∉ parse t := by
    intro field hfield hmem
    rcases hshape.block hmem with heq | heq
    · exact (hsep.no_block field hfield).1 heq
    · exact (hsep.no_block field hfield).2 heq
  obtain ⟨hall, hfree⟩ := replaceAll_source hsep.free hshape.free hblock
  have hdescription : Part.block "description".toList ∉ (parse t).map (Part.substAll fields) := by
    intro hmem
    obtain ⟨part, hpart, heq⟩ := List.mem_map.mp hmem
    rw [Part.substAll_eq_block] at heq
    rcases hshape.block (heq ▸ hpart) with hnil | hinner
    · cases hnil
    · exact hsep.inner_ne.2 hinner.symm
  rw [source_parse] at hall
  rw [hall]
  exact ⟨replace_source (by decide) (by decide) description hfree hdescription, hfree⟩

/-- A part that has been filled in is left as it is if its expressions raise. -/
theorem Shape.expand_eq (hshape : Shape (fields.map Prod.fst) line inner t)
    {eval : Text → Option Text} (hline : eval line = none) (hinner : eval inner = none)
    (description : Text) {part : Part} (hpart : part ∈ parse t) :
    (part.substAll (fields ++ [("description".toList, description)])).expand
        (fun expr => (eval expr).getD (braces expr)) =
      (part.substAll (fields ++ [("description".toList, description)])).source := by
  have hknown := hshape.known part hpart
  cases part with
  | lit t => rfl
  | key name =>
    simp only [isKnown, Bool.or_eq_true, decide_eq_true_eq, List.contains_iff_mem] at hknown
    unfold Part.substAll
    dsimp only
    cases hlookup : (fields ++ [("description".toList, description)]).lookup name with
    | some value => rfl
    | none =>
      -- only the underline is no field
      rw [List.lookup_eq_none_iff] at hlookup
      have hname : name = line := by
        rcases hknown with (heq | heq) | hmem
        · exact heq
        · have hne := hlookup _ (List.mem_append_right _ List.mem_cons_self)
          rw [heq] at hne
          exact absurd rfl (bne_iff_ne.mp hne)
        · obtain ⟨field, hfield, rfl⟩ := List.mem_map.mp hmem
          have hne := hlookup _ (List.mem_append_left _ hfield)
          exact absurd rfl (bne_iff_ne.mp hne)
      show (eval name).getD (braces name) = braces name
      rw [hname, hline]
      rfl
  | block inner' =>
    show '{' :: ((if inner' = [] then braces []
      else (eval inner').getD (braces inner')) ++ ['}']) = _
    rcases hshape.block hpart with hnil | heq
    · rw [if_pos hnil, hnil]
      rfl
    · rw [heq, hinner]
      show '{' :: ((if inner = [] then braces [] else braces inner) ++ ['}']) = _
      split
      · next hnil =>
        rw [hnil]
        rfl
      · rfl

/-- The placeholders are filled in at once, with what stands in the braces of the description
    evaluated, and all else is left as it is in the template. -/
theorem rendered_eq (hshape : Shape (fields.map Prod.fst) line inner t)
    (hsep : Separate fields inner) {eval : Text → Option Text} (hline : eval line = none)
    (hinner : eval inner = none) {description : Text} (h : ¬ Straddles description) :
    rendered eval fields description t =
      source ((parse t).map (Part.substAll
        (fields ++ [("description".toList, expand_format_exprs eval description)]))) := by
  obtain ⟨hreplaced, hfree⟩ := hshape.replaced hsep description
  have hconcat : ∀ part : Part, (part.substAll fields).subst "description".toList
      (expand_format_exprs eval description) = part.substAll
        (fields ++ [("description".toList, expand_format_exprs eval description)]) :=
    fun part => (part.substAll_concat fields _ _).symm
  rw [rendered, hreplaced, expand_format_exprs, subBraces_subst hfree _ h, List.map_map]
  unfold source
  rw [List.flatMap_map, List.flatMap_map]
  refine List.flatMap_congr fun part hpart => ?_
  show ((part.substAll fields).subst _ (expand_format_exprs eval description)).expand _ = _
  rw [hconcat]
  exact hshape.expand_eq hline hinner _ hpart

/-- The last doubled braces of the template, and the plain parts after them. -/
theorem Shape.split (hshape : Shape (fields.map Prod.fst) line inner t) :
    ∃ front back, parse t = front ++ .block inner :: back ∧
      ∀ part ∈ back, isPlain (fields.map Prod.fst) part = true := by
  obtain ⟨front, hfront⟩ := List.getLast?_eq_some_iff.mp hshape.last
  have hsplit :=
    List.rdropWhile_append_rtakeWhile (p := isPlain (fields.map Prod.fst)) (l := parse t)
  rw [hfront, List.append_assoc] at hsplit
  exact ⟨front, _, hsplit.symm, fun part hpart => List.mem_rtakeWhile_imp hpart⟩

/-- A plain part stands for what is filled in for it. -/
theorem plain_lookup {part : Part} (h : isPlain (fields.map Prod.fst) part = true)
    (others : List (Text × Text)) :
    (∃ t, part = .lit t) ∨ ∃ name v, part = .key name ∧ (fields ++ others).lookup name = some v ∧
      fields.lookup name = some v := by
  cases part with
  | lit t => exact Or.inl ⟨t, rfl⟩
  | key name =>
    obtain ⟨field, hfield, rfl⟩ := List.mem_map.mp (List.contains_iff_mem.mp h)
    have hsome : (fields.lookup field.1).isSome = true :=
      List.lookup_isSome_iff.mpr ⟨field, hfield, beq_self_eq_true _⟩
    obtain ⟨v, hv⟩ := Option.isSome_iff_exists.mp hsome
    refine Or.inr ⟨field.1, v, rfl, ?_, hv⟩
    rw [List.lookup_append, hv, Option.some_or]
  | block inner => cases h

/-- What is filled in for a plain part is text. -/
theorem substAll_plain {part : Part} (h : isPlain (fields.map Prod.fst) part = true) :
    ∃ t, part.substAll fields = .lit t := by
  rcases plain_lookup h [] with ⟨t, rfl⟩ | ⟨name, v, rfl, -, hv⟩
  · exact ⟨t, rfl⟩
  · refine ⟨v, ?_⟩
    unfold Part.substAll
    dsimp only
    rw [hv]

/-- So the description does not come into plain parts. -/
theorem map_subst_plain {back : List Part}
    (hback : ∀ part ∈ back, isPlain (fields.map Prod.fst) part = true) (name value : Text) :
    back.map (fun part => (part.substAll fields).subst name value) =
      back.map (Part.substAll fields) := by
  refine List.map_congr_left fun part hpart => ?_
  obtain ⟨t, ht⟩ := substAll_plain (hback part hpart)
  rw [ht]
  rfl

/-- Nor does `eval`. -/
theorem expand_plain {back : List Part}
    (hback : ∀ part ∈ back, isPlain (fields.map Prod.fst) part = true) (f : Text → Text) :
    (back.map (Part.substAll fields)).flatMap (Part.expand f) =
      source (back.map (Part.substAll fields)) := by
  unfold source
  rw [List.flatMap_map, List.flatMap_map]
  refine List.flatMap_congr fun part hpart => ?_
  obtain ⟨t, ht⟩ := substAll_plain (hback part hpart)
  rw [ht]
  rfl

/-- Doubled braces that `eval` raises on stay doubled, whatever is before them. -/
theorem subBraces_block {f : Text → Text} (hne : inner ≠ []) (hf : f inner = braces inner)
    {parts : List Part} (hfree : ∀ part ∈ .block inner :: parts, part.Free) (before : Text) :
    subBraces f (before ++ source (.block inner :: parts)) =
      subBraces f before ++ ((Part.block inner).source ++ parts.flatMap (Part.expand f)) := by
  have hblock : (Part.block inner).expand f = (Part.block inner).source := by
    show '{' :: ((if inner = [] then braces [] else f inner) ++ ['}']) = _
    rw [if_neg hne, hf]
    rfl
  rw [subBraces_append, subBraces_source hfree, List.flatMap_cons, hblock]
  -- no brace before the doubled ones is closed by them
  rintro ⟨-, hfirst⟩
  have hopen : firstBrace (source (.block inner :: parts)) = some '{' := rfl
  rw [hopen] at hfirst
  cases hfirst

/-- The text is never what the template stands for: the last doubled braces stay doubled. -/
theorem rendered_ne (hshape : Shape (fields.map Prod.fst) line inner t)
    (hsep : Separate fields inner) {eval : Text → Option Text} (hinner : eval inner = none)
    (description : Text) (others : List (Text × Text)) :
    rendered eval fields description t ≠
      format (fun field => (fields ++ others).lookup field) t := by
  obtain ⟨hreplaced, hfree⟩ := hshape.replaced hsep description
  obtain ⟨front, back, hparse, hback⟩ := hshape.split
  set f : Text → Text := fun expr => (eval expr).getD (braces expr) with hf
  set fill : Part → Part := fun part =>
    (part.substAll fields).subst "description".toList description with hfill
  have hfreeTail : ∀ part ∈ .block inner :: back.map (Part.substAll fields), part.Free := by
    intro part hpart
    rw [hparse, List.map_append, List.map_cons] at hfree
    exact hfree part (List.mem_append_right _ hpart)
  have hraise : f inner = braces inner := by
    rw [hf]
    dsimp only
    rw [hinner]
    rfl
  have htext : rendered eval fields description t = subBraces f (source (front.map fill)) ++
      ((Part.block inner).source ++ source (back.map (Part.substAll fields))) := by
    rw [← expand_plain hback f, ← subBraces_block hsep.inner_ne.1 hraise hfreeTail,
      ← map_subst_plain hback "description".toList description, rendered, hreplaced, hparse,
      expand_format_exprs, List.map_map]
    show subBraces f (source ((front ++ .block inner :: back).map fill)) = _
    rw [List.map_append, List.map_cons]
    unfold source
    rw [List.flatMap_append]
    rfl
  -- what follows the doubled braces is filled in as the template says
  have hformat : back.flatMap (Part.format fun field => (fields ++ others).lookup field) =
      source (back.map (Part.substAll fields)) :=
    format_eq_source fun part hpart => plain_lookup (hback part hpart) others
  have hmeant : format (fun field => (fields ++ others).lookup field) t =
      front.flatMap (Part.format fun field => (fields ++ others).lookup field) ++
        (braces inner ++ source (back.map (Part.substAll fields))) := by
    rw [format, hparse, List.flatMap_append, List.flatMap_cons, hformat]
    rfl
  rw [htext, hmeant]
  exact block_ne_braces hsep.inner_ne.1 hsep.inner_free _ _ _

end Rendering

/-! ### The two templates -/

variable {name : Text}

theorem service_separate (hname : IsName name) : Separate (serviceFields name) STATUS := by
  have hclass := isName_to_class_name hname
  have hupper := isName_upper hname
  refine ⟨?_, ?_, by decide, by decide⟩
  · simp only [serviceFields, List.forall_mem_cons]
    exact ⟨⟨by decide, hclass.free⟩, ⟨by decide, hname.free⟩, ⟨by decide, hupper.free⟩,
      fun field hfield => by cases hfield⟩
  · simp only [serviceFields, List.forall_mem_cons]
    exact ⟨by decide, by decide, by decide, fun field hfield => by cases hfield⟩

theorem plugin_separate (hname : IsName name) : Separate (pluginFields name) ARGS := by
  have hclass := isName_to_class_name hname
  refine ⟨?_, ?_, by decide, by decide⟩
  · simp only [pluginFields, List.forall_mem_cons]
    exact ⟨⟨by decide, hclass.free⟩, ⟨by decide, hname.free⟩, fun field hfield => by cases hfield⟩
  · simp only [pluginFields, List.forall_mem_cons]
    exact ⟨by decide, by decide, fun field hfield => by cases hfield⟩

theorem filled_service_fields (name description : Text) :
    filled_service name (to_class_name name) description =
      replace (braces "description".toList) description
        (replaceAll (serviceFields name) SERVICE_TEMPLATE) := by
  unfold filled_service serviceFields
  dsimp only
  unfold replaceAll
  rw [List.foldl_cons, List.foldl_cons, List.foldl_cons, List.foldl_nil]

theorem filled_plugin_fields (name description : Text) :
    filled_plugin name description =
      replace (braces "description".toList) description
        (replaceAll (pluginFields name) PLUGIN_TEMPLATE) := by
  unfold filled_plugin pluginFields
  dsimp only
  unfold replaceAll
  rw [List.foldl_cons, List.foldl_cons, List.foldl_nil]

theorem render_service_rendered (eval : Text → Option Text) (name description : Text) :
    render_service eval name (to_class_name name) description =
      rendered eval (serviceFields name) description SERVICE_TEMPLATE := by
  rw [render_service, rendered, filled_service_fields]

theorem render_plugin_rendered (eval : Text → Option Text) (name description : Text) :
    render_plugin eval name description =
      rendered eval (pluginFields name) description PLUGIN_TEMPLATE := by
  rw [render_plugin, rendered, filled_plugin_fields]

theorem serviceFields_shape (name : Text) :
    Shape ((serviceFields name).map Prod.fst) SERVICE_UNDERLINE STATUS SERVICE_TEMPLATE := by
  unfold serviceFields
  simp only [List.map_cons, List.map_nil]
  exact service_shape

theorem pluginFields_shape (name : Text) :
    Shape ((pluginFields name).map Prod.fst) PLUGIN_UNDERLINE ARGS PLUGIN_TEMPLATE := by
  unfold pluginFields
  simp only [List.map_cons, List.map_nil]
  exact plugin_shape

/-- What `_render_service` returns. -/
theorem render_service_eq (ev : Evaluator) (hname : IsName name) {description : Text}
    (h : ¬ Straddles description) :
    render_service ev.eval name (to_class_name name) description =
      source ((parse SERVICE_TEMPLATE).map (Part.substAll (serviceFields name ++
        [("description".toList, expand_format_exprs ev.eval description)]))) := by
  rw [render_service_rendered]
  exact rendered_eq (serviceFields_shape name) (service_separate hname) ev.class_name_unbound
    ev.status h

/-- What `_render_plugin` returns. -/
theorem render_plugin_eq (ev : Evaluator) (hname : IsName name) {description : Text}
    (h : ¬ Straddles description) :
    render_plugin ev.eval name description =
      source ((parse PLUGIN_TEMPLATE).map (Part.substAll (pluginFields name ++
        [("description".toList, expand_format_exprs ev.eval description)]))) := by
  rw [render_plugin_rendered]
  exact rendered_eq (pluginFields_shape name) (plugin_separate hname) ev.name_unbound ev.args h

theorem render_service_ne (ev : Evaluator) (hname : IsName name) (description : Text) :
    render_service ev.eval name (to_class_name name) description ≠
      service_text name description := by
  rw [render_service_rendered]
  exact rendered_ne (serviceFields_shape name) (service_separate hname) ev.status description _

theorem render_plugin_ne (ev : Evaluator) (hname : IsName name) (description : Text) :
    render_plugin ev.eval name description ≠ plugin_text name description := by
  rw [render_plugin_rendered]
  exact rendered_ne (pluginFields_shape name) (plugin_separate hname) ev.args description _

/-- **Rendering**: no name and no description give the text that the template stands for. -/
theorem never_formatted (ev : Evaluator) {lower : Text → Text} {raw name : Text}
    (h : sanitize lower raw = some name) (description : Text) :
    render_service ev.eval name (to_class_name name) description ≠ service_text name description ∧
      render_plugin ev.eval name description ≠ plugin_text name description := by
  have hname : IsName name := fun c hc => isNameChar_of_isWord ((sanitize_spec h).1 c hc)
  exact ⟨render_service_ne ev hname description, render_plugin_ne ev hname description⟩

/-- An `eval` that raises for all expressions in the templates. -/
def raising : Evaluator := ⟨fun _ => none, rfl, rfl, rfl, rfl⟩

/-- A service and a plugin of this name. -/
theorem never_formatted_backup :
    render_service raising.eval "backup".toList (to_class_name "backup".toList)
        "Backs up.".toList ≠ service_text "backup".toList "Backs up.".toList ∧
      render_plugin raising.eval "backup".toList "Backs up.".toList ≠
        plugin_text "backup".toList "Backs up.".toList :=
  have hname : sanitize id "backup".toList = some "backup".toList := by decide +kernel
  never_formatted raising hname _

/-- The service of the name `b`. -/
theorem one_letter_not_formatted :
    render_service raising.eval "b".toList (to_class_name "b".toList) "B.".toList ≠
      service_text "b".toList "B.".toList :=
  render_service_ne raising (by decide) _

end ModuleBuilder
