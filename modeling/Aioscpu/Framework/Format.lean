import Aioscpu.Framework.Template

/-! # Templates with Doubled Braces

  A template is read once: a field in braces stands for its value, doubled braces for single
  ones, and any other character for itself.

  - `replaceAll_source`: replacements one after another fill in the fields that one reading of
    the template does.
  - `subBraces_source`: what a substitution of what stands in braces makes of doubled braces.
-/

namespace Template

/-- A part of a template. -/
inductive Part where
  | lit (t : List Char)
  | key (name : List Char)
  /-- What stands in doubled braces. -/
  | block (inner : List Char)
deriving DecidableEq

namespace Part

def source : Part → List Char
  | lit t => t
  | key name => braces name
  | block inner => '{' :: (braces inner ++ ['}'])

/-- What the part stands for. -/
def format (value : List Char → Option (List Char)) : Part → List Char
  | lit t => t
  | key name => (value name).getD (braces name)
  | block inner => braces inner

/-- There are no braces but those of the part. -/
def Free : Part → Prop
  | lit t => Template.Free t
  | key name => name ≠ [] ∧ Template.Free name
  | block inner => Template.Free inner

instance : ∀ part : Part, Decidable part.Free
  | lit t => inferInstanceAs (Decidable (Template.Free t))
  | key name => inferInstanceAs (Decidable (name ≠ [] ∧ Template.Free name))
  | block inner => inferInstanceAs (Decidable (Template.Free inner))

/-- The part with the value of a field. -/
def subst (name value : List Char) : Part → Part
  | key name' => if name' = name then lit value else key name'
  | part => part

/-- The part with the values of fields. -/
def substAll (fields : List (List Char × List Char)) : Part → Part
  | key name =>
    match fields.lookup name with
    | some value => lit value
    | none => key name
  | part => part

/-- What a substitution of what stands in braces makes of the part. -/
def expand (f : List Char → List Char) : Part → List Char
  | lit t => t
  | key name => f name
  | block inner => '{' :: ((if inner = [] then braces [] else f inner) ++ ['}'])

end Part

def source (parts : List Part) : List Char := parts.flatMap Part.source

/-! ### Reading a template -/

/-- The part that begins with the opening brace before the text. -/
def field : List Char → Option Part
  | '{' :: rest =>
    if ['}', '}'] <+: rest.dropWhile (fun c => !isBrace c) then
      some (.block (rest.takeWhile fun c => !isBrace c))
    else none
  | rest => (braced rest).map .key

/-- The parts of a text, when so many characters have been dealt with already. -/
def parseFrom : Nat → List Char → List Part
  | _, [] => []
  | skip + 1, _ :: rest => parseFrom skip rest
  | 0, c :: rest =>
    match if c = '{' then field rest else none with
    | some part => part :: parseFrom (part.source.length - 1) rest
    | none => .lit [c] :: parseFrom 0 rest

def parse (t : List Char) : List Part := parseFrom 0 t

/-- The text that a template stands for. -/
def format (value : List Char → Option (List Char)) (t : List Char) : List Char :=
  (parse t).flatMap (Part.format value)

theorem braced_prefix {rest e : List Char} (h : braced rest = some e) : e ++ ['}'] <+: rest := by
  unfold braced at h
  dsimp only at h
  split at h
  · next hboth =>
    cases h
    obtain ⟨-, hclose⟩ := hboth
    have hsplit := List.takeWhile_append_dropWhile (p := fun c => !isBrace c) (l := rest)
    cases hdrop : rest.dropWhile fun c => !isBrace c with
    | nil =>
      rw [hdrop] at hclose
      cases hclose
    | cons b after =>
      rw [hdrop] at hclose hsplit
      cases hclose
      refine ⟨after, ?_⟩
      rw [List.append_assoc]
      exact hsplit
  · cases h

theorem field_source {rest : List Char} {part : Part} (h : field rest = some part) :
    ∃ tail after, part.source = '{' :: tail ∧ rest = tail ++ after := by
  unfold field at h
  split at h
  · next rest =>
    split at h
    · next hclose =>
      cases h
      obtain ⟨after, hafter⟩ := hclose
      refine ⟨_, after, rfl, ?_⟩
      have hsplit := List.takeWhile_append_dropWhile (p := fun c => !isBrace c) (l := rest)
      rw [← hafter] at hsplit
      conv_lhs => rw [← hsplit]
      simp only [braces, List.append_assoc, List.cons_append, List.nil_append]
    · cases h
  · obtain ⟨e, hbraced, rfl⟩ := Option.map_eq_some_iff.mp h
    obtain ⟨after, hafter⟩ := braced_prefix hbraced
    exact ⟨_, after, rfl, hafter.symm⟩

/-- A text is the source of its parts. -/
theorem source_parse (t : List Char) : source (parse t) = t := by
  have hfrom : ∀ skip, source (parseFrom skip t) = t.drop skip := by
    induction t with
    | nil => intro skip; cases skip <;> rfl
    | cons c t ih =>
      intro skip
      cases skip with
      | succ skip => exact ih skip
      | zero =>
        rw [parseFrom]
        split
        · next part hpart =>
          split at hpart
          · next hc =>
            obtain ⟨tail, after, hsource, rfl⟩ := field_source hpart
            show part.source ++ source (parseFrom _ _) = c :: (tail ++ after)
            rw [ih, hsource, hc, List.length_cons, Nat.add_sub_cancel, List.drop_left]
            rfl
          · cases hpart
        · show [c] ++ source (parseFrom 0 t) = c :: t
          rw [ih]
          rfl
  exact hfrom 0

/-! ### Replacements -/

theorem Free.not_mem {t : List Char} (h : Free t) {c : Char} (hc : isBrace c = true) : c ∉ t := by
  intro hmem
  rw [h c hmem] at hc
  cases hc

theorem Free.clean {name : List Char} (h : Free name) : (Piece.key name).Clean :=
  ⟨h.not_mem rfl, h.not_mem rfl⟩

/-- Doubled braces are not changed by a replacement of another field. -/
theorem replace_block {name inner : List Char} (hopen : '{' ∉ name) (hclose : '}' ∉ name)
    (hinner : Free inner) (hne : inner ≠ name) (value rest : List Char) :
    replace (braces name) value ((Part.block inner).source ++ rest) =
      (Part.block inner).source ++ replace (braces name) value rest := by
  have hfirst : ¬ braces name <+: '{' :: (braces inner ++ ['}'] ++ rest) := by
    intro hstart
    -- the second brace would be in the name, or the one that closes it
    obtain ⟨tail, htail⟩ := (List.cons_prefix_cons.mp hstart).2
    cases name with
    | nil => cases htail
    | cons c name =>
      have hc : c = '{' := (List.cons.inj htail).1
      exact hopen (hc ▸ List.mem_cons_self)
  have hkey := replace_piece hinner.clean hclose value (['}'] ++ rest)
  have hlast : replace (braces name) value (['}'] ++ rest) =
      ['}'] ++ replace (braces name) value rest :=
    replace_append_of_not_mem (by decide) name value rest
  rw [Piece.fill, if_neg hne, hlast] at hkey
  show replace _ _ ('{' :: (braces inner ++ ['}'] ++ rest)) = '{' :: (braces inner ++ ['}'] ++ _)
  rw [replace_cons_of_not_start hfirst, List.append_assoc, List.append_assoc]
  exact congrArg _ hkey

theorem replace_part {part : Part} (hfree : part.Free) {name : List Char} (hopen : '{' ∉ name)
    (hclose : '}' ∉ name) (hblock : part ≠ .block name) (value rest : List Char) :
    replace (braces name) value (part.source ++ rest) =
      (part.subst name value).source ++ replace (braces name) value rest := by
  cases part with
  | lit t =>
    have ht : '{' ∉ t := Free.not_mem hfree rfl
    exact replace_append_of_not_mem ht name value rest
  | key name' =>
    have hpiece := replace_piece hfree.2.clean hclose value rest
    unfold Part.subst
    dsimp only
    by_cases heq : name' = name
    · rw [Piece.fill, if_pos heq] at hpiece
      rw [if_pos heq]
      exact hpiece
    · rw [Piece.fill, if_neg heq] at hpiece
      rw [if_neg heq]
      exact hpiece
  | block inner =>
    exact replace_block hopen hclose hfree (fun heq => hblock (congrArg _ heq)) value rest

/-- A replacement fills in its field. -/
theorem replace_source {name : List Char} (hopen : '{' ∉ name) (hclose : '}' ∉ name)
    (value : List Char) {parts : List Part} (hfree : ∀ part ∈ parts, part.Free)
    (hblock : Part.block name ∉ parts) :
    replace (braces name) value (source parts) = source (parts.map (Part.subst name value)) := by
  induction parts with
  | nil => rfl
  | cons part parts ih =>
    rw [List.mem_cons, not_or] at hblock
    have hne : part ≠ .block name := fun heq => hblock.1 heq.symm
    show replace _ _ (part.source ++ source parts) = _ ++ source _
    rw [replace_part (hfree part List.mem_cons_self) hopen hclose hne,
      ih (fun part hpart => hfree part (List.mem_cons_of_mem _ hpart)) hblock.2]

/-- `t.replace(key, value)` for one field after the other. -/
def replaceAll (fields : List (List Char × List Char)) (t : List Char) : List Char :=
  fields.foldl (fun t field => replace (braces field.1) field.2 t) t

@[simp] theorem Part.substAll_nil (part : Part) : part.substAll [] = part := by
  cases part <;> rfl

theorem Part.subst_free {part : Part} (h : part.Free) (name : List Char) {value : List Char}
    (hvalue : Template.Free value) : (part.subst name value).Free := by
  cases part with
  | lit t => exact h
  | key name' =>
    unfold Part.subst
    dsimp only
    split
    · exact hvalue
    · exact h
  | block inner => exact h

theorem Part.subst_eq_block {part : Part} {name value inner : List Char} :
    part.subst name value = .block inner ↔ part = .block inner := by
  cases part with
  | lit t => exact Iff.rfl
  | key name' =>
    unfold Part.subst
    dsimp only
    split
    · exact ⟨fun h => (by cases h), fun h => (by cases h)⟩
    · exact Iff.rfl
  | block inner' => exact Iff.rfl

/-- The first of the values of a field is filled in. -/
theorem Part.substAll_cons (part : Part) (name value : List Char)
    (fields : List (List Char × List Char)) :
    part.substAll ((name, value) :: fields) = (part.subst name value).substAll fields := by
  cases part with
  | lit t => rfl
  | key name' =>
    unfold Part.substAll Part.subst
    dsimp only
    by_cases heq : name' = name
    · subst heq
      rw [List.lookup_cons_self, if_pos rfl]
    · rw [List.lookup_cons, beq_eq_false_iff_ne.mpr heq, if_neg heq]
  | block inner => rfl

theorem Part.substAll_eq_block {part : Part} {fields : List (List Char × List Char)}
    {inner : List Char} : part.substAll fields = .block inner ↔ part = .block inner := by
  induction fields generalizing part with
  | nil => rw [Part.substAll_nil]
  | cons field fields ih =>
    rw [Part.substAll_cons, ih, Part.subst_eq_block]

/-- A last field is filled in where no other one is. -/
theorem Part.substAll_concat (part : Part) (fields : List (List Char × List Char))
    (name value : List Char) :
    part.substAll (fields ++ [(name, value)]) = (part.substAll fields).subst name value := by
  induction fields generalizing part with
  | nil =>
    rw [List.nil_append, Part.substAll_cons, Part.substAll_nil, Part.substAll_nil]
  | cons field fields ih =>
    rw [List.cons_append, Part.substAll_cons, Part.substAll_cons, ih]

/-- Replacements one after another fill in what one reading of the template does. -/
theorem replaceAll_source {fields : List (List Char × List Char)}
    (hfields : ∀ field ∈ fields, Free field.1 ∧ Free field.2) {parts : List Part}
    (hfree : ∀ part ∈ parts, part.Free) (hblock : ∀ field ∈ fields, Part.block field.1 ∉ parts) :
    replaceAll fields (source parts) = source (parts.map (Part.substAll fields)) ∧
      ∀ part ∈ parts.map (Part.substAll fields), part.Free := by
  induction fields generalizing parts with
  | nil =>
    rw [List.map_congr_left fun part _ => part.substAll_nil, List.map_id']
    exact ⟨rfl, hfree⟩
  | cons field fields ih =>
    obtain ⟨name, value⟩ := field
    obtain ⟨hname, hvalue⟩ := hfields _ List.mem_cons_self
    have hstep := replace_source (hname.not_mem rfl) (hname.not_mem rfl) value hfree
      (hblock _ List.mem_cons_self)
    have hfree' : ∀ part ∈ parts.map (Part.subst name value), part.Free := by
      intro part hpart
      obtain ⟨part', hmem, rfl⟩ := List.mem_map.mp hpart
      exact Part.subst_free (hfree part' hmem) name hvalue
    have hblock' : ∀ field ∈ fields, Part.block field.1 ∉ parts.map (Part.subst name value) := by
      intro field hfield hmem
      obtain ⟨part', hmem', heq⟩ := List.mem_map.mp hmem
      rw [Part.subst_eq_block] at heq
      exact hblock field (List.mem_cons_of_mem _ hfield) (heq ▸ hmem')
    have hrest := ih (fun field hfield => hfields field (List.mem_cons_of_mem _ hfield)) hfree'
      hblock'
    have hcons : ∀ part : Part, part.substAll ((name, value) :: fields) =
        (part.subst name value).substAll fields := fun part => part.substAll_cons name value fields
    rw [List.map_map] at hrest
    rw [List.map_congr_left fun part _ => hcons part]
    show replaceAll fields (replace _ _ (source parts)) = _ ∧ _
    rw [hstep]
    exact hrest

/-- Fields with these values are formatted as they are filled in. -/
theorem format_eq_source {value : List Char → Option (List Char)}
    {fields : List (List Char × List Char)} {parts : List Part}
    (hparts : ∀ part ∈ parts, (∃ t, part = .lit t) ∨
      ∃ name v, part = .key name ∧ value name = some v ∧ fields.lookup name = some v) :
    parts.flatMap (Part.format value) = source (parts.map (Part.substAll fields)) := by
  induction parts with
  | nil => rfl
  | cons part parts ih =>
    have hpart : part.format value = (part.substAll fields).source := by
      rcases hparts part List.mem_cons_self with ⟨t, rfl⟩ | ⟨name, v, rfl, hvalue, hlookup⟩
      · rfl
      · unfold Part.format Part.substAll
        dsimp only
        rw [hvalue, hlookup]
        rfl
    rw [List.flatMap_cons, hpart, ih fun part hmem => hparts part (List.mem_cons_of_mem _ hmem)]
    rfl

/-! ### What stands in braces -/

variable {f : List Char → List Char}

theorem subBraces_part {part : Part} (hfree : part.Free) (rest : List Char) :
    subBraces f (part.source ++ rest) = part.expand f ++ subBraces f rest := by
  have hclose : ∀ {e : List Char}, Free e → ∀ rest,
      braced (e ++ '}' :: rest) = if e ≠ [] then some e else none := by
    intro e he rest
    rw [braced_split he rfl]
    simp only [and_true]
  cases part with
  | lit t =>
    have ht : Free t := hfree
    show subBraces f (t ++ rest) = t ++ subBraces f rest
    rw [subBraces_append_free (by rw [ht.lastBrace]; simp), subBraces_of_free ht]
  | key name =>
    have hname := hclose hfree.2 rest
    rw [if_pos hfree.1] at hname
    have hassoc : (Part.key name).source ++ rest = '{' :: (name ++ '}' :: rest) := by
      simp only [Part.source, braces, List.cons_append, List.append_assoc, List.nil_append]
    rw [hassoc, subBraces_cons_some hname]
    rfl
  | block inner =>
    have hassoc : (Part.block inner).source ++ rest =
        '{' :: ('{' :: (inner ++ '}' :: '}' :: rest)) := by
      simp only [Part.source, braces, List.cons_append, List.append_assoc, List.nil_append]
    have hnone : braced ('{' :: (inner ++ '}' :: '}' :: rest)) = none :=
      braced_split (a := []) free_nil rfl
    have hlast : subBraces f ('}' :: rest) = '}' :: subBraces f rest :=
      subBraces_cons_of_ne (by decide) rest
    rw [hassoc, subBraces_cons_none hnone]
    by_cases hinner : inner = []
    · subst hinner
      have hempty := hclose free_nil ('}' :: rest)
      rw [if_neg (not_not.mpr rfl)] at hempty
      rw [subBraces_cons_none hempty]
      have hpair : subBraces f ('}' :: '}' :: rest) = '}' :: '}' :: subBraces f rest := by
        rw [subBraces_cons_of_ne (by decide), hlast]
      exact congrArg (fun t => '{' :: '{' :: t) hpair
    · have hname := hclose hfree ('}' :: rest)
      rw [if_pos hinner] at hname
      rw [subBraces_cons_some hname, hlast, Part.expand, if_neg hinner]
      simp only [List.cons_append, List.append_assoc, List.nil_append]

/-- A substitution of what stands in braces does not see that braces are doubled. -/
theorem subBraces_source {parts : List Part} (hfree : ∀ part ∈ parts, part.Free) :
    subBraces f (source parts) = parts.flatMap (Part.expand f) := by
  induction parts with
  | nil => rfl
  | cons part parts ih =>
    show subBraces f (part.source ++ source parts) = _
    rw [subBraces_part (hfree part List.mem_cons_self),
      ih fun part hmem => hfree part (List.mem_cons_of_mem _ hmem)]
    rfl

/-- Braces of a value are the only ones that can close what is open before the template. -/
theorem firstBrace_subst {parts : List Part} (hfree : ∀ part ∈ parts, part.Free)
    {name value : List Char}
    (h : firstBrace (source (parts.map (Part.subst name value))) = some '}') :
    firstBrace value = some '}' := by
  induction parts with
  | nil => cases h
  | cons part parts ih =>
    have hrest := ih fun part hmem => hfree part (List.mem_cons_of_mem _ hmem)
    have hpart := hfree part List.mem_cons_self
    have happend : firstBrace (source ((part :: parts).map (Part.subst name value))) =
        (firstBrace (part.subst name value).source).or
          (firstBrace (source (parts.map (Part.subst name value)))) := firstBrace_append _ _
    rw [happend] at h
    cases part with
    | lit t =>
      have ht : firstBrace t = none := Free.firstBrace hpart
      have hlit : ((Part.lit t).subst name value).source = t := rfl
      rw [hlit, ht, Option.none_or] at h
      exact hrest h
    | key name' =>
      by_cases heq : name' = name
      · have hvalue : ((Part.key name').subst name value).source = value := by
          rw [Part.subst, if_pos heq]
          rfl
        rw [hvalue] at h
        cases hfirst : firstBrace value with
        | none =>
          rw [hfirst, Option.none_or] at h
          rw [← hfirst]
          exact hrest h
        | some b =>
          rw [hfirst, Option.some_or] at h
          exact h
      · have hkey : ((Part.key name').subst name value).source = '{' :: (name' ++ ['}']) := by
          rw [Part.subst, if_neg heq]
          rfl
        rw [hkey, firstBrace_cons rfl, Option.some_or] at h
        cases h
    | block inner =>
      have hblock : ((Part.block inner).subst name value).source =
          '{' :: (braces inner ++ ['}']) := rfl
      rw [hblock, firstBrace_cons rfl, Option.some_or] at h
      cases h

/-- A value whose braces do not straddle is dealt with on its own wherever it is filled in. -/
theorem subBraces_subst {parts : List Part} (hfree : ∀ part ∈ parts, part.Free) (name : List Char)
    {value : List Char} (h : ¬ Straddles value) :
    subBraces f (source (parts.map (Part.subst name value))) =
      (parts.map (Part.subst name (subBraces f value))).flatMap (Part.expand f) := by
  induction parts with
  | nil => rfl
  | cons part parts ih =>
    have hrest := ih fun part hmem => hfree part (List.mem_cons_of_mem _ hmem)
    have hparts : ∀ part ∈ parts, part.Free := fun part hmem =>
      hfree part (List.mem_cons_of_mem _ hmem)
    rw [List.map_cons, List.map_cons, List.flatMap_cons, ← hrest]
    show subBraces f ((part.subst name value).source ++ _) = _
    by_cases heq : part = .key name
    · subst heq
      have hsource : ∀ v, ((Part.key name).subst name v).source = v ∧
          ((Part.key name).subst name v).expand f = v := by
        intro v
        rw [Part.subst, if_pos rfl]
        exact ⟨rfl, rfl⟩
      rw [(hsource value).1, (hsource _).2]
      -- what follows does not close a brace of the value, unless the value itself does
      apply subBraces_append
      rintro ⟨hlast, hfirst⟩
      exact h ⟨firstBrace_subst hparts hfirst, hlast⟩
    · have hsame : ∀ v, part.subst name v = part := by
        intro v
        cases part with
        | lit t => rfl
        | key name' => rw [Part.subst, if_neg fun hname => heq (congrArg _ hname)]
        | block inner => rfl
      rw [hsame, hsame]
      exact subBraces_part (hfree part List.mem_cons_self) _

/-- Doubled braces that are left are not single ones. -/
theorem block_ne_braces {inner : List Char} (hne : inner ≠ []) (hfree : Free inner)
    (a b c : List Char) : a ++ ((Part.block inner).source ++ c) ≠ b ++ (braces inner ++ c) := by
  intro heq
  rw [← List.append_assoc, ← List.append_assoc] at heq
  have hinner := List.append_cancel_right heq
  -- without the last brace the one text ends with a brace, and the other does not
  have hclosed : a ++ ('{' :: ('{' :: (inner ++ ['}']))) = b ++ ('{' :: inner) := by
    refine List.append_cancel_right (?_ : _ ++ ['}'] = _ ++ ['}'])
    simpa only [Part.source, braces, List.append_assoc, List.cons_append, List.nil_append]
      using hinner
  obtain ⟨init, last, hinit⟩ := (List.eq_nil_or_concat inner).resolve_left hne
  rw [List.concat_eq_append] at hinit
  subst hinit
  have hleft : (a ++ ('{' :: ('{' :: ((init ++ [last]) ++ ['}'])))).getLast? = some '}' := by
    rw [← List.cons_append, ← List.cons_append, ← List.append_assoc, List.getLast?_append]
    rfl
  have hright : (b ++ ('{' :: (init ++ [last]))).getLast? = some last := by
    rw [← List.cons_append, ← List.append_assoc, List.getLast?_append]
    rfl
  rw [hclosed, hright] at hleft
  have hbrace := hfree last (List.mem_append_right _ List.mem_cons_self)
  rw [Option.some.inj hleft] at hbrace
  cases hbrace

end Template
