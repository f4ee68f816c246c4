import Aioscpu.Services.DescriptorRoundTrip

/-! # Sanitised Names

  What `_sanitize` returns for any text, and what `_to_class_name` makes of it. The names are
  spelled as identifiers are, but nothing keeps a digit from standing in front.
-/

namespace ModuleBuilder

open ConfigParser (Text strip)

/-- What a sanitised name and its class name are to be. -/
structure WellNamed (lower : Text → Text) (name : Text) : Prop where
  word : ∀ c ∈ name, isWord c = true
  not_leading : name.head? ≠ some '_'
  not_trailing : name.getLast? ≠ some '_'
  not_doubled : ¬ ['_', '_'] <:+: name
  identifier : isidentifier name = true
  idempotent : sanitize lower name = some name
  class_name : isidentifier (to_class_name name) = true
  /-- `class <class_name>Service:` and `def cmd_<name>(...)` -/
  definitions : isidentifier (to_class_name name ++ "Service".toList) = true ∧
    isidentifier ("cmd_".toList ++ name) = true

/-- A lower case letter or a digit. -/
def isAlnum (c : Char) : Bool := c.isLower || c.isDigit

/-- The condition: the first lower case letter or digit is a letter. -/
def StartsWithLetter (t : Text) : Prop := ∀ c, t.find? isAlnum = some c → c.isDigit = false

/-! ### Underscores -/

theorem head?_underscores (t : Text) : (underscores t).head? = t.head? := by
  induction t with
  | nil => rfl
  | cons c t ih =>
    rw [underscores]
    split
    · next h => rw [ih, h.2, h.1, List.head?_cons]
    · rfl

theorem underscores_not_doubled (t : Text) : ¬ ['_', '_'] <:+: underscores t := by
  induction t with
  | nil => decide
  | cons c t ih =>
    rw [underscores]
    split
    · exact ih
    · next h =>
      rw [List.infix_cons_iff, not_or]
      refine ⟨fun hstart => h ?_, ih⟩
      -- the two would stand in the text as well
      obtain ⟨hc, hrest⟩ := List.cons_prefix_cons.mp hstart
      refine ⟨hc.symm, ?_⟩
      rw [← head?_underscores]
      obtain ⟨rest, hrest⟩ := hrest
      rw [← hrest]
      rfl

theorem underscores_of_not_doubled {t : Text} (h : ¬ ['_', '_'] <:+: t) : underscores t = t := by
  induction t with
  | nil => rfl
  | cons c t ih =>
    rw [List.infix_cons_iff, not_or] at h
    rw [underscores, if_neg, ih h.2]
    rintro ⟨rfl, hhead⟩
    obtain ⟨rest, rfl⟩ := List.head?_eq_some_iff.mp hhead
    exact h.1 (List.prefix_append ['_', '_'] rest)

/-- A first character other than `_` stays the first one. -/
theorem find?_underscores (t : Text) :
    (underscores t).find? (fun c => !decide (c = '_')) = t.find? fun c => !decide (c = '_') := by
  induction t with
  | nil => rfl
  | cons c t ih =>
    rw [underscores]
    split
    · next h => rw [ih, h.1, List.find?_cons_of_neg (by decide)]
    · rw [List.find?_cons, List.find?_cons, ih]

/-! ### Sanitised names -/

variable {lower : Text → Text} {raw name : Text}

/-- What `_sanitize` returns is what is left between underscores. -/
theorem sanitize_eq_some (h : sanitize lower raw = some name) : name ≠ [] ∧
    ((underscores ((strip (lower raw)).map fun c => if isWord c then c else '_')).dropWhile
      (· = '_')).rdropWhile (· = '_') = name := by
  unfold sanitize at h
  dsimp only at h
  split at h
  · cases h
  · next hne =>
    have heq := Option.some.inj h
    exact ⟨heq ▸ hne, heq⟩

theorem isSpace_not_isAlnum {c : Char} (h : PyStr.isspace c = true) : isAlnum c = false := by
  have hall : ∀ n ∈ [0x09, 0x0a, 0x0b, 0x0c, 0x0d, 0x1c, 0x1d, 0x1e, 0x1f, 0x20, 0x85, 0xa0, 0x1680,
      0x2000, 0x2001, 0x2002, 0x2003, 0x2004, 0x2005, 0x2006, 0x2007, 0x2008, 0x2009, 0x200a,
      0x2028, 0x2029, 0x202f, 0x205f, 0x3000], isAlnum (Char.ofNat n) = false := by
    decide
  have hself : Char.ofNat c.toNat = c := Char.ofNat_toNat c
  rw [← hself]
  exact hall _ (of_decide_eq_true h)

/-- White space at the ends does not matter for what is found. -/
theorem find?_strip (t : Text) : (strip t).find? isAlnum = t.find? isAlnum := by
  have hnone : ∀ {u : Text}, (∀ c ∈ u, PyStr.isspace c = true) → u.find? isAlnum = none := by
    intro u hu
    rw [List.find?_eq_none]
    intro c hc
    rw [isSpace_not_isAlnum (hu c hc)]
    decide
  have hstart : t.find? isAlnum = (t.dropWhile PyStr.isspace).find? isAlnum := by
    conv_lhs => rw [← List.takeWhile_append_dropWhile (p := PyStr.isspace) (l := t)]
    rw [List.find?_append, hnone fun c hc => List.mem_takeWhile_imp hc, Option.none_or]
  rw [hstart]
  conv_rhs => rw [← List.rdropWhile_append_rtakeWhile (p := PyStr.isspace) (l := t.dropWhile _)]
  rw [List.find?_append, hnone fun c hc => List.mem_rtakeWhile_imp hc, Option.or_none]
  rfl

/-- The first character after the underscores in front. -/
theorem head?_trimmed (t : Text) :
    ((underscores ((strip t).map fun c => if isWord c then c else '_')).dropWhile
      (· = '_')).head? = t.find? isAlnum := by
  have hkept : ((fun c => !decide (c = '_')) ∘ fun c => if isWord c then c else '_') = isAlnum := by
    funext c
    show (!decide ((if isWord c = true then c else '_') = '_')) = isAlnum c
    unfold isWord isAlnum
    by_cases hc : c = '_'
    · rw [hc]
      decide
    · rw [decide_eq_false hc, Bool.or_false]
      cases halnum : c.isLower || c.isDigit
      · rfl
      · rw [if_pos rfl, decide_eq_false hc]
        rfl
  rw [← List.find?_not_eq_head?_dropWhile, find?_underscores, List.find?_map, hkept, find?_strip]
  cases hfind : t.find? isAlnum with
  | none => rfl
  | some c =>
    have hc : isAlnum c = true := List.find?_some hfind
    have hword : isWord c = true := by
      unfold isWord
      unfold isAlnum at hc
      rw [hc, Bool.true_or]
    rw [Option.map_some, if_pos hword]

/-- The first character of a sanitised name. -/
theorem head?_sanitize (h : sanitize lower raw = some name) :
    name.head? = (lower raw).find? isAlnum := by
  obtain ⟨hne, heq⟩ := sanitize_eq_some h
  rw [← head?_trimmed]
  set words := (strip (lower raw)).map fun c => if isWord c then c else '_'
  -- what is cut off at the end is not the first character
  obtain ⟨rest, hrest⟩ := List.rdropWhile_prefix (p := fun c => decide (c = '_'))
    (l := (underscores words).dropWhile (· = '_'))
  rw [heq] at hrest
  obtain ⟨c, name', rfl⟩ := List.exists_cons_of_ne_nil hne
  rw [← hrest]
  rfl

/-- `_sanitize` raises only if there is no letter and no digit. -/
theorem sanitize_eq_none (h : sanitize lower raw = none) : (lower raw).find? isAlnum = none := by
  unfold sanitize at h
  dsimp only at h
  split at h
  · next hnil =>
    rw [← head?_trimmed]
    set words := (strip (lower raw)).map fun c => if isWord c then c else '_'
    rw [List.rdropWhile_eq_nil_iff] at hnil
    cases htrimmed : (underscores words).dropWhile (· = '_') with
    | nil => rfl
    | cons c rest =>
      have hc := hnil c (htrimmed ▸ List.mem_cons_self)
      have hnot := List.head_dropWhile_not (fun c => decide (c = '_'))
        (l := underscores words) (by rw [htrimmed]; exact List.cons_ne_nil _ _)
      simp only [htrimmed, List.head_cons] at hnot
      rw [hnot] at hc
      cases hc
  · cases h

/-- The name has no underscore where it has no neighbours. -/
theorem sanitize_edges (h : sanitize lower raw = some name) :
    name.head? ≠ some '_' ∧ name.getLast? ≠ some '_' ∧ ¬ ['_', '_'] <:+: name := by
  obtain ⟨hne, heq⟩ := sanitize_eq_some h
  set words := (strip (lower raw)).map fun c => if isWord c then c else '_' with hwords
  refine ⟨?_, ?_, ?_⟩
  · rw [head?_sanitize h]
    intro hfind
    have hfalse : isAlnum '_' = true := List.find?_some hfind
    exact absurd hfalse (by decide)
  · intro hlast
    rw [List.getLast?_eq_some_getLast hne] at hlast
    have hnot := List.rdropWhile_last_not (p := fun c => decide (c = '_'))
      (l := (underscores words).dropWhile (· = '_')) (by rw [heq]; exact hne)
    simp only [heq, Option.some.inj hlast] at hnot
    exact hnot rfl
  · intro hdouble
    have hprefix : name <+: (underscores words).dropWhile (· = '_') := by
      rw [← heq]
      exact List.rdropWhile_prefix _ _
    exact underscores_not_doubled words
      ((hdouble.trans hprefix.isInfix).trans (List.dropWhile_suffix _).isInfix)

/-- A sanitised name is not changed when it is sanitised again. -/
theorem sanitize_idempotent {ρ : Type} (py : Python ρ) (h : sanitize lower raw = some name) :
    sanitize py.lower name = some name := by
  obtain ⟨hne, -⟩ := sanitize_eq_some h
  obtain ⟨hword, -⟩ := sanitize_spec h
  obtain ⟨hhead, hlast, hdouble⟩ := sanitize_edges h
  have hname : IsName name := fun c hc => isNameChar_of_isWord (hword c hc)
  have hchar : ∀ c, isWord c = true → c.toNat < 128 ∧ c.toLower = c := by
    intro c hc
    exact forall_nameChar (p := fun c => isWord c = true → c.toNat < 128 ∧ c.toLower = c)
      (by decide) (isNameChar_of_isWord hc) hc
  have hlower : py.lower name = name := by
    rw [py.lower_ascii name fun c hc => (hchar c (hword c hc)).1,
      List.map_congr_left fun c hc => (hchar c (hword c hc)).2, List.map_id']
  have hstrip : strip name = name :=
    (ConfigParser.trimmed_of_not_isspace hne fun c hc => hname.not_isspace hc).2
  have hmap : (name.map fun c => if isWord c then c else '_') = name := by
    rw [List.map_congr_left fun c hc => if_pos (hword c hc), List.map_id']
  have hdrop : name.dropWhile (· = '_') = name := by
    obtain ⟨c, rest, rfl⟩ := List.exists_cons_of_ne_nil hne
    have hc : c ≠ '_' := fun heq => hhead (congrArg some heq)
    rw [List.dropWhile_cons_of_neg (by simpa using hc)]
  have hrdrop : name.rdropWhile (· = '_') = name := by
    rw [List.rdropWhile_eq_self_iff]
    intro hne' hend
    have hend : name.getLast hne' = '_' := of_decide_eq_true hend
    rw [List.getLast?_eq_some_getLast hne', hend] at hlast
    exact hlast rfl
  unfold sanitize
  dsimp only
  rw [hlower, hstrip, hmap, underscores_of_not_doubled hdouble, hdrop, hrdrop, if_neg hne]

/-- A name that begins with a digit is no identifier, nor is its class name; any other one is. -/
theorem identifiers_iff (h : sanitize lower raw = some name) :
    (isidentifier name = true ↔ ∀ c ∈ name.head?, c.isDigit = false) ∧
      ∀ t, IsName t → (isidentifier (to_class_name name ++ t) = true ↔
        ∀ c ∈ name.head?, c.isDigit = false) := by
  obtain ⟨hword, c, rest, rfl, hc⟩ := sanitize_spec h
  have hhead : (∀ d ∈ (c :: rest).head?, d.isDigit = false) ↔ c.isDigit = false :=
    ⟨fun hall => hall c rfl, fun hdigit d hd => (Option.some.inj hd) ▸ hdigit⟩
  rw [hhead]
  refine ⟨?_, fun t ht => isidentifier_class_name_append hword hc ht⟩
  have hrest : rest.all isNameChar = true :=
    List.all_eq_true.mpr fun d hd => isNameChar_of_isWord (hword d (List.mem_cons_of_mem _ hd))
  rw [isidentifier, hrest, Bool.and_true]
  exact forall_nameChar
    (p := fun c => isWord c = true → c ≠ '_' → ((c.isAlpha || c = '_') = true ↔ c.isDigit = false))
    (by decide) (isNameChar_of_isWord (hword c List.mem_cons_self)) (hword c List.mem_cons_self) hc

/-- A function may be called so. -/
theorem isidentifier_cmd (h : sanitize lower raw = some name) :
    isidentifier ("cmd_".toList ++ name) = true := by
  obtain ⟨hword, -⟩ := sanitize_spec h
  have hname : IsName ("cmd_".toList ++ name) :=
    IsName.append (by decide) fun c hc => isNameChar_of_isWord (hword c hc)
  have hall : ("md_".toList ++ name).all isNameChar = true :=
    List.all_eq_true.mpr fun d hd => hname d (List.mem_cons_of_mem _ hd)
  show (('c'.isAlpha || decide ('c' = '_')) && ("md_".toList ++ name).all isNameChar) = true
  rw [hall]
  decide

/-- **Names**: the names that `_sanitize` returns are as they should be exactly if the first lower
    case letter or digit of the lowered text is a letter. -/
theorem well_named_iff {ρ : Type} (py : Python ρ) (raw : Text) :
    (∀ name, sanitize py.lower raw = some name → WellNamed py.lower name) ↔
      StartsWithLetter (py.lower raw) := by
  constructor
  · intro hall c hc
    cases hname : sanitize py.lower raw with
    | none =>
      rw [sanitize_eq_none hname] at hc
      cases hc
    | some name =>
      have hdigit := (identifiers_iff hname).1.mp (hall name hname).identifier
      rw [head?_sanitize hname] at hdigit
      exact hdigit c hc
  · intro hletter name hname
    have hdigit : ∀ c ∈ name.head?, c.isDigit = false := by
      rw [head?_sanitize hname]
      exact hletter
    obtain ⟨hidentifier, hclass⟩ := identifiers_iff hname
    obtain ⟨hhead, hlast, hdouble⟩ := sanitize_edges hname
    have hplain := (hclass [] (by decide)).mpr hdigit
    rw [List.append_nil] at hplain
    exact
      { word := (sanitize_spec hname).1
        not_leading := hhead
        not_trailing := hlast
        not_doubled := hdouble
        identifier := hidentifier.mpr hdigit
        idempotent := sanitize_idempotent py hname
        class_name := hplain
        definitions := ⟨(hclass _ (by decide)).mpr hdigit, isidentifier_cmd hname⟩ }

/-- The name `2fa` begins with a digit. -/
theorem digit_first :
    ¬ ∀ name, sanitize asciiPython.lower "2FA".toList = some name →
      WellNamed asciiPython.lower name := by
  intro hall
  have hname : sanitize asciiPython.lower "2FA".toList = some "2fa".toList := by decide +kernel
  exact absurd (hall _ hname).identifier (by decide)

end ModuleBuilder
