import Aioscpu.Services.ModuleBuilder

/-! # Scaffolded Descriptors

  Whether the descriptor that `scaffold_service` writes is parsed to what it was written
  for. The value of an option is interpolated, so a `%` does not survive; a name that
  begins with a digit makes no class name; and `_expand_format_exprs` takes the class
  statement of the module for a part of an expression if the description closes a brace
  before it opens one.

  Main results:
  - `read_descriptor`: the options have the values they are filled in with.
  - `defines_service`: the class statement stays, if no braces enclose it.
  - `round_trips_iff`: when the descriptor and the module are as they should be.
-/

namespace ModuleBuilder

open ConfigParser ServiceRegistry Template
open scoped PyStr

/-! ### Names -/

/-- A letter, a digit or an underscore. -/
def isNameChar (c : Char) : Bool := c.isAlphanum || c = '_'

/-- What holds of the names among the ASCII characters holds of all. -/
theorem forall_nameChar {p : Char → Prop}
    (h : ∀ n < 128, isNameChar (Char.ofNat n) = true → p (Char.ofNat n)) {c : Char}
    (hc : isNameChar c = true) : p c := by
  have hlt : c.toNat < 128 := by
    simp only [isNameChar, Char.isAlphanum, Char.isDigit, Bool.or_eq_true, Bool.and_eq_true,
      decide_eq_true_eq, UInt32.le_iff_toNat_le, PyStr.isAlpha_iff] at hc
    have hnine : '9'.val.toNat = 57 := rfl
    rcases hc with (hc | hc) | rfl
    · omega
    · unfold Char.toNat; omega
    · decide
  have hself : Char.ofNat c.toNat = c := Char.ofNat_toNat c
  rw [← hself] at hc ⊢
  exact h _ hlt hc

theorem isNameChar_of_isWord {c : Char} (h : isWord c = true) : isNameChar c = true := by
  have halpha : c.isAlpha = (c.isUpper || c.isLower) := rfl
  unfold isWord at h
  unfold isNameChar Char.isAlphanum
  rw [halpha]
  revert h
  cases c.isLower <;> cases c.isDigit <;> cases c.isUpper <;> simp

/-- A text of name characters. -/
def IsName (t : Text) : Prop := ∀ c ∈ t, isNameChar c = true

instance (t : Text) : Decidable (IsName t) :=
  inferInstanceAs (Decidable (∀ c ∈ t, isNameChar c = true))

theorem IsName.not_mem {t : Text} (h : IsName t) {d : Char} (hd : isNameChar d = false) :
    d ∉ t := by
  intro hmem
  rw [h d hmem] at hd
  cases hd

theorem IsName.not_isspace {t : Text} (h : IsName t) {c : Char} (hc : c ∈ t) :
    PyStr.isspace c = false :=
  forall_nameChar (p := fun c => PyStr.isspace c = false) (by decide) (h c hc)

theorem IsName.free {t : Text} (h : IsName t) : Free t := fun c hc =>
  forall_nameChar (p := fun c => isBrace c = false) (by decide) (h c hc)

theorem IsName.append {a b : Text} (ha : IsName a) (hb : IsName b) : IsName (a ++ b) := by
  intro c hc
  rcases List.mem_append.mp hc with hc | hc
  · exact ha c hc
  · exact hb c hc

/-- No character is made up. -/
theorem underscores_subset (t : Text) : underscores t ⊆ t := by
  induction t with
  | nil => exact List.Subset.refl _
  | cons c t ih =>
    rw [underscores]
    split
    · exact fun d hd => List.mem_cons_of_mem _ (ih hd)
    · exact List.cons_subset_cons c ih

/-- What `sanitize` gives is a name that does not begin with an underscore. -/
theorem sanitize_spec {lower : Text → Text} {name snake : Text}
    (h : sanitize lower name = some snake) :
    (∀ c ∈ snake, isWord c = true) ∧ ∃ c rest, snake = c :: rest ∧ c ≠ '_' := by
  unfold sanitize at h
  simp only at h
  split at h
  · cases h
  · next hne =>
    have hsnake := Option.some.inj h
    set words := (strip (lower name)).map fun c => if isWord c = true then c else '_' with hwords
    set trimmed := (underscores words).dropWhile (· = '_') with htrimmed
    constructor
    · intro c hc
      rw [← hsnake] at hc
      have hmem : c ∈ words := underscores_subset _
        ((List.dropWhile_sublist _).subset ((List.rdropWhile_prefix _ _).subset hc))
      obtain ⟨d, -, rfl⟩ := List.mem_map.mp hmem
      split
      · next hd => exact hd
      · rfl
    · obtain ⟨c, rest, hcons⟩ := List.exists_cons_of_ne_nil hne
      refine ⟨c, rest, hsnake ▸ hcons, ?_⟩
      -- the first character is the first one that `dropWhile` leaves
      obtain ⟨tail, htail⟩ := List.rdropWhile_prefix (fun c => decide (c = '_')) trimmed
      rw [hcons, List.cons_append] at htail
      have hnil : trimmed ≠ [] := by
        rw [← htail]
        exact List.cons_ne_nil _ _
      have hhead := List.head_dropWhile_not (fun c => decide (c = '_')) hnil
      have hc : trimmed.head hnil = c := by
        simp only [← htail, List.head_cons]
      rw [hc] at hhead
      exact of_decide_eq_false hhead

theorem mem_of_mem_splitOn {t part : Text} {c d : Char} (hpart : part ∈ t.splitOn d)
    (hc : c ∈ part) : c ∈ t := by
  have hflat : part.Sublist (List.intercalate [d] (t.splitOn d)) := by
    obtain ⟨before, after, heq⟩ := List.append_of_mem hpart
    rw [heq]
    clear heq hpart
    induction before with
    | nil => cases after <;> simp [List.intercalate]
    | cons first before ih =>
      refine ih.trans ?_
      cases before <;> simp [List.intercalate, List.intersperse]
  rw [List.intercalate_splitOn] at hflat
  exact hflat.subset hc

theorem isName_capitalize {t : Text} (h : IsName t) : IsName (capitalize t) := by
  have hupper : ∀ {c : Char}, isNameChar c = true → isNameChar c.toUpper = true :=
    forall_nameChar (p := fun c => isNameChar c.toUpper = true) (by decide)
  have hlower : ∀ {c : Char}, isNameChar c = true → isNameChar c.toLower = true :=
    forall_nameChar (p := fun c => isNameChar c.toLower = true) (by decide)
  cases t with
  | nil => exact h
  | cons c t =>
    intro d hd
    rcases List.mem_cons.mp hd with rfl | hd
    · exact hupper (h c List.mem_cons_self)
    · obtain ⟨e, he, rfl⟩ := List.mem_map.mp hd
      exact hlower (h e (List.mem_cons_of_mem _ he))

theorem isName_to_class_name {snake : Text} (h : IsName snake) : IsName (to_class_name snake) := by
  intro c hc
  obtain ⟨part, hpart, hmem⟩ := List.mem_flatMap.mp hc
  exact isName_capitalize (fun d hd => h d (mem_of_mem_splitOn hpart hd)) c hmem

/-- The class name begins as the name does. -/
theorem to_class_name_cons {c : Char} (hc : c ≠ '_') (rest : Text) :
    ∃ more, to_class_name (c :: rest) = c.toUpper :: more := by
  unfold to_class_name
  rw [List.splitOn_cons_eq_if_modifyHead, if_neg fun heq => hc (beq_iff_eq.mp heq)]
  cases hsplit : rest.splitOn '_' with
  | nil => exact absurd hsplit (List.splitOn_ne_nil _ _)
  | cons first parts => exact ⟨_, rfl⟩

/-! ### Class statements -/

/-- `t.isidentifier()`, for ASCII texts. -/
def isidentifier : Text → Bool
  | [] => false
  | c :: t => (c.isAlpha || c = '_') && t.all isNameChar

/-- `class <name>:`. -/
def classStatement (class_name : Text) : Text := "class ".toList ++ class_name ++ [':']

/-- A source has the statement of a class on a line of its own. -/
def Defines (src class_name : Text) : Prop :=
  classStatement class_name ∈ src.splitOn '\n' ∧ isidentifier class_name = true

/-- What begins with a class name is an identifier unless the name begins with a digit. -/
theorem isidentifier_class_name_append {c : Char} {rest : Text}
    (hword : ∀ d ∈ c :: rest, isWord d = true) (hc : c ≠ '_') {t : Text} (ht : IsName t) :
    isidentifier (to_class_name (c :: rest) ++ t) = true ↔ c.isDigit = false := by
  have hname : IsName (to_class_name (c :: rest) ++ t) :=
    (isName_to_class_name fun d hd => isNameChar_of_isWord (hword d hd)).append ht
  obtain ⟨more, hmore⟩ := to_class_name_cons hc rest
  rw [hmore, List.cons_append] at hname ⊢
  have hall : (more ++ t).all isNameChar = true :=
    List.all_eq_true.mpr fun d hd => hname d (List.mem_cons_of_mem _ hd)
  have hfirst : isWord c = true → c ≠ '_' →
      ((c.toUpper.isAlpha || c.toUpper = '_') = true ↔ c.isDigit = false) := by
    have hchar := forall_nameChar (p := fun c => isWord c = true → c ≠ '_' →
      ((c.toUpper.isAlpha || c.toUpper = '_') = true ↔ c.isDigit = false)) (by decide)
      (isNameChar_of_isWord (hword c List.mem_cons_self))
    exact hchar
  rw [isidentifier, hall, Bool.and_true]
  exact hfirst (hword c List.mem_cons_self) hc

/-- A class name is an identifier unless the name begins with a digit. -/
theorem isidentifier_class_name {c : Char} {rest : Text} (hword : ∀ d ∈ c :: rest, isWord d = true)
    (hc : c ≠ '_') :
    isidentifier (to_class_name (c :: rest) ++ "Service".toList) = true ↔ c.isDigit = false :=
  isidentifier_class_name_append hword hc (by decide)

/-! ### The descriptor -/

/-- The pieces of a line. -/
def linePieces (name : Text) (value : List Piece) : List Piece :=
  .lit name :: .lit ['='] :: (value ++ [.lit ['\n']])

def descriptorPieces : List Piece :=
  .lit (headerLine "Service".toList) :: .lit ['\n'] ::
    (linePieces "Name".toList [.key "lower_name".toList] ++
      linePieces "Description".toList [.key "description".toList] ++
      linePieces "Module".toList [.lit "services.".toList, .key "lower_name".toList,
        .lit "_service:".toList, .key "class_name".toList, .lit "Service".toList] ++
      linePieces "AutoStart".toList [.lit "true".toList] ++
      linePieces "RestartPolicy".toList [.lit "on-failure".toList] ++
      linePieces "RestartDelay".toList [.lit "5".toList] ++
      .lit ['\n'] :: .lit (headerLine "Health".toList) :: .lit ['\n'] ::
      (linePieces "CheckInterval".toList [.lit "30".toList] ++
        linePieces "MaxFailures".toList [.lit "3".toList]))

theorem descriptor_template : SERVICE_DESCRIPTOR_TEMPLATE = text descriptorPieces := by
  simp only [SERVICE_DESCRIPTOR_TEMPLATE, unlines, List.flatMap_cons, text, descriptorPieces,
    linePieces, headerLine, List.cons_append, List.nil_append, Piece.text, braces]
  -- the texts as lists of characters
  repeat rw [String.toList_ofList]
  simp only [List.flatMap_nil, List.cons_append, List.nil_append, List.append_nil]

/-- The value of the option `Module`. -/
def moduleString (name class_name : Text) : Text :=
  "services.".toList ++ name ++ "_service:".toList ++ class_name ++ "Service".toList

theorem moduleString_eq (name class_name : Text) : moduleString name class_name =
    "services.".toList ++ name ++ "_service:".toList ++ class_name ++ "Service".toList := rfl

def serviceOptions (name class_name description : Text) : List (Text × Text) :=
  [("Name".toList, name), ("Description".toList, description),
    ("Module".toList, moduleString name class_name), ("AutoStart".toList, "true".toList),
    ("RestartPolicy".toList, "on-failure".toList), ("RestartDelay".toList, "5".toList)]

def healthOptions : List (Text × Text) :=
  [("CheckInterval".toList, "30".toList), ("MaxFailures".toList, "3".toList)]

def descriptorLines (name class_name description : Text) : List Text :=
  sectionLines "Service".toList (serviceOptions name class_name description) ++
    [] :: sectionLines "Health".toList healthOptions

theorem descriptorPieces_clean : ∀ piece ∈ descriptorPieces, piece.Clean := by
  simp only [descriptorPieces, linePieces, headerLine, List.cons_append, List.nil_append]
  repeat rw [String.toList_ofList]
  decide

theorem render_descriptor_lines {name class_name : Text} (hname : IsName name)
    (hclass : IsName class_name) (description : Text) :
    render_descriptor name class_name description =
      (descriptorLines name class_name description).flatMap (· ++ ['\n']) := by
  have hclean₁ := fill_clean descriptorPieces_clean "lower_name".toList
    (hname.not_mem (d := '{') (by decide))
  have hclean₂ := fill_clean hclean₁ "class_name".toList (hclass.not_mem (d := '{') (by decide))
  have hempty : ∀ {key value : Text}, replace (braces key) value [] = [] := rfl
  unfold render_descriptor
  simp only
  rw [descriptor_template, ← List.append_nil (text descriptorPieces),
    replace_text (by decide) _ _ descriptorPieces_clean, hempty,
    replace_text (by decide) _ _ hclean₁, hempty, replace_text (by decide) _ _ hclean₂, hempty,
    List.append_nil]
  simp only [descriptorPieces, linePieces, List.map_cons, List.map_nil, List.map_append,
    Piece.fill, String.toList_inj, String.reduceEq, if_true, if_false]
  simp only [text, List.flatMap_cons, List.flatMap_nil, Piece.text,
    descriptorLines, sectionLines, serviceOptions, healthOptions, List.map_cons, List.map_nil,
    line, moduleString_eq, List.append_assoc, List.cons_append, List.nil_append, List.append_nil]

/-- A description of a single trimmed line. -/
structure SingleLine (description : Text) : Prop where
  trimmed : Trimmed description
  newline : '\n' ∉ description
  carriage : '\r' ∉ description

theorem moduleString_not_isspace {name class_name : Text} (hname : IsName name)
    (hclass : IsName class_name) : ∀ c ∈ moduleString name class_name, PyStr.isspace c = false := by
  intro c hc
  have hlit : ∀ lit ∈ ["services.".toList, "_service:".toList, "Service".toList], ∀ c ∈ lit,
      PyStr.isspace c = false := by
    repeat rw [String.toList_ofList]
    decide
  rw [moduleString_eq] at hc
  simp only [List.mem_append] at hc
  rcases hc with (((hc | hc) | hc) | hc) | hc
  · exact hlit _ (by simp) c hc
  · exact hname.not_isspace hc
  · exact hlit _ (by simp) c hc
  · exact hclass.not_isspace hc
  · exact hlit _ (by simp) c hc

section Parsed

variable {ρ : Type} (py : Python ρ) {name class_name description : Text}

theorem serviceOptions_plain (hname : IsName name) (hne : name ≠ []) (hclass : IsName class_name)
    (hline : SingleLine description) :
    ∀ opt ∈ serviceOptions name class_name description, Plain opt.1 ∧ Trimmed opt.2 := by
  have hmodule : Trimmed (moduleString name class_name) :=
    trimmed_of_not_isspace (by rw [moduleString_eq]; simp) (moduleString_not_isspace hname hclass)
  have hname' : Trimmed name := trimmed_of_not_isspace hne fun c hc => hname.not_isspace hc
  unfold serviceOptions
  simp only [List.forall_mem_cons, List.not_mem_nil, IsEmpty.forall_iff, implies_true, and_true]
  refine ⟨⟨?_, hname'⟩, ⟨?_, hline.trimmed⟩, ⟨?_, hmodule⟩, ?_⟩
  all_goals
    repeat rw [String.toList_ofList]
    decide

theorem healthOptions_plain : ∀ opt ∈ healthOptions, Plain opt.1 ∧ Trimmed opt.2 := by
  unfold healthOptions
  repeat rw [String.toList_ofList]
  decide

/-- A value does not run over the end of its line. -/
theorem descriptorLines_single (hname : IsName name) (hne : name ≠ []) (hclass : IsName class_name)
    (hline : SingleLine description) :
    ∀ part ∈ descriptorLines name class_name description, '\n' ∉ part ∧ '\r' ∉ part := by
  have hmodule : ∀ {d : Char}, PyStr.isspace d = true → d ∉ moduleString name class_name := by
    intro d hd hmem
    rw [moduleString_not_isspace hname hclass d hmem] at hd
    cases hd
  have hbreak : ∀ d ∈ ['\n', '\r'], d ∉ description →
      ∀ part ∈ descriptorLines name class_name description, d ∉ part := by
    intro d hd hdescription part hpart
    have hchar : d.isAlpha = false ∧ isNameChar d = false ∧ PyStr.isspace d = true ∧ d ≠ '=' ∧
        d ∉ headerLine "Service".toList ∧ d ∉ headerLine "Health".toList ∧
        (∀ opt ∈ healthOptions, d ∉ opt.2) ∧
        ∀ v ∈ ["true".toList, "on-failure".toList, "5".toList], d ∉ v := by
      clear hdescription
      revert d
      unfold healthOptions headerLine
      repeat rw [String.toList_ofList]
      decide
    obtain ⟨halpha, hnameChar, hspace, heq, hservice, hhealth, hoptions, hlits⟩ := hchar
    have hplain := serviceOptions_plain hname hne hclass hline
    rcases List.mem_append.mp hpart with hpart | hpart
    · refine sectionLines_single halpha hservice heq (fun opt hopt => ⟨(hplain opt hopt).1, ?_⟩)
        part hpart
      have hvalues : ∀ opt ∈ serviceOptions name class_name description, d ∉ opt.2 := by
        simp only [List.forall_mem_cons] at hlits
        simp only [serviceOptions, List.forall_mem_cons]
        exact ⟨hname.not_mem hnameChar, hdescription, hmodule hspace, hlits.1, hlits.2.1,
          hlits.2.2.1, fun opt hopt => by cases hopt⟩
      exact hvalues opt hopt
    · rcases List.mem_cons.mp hpart with rfl | hpart
      · exact List.not_mem_nil
      · exact sectionLines_single halpha hhealth heq
          (fun opt hopt => ⟨(healthOptions_plain opt hopt).1, hoptions opt hopt⟩) part hpart
  exact fun part hpart => ⟨hbreak _ (by simp) hline.newline part hpart,
    hbreak _ (by simp) hline.carriage part hpart⟩

theorem serviceOptions_names (name class_name description : Text) :
    (serviceOptions name class_name description).map (fun opt => py.lower opt.1) =
      ["name".toList, "description".toList, "module".toList, "autostart".toList,
        "restartpolicy".toList, "restartdelay".toList] := by
  have hlower : ∀ t ∈ ["Name".toList, "Description".toList, "Module".toList, "AutoStart".toList,
      "RestartPolicy".toList, "RestartDelay".toList], ∀ c ∈ t, c.toNat < 128 := by
    repeat rw [String.toList_ofList]
    decide
  simp only [List.forall_mem_cons] at hlower
  obtain ⟨h₁, h₂, h₃, h₄, h₅, h₆, -⟩ := hlower
  simp only [serviceOptions, List.map_cons, List.map_nil, py.lower_ascii _ h₁, py.lower_ascii _ h₂,
    py.lower_ascii _ h₃, py.lower_ascii _ h₄, py.lower_ascii _ h₅, py.lower_ascii _ h₆]
  repeat rw [String.toList_ofList]
  rfl

theorem healthOptions_names :
    healthOptions.map (fun opt => py.lower opt.1) =
      ["checkinterval".toList, "maxfailures".toList] := by
  have hlower : ∀ t ∈ ["CheckInterval".toList, "MaxFailures".toList], ∀ c ∈ t, c.toNat < 128 := by
    repeat rw [String.toList_ofList]
    decide
  simp only [List.forall_mem_cons] at hlower
  obtain ⟨h₁, h₂, -⟩ := hlower
  simp only [healthOptions, List.map_cons, List.map_nil, py.lower_ascii _ h₁, py.lower_ascii _ h₂]
  repeat rw [String.toList_ofList]
  rfl

/-- The descriptor is read without an error, and its options have the values that they are
    filled in with. -/
theorem read_descriptor (hname : IsName name) (hne : name ≠ []) (hclass : IsName class_name)
    (hline : SingleLine description) :
    ∃ cp service health, read py.lower (render_descriptor name class_name description) = some cp ∧
      cp.sections.get DEFAULTSECT = some .empty ∧
      cp.sections.get "Service".toList = some service ∧
      Holds py.lower service (serviceOptions name class_name description) ∧
      cp.sections.get "Health".toList = some health ∧ Holds py.lower health healthOptions := by
  have hservice := serviceOptions_plain hname hne hclass hline
  have hnames := serviceOptions_names py name class_name description
  have hnodup : ((serviceOptions name class_name description).map
      fun opt => py.lower opt.1).Nodup := by
    rw [hnames]
    repeat rw [String.toList_ofList]
    decide
  have hnodup' : (healthOptions.map fun opt => py.lower opt.1).Nodup := by
    rw [healthOptions_names py]
    repeat rw [String.toList_ofList]
    decide
  -- the section of the service
  obtain ⟨s₁, hrun₁, hbad₁, hsections₁, hcurrent₁⟩ :=
    @readSection py.lower start "Service".toList _ (by decide) (by decide) (by decide) hservice
      hnodup
  have hget₁ := hsections₁ "Service".toList
  rw [if_pos rfl] at hget₁
  have hlower : py.lower "RestartDelay".toList = "restartdelay".toList := by
    have hlast := congrArg List.getLast? hnames
    exact Option.some.inj hlast
  -- the empty line goes to its last option
  have hblank := readLine_blank py.lower
    (hcurrent₁ ("RestartDelay".toList, "5".toList) rfl (by rw [hlower]; decide))
  set options := (added py.lower .empty (serviceOptions name class_name description)).set
    (py.lower "RestartDelay".toList) (["5".toList] ++ [[]]) with hoptions
  have hassign : s₁.assign "Service".toList (py.lower "RestartDelay".toList)
      (["5".toList] ++ [[]]) =
        { s₁ with sections := s₁.sections.set "Service".toList options } := by
    unfold State.assign
    rw [hget₁]
  rw [hassign] at hblank
  have hget₂ : ∀ key ≠ "Service".toList, (s₁.sections.set "Service".toList options).get key =
      start.sections.get key := by
    intro key hkey
    rw [Dict.get_set_of_ne hkey, hsections₁, if_neg hkey]
  -- the section of the health checks
  obtain ⟨s₃, hrun₃, hbad₃, hsections₃, -⟩ :=
    @readSection py.lower { s₁ with sections := s₁.sections.set "Service".toList options }
      "Health".toList _ (by decide) (by decide) ((hget₂ _ (by decide)).trans (by decide))
      healthOptions_plain hnodup'
  refine ⟨s₃, options, added py.lower .empty healthOptions, ?_, ?_, ?_, ?_, ?_, ?_⟩
  · have hfold : (descriptorLines name class_name description).foldlM (readLine py.lower) start =
        some s₃ := by
      rw [descriptorLines, List.foldlM_append, hrun₁]
      show ([] :: sectionLines "Health".toList healthOptions).foldlM (readLine py.lower) s₁ =
        some s₃
      rw [List.foldlM_cons, hblank]
      exact hrun₃
    have hbad : s₃.bad = false := hbad₃.trans hbad₁
    rw [render_descriptor_lines hname hclass]
    unfold ConfigParser.read
    rw [lines_flatMap (descriptorLines_single hname hne hclass hline), hfold, Option.bind_some,
      hbad]
    rfl
  · rw [hsections₃, if_neg (by decide), hget₂ _ (by decide)]
    decide
  · rw [hsections₃, if_neg (by decide), Dict.get_set_self]
  · have hmem : ("RestartDelay".toList, "5".toList) ∈
        serviceOptions name class_name description := List.mem_of_mem_getLast? rfl
    exact (added_holds (fun opt hopt => (hservice opt hopt).2) hnodup).blank hmem
      (hservice _ hmem).2 (added_get hmem hnodup)
  · rw [hsections₃, if_pos rfl]
  · exact added_holds (fun opt hopt => (healthOptions_plain opt hopt).2) hnodup'

/-- Only the description can have a `%`. -/
theorem serviceOptions_percent (hname : IsName name) (hclass : IsName class_name)
    (description : Text) :
    ∀ opt ∈ serviceOptions name class_name description, '%' ∈ opt.2 → opt.2 = description := by
  have hlit : ∀ lit ∈ ["services.".toList, "_service:".toList, "Service".toList, "true".toList,
      "on-failure".toList, "5".toList], '%' ∉ lit := by
    repeat rw [String.toList_ofList]
    decide
  simp only [List.forall_mem_cons] at hlit
  obtain ⟨h₁, h₂, h₃, h₄, h₅, h₆, -⟩ := hlit
  have hpercent : isNameChar '%' = false := by decide
  have hmodule : '%' ∉ moduleString name class_name := by
    rw [moduleString_eq]
    simp only [List.mem_append, not_or]
    exact ⟨⟨⟨⟨h₁, hname.not_mem hpercent⟩, h₂⟩, hclass.not_mem hpercent⟩, h₃⟩
  simp only [serviceOptions, List.forall_mem_cons]
  exact ⟨fun h => absurd h (hname.not_mem hpercent), fun _ => trivial, fun h => absurd h hmodule,
    fun h => absurd h h₄, fun h => absurd h h₅, fun h => absurd h h₆, fun opt hopt => by cases hopt⟩

variable {cp : State} {section_name : Text} {options : Options} {opts : List (Text × Text)}

/-- The options of a section without a `%` are read as they were written. -/
theorem getOr_of_holds {lower : Text → Text} (hget : cp.sections.get section_name = some options)
    (hdefault : cp.sections.get DEFAULTSECT = some .empty) (hholds : Holds lower options opts)
    (hpercent : ∀ opt ∈ opts, '%' ∉ opt.2) :
    ∀ opt ∈ opts, ∀ fallback, getOr lower cp section_name opt.1 fallback = some opt.2 := by
  intro opt hopt fallback
  unfold getOr
  rw [if_neg (by rw [hget]; exact Option.some_ne_none _), hholds.get hget hdefault hopt]
  exact interpolate_of_not_mem (hpercent opt hopt) _

/-- The description is the one that the section of the service has. -/
theorem parse_service_file_description {basename text : Text} {desc : ParsedService ρ}
    (hparse : parse_service_file py basename text = some desc)
    (hread : read py.lower text = some cp) :
    getOr py.lower cp "Service".toList "Description".toList [] = some desc.description := by
  obtain ⟨cp', hcp', hparse⟩ := Option.bind_eq_some_iff.mp hparse
  obtain rfl := Option.some.inj (hcp'.symm.trans hread)
  obtain ⟨_, -, hparse⟩ := Option.bind_eq_some_iff.mp hparse
  obtain ⟨_, -, hparse⟩ := Option.bind_eq_some_iff.mp hparse
  obtain ⟨_, -, hparse⟩ := Option.bind_eq_some_iff.mp hparse
  obtain ⟨value, hvalue, hparse⟩ := Option.bind_eq_some_iff.mp hparse
  obtain ⟨_, -, hparse⟩ := Option.bind_eq_some_iff.mp hparse
  obtain ⟨_, -, hparse⟩ := Option.bind_eq_some_iff.mp hparse
  obtain ⟨_, -, hparse⟩ := Option.bind_eq_some_iff.mp hparse
  obtain ⟨_, -, hparse⟩ := Option.bind_eq_some_iff.mp hparse
  obtain ⟨_, -, hparse⟩ := Option.bind_eq_some_iff.mp hparse
  obtain ⟨_, -, hparse⟩ := Option.bind_eq_some_iff.mp hparse
  obtain ⟨_, -, hparse⟩ := Option.bind_eq_some_iff.mp hparse
  obtain ⟨_, -, hparse⟩ := Option.bind_eq_some_iff.mp hparse
  rw [hvalue, ← Option.some.inj hparse]

/-- The descriptor of a service whose options are read as they were written. -/
theorem parse_service_file_options {basename text : Text} (hread : read py.lower text = some cp)
    (hservice : ∀ opt ∈ serviceOptions name class_name description, ∀ fallback,
      getOr py.lower cp "Service".toList opt.1 fallback = some opt.2)
    (hdepends : getOr py.lower cp "Service".toList "DependsOn".toList [] = some [])
    (hhealth : ∀ opt ∈ healthOptions, ∀ fallback,
      getOr py.lower cp "Health".toList opt.1 fallback = some opt.2) :
    ∃ desc, parse_service_file py basename text = some desc ∧ desc.name = name ∧
      desc.description = description ∧ desc.module = moduleString name class_name := by
  simp only [serviceOptions, List.forall_mem_cons] at hservice
  simp only [healthOptions, List.forall_mem_cons] at hhealth
  obtain ⟨h₁, h₂, h₃, h₄, h₅, h₆, -⟩ := hservice
  obtain ⟨h₇, h₈, -⟩ := hhealth
  obtain ⟨delay, hdelay⟩ := Option.isSome_iff_exists.mp
    (py.float_digits "5".toList (by decide) (by decide))
  obtain ⟨interval, hinterval⟩ := Option.isSome_iff_exists.mp
    (py.float_digits "30".toList (by decide) (by decide))
  have hint : PyStr.int (String.ofList "3".toList) = some 3 := by decide
  have hbind : ∀ {α β : Type} {x : Option α} {a : α} {f : α → Option β} {b : β}, x = some a →
      f a = some b → x.bind f = some b :=
    fun hx hf => Option.bind_eq_some_iff.mpr ⟨_, hx, hf⟩
  exact ⟨_, hbind hread (hbind (h₁ _) (hbind hdepends (hbind (h₅ _) (hbind (h₂ _) (hbind (h₃ _)
    (hbind (h₄ _) (hbind (h₆ _) (hbind hdelay (hbind (h₇ _) (hbind hinterval (hbind (h₈ _)
      (hbind hint rfl)))))))))))), rfl, rfl, rfl⟩

/-- The descriptor is parsed to what it was written for if and only if there is no `%` in the
    description. -/
theorem parsed_iff (hname : IsName name) (hne : name ≠ []) (hclass : IsName class_name)
    (hline : SingleLine description) (basename : Text) :
    (∃ desc, parse_service_file py basename (render_descriptor name class_name description) =
        some desc ∧
      desc.name = name ∧ desc.description = description ∧
      desc.module = moduleString name class_name) ↔ '%' ∉ description := by
  obtain ⟨cp, service, health, hread, hdefault, hservice, hholds, hhealth, hholds'⟩ :=
    read_descriptor py hname hne hclass hline
  have hothers := serviceOptions_percent hname hclass description
  have hsection : cp.sections.get "Service".toList ≠ none := by
    rw [hservice]
    exact Option.some_ne_none _
  constructor
  · rintro ⟨desc, hparse, -, heq, -⟩
    have hmem : ("Description".toList, description) ∈ serviceOptions name class_name description :=
      List.mem_cons_of_mem _ List.mem_cons_self
    have hget := parse_service_file_description py hparse hread
    unfold getOr at hget
    rw [if_neg hsection, heq] at hget
    exact (hholds.get_iff hservice hdefault hmem hothers []).mp hget
  · intro hpercent
    have hnone : ∀ opt ∈ healthOptions, '%' ∉ opt.2 := by
      unfold healthOptions
      repeat rw [String.toList_ofList]
      decide
    -- nothing depends on other services
    have hdepends : getOr py.lower cp "Service".toList "DependsOn".toList [] = some [] := by
      have hlower : py.lower "DependsOn".toList = "dependson".toList :=
        (py.lower_ascii _ (by decide)).trans (by decide)
      unfold getOr
      rw [if_neg hsection]
      refine hholds.get_absent hservice hdefault ?_ []
      rw [serviceOptions_names, hlower]
      repeat rw [String.toList_ofList]
      decide
    exact parse_service_file_options py hread
      (getOr_of_holds hservice hdefault hholds fun opt hopt hmem =>
        hpercent (hothers opt hopt hmem ▸ hmem))
      hdepends (getOr_of_holds hhealth hdefault hholds' hnone)

end Parsed

/-! ### The module -/

/-- What the docstring of the module begins with. -/
def heading (class_name : Text) : List Piece :=
  [.lit "\"\"\"\nAURA-AIOSCPU ".toList, .lit class_name, .lit " Service\n".toList,
    .key "\"=\" * (len(class_name) + 24)".toList, .lit ['\n']]

/-- What stands between its description and the class statement. -/
def between (upper : Text) : Text :=
  "\n\nEvents published\n----------------\n  ".toList ++ upper ++
    "_STARTED   — service has started\n  ".toList ++ upper ++
    "_STOPPED   — service has stopped\n\"\"\"\nfrom __future__ import annotations\n\n".toList ++
    "import logging\nimport threading\nimport time\n\n".toList ++
    "logger = logging.getLogger(__name__)\n\n".toList

def headPieces : List Piece :=
  [.lit "\"\"\"\nAURA-AIOSCPU ".toList, .key "class_name".toList, .lit " Service\n".toList,
    .key "\"=\" * (len(class_name) + 24)".toList, .lit ['\n'], .key "description".toList,
    .lit "\n\nEvents published\n----------------\n  ".toList, .key "UPPER_NAME".toList,
    .lit "_STARTED   — service has started\n  ".toList, .key "UPPER_NAME".toList,
    .lit "_STOPPED   — service has stopped\n\"\"\"\nfrom __future__ import annotations\n\n".toList,
    .lit "import logging\nimport threading\nimport time\n\n".toList,
    .lit "logger = logging.getLogger(__name__)\n\n".toList, .lit ['\n'], .lit "class ".toList,
    .key "class_name".toList, .lit "Service".toList, .lit [':'], .lit ['\n'],
    .lit "    \"\"\"\n    ".toList, .key "description".toList]

theorem service_template :
    SERVICE_TEMPLATE = text headPieces ++ '\n' :: unlines SERVICE_TEMPLATE_BODY := by
  have hhead : unlines SERVICE_TEMPLATE_HEAD = text headPieces ++ ['\n'] := by
    simp only [unlines, SERVICE_TEMPLATE_HEAD, List.flatMap_cons, text, headPieces, Piece.text,
      braces]
    repeat rw [String.toList_ofList]
    decide +kernel
  have happend : SERVICE_TEMPLATE =
      unlines SERVICE_TEMPLATE_HEAD ++ unlines SERVICE_TEMPLATE_BODY := List.flatMap_append
  rw [happend, hhead, List.append_assoc, List.singleton_append]

/-- The lines after the description in the class are indented. -/
theorem body_indented : Indented ('\n' :: unlines SERVICE_TEMPLATE_BODY) := by
  simp only [unlines, SERVICE_TEMPLATE_BODY, List.flatMap_cons]
  repeat rw [String.toList_ofList]
  decide +kernel

theorem headPieces_clean : ∀ piece ∈ headPieces, piece.Clean := by
  unfold headPieces
  repeat rw [String.toList_ofList]
  decide

theorem between_eq (upper : Text) : between upper =
    "\n\nEvents published\n----------------\n  ".toList ++ upper ++
      "_STARTED   — service has started\n  ".toList ++ upper ++
      "_STOPPED   — service has stopped\n\"\"\"\nfrom __future__ import annotations\n\n".toList ++
      "import logging\nimport threading\nimport time\n\n".toList ++
      "logger = logging.getLogger(__name__)\n\n".toList := rfl

theorem classStatement_eq (class_name : Text) :
    classStatement class_name = "class ".toList ++ class_name ++ [':'] := rfl

theorem isName_upper {name : Text} (h : IsName name) : IsName (name.map Char.toUpper) := by
  intro c hc
  obtain ⟨d, hd, rfl⟩ := List.mem_map.mp hc
  exact forall_nameChar (p := fun c => isNameChar c.toUpper = true) (by decide) (h d hd)

/-- The parts of the module that the description stands between. -/
theorem filled_service_eq {name class_name description : Text} (hname : IsName name)
    (hclass : IsName class_name) (hline : '\n' ∉ description) :
    ∃ rest, Indented rest ∧ filled_service name class_name description =
      text (heading class_name) ++ (description ++
        (between (name.map Char.toUpper) ++
          '\n' :: (classStatement (class_name ++ "Service".toList) ++ '\n' ::
             ("    \"\"\"\n    ".toList ++ (description ++ rest))))) := by
  have hupper := isName_upper hname
  have hbrace : isNameChar '{' = false := by decide
  have hnewline : isNameChar '\n' = false := by decide
  have hclean₁ := fill_clean headPieces_clean "class_name".toList (hclass.not_mem hbrace)
  have hclean₂ := fill_clean hclean₁ "lower_name".toList (hname.not_mem hbrace)
  have hclean₃ := fill_clean hclean₂ "UPPER_NAME".toList (hupper.not_mem hbrace)
  have hrest : Indented (replace (braces "description".toList) description
      (replace (braces "UPPER_NAME".toList) (name.map Char.toUpper)
        (replace (braces "lower_name".toList) name
          (replace (braces "class_name".toList) class_name
            ('\n' :: unlines SERVICE_TEMPLATE_BODY))))) :=
    replace_indented hline (replace_indented (hupper.not_mem hnewline)
      (replace_indented (hname.not_mem hnewline) (replace_indented (hclass.not_mem hnewline)
        body_indented)))
  refine ⟨_, hrest, ?_⟩
  unfold filled_service
  simp only
  rw [service_template, replace_text (by decide) _ _ headPieces_clean,
    replace_text (by decide) _ _ hclean₁, replace_text (by decide) _ _ hclean₂,
    replace_text (by decide) _ _ hclean₃]
  generalize replace (braces "description".toList) description _ = rest
  simp only [headPieces, List.map_cons, List.map_nil, Piece.fill, String.toList_inj,
    String.reduceEq, if_true, if_false]
  simp only [text, heading, List.flatMap_cons, List.flatMap_nil, Piece.text, between_eq,
    classStatement_eq, List.append_assoc, List.cons_append, List.nil_append]

/-- The texts around the descriptions have no braces but those of the underline. -/
theorem free_between {upper : Text} (h : IsName upper) : Free (between upper) := by
  have hlit : ∀ lit ∈ ["\n\nEvents published\n----------------\n  ".toList,
      "_STARTED   — service has started\n  ".toList,
      "_STOPPED   — service has stopped\n\"\"\"\nfrom __future__ import annotations\n\n".toList,
      "import logging\nimport threading\nimport time\n\n".toList,
      "logger = logging.getLogger(__name__)\n\n".toList], Free lit := by
    repeat rw [String.toList_ofList]
    decide
  simp only [List.forall_mem_cons] at hlit
  obtain ⟨h₁, h₂, h₃, h₄, h₅, -⟩ := hlit
  rw [between_eq]
  exact (((((h₁.append h.free).append h₂).append h.free).append h₃).append h₄).append h₅

theorem free_classStatement {class_name : Text} (h : IsName class_name) :
    Free (classStatement class_name) := by
  rw [classStatement_eq]
  exact (Free.append (by decide) h.free).append (by decide)

theorem lastBrace_heading (class_name : Text) :
    lastBrace (text (heading class_name)) = some '}' := by
  have hbraces : ∀ key : Text, lastBrace (braces key) = some '}' := by
    intro key
    have hsplit : braces key = ('{' :: key) ++ ['}'] := rfl
    rw [hsplit, lastBrace_append]
    rfl
  have hend : lastBrace ['\n'] = none := rfl
  simp only [text, heading, List.flatMap_cons, List.flatMap_nil, Piece.text, lastBrace_append, hend,
    hbraces]
  rfl

/-- The class statement stays in the module if the description does not close a brace before it
    opens one. -/
theorem defines_service {name class_name description : Text} (hname : IsName name)
    (hclass : IsName class_name) (hline : '\n' ∉ description) (h : ¬ Straddles description)
    (eval : Text → Option Text) :
    classStatement (class_name ++ "Service".toList) ∈
      (render_service eval name class_name description).splitOn '\n' := by
  obtain ⟨rest, -, hfilled⟩ := filled_service_eq hname hclass hline
  have hbetween := free_between (isName_upper hname)
  have hstmt := free_classStatement (hclass.append (b := "Service".toList) (by decide))
  set stmt := classStatement (class_name ++ "Service".toList) with hstmt'
  set after := "    \"\"\"\n    ".toList ++ (description ++ rest) with hafter
  have hfree : Free ('\n' :: stmt ++ ['\n']) :=
    (Free.append (a := ['\n']) (by decide) hstmt).append (by decide)
  have hsplit : filled_service name class_name description =
      (text (heading class_name) ++ (description ++ between (name.map Char.toUpper))) ++
        (('\n' :: stmt ++ ['\n']) ++ after) := by
    rw [hfilled]
    simp only [List.append_assoc, List.cons_append, List.nil_append]
  -- no braces enclose the place before the statement
  have hplace : ¬ (lastBrace (text (heading class_name) ++
        (description ++ between (name.map Char.toUpper))) = some '{' ∧
      firstBrace (('\n' :: stmt ++ ['\n']) ++ after) = some '}') := by
    rintro ⟨hlast, hfirst⟩
    have hquotes : firstBrace "    \"\"\"\n    ".toList = none := Free.firstBrace (by decide)
    rw [lastBrace_append, lastBrace_append, hbetween.lastBrace, Option.none_or,
      lastBrace_heading] at hlast
    rw [firstBrace_append, hfree.firstBrace, hafter, firstBrace_append, hquotes, firstBrace_append,
      Option.none_or, Option.none_or] at hfirst
    rcases free_or_split description with hnone | ⟨a, b, tail, rfl, ha, hb⟩
    · rw [hnone.lastBrace] at hlast
      cases hlast
    · refine h ⟨?_, ?_⟩
      · rw [firstBrace_append, ha.firstBrace, firstBrace_cons hb] at hfirst ⊢
        exact hfirst
      · cases hbrace : lastBrace (a ++ b :: tail) with
        | none => rw [hbrace] at hlast; cases hlast
        | some d => rw [hbrace] at hlast; exact hlast
  have hmem : ∀ u v : Text, stmt ∈ (u ++ (('\n' :: stmt ++ ['\n']) ++ v)).splitOn '\n' := by
    intro u v
    have hnewline : '\n' ∉ stmt := by
      rw [hstmt', classStatement_eq]
      simp only [List.mem_append, not_or]
      exact ⟨⟨by decide, hclass.not_mem (by decide), by decide⟩, by decide⟩
    have hassoc : u ++ (('\n' :: stmt ++ ['\n']) ++ v) = u ++ '\n' :: (stmt ++ '\n' :: v) := by
      simp only [List.append_assoc, List.cons_append, List.nil_append]
    rw [hassoc, List.splitOn_append_cons_self, List.splitOn_append_cons_self_of_not_mem hnewline]
    exact List.mem_append_right _ List.mem_cons_self
  have hkept : ∀ f, subBraces f (('\n' :: stmt ++ ['\n']) ++ after) =
      ('\n' :: stmt ++ ['\n']) ++ subBraces f after := by
    intro f
    rw [subBraces_append_free (by rw [hfree.lastBrace]; simp), subBraces_of_free hfree]
  unfold render_service expand_format_exprs
  rw [hsplit, subBraces_append _ hplace, hkept]
  exact hmem _ _

/-- The heading without its underline. -/
theorem heading_evaluated {class_name : Text} (hclass : IsName class_name) :
    subBraces (fun _ => []) (text (heading class_name)) =
      "\"\"\"".toList ++ '\n' :: ("AURA-AIOSCPU ".toList ++ class_name ++ " Service".toList ++
        '\n' :: ([] ++ ['\n'])) := by
  set title := "\"\"\"\nAURA-AIOSCPU ".toList ++ class_name ++ " Service\n".toList with htitle
  set key := "\"=\" * (len(class_name) + 24)".toList with hkey
  have hfree : Free title := (Free.append (by decide) hclass.free).append (by decide)
  have hinner : braced (key ++ '}' :: ['\n']) = some key := by
    rw [braced_split (by decide) (by decide), if_pos ⟨by decide, rfl⟩]
  have hsplit : text (heading class_name) = title ++ '{' :: (key ++ '}' :: ['\n']) := by
    simp only [text, heading, List.flatMap_cons, List.flatMap_nil, Piece.text, braces, htitle,
      List.append_assoc, List.cons_append, List.nil_append]
    rfl
  have hlines : title = "\"\"\"".toList ++ '\n' :: ("AURA-AIOSCPU ".toList ++ class_name ++
      " Service".toList ++ ['\n']) := by
    have h₁ : "\"\"\"\nAURA-AIOSCPU ".toList =
        "\"\"\"".toList ++ '\n' :: "AURA-AIOSCPU ".toList := by
      decide
    have h₂ : " Service\n".toList = " Service".toList ++ ['\n'] := by decide
    rw [htitle, h₁, h₂]
    simp only [List.append_assoc, List.cons_append]
  rw [hsplit, subBraces_append_free (by rw [hfree.lastBrace]; simp), subBraces_of_free hfree,
    subBraces_cons_some hinner, subBraces_of_free (by decide), hlines]
  simp only [List.append_assoc, List.cons_append, List.nil_append]

/-- Otherwise, where what stands in braces is evaluated to nothing, the description goes on after
    its first closing brace with what is indented. -/
theorem straddling_module {name class_name description : Text} (hname : IsName name)
    (hclass : IsName class_name) (hline : '\n' ∉ description) (h : Straddles description) :
    ∃ a after, '\n' ∉ a ∧ Indented (a ++ '}' :: after) ∧
      render_service (fun _ => some []) name class_name description =
        "\"\"\"".toList ++ '\n' :: ("AURA-AIOSCPU ".toList ++ class_name ++ " Service".toList ++
          '\n' :: ([] ++ '\n' :: (a ++ '}' :: after))) := by
  obtain ⟨rest, hrest, hfilled⟩ := filled_service_eq hname hclass hline
  obtain ⟨a, b, c, rfl, ha, hc⟩ := h.split
  set stmt := classStatement (class_name ++ "Service".toList) with hstmt
  set middle := between (name.map Char.toUpper) ++
    ('\n' :: stmt ++ '\n' :: "    \"\"\"\n    ".toList) with hmiddle
  have hfree : Free middle :=
    (free_between (isName_upper hname)).append ((Free.append (a := ['\n']) (by decide)
      (free_classStatement (hclass.append (b := "Service".toList) (by decide)))).append (by decide))
  have hsplit : filled_service name class_name (a ++ '}' :: (b ++ '{' :: c)) =
      text (heading class_name) ++ (a ++ '}' :: (b ++ '{' :: c) ++
        (middle ++ (a ++ '}' :: (b ++ '{' :: c) ++ rest))) := by
    rw [hfilled, hmiddle]
    simp only [List.append_assoc, List.cons_append]
  simp only [List.mem_append, List.mem_cons, not_or] at hline
  obtain ⟨hlineA, -, hlineB, -, hlineC⟩ := hline
  refine ⟨a, subBraces (fun _ => []) b ++
    ([] ++ subBraces (fun _ => []) (b ++ '{' :: c ++ rest)), hlineA, ?_, ?_⟩
  · have hb : '\n' ∉ subBraces (fun _ => []) b := by
      intro hmem
      rcases mem_subBraces hmem with hmem | ⟨_, hmem⟩
      · exact hlineB hmem
      · cases hmem
    have hc : Indented (b ++ '{' :: c ++ rest) := by
      refine indented_append ?_ hrest
      simp only [List.mem_append, List.mem_cons, not_or]
      exact ⟨hlineB, by decide, hlineC⟩
    have hclosed : '\n' ∉ a ++ ['}'] := by
      simp only [List.mem_append, List.mem_singleton, not_or]
      exact ⟨hlineA, by decide⟩
    rw [List.append_cons]
    exact indented_append hclosed
      (indented_append hb (subBraces_indented (fun _ => List.not_mem_nil) hc))
  · have hnone : (fun expr => ((some []) : Option Text).getD (braces expr)) =
        fun _ : Text => ([] : Text) := rfl
    unfold render_service expand_format_exprs
    rw [hsplit, hnone, subBraces_straddling (by rw [lastBrace_heading]; decide) ha hc hfree
      (by rw [hmiddle]; simp), heading_evaluated hclass]
    simp only [List.append_assoc, List.cons_append, List.nil_append]

/-- No line of indented text after a closing brace begins at the margin without a brace. -/
theorem not_mem_indented {a after stmt : Text} {c : Char} (ha : '\n' ∉ a)
    (hindented : Indented (a ++ '}' :: after)) (hhead : stmt.head? = some c)
    (hc : c ≠ ' ') (hbrace : '}' ∉ stmt) :
    stmt ∉ (a ++ '}' :: after).splitOn '\n' := by
  have hclosed : '\n' ∉ a ++ ['}'] := by
    simp only [List.mem_append, List.mem_singleton, not_or]
    exact ⟨ha, by decide⟩
  obtain ⟨w, lines, hlines⟩ := splitOn_first hclosed after
  have hrest := hindented.lines
  rw [← List.append_cons] at hlines
  rw [hlines] at hrest ⊢
  rw [List.mem_cons, not_or]
  constructor
  · rintro rfl
    exact hbrace (by simp)
  · intro hmem
    exact hc (hrest _ hmem c hhead)

/-- So the class statement, which begins at the margin and has no braces, is lost. -/
theorem not_defines_service {name class_name description : Text} (hname : IsName name)
    (hclass : IsName class_name) (hline : '\n' ∉ description) (h : Straddles description) :
    classStatement (class_name ++ "Service".toList) ∉
      (render_service (fun _ => some []) name class_name description).splitOn '\n' := by
  obtain ⟨a, after, ha, hindented, hmodule⟩ := straddling_module hname hclass hline h
  set stmt := classStatement (class_name ++ "Service".toList) with hstmt
  have hhead : stmt.head? = some 'c' := by
    rw [hstmt, classStatement_eq]
    rfl
  have hbrace : '}' ∉ stmt := fun hmem => by
    have hclass' := hclass.append (b := "Service".toList) (by decide)
    have hfalse := free_classStatement hclass' '}' hmem
    cases hfalse
  have htitle : '\n' ∉ "AURA-AIOSCPU ".toList ++ class_name ++ " Service".toList := by
    simp only [List.mem_append, not_or]
    exact ⟨⟨by decide, hclass.not_mem (by decide)⟩, by decide⟩
  rw [hmodule, List.splitOn_append_cons_self_of_not_mem (by decide),
    List.splitOn_append_cons_self_of_not_mem htitle,
    List.splitOn_append_cons_self_of_not_mem List.not_mem_nil]
  simp only [List.mem_cons, not_or]
  refine ⟨?_, ?_, ?_, not_mem_indented ha hindented hhead (by decide) hbrace⟩
  · intro heq
    rw [heq] at hhead
    exact absurd hhead (by decide)
  · intro heq
    rw [heq, List.append_assoc] at hhead
    cases hhead
  · intro heq
    rw [heq] at hhead
    cases hhead

/-! ### The round trip -/

/-- The descriptor that is written is parsed to the name, the description and the class of the
    module, whatever `eval` makes of what stands in braces. -/
def RoundTrips {ρ : Type} (py : Python ρ) (name description : Text) : Prop :=
  ∀ eval s, scaffold_service py.lower eval name description = some s →
    (∃ desc, parse_service_file py (s.name ++ ".service".toList) s.descriptor = some desc ∧
      desc.name = s.name ∧ desc.description = s.description ∧
      desc.module = moduleString s.name s.class_name) ∧
    Defines s.service (s.class_name ++ "Service".toList)

/-- The description that is written, the default one included. -/
theorem described_line {class_name description : Text} (hclass : IsName class_name)
    (hnewline : '\n' ∉ description) (hcarriage : '\r' ∉ description)
    (hstrip : strip description = description) {d : Text}
    (hd : d = if description = [] then "AURA ".toList ++ class_name ++ " service.".toList
      else description) :
    SingleLine d ∧ ('%' ∈ d ↔ '%' ∈ description) ∧ (Straddles d ↔ Straddles description) := by
  split at hd
  · next hempty =>
    have hmem : ∀ {c : Char}, isNameChar c = false → c ∉ "AURA ".toList → c ∉ " service.".toList →
        c ∉ d := by
      intro c hc h₁ h₂
      rw [hd]
      simp only [List.mem_append, not_or]
      exact ⟨⟨h₁, hclass.not_mem hc⟩, h₂⟩
    have hfree : Free d := by
      rw [hd]
      exact (Free.append (by decide) hclass.free).append (by decide)
    have htrimmed : Trimmed d := by
      refine ⟨by rw [hd]; simp, ?_⟩
      have hend : (class_name ++ " service.".toList).rdropWhile PyStr.isspace =
          class_name ++ " service.".toList := by
        have hdot : " service.".toList = " service".toList ++ ['.'] := by decide
        rw [hdot, ← List.append_assoc]
        exact List.rdropWhile_concat_neg _ _ _ (by decide)
      rw [hd, List.append_assoc]
      exact strip_append (by rintro c ⟨⟩; decide) (by decide) hend (by simp)
    refine ⟨⟨htrimmed, hmem (by decide) (by decide) (by decide),
      hmem (by decide) (by decide) (by decide)⟩, ?_, ?_⟩
    · rw [hempty]
      exact iff_of_false (hmem (by decide) (by decide) (by decide)) List.not_mem_nil
    · rw [hempty]
      refine iff_of_false (fun h => ?_) (by decide)
      have hfirst := h.1
      rw [hfree.firstBrace] at hfirst
      cases hfirst
  · next hne =>
    subst hd
    exact ⟨⟨⟨hne, hstrip⟩, hnewline, hcarriage⟩, Iff.rfl, Iff.rfl⟩

/-- The descriptor round trip holds if and only if the description has no `%`, the name does not
    begin with a digit, and the description does not close a brace before it opens one. -/
theorem round_trips_iff {ρ : Type} {py : Python ρ} {name description snake : Text}
    (hname : sanitize py.lower name = some snake) (hnewline : '\n' ∉ description)
    (hcarriage : '\r' ∉ description) (hstrip : strip description = description) :
    RoundTrips py name description ↔
      '%' ∉ description ∧ (∀ c ∈ snake.head?, c.isDigit = false) ∧ ¬ Straddles description := by
  obtain ⟨hword, c, rest, hcons, hc⟩ := sanitize_spec hname
  have hsnake : IsName snake := fun d hd => isNameChar_of_isWord (hword d hd)
  have hne : snake ≠ [] := by
    rw [hcons]
    exact List.cons_ne_nil _ _
  have hclass : IsName (to_class_name snake) := isName_to_class_name hsnake
  obtain ⟨hline, hpercent, hstraddles⟩ := described_line hclass hnewline hcarriage hstrip rfl
  set d := if description = [] then "AURA ".toList ++ to_class_name snake ++ " service.".toList
    else description with hd
  have hscaffold : ∀ eval, scaffold_service py.lower eval name description =
      some { name := snake, class_name := to_class_name snake, description := d,
             service := render_service eval snake (to_class_name snake) d,
             descriptor := render_descriptor snake (to_class_name snake) d } := by
    intro eval
    unfold scaffold_service
    rw [hname, Option.map_some]
  have hparsed := parsed_iff py hsnake hne hclass hline (snake ++ ".service".toList)
  have hdigit : isidentifier (to_class_name snake ++ "Service".toList) = true ↔
      ∀ c ∈ snake.head?, c.isDigit = false := by
    rw [hcons] at hword ⊢
    rw [isidentifier_class_name hword hc]
    simp
  rw [← hpercent, ← hstraddles, ← hparsed, ← hdigit]
  constructor
  · intro h
    obtain ⟨hdesc, -, hidentifier⟩ := h (fun _ => some []) _ (hscaffold _)
    refine ⟨hdesc, hidentifier, fun hbraces => ?_⟩
    exact not_defines_service hsnake hclass hline.newline hbraces
      (h (fun _ => some []) _ (hscaffold _)).2.1
  · rintro ⟨hdesc, hidentifier, hbraces⟩ eval s hs
    rw [hscaffold] at hs
    rw [← Option.some.inj hs]
    exact ⟨hdesc, defines_service hsnake hclass hline.newline hbraces eval, hidentifier⟩

/-- A Python whose floats are the texts they are read from. -/
def asciiPython : Python Text where
  lower t := t.map Char.toLower
  lower_ascii _ _ := rfl
  float t := some t
  float_digits _ _ _ := rfl

/-- The scaffold of the usage. -/
theorem round_trips_iff_my_feature :
    RoundTrips asciiPython "my_feature".toList "Does X".toList ↔
      '%' ∉ "Does X".toList ∧ (∀ c ∈ "my_feature".toList.head?, c.isDigit = false) ∧
        ¬ Straddles "Does X".toList :=
  have hname : sanitize asciiPython.lower "my_feature".toList = some "my_feature".toList := by
    decide +kernel
  round_trips_iff hname (by decide) (by decide) (by decide)

/-- A description with a `%`: its descriptor cannot be parsed. -/
theorem percent_not_parsed : ¬ RoundTrips asciiPython "backup".toList "100% done".toList := by
  intro h
  obtain ⟨⟨desc, hparse, -⟩, -⟩ := h (fun _ => none) _ rfl
  have hnone : parse_service_file asciiPython ("backup".toList ++ ".service".toList)
      (render_descriptor "backup".toList (to_class_name "backup".toList)
        "100% done".toList) = none := by
    decide +kernel
  cases hnone.symm.trans hparse

end ModuleBuilder
