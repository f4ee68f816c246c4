import Aioscpu.Framework.Dict
import Aioscpu.Framework.PyStr

/-! # INI Files

  `configparser.ConfigParser` with its defaults: sections and options, comments,
  values over several lines, and the interpolation of `%(name)s`. A text is the
  list of its characters, and `lower` is `str.lower`.

  - `readLine_option`, `readLines_options`: lines of plain options are read as
    they were written.
  - `interpolate_of_not_mem`, `interpolate_ne_self`: a value comes back as it is
    if and only if it has no `%`, when the other values have none.
-/

namespace ConfigParser

open scoped PyStr

abbrev Text := List Char

/-- `s.strip()`. -/
def strip (t : Text) : Text := (t.dropWhile PyStr.isspace).rdropWhile PyStr.isspace

/-! ### Reading -/

/-- Universal newlines. -/
def translate : Text → Text
  | '\r' :: '\n' :: t => '\n' :: translate t
  | '\r' :: t => '\n' :: translate t
  | c :: t => c :: translate t
  | [] => []

/-- The lines of a file. -/
def lines (text : Text) : List Text :=
  let parts := (translate text).splitOn '\n'
  if parts.getLast? = some [] then parts.dropLast else parts

theorem translate_of_not_mem {t : Text} (h : '\r' ∉ t) : translate t = t := by
  induction t with
  | nil => rfl
  | cons c t ih =>
    rw [List.mem_cons, not_or] at h
    have hc : c ≠ '\r' := Ne.symm h.1
    rw [translate, ih h.2]
    · intro t' heq _
      exact hc heq
    · exact hc

/-- `c` ends a line. -/
def isNewline (c : Char) : Bool := c = '\n' || c = '\r'

/-- A text of one line at most. -/
def OneLine (t : Text) : Prop := ∀ c ∈ t, isNewline c = false

instance (t : Text) : Decidable (OneLine t) :=
  inferInstanceAs (Decidable (∀ c ∈ t, isNewline c = false))

theorem OneLine.append {a b : Text} (ha : OneLine a) (hb : OneLine b) : OneLine (a ++ b) :=
  fun c hc => (List.mem_append.mp hc).elim (ha c) (hb c)

/-- The two characters of `\r\n` have an empty line between them at most: the lines before it
    and after it are the same ones. -/
theorem splitOn_translate (text : Text) : ∃ first parts parts',
    (translate text).splitOn '\n' = first :: parts ∧ text.splitOnP isNewline = first :: parts' ∧
      parts.filter (· ≠ []) = parts'.filter (· ≠ []) := by
  induction text using translate.induct with
  | case1 t ih =>
    obtain ⟨first, parts, parts', h, h', hfilter⟩ := ih
    refine ⟨[], first :: parts, [] :: first :: parts', ?_, ?_, ?_⟩
    · rw [translate, List.splitOn_cons_eq_if_modifyHead, if_pos (by rfl), h]
    · rw [List.splitOnP_cons_eq_if_modifyHead, if_pos (by rfl),
        List.splitOnP_cons_eq_if_modifyHead, if_pos (by rfl), h']
    · rw [List.filter_cons_of_neg (a := []) (by simp), List.filter_cons, List.filter_cons, hfilter]
  | case2 t hnot ih =>
    obtain ⟨first, parts, parts', h, h', hfilter⟩ := ih
    refine ⟨[], first :: parts, first :: parts', ?_, ?_, ?_⟩
    · rw [translate, List.splitOn_cons_eq_if_modifyHead, if_pos (by rfl), h]
      exact hnot
    · rw [List.splitOnP_cons_eq_if_modifyHead, if_pos (by rfl), h']
    · rw [List.filter_cons, List.filter_cons, hfilter]
  | case3 c t hpair hreturn ih =>
    obtain ⟨first, parts, parts', h, h', hfilter⟩ := ih
    have hc : c ≠ '\r' := fun heq => hreturn heq
    by_cases hnewline : c = '\n'
    · subst hnewline
      refine ⟨[], first :: parts, first :: parts', ?_, ?_, ?_⟩
      · rw [translate, List.splitOn_cons_eq_if_modifyHead, if_pos (by rfl), h]
        exacts [hpair, hreturn]
      · rw [List.splitOnP_cons_eq_if_modifyHead, if_pos (by rfl), h']
      · rw [List.filter_cons, List.filter_cons, hfilter]
    · refine ⟨c :: first, parts, parts', ?_, ?_, hfilter⟩
      · rw [translate, List.splitOn_cons_eq_if_modifyHead, if_neg (by simpa using hnewline), h]
        · rfl
        · exact hpair
        · exact hreturn
      · rw [List.splitOnP_cons_eq_if_modifyHead, if_neg (by simp [isNewline, hc, hnewline]), h']
        rfl
  | case4 => exact ⟨[], [], [], rfl, rfl, rfl⟩

/-- The lines that are not empty stand between the characters that end lines. -/
theorem filter_lines (text : Text) :
    (lines text).filter (· ≠ []) = (text.splitOnP isNewline).filter (· ≠ []) := by
  obtain ⟨first, parts, parts', h, h', hfilter⟩ := splitOn_translate text
  have hall : ((translate text).splitOn '\n').filter (· ≠ []) =
      (text.splitOnP isNewline).filter (· ≠ []) := by
    rw [h, h', List.filter_cons, List.filter_cons, hfilter]
  rw [← hall]
  unfold lines
  dsimp only
  split
  · next hlast =>
    -- the last part is empty
    have hconcat := List.dropLast_append_getLast? _ hlast
    conv_rhs => rw [← hconcat, List.filter_append]
    simp
  · rfl

/-- Lines that all end with a newline are read back. -/
theorem lines_flatMap {parts : List Text} (h : ∀ part ∈ parts, '\n' ∉ part ∧ '\r' ∉ part) :
    lines (parts.flatMap (· ++ ['\n'])) = parts := by
  have hreturn : '\r' ∉ parts.flatMap (· ++ ['\n']) := by
    intro hmem
    obtain ⟨part, hpart, hc⟩ := List.mem_flatMap.mp hmem
    rcases List.mem_append.mp hc with hc | hc
    · exact (h part hpart).2 hc
    · exact absurd (List.mem_singleton.mp hc) (by decide)
  have hsplit : (parts.flatMap (· ++ ['\n'])).splitOn '\n' = parts ++ [[]] := by
    clear hreturn
    induction parts with
    | nil => rfl
    | cons part parts ih =>
      have hpart := (h part List.mem_cons_self).1
      have ih := ih fun part hpart => h part (List.mem_cons_of_mem _ hpart)
      rw [List.flatMap_cons, List.append_assoc, List.singleton_append,
        List.splitOn_append_cons_self_of_not_mem hpart, ih, List.cons_append]
  unfold lines
  rw [translate_of_not_mem hreturn, hsplit]
  simp

/-- The options of a section, with the lines of their values. -/
abbrev Options := Dict Text (List Text)

def DEFAULTSECT : Text := "DEFAULT".toList

/-- The state of `_read`. The options of the default section stand under its name. -/
structure State where
  sections : Dict Text Options
  cursect : Option Text
  optname : Option Text
  indent_level : Nat
  /-- An error has been noted, and is raised at the end. -/
  bad : Bool

def start : State :=
  { sections := Dict.empty.set DEFAULTSECT .empty, cursect := none, optname := none,
    indent_level := 0, bad := false }

/-- `cursect[optname] = lines`. -/
def State.assign (s : State) (sect optname : Text) (lines : List Text) : State :=
  match s.sections.get sect with
  | some options => { s with sections := s.sections.set sect (options.set optname lines) }
  | none => s

/-- The lines of the current option, if there is one. -/
def State.current (s : State) : Option (Text × Text × List Text) :=
  match s.cursect, s.optname with
  | some sect, some optname =>
    if optname = [] then none
    else
      ((s.sections.get sect).bind fun options => options.get optname).map fun lines =>
        (sect, optname, lines)
  | _, _ => none

/-- `SECTCRE.match`: what stands between the first `[` and the last `]`. -/
def header (value : Text) : Option Text :=
  match value with
  | '[' :: rest =>
    match rest.reverse.dropWhile (· ≠ ']') with
    | _ :: c :: name => some (c :: name).reverse
    | _ => none
  | _ => none

def isDelimiter (c : Char) : Bool := c = '=' || c = ':'

/-- `OPTCRE.match`: the name of the option, and the value. -/
def option (value : Text) : Option (Text × Text) :=
  match value.dropWhile fun c => !isDelimiter c with
  | _ :: rest =>
    some ((value.takeWhile fun c => !isDelimiter c).rdropWhile PyStr.isspace, strip rest)
  | [] => none

/-- A line that does not go on with a value. -/
def readElement (lower : Text → Text) (s : State) (value : Text) : Option State :=
  match header value with
  | some name =>
    if name = DEFAULTSECT then some { s with cursect := some name, optname := none }
    else if s.sections.get name ≠ none then none
    else
      some { s with sections := s.sections.set name .empty, cursect := some name, optname := none }
  | none =>
    match s.cursect with
    | none => none
    | some sect =>
      match option value with
      | none => some { s with bad := true }
      | some (name, optval) =>
        let s := if name = [] then { s with bad := true } else s
        let optname := lower name
        if ((s.sections.get sect).bind fun options => options.get optname) ≠ none then none
        else some { s.assign sect optname [optval] with optname := some optname }

/-- The body of the loop of `_read`; `none` where it raises. -/
def readLine (lower : Text → Text) (s : State) (line : Text) : Option State :=
  let value := strip line
  if value.head? = some '#' ∨ value.head? = some ';' then some s
  else if value = [] then
    match s.current with
    | some (sect, optname, lines) => some (s.assign sect optname (lines ++ [[]]))
    | none => some s
  else
    let cur_indent_level := (line.takeWhile PyStr.isspace).length
    match s.current with
    | some (sect, optname, lines) =>
      if s.indent_level < cur_indent_level then
        some (s.assign sect optname (lines ++ [value]))
      else readElement lower { s with indent_level := cur_indent_level } value
    | none => readElement lower { s with indent_level := cur_indent_level } value

/-- `_read`; `none` where it raises. -/
def read (lower : Text → Text) (text : Text) : Option State :=
  ((lines text).foldlM (readLine lower) start).bind fun s => if s.bad then none else some s

/-! ### Values -/

/-- The value of an option, from its lines. -/
def joined (lines : List Text) : Text :=
  (List.intercalate ['\n'] lines).rdropWhile PyStr.isspace

/-- The value as it stands in the section or in the default section. -/
def State.raw (s : State) (sect optname : Text) : Option Text :=
  ((((s.sections.get sect).bind fun options => options.get optname).or
    ((s.sections.get DEFAULTSECT).bind fun options => options.get optname))).map joined

/-- `_KEYCRE.match`: the name in a `%(name)s`, from what stands after the `%`. -/
def reference (rest : Text) : Option Text :=
  match rest with
  | '(' :: after =>
    let name := after.takeWhile (· ≠ ')')
    if name ≠ [] ∧ [')', 's'] <+: after.drop name.length then some name else none
  | _ => none

/-- The loop of `_interpolate_some`: the values of the options, what it makes of a value with a
    `%`, and how many characters have been dealt with already. -/
def interpolateSome (lower : Text → Text) (values : Text → Option Text)
    (nested : Text → Option Text) : Nat → Text → Option Text
  | _, [] => some []
  | skip + 1, _ :: rest => interpolateSome lower values nested skip rest
  | 0, c :: rest =>
    if c ≠ '%' then (interpolateSome lower values nested 0 rest).map (c :: ·)
    else if rest.head? = some '%' then
      (interpolateSome lower values nested 1 rest).map ('%' :: ·)
    else
      (reference rest).bind fun name =>
        (values (lower name)).bind fun v =>
          (if '%' ∈ v then nested v else some v).bind fun a =>
            (interpolateSome lower values nested (name.length + 3) rest).map (a ++ ·)

/-- `_interpolate_some`, with so many levels left; `none` where it raises. -/
def interpolate (lower : Text → Text) (values : Text → Option Text) : Nat → Text → Option Text
  | 0, _ => none
  | depth + 1, rest => interpolateSome lower values (interpolate lower values depth) 0 rest

def MAX_INTERPOLATION_DEPTH : Nat := 10

/-- `cp[sect].get(optname, fallback)`; `none` where it raises. -/
def State.get (lower : Text → Text) (s : State) (sect optname fallback : Text) : Option Text :=
  match s.raw sect (lower optname) with
  | none => some fallback
  | some value => interpolate lower (s.raw sect) MAX_INTERPOLATION_DEPTH value

/-! ### Plain lines -/

/-- The name of an option, of letters only. -/
def Plain (name : Text) : Prop := name ≠ [] ∧ ∀ c ∈ name, c.isAlpha = true

instance (name : Text) : Decidable (Plain name) := inferInstanceAs (Decidable (_ ∧ _))

/-- A value that is not empty, and has no white space around. -/
def Trimmed (v : Text) : Prop := v ≠ [] ∧ strip v = v

instance (v : Text) : Decidable (Trimmed v) := inferInstanceAs (Decidable (_ ∧ _))

/-- The line of an option. -/
def line (name v : Text) : Text := name ++ '=' :: v

/-- No white space lies among the letters. -/
theorem not_isspace_of_isAlpha {c : Char} (h : c.isAlpha = true) : PyStr.isspace c = false := by
  rw [← Bool.not_eq_true]
  intro hspace
  have hletter : 65 ≤ c.toNat ∧ c.toNat ≤ 122 := by
    rw [PyStr.isAlpha_iff] at h
    omega
  have hall : ∀ n ∈ [0x09, 0x0a, 0x0b, 0x0c, 0x0d, 0x1c, 0x1d, 0x1e, 0x1f, 0x20, 0x85, 0xa0, 0x1680,
    0x2000, 0x2001, 0x2002, 0x2003, 0x2004, 0x2005, 0x2006, 0x2007, 0x2008, 0x2009, 0x200a,
    0x2028, 0x2029, 0x202f, 0x205f, 0x3000], ¬ (65 ≤ n ∧ n ≤ 122) := by decide
  exact hall _ (of_decide_eq_true hspace) hletter

theorem ne_of_isAlpha {c d : Char} (h : c.isAlpha = true) (hd : d.isAlpha = false) : c ≠ d := by
  rintro rfl
  rw [h] at hd
  cases hd

theorem not_isDelimiter_of_isAlpha {c : Char} (h : c.isAlpha = true) : isDelimiter c = false := by
  have heq : c ≠ '=' := ne_of_isAlpha h (by decide)
  have hcolon : c ≠ ':' := ne_of_isAlpha h (by decide)
  simp [isDelimiter, heq, hcolon]

/-- `strip` leaves what begins and ends with other characters than white space. -/
theorem strip_append {a b : Text} (ha : ∀ c ∈ a.head?, PyStr.isspace c = false) (hne : a ≠ [])
    (hb : b.rdropWhile PyStr.isspace = b) (hb' : b ≠ []) : strip (a ++ b) = a ++ b := by
  obtain ⟨c, a', rfl⟩ := List.exists_cons_of_ne_nil hne
  have hc : PyStr.isspace c = false := ha c rfl
  unfold strip
  rw [List.cons_append, List.dropWhile_cons_of_neg (by rw [hc]; decide), ← List.cons_append]
  rw [List.rdropWhile_eq_self_iff] at hb ⊢
  intro hne'
  rw [List.getLast_append_of_ne_nil hne' hb']
  exact hb hb'

/-- Nothing is dropped at the front of what `strip` leaves as it is. -/
theorem dropWhile_of_strip {v : Text} (h : strip v = v) : v.dropWhile PyStr.isspace = v := by
  have hlen := congrArg List.length h
  unfold strip at hlen
  refine (List.dropWhile_suffix _).eq_of_length_le ?_
  have hle := (List.rdropWhile_prefix PyStr.isspace (v.dropWhile PyStr.isspace)).length_le
  omega

/-- The end of a trimmed value is no white space. -/
theorem Trimmed.rdropWhile {v : Text} (h : Trimmed v) : v.rdropWhile PyStr.isspace = v := by
  have hstrip := h.2
  unfold strip at hstrip
  rwa [dropWhile_of_strip h.2] at hstrip

/-- A text of white space. -/
def Blank (t : Text) : Prop := ∀ c ∈ t, PyStr.isspace c = true

instance (t : Text) : Decidable (Blank t) :=
  inferInstanceAs (Decidable (∀ c ∈ t, PyStr.isspace c = true))

theorem strip_blank_append {a : Text} (ha : Blank a) (t : Text) : strip (a ++ t) = strip t := by
  unfold strip
  rw [List.dropWhile_append_of_pos ha]

theorem strip_append_blank {b : Text} (hb : Blank b) (t : Text) : strip (t ++ b) = strip t := by
  have hnil : b.dropWhile PyStr.isspace = [] := List.dropWhile_eq_nil_iff.mpr hb
  have hend : ∀ s : Text, (s ++ b).rdropWhile PyStr.isspace = s.rdropWhile PyStr.isspace := by
    intro s
    unfold List.rdropWhile
    rw [List.reverse_append, List.dropWhile_append_of_pos]
    exact fun c hc => hb c (List.mem_reverse.mp hc)
  unfold strip
  rw [List.dropWhile_append, hnil]
  split
  · next hempty => rw [List.isEmpty_iff.mp hempty]
  · rw [hend]

theorem strip_of_blank {b : Text} (hb : Blank b) : strip b = [] := by
  have h := strip_append_blank hb []
  rwa [List.nil_append] at h

theorem strip_dropWhile (t : Text) : strip (t.dropWhile PyStr.isspace) = strip t := by
  unfold strip
  rw [List.dropWhile_idempotent]

theorem strip_rdropWhile (t : Text) : strip (t.rdropWhile PyStr.isspace) = strip t := by
  have hblank : Blank (t.rtakeWhile PyStr.isspace) := fun _ hc => List.mem_rtakeWhile_imp hc
  have hparts : t.rdropWhile PyStr.isspace ++ t.rtakeWhile PyStr.isspace = t :=
    List.rdropWhile_append_rtakeWhile
  calc strip (t.rdropWhile PyStr.isspace)
      = strip (t.rdropWhile PyStr.isspace ++ t.rtakeWhile PyStr.isspace) :=
        (strip_append_blank hblank _).symm
    _ = strip t := by rw [hparts]

/-- `strip` takes the white space off the two sides of a character. -/
theorem strip_around {d : Char} (hd : PyStr.isspace d = false) (a b : Text) :
    strip (a ++ d :: b) = a.dropWhile PyStr.isspace ++ d :: b.rdropWhile PyStr.isspace := by
  have hkeeps : ∀ s t : Text, (s ++ d :: t).dropWhile PyStr.isspace =
      s.dropWhile PyStr.isspace ++ d :: t := by
    intro s t
    rw [List.dropWhile_append, List.dropWhile_cons_of_neg (by rw [hd]; decide)]
    split
    · next hempty => rw [List.isEmpty_iff.mp hempty, List.nil_append]
    · rfl
  have hend : ∀ s : Text, (s ++ d :: b).rdropWhile PyStr.isspace =
      s ++ d :: b.rdropWhile PyStr.isspace := by
    intro s
    unfold List.rdropWhile
    rw [List.reverse_append, List.reverse_cons, List.append_assoc, List.singleton_append, hkeeps]
    simp
  rw [strip, hkeeps, hend]

theorem trimmed_of_not_isspace {v : Text} (hne : v ≠ [])
    (h : ∀ c ∈ v, PyStr.isspace c = false) : Trimmed v := by
  refine ⟨hne, ?_⟩
  obtain ⟨c, v', rfl⟩ := List.exists_cons_of_ne_nil hne
  have hc : ¬ PyStr.isspace c = true := by rw [h c List.mem_cons_self]; decide
  unfold strip
  rw [List.dropWhile_cons_of_neg hc, List.rdropWhile_eq_self_iff]
  intro hne'
  rw [h _ (List.getLast_mem hne')]
  decide

theorem joined_one {v : Text} (h : Trimmed v) : joined [v] = v := by
  have hone : List.intercalate ['\n'] [v] = v := by simp [List.intercalate]
  rw [joined, hone, h.rdropWhile]

/-! ### Plain lines are read as they were written -/

variable {lower : Text → Text}

theorem option_line {name v : Text} (hname : Plain name) (hv : Trimmed v) :
    option (line name v) = some (name, v) := by
  have hdelim : ∀ c ∈ name, (!isDelimiter c) = true := by
    intro c hc
    rw [not_isDelimiter_of_isAlpha (hname.2 c hc)]
    rfl
  have hdrop : (line name v).dropWhile (fun c => !isDelimiter c) = '=' :: v := by
    rw [line, List.dropWhile_append_of_pos hdelim, List.dropWhile_cons_of_neg (by decide)]
  have htake : (line name v).takeWhile (fun c => !isDelimiter c) = name := by
    rw [line, List.takeWhile_append_of_pos hdelim, List.takeWhile_cons_of_neg (by decide),
      List.append_nil]
  have hself : name.rdropWhile PyStr.isspace = name := by
    rw [List.rdropWhile_eq_self_iff]
    intro hne
    rw [not_isspace_of_isAlpha (hname.2 _ (List.getLast_mem hne))]
    decide
  unfold option
  simp only [hdrop, htake, hself, hv.2]

/-- A line of a plain option begins with a letter. -/
theorem line_cons {name : Text} (hname : Plain name) (v : Text) :
    ∃ c rest, line name v = c :: rest ∧ c.isAlpha = true := by
  obtain ⟨c, name', rfl⟩ := List.exists_cons_of_ne_nil hname.1
  exact ⟨c, name' ++ '=' :: v, rfl, hname.2 c List.mem_cons_self⟩

theorem strip_line {name v : Text} (hname : Plain name) (hv : Trimmed v) :
    strip (line name v) = line name v := by
  have hend : ('=' :: v).rdropWhile PyStr.isspace = '=' :: v := by
    have h := hv.rdropWhile
    rw [List.rdropWhile_eq_self_iff] at h ⊢
    intro hne
    rw [List.getLast_cons hv.1]
    exact h hv.1
  refine strip_append ?_ hname.1 hend (List.cons_ne_nil _ _)
  intro c hc
  exact not_isspace_of_isAlpha (hname.2 c (List.mem_of_mem_head? hc))

/-- The state after the line of a new option. -/
theorem readLine_option {s : State} {sect : Text} {options : Options} {name v : Text}
    (hcursect : s.cursect = some sect) (hget : s.sections.get sect = some options)
    (hnew : options.get (lower name) = none) (hname : Plain name) (hv : Trimmed v) :
    readLine lower s (line name v) =
      some { s with sections := s.sections.set sect (options.set (lower name) [v]),
                    optname := some (lower name), indent_level := 0 } := by
  obtain ⟨c, rest, hline, hc⟩ := line_cons hname v
  have hhash : c ≠ '#' := ne_of_isAlpha hc (by decide)
  have hsemi : c ≠ ';' := ne_of_isAlpha hc (by decide)
  have hbracket : c ≠ '[' := ne_of_isAlpha hc (by decide)
  have hindent : ((line name v).takeWhile PyStr.isspace).length = 0 := by
    rw [hline, List.takeWhile_cons_of_neg (by rw [not_isspace_of_isAlpha hc]; decide)]
    rfl
  have hheader : header (line name v) = none := by
    rw [hline]
    unfold header
    split
    · next heq => exact absurd (List.cons.inj heq).1 hbracket
    · rfl
  -- it is no comment, not empty, not indented and no header
  have helement : readLine lower s (line name v) =
      readElement lower { s with indent_level := 0 } (line name v) := by
    unfold readLine
    simp only [strip_line hname hv, hindent]
    rw [if_neg (by rw [hline]; simp [hhash, hsemi]),
      if_neg (by rw [hline]; exact List.cons_ne_nil _ _)]
    split
    · rw [if_neg (Nat.not_lt_zero _)]
    · rfl
  rw [helement]
  unfold readElement
  simp only [hheader, hcursect, option_line hname hv, if_neg hname.1, hget, Option.bind_some,
    hnew, ne_eq, not_true_eq_false, if_false, State.assign]

/-- The options after lines of options. -/
def added (lower : Text → Text) (options : Options) (opts : List (Text × Text)) : Options :=
  opts.foldl (fun options opt => options.set (lower opt.1) [opt.2]) options

theorem added_get_of_ne {opts : List (Text × Text)} {key : Text} :
    ∀ {options : Options}, key ∉ opts.map (fun opt => lower opt.1) →
      (added lower options opts).get key = options.get key := by
  induction opts with
  | nil => intro options _; rfl
  | cons opt opts ih =>
    intro options hkey
    rw [List.map_cons, List.mem_cons, not_or] at hkey
    show (added lower (options.set (lower opt.1) [opt.2]) opts).get key = _
    rw [ih hkey.2, Dict.get_set_of_ne hkey.1]

theorem added_get {opts : List (Text × Text)} {opt : Text × Text} (h : opt ∈ opts) :
    ∀ {options : Options}, (opts.map fun opt => lower opt.1).Nodup →
      (added lower options opts).get (lower opt.1) = some [opt.2] := by
  induction opts with
  | nil => cases h
  | cons head opts ih =>
    intro options hnodup
    rw [List.map_cons, List.nodup_cons] at hnodup
    show (added lower (options.set (lower head.1) [head.2]) opts).get (lower opt.1) = _
    rcases List.mem_cons.mp h with rfl | hmem
    · rw [added_get_of_ne hnodup.1, Dict.get_set_self]
    · exact ih hmem hnodup.2

/-- The lines of new options add them to their section, one after the other. -/
theorem readLines_options {sect : Text} {opts : List (Text × Text)}
    (hopts : ∀ opt ∈ opts, Plain opt.1 ∧ Trimmed opt.2)
    (hnodup : (opts.map fun opt => lower opt.1).Nodup) :
    ∀ {s : State} {options : Options}, s.cursect = some sect → s.sections.get sect = some options →
      (∀ opt ∈ opts, options.get (lower opt.1) = none) →
      ∃ s', (opts.map fun opt => line opt.1 opt.2).foldlM (readLine lower) s = some s' ∧
        s'.cursect = some sect ∧ s'.bad = s.bad ∧
        (∀ key, s'.sections.get key =
          if key = sect then some (added lower options opts) else s.sections.get key) ∧
        ∀ last ∈ opts.getLast?, s'.optname = some (lower last.1) ∧ s'.indent_level = 0 := by
  induction opts with
  | nil =>
    intro s options hcursect hget _
    refine ⟨s, rfl, hcursect, rfl, fun key => ?_, by simp⟩
    split
    · next heq => exact heq ▸ hget
    · rfl
  | cons opt opts ih =>
    intro s options hcursect hget hnew
    rw [List.map_cons, List.nodup_cons] at hnodup
    obtain ⟨hplain, htrimmed⟩ := hopts opt List.mem_cons_self
    have hstep := readLine_option hcursect hget (hnew opt List.mem_cons_self) hplain htrimmed
    -- the options that are still to come are new after this one too
    have hnew' : ∀ other ∈ opts,
        (options.set (lower opt.1) [opt.2]).get (lower other.1) = none := by
      intro other hother
      have hne : lower other.1 ≠ lower opt.1 := fun heq =>
        hnodup.1 (List.mem_map.mpr ⟨other, hother, heq⟩)
      rw [Dict.get_set_of_ne hne]
      exact hnew other (List.mem_cons_of_mem _ hother)
    obtain ⟨s', hrun, hcursect', hbad, hsections, hlast⟩ :=
      ih (fun other hother => hopts other (List.mem_cons_of_mem _ hother)) hnodup.2
        (s := { s with sections := s.sections.set sect (options.set (lower opt.1) [opt.2]),
                       optname := some (lower opt.1), indent_level := 0 })
        hcursect (Dict.get_set_self _ _ _) hnew'
    refine ⟨s', ?_, hcursect', hbad, fun key => ?_, ?_⟩
    · rw [List.map_cons, List.foldlM_cons, hstep]
      exact hrun
    · rw [hsections key, Dict.get_set]
      split <;> rfl
    · intro last hlast'
      cases opts with
      | nil =>
        have heq : last = opt := by simpa using hlast'.symm
        have hs' := Option.some.inj hrun
        rw [← hs', heq]
        exact ⟨rfl, rfl⟩
      | cons next opts => exact hlast last (by simpa [List.getLast?_cons_cons] using hlast')

/-- An empty line goes to the value before it, where `joined` drops it. -/
theorem readLine_blank (lower : Text → Text) {s : State} {sect optname : Text} {lines : List Text}
    (h : s.current = some (sect, optname, lines)) :
    readLine lower s [] = some (s.assign sect optname (lines ++ [[]])) := by
  show (match s.current with
    | some (sect, optname, lines) => some (s.assign sect optname (lines ++ [[]]))
    | none => some s) = _
  rw [h]

theorem joined_blank {v : Text} (h : Trimmed v) : joined [v, []] = v := by
  have hjoin : List.intercalate ['\n'] [v, []] = v ++ ['\n'] := by simp [List.intercalate]
  rw [joined, hjoin, List.rdropWhile_concat_pos _ _ _ (by decide), h.rdropWhile]

/-- The line of a section. -/
def headerLine (name : Text) : Text := '[' :: (name ++ [']'])

theorem header_headerLine {name : Text} (h : name ≠ []) : header (headerLine name) = some name := by
  have hrev : name.reverse ≠ [] := fun heq => h (List.reverse_eq_nil_iff.mp heq)
  obtain ⟨c, rest, hrest⟩ := List.exists_cons_of_ne_nil hrev
  have hdrop : (name ++ [']']).reverse.dropWhile (· ≠ ']') = ']' :: c :: rest := by
    rw [List.reverse_append, List.reverse_singleton, List.singleton_append, hrest,
      List.dropWhile_cons_of_neg (by decide)]
  show (match (name ++ [']']).reverse.dropWhile (· ≠ ']') with
    | _ :: c :: name => some (c :: name).reverse
    | _ => none) = some name
  rw [hdrop]
  show some (c :: rest).reverse = some name
  rw [← hrest, List.reverse_reverse]

/-- The state after the line of a new section. -/
theorem readLine_header {s : State} {name : Text} (hne : name ≠ []) (hdefault : name ≠ DEFAULTSECT)
    (hnew : s.sections.get name = none) :
    readLine lower s (headerLine name) =
      some { s with sections := s.sections.set name .empty, cursect := some name, optname := none,
                    indent_level := 0 } := by
  have hstrip : strip (headerLine name) = headerLine name := by
    show strip (['['] ++ (name ++ [']'])) = _
    refine strip_append (by simp [PyStr.isspace]) (by simp) ?_ (by simp)
    exact List.rdropWhile_concat_neg _ _ _ (by decide)
  have hindent : ((headerLine name).takeWhile PyStr.isspace).length = 0 := by
    rw [headerLine, List.takeWhile_cons_of_neg (by decide)]
    rfl
  have helement : readLine lower s (headerLine name) =
      readElement lower { s with indent_level := 0 } (headerLine name) := by
    unfold readLine
    simp only [hstrip, hindent]
    rw [if_neg (by simp [headerLine]), if_neg (by simp [headerLine])]
    split
    · rw [if_neg (Nat.not_lt_zero _)]
    · rfl
  rw [helement]
  unfold readElement
  simp only [header_headerLine hne, if_neg hdefault, hnew, ne_eq, not_true_eq_false, if_false]

/-- The options have the values they were written with, and there are no others. -/
def Holds (lower : Text → Text) (options : Options) (opts : List (Text × Text)) : Prop :=
  (∀ opt ∈ opts, (options.get (lower opt.1)).map joined = some opt.2) ∧
  ∀ key, key ∉ opts.map (fun opt => lower opt.1) → options.get key = none

theorem added_holds {opts : List (Text × Text)} (hopts : ∀ opt ∈ opts, Trimmed opt.2)
    (hnodup : (opts.map fun opt => lower opt.1).Nodup) :
    Holds lower (added lower .empty opts) opts := by
  constructor
  · intro opt hopt
    rw [added_get hopt hnodup, Option.map_some, joined_one (hopts opt hopt)]
  · intro key hkey
    exact added_get_of_ne hkey

/-- An empty line after an option does not change its value. -/
theorem Holds.blank {options : Options} {opts : List (Text × Text)} (h : Holds lower options opts)
    {last : Text × Text} (hmem : last ∈ opts) (htrimmed : Trimmed last.2)
    (hlast : options.get (lower last.1) = some [last.2]) :
    Holds lower (options.set (lower last.1) ([last.2] ++ [[]])) opts := by
  constructor
  · intro opt hopt
    have hopt := h.1 opt hopt
    rw [Dict.get_set]
    split
    · next heq =>
      rw [heq, hlast, Option.map_some, joined_one htrimmed] at hopt
      rw [Option.map_some, List.singleton_append, joined_blank htrimmed, hopt]
    · exact hopt
  · intro key hkey
    have hne : key ≠ lower last.1 := fun heq => hkey (List.mem_map.mpr ⟨last, hmem, heq.symm⟩)
    rw [Dict.get_set_of_ne hne]
    exact h.2 key hkey

/-- The values of the options of a section, where the default section has none. -/
theorem State.raw_of_get {s : State} {sect : Text} {options : Options}
    (hget : s.sections.get sect = some options)
    (hdefault : s.sections.get DEFAULTSECT = some .empty) (key : Text) :
    s.raw sect key = (options.get key).map joined := by
  unfold State.raw
  rw [hget, hdefault]
  cases hkey : options.get key <;> simp [hkey]

/-- Each value is that of an option. -/
theorem Holds.mem {options : Options} {opts : List (Text × Text)} (h : Holds lower options opts)
    {key v : Text} (hget : (options.get key).map joined = some v) : ∃ opt ∈ opts, opt.2 = v := by
  by_cases hkey : key ∈ opts.map fun opt => lower opt.1
  · obtain ⟨opt, hopt, rfl⟩ := List.mem_map.mp hkey
    exact ⟨opt, hopt, Option.some.inj ((h.1 opt hopt).symm.trans hget)⟩
  · rw [h.2 key hkey] at hget
    cases hget

/-- The lines of a section with its options. -/
def sectionLines (sect : Text) (opts : List (Text × Text)) : List Text :=
  headerLine sect :: opts.map fun opt => line opt.1 opt.2

/-- The lines of a section are single lines if its values are. -/
theorem sectionLines_single {sect : Text} {opts : List (Text × Text)} {d : Char}
    (hd : d.isAlpha = false) (hsect : d ∉ headerLine sect) (heq : d ≠ '=')
    (hopts : ∀ opt ∈ opts, Plain opt.1 ∧ d ∉ opt.2) :
    ∀ part ∈ sectionLines sect opts, d ∉ part := by
  intro part hpart
  rcases List.mem_cons.mp hpart with rfl | hpart
  · exact hsect
  · obtain ⟨opt, hopt, rfl⟩ := List.mem_map.mp hpart
    obtain ⟨hplain, hv⟩ := hopts opt hopt
    intro hmem
    rcases List.mem_append.mp hmem with hmem | hmem
    · exact ne_of_isAlpha (hplain.2 d hmem) hd rfl
    · rcases List.mem_cons.mp hmem with hmem | hmem
      · exact heq hmem
      · exact hv hmem

theorem readSection {s : State} {sect : Text} {opts : List (Text × Text)} (hne : sect ≠ [])
    (hdefault : sect ≠ DEFAULTSECT) (hnew : s.sections.get sect = none)
    (hopts : ∀ opt ∈ opts, Plain opt.1 ∧ Trimmed opt.2)
    (hnodup : (opts.map fun opt => lower opt.1).Nodup) :
    ∃ s', (sectionLines sect opts).foldlM (readLine lower) s = some s' ∧ s'.bad = s.bad ∧
      (∀ key, s'.sections.get key =
        if key = sect then some (added lower .empty opts) else s.sections.get key) ∧
      ∀ last ∈ opts.getLast?, lower last.1 ≠ [] →
        s'.current = some (sect, lower last.1, [last.2]) := by
  obtain ⟨s', hrun, hcursect, hbad, hsections, hlast⟩ :=
    readLines_options hopts hnodup
      (s := { s with sections := s.sections.set sect .empty, cursect := some sect,
                     optname := none, indent_level := 0 })
      rfl (Dict.get_set_self _ _ _) (fun _ _ => rfl)
  refine ⟨s', ?_, hbad, fun key => ?_, fun last hmem hname => ?_⟩
  · rw [sectionLines, List.foldlM_cons, readLine_header hne hdefault hnew]
    exact hrun
  · rw [hsections key, Dict.get_set]
    split <;> rfl
  · have hget := hsections sect
    rw [if_pos rfl] at hget
    unfold State.current
    simp only [hcursect, (hlast last hmem).1, if_neg hname, hget, Option.bind_some,
      added_get (List.mem_of_mem_getLast? hmem) hnodup, Option.map_some]

/-! ### Values without `%` -/

/-- What the loop makes of a text without `%` is that text. -/
theorem interpolateSome_of_not_mem {values nested : Text → Option Text} {t : Text}
    (h : '%' ∉ t) : interpolateSome lower values nested 0 t = some t := by
  induction t with
  | nil => rfl
  | cons c rest ih =>
    rw [List.mem_cons, not_or] at h
    rw [interpolateSome, if_pos (Ne.symm h.1), ih h.2]
    rfl

theorem interpolate_of_not_mem {values : Text → Option Text} {t : Text} (h : '%' ∉ t)
    (depth : Nat) : interpolate lower values (depth + 1) t = some t :=
  interpolateSome_of_not_mem h

/-! ### Values with `%` -/

/-- The loop depends on the nested values only where a value with a `%` is named. -/
theorem interpolateSome_mono {values nested nested' : Text → Option Text}
    (h : ∀ name v a, values name = some v → '%' ∈ v → nested v = some a → nested' v = some a)
    {t : Text} : ∀ {skip : Nat} {r : Text},
      interpolateSome lower values nested skip t = some r →
      interpolateSome lower values nested' skip t = some r := by
  induction t with
  | nil => intro skip r hr; cases skip <;> exact hr
  | cons c rest ih =>
    intro skip r hr
    cases skip with
    | succ skip => exact ih hr
    | zero =>
      rw [interpolateSome] at hr ⊢
      split at hr
      · next hc =>
        obtain ⟨a, ha, rfl⟩ := Option.map_eq_some_iff.mp hr
        rw [if_pos hc, ih ha]
        rfl
      · next hc =>
        rw [if_neg hc]
        split at hr
        · next hescape =>
          obtain ⟨a, ha, rfl⟩ := Option.map_eq_some_iff.mp hr
          rw [if_pos hescape, ih ha]
          rfl
        · next hescape =>
          rw [if_neg hescape]
          obtain ⟨name, hname, hr⟩ := Option.bind_eq_some_iff.mp hr
          obtain ⟨v, hv, hr⟩ := Option.bind_eq_some_iff.mp hr
          obtain ⟨a, ha, hr⟩ := Option.bind_eq_some_iff.mp hr
          obtain ⟨b, hb, rfl⟩ := Option.map_eq_some_iff.mp hr
          have ha' : (if '%' ∈ v then nested' v else some v) = some a := by
            split at ha
            · next hmem => rw [if_pos hmem, h _ v a hv hmem ha]
            · next hmem => rw [if_neg hmem, ha]
          simp only [hname, hv, ha', Option.bind_some, ih hb, Option.map_some]

/-- Without nested values each `%` that the loop deals with is lost. -/
theorem interpolateSome_count {values : Text → Option Text} {t : Text} :
    ∀ {skip : Nat} {r : Text},
      interpolateSome lower values (fun _ => none) skip t = some r →
      r.count '%' ≤ (t.drop skip).count '%' ∧
        ('%' ∈ t.drop skip → r.count '%' < (t.drop skip).count '%') := by
  induction t with
  | nil =>
    intro skip r hr
    have hnil : r = [] := by
      cases skip <;> exact (Option.some.inj hr).symm
    subst hnil
    simp
  | cons c rest ih =>
    intro skip r hr
    cases skip with
    | succ skip => exact ih hr
    | zero =>
      rw [interpolateSome] at hr
      split at hr
      · next hc =>
        obtain ⟨a, ha, rfl⟩ := Option.map_eq_some_iff.mp hr
        have hrec := ih ha
        simp only [List.drop_zero] at hrec ⊢
        rw [List.count_cons_of_ne hc, List.count_cons_of_ne hc]
        refine ⟨hrec.1, fun hmem => hrec.2 ?_⟩
        rcases List.mem_cons.mp hmem with heq | hmem
        · exact absurd heq.symm hc
        · exact hmem
      · next hc =>
        have hc : c = '%' := not_not.mp hc
        subst hc
        rw [List.drop_zero, List.count_cons_self]
        -- in each case fewer are left than stood there
        suffices hle : r.count '%' ≤ rest.count '%' from ⟨by omega, fun _ => by omega⟩
        split at hr
        · next hescape =>
          obtain ⟨a, ha, rfl⟩ := Option.map_eq_some_iff.mp hr
          have hrec := (ih ha).1
          obtain ⟨tail, rfl⟩ := List.head?_eq_some_iff.mp hescape
          rw [List.drop_one, List.tail_cons] at hrec
          rw [List.count_cons_self, List.count_cons_self]
          omega
        · obtain ⟨name, hname, hr⟩ := Option.bind_eq_some_iff.mp hr
          obtain ⟨v, hv, hr⟩ := Option.bind_eq_some_iff.mp hr
          obtain ⟨a, ha, hr⟩ := Option.bind_eq_some_iff.mp hr
          obtain ⟨b, hb, rfl⟩ := Option.map_eq_some_iff.mp hr
          have hnone : a.count '%' = 0 := by
            split at ha
            · cases ha
            · next hmem => exact Option.some.inj ha ▸ List.count_eq_zero.mpr hmem
          have hrec := (ih hb).1
          have hdrop := (List.drop_sublist (name.length + 3) rest).count_le '%'
          rw [List.count_append]
          omega

/-- Where only `d` has a `%`, its value does not depend on the nested ones: a value that
    names `d` names it at every level, down to the last. -/
theorem interpolate_flat {values : Text → Option Text} {d : Text}
    (hvalues : ∀ name v, values name = some v → '%' ∈ v → v = d) {depth : Nat} :
    ∀ {r : Text}, interpolate lower values depth d = some r →
      interpolateSome lower values (fun _ => none) 0 d = some r := by
  induction depth with
  | zero => intro r hr; cases hr
  | succ depth ih =>
    intro r hr
    cases hnested : interpolate lower values depth d with
    | none =>
      refine interpolateSome_mono (fun name v a hv hmem ha => ?_) hr
      rw [hvalues name v hv hmem, hnested] at ha
      cases ha
    | some r' =>
      -- no value is named that has a `%`, so all levels agree
      have hflat := ih hnested
      have hsame : interpolate lower values (depth + 1) d = some r' :=
        interpolateSome_mono (fun _ _ _ _ _ ha => by cases ha) hflat
      rw [← Option.some.inj (hr.symm.trans hsame)] at hflat
      exact hflat

theorem interpolate_ne_self {values : Text → Option Text} {d : Text}
    (hvalues : ∀ name v, values name = some v → '%' ∈ v → v = d) (h : '%' ∈ d) (depth : Nat) :
    interpolate lower values depth d ≠ some d := by
  intro hself
  have hcount := (interpolateSome_count (interpolate_flat hvalues hself)).2 h
  rw [List.drop_zero] at hcount
  exact lt_irrefl _ hcount

/-! ### The options of a section -/

section Values

variable {s : State} {sect : Text} {options : Options} {opts : List (Text × Text)}

/-- What `get` gives for an option that was written. -/
theorem Holds.get (h : Holds lower options opts) (hget : s.sections.get sect = some options)
    (hdefault : s.sections.get DEFAULTSECT = some .empty) {name v : Text} (hopt : (name, v) ∈ opts)
    (fallback : Text) :
    s.get lower sect name fallback =
      interpolate lower (s.raw sect) MAX_INTERPOLATION_DEPTH v := by
  unfold State.get
  rw [State.raw_of_get hget hdefault, h.1 _ hopt]

/-- What it gives for one that was not. -/
theorem Holds.get_absent (h : Holds lower options opts) (hget : s.sections.get sect = some options)
    (hdefault : s.sections.get DEFAULTSECT = some .empty) {name : Text}
    (hname : lower name ∉ opts.map fun opt => lower opt.1) (fallback : Text) :
    s.get lower sect name fallback = some fallback := by
  unfold State.get
  rw [State.raw_of_get hget hdefault, h.2 _ hname]
  rfl

/-- An option is read as it was written unless its value has a `%`, where the others have none. -/
theorem Holds.get_iff (h : Holds lower options opts) (hget : s.sections.get sect = some options)
    (hdefault : s.sections.get DEFAULTSECT = some .empty) {name v : Text} (hopt : (name, v) ∈ opts)
    (hothers : ∀ opt ∈ opts, '%' ∈ opt.2 → opt.2 = v) (fallback : Text) :
    s.get lower sect name fallback = some v ↔ '%' ∉ v := by
  rw [h.get hget hdefault hopt]
  constructor
  · intro hself hmem
    refine interpolate_ne_self (fun key w hw hmem => ?_) hmem _ hself
    rw [State.raw_of_get hget hdefault] at hw
    obtain ⟨opt, hopt, rfl⟩ := h.mem hw
    exact hothers opt hopt hmem
  · intro hmem
    exact interpolate_of_not_mem hmem _

end Values

end ConfigParser
