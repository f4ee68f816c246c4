import Aioscpu.Framework.ConfigParser

/-! # Unit Files

  `_parse_unit_file` of `services/__init__.py`, which reads the `key = value` lines of a service
  unit file. A rendering of pairs has spaces where `strip` takes them off, any of the three line
  ends, and blank lines, comments and lines without `=` in between.
-/

namespace UnitFile

open ConfigParser
open scoped PyStr

/-! ### Parsing -/

/-- `line.partition(sep)`, without the separator. -/
def partition (line : Text) (sep : Char) : Text × Text :=
  (line.takeWhile (· ≠ sep), (line.dropWhile (· ≠ sep)).tail)

/-- The body of the loop. -/
def parse_line (unit : Dict String String) (line : Text) : Dict String String :=
  let line := strip line
  if line = [] ∨ line.head? = some '#' then unit
  else if '=' ∈ line then
    let parts := partition line '='
    unit.set (String.ofList (strip parts.1)) (String.ofList (strip parts.2))
  else unit

/-- `_parse_unit_file`, of what the file has in it. The lines come without their ends, which
    `strip` takes off. -/
def parse_unit_file (text : String) : Dict String String :=
  (lines text.toList).foldl parse_line .empty

/-! ### Renderings -/

/-- A key and a value that a line can have. -/
structure Pair where
  key : Text
  value : Text
  key_trimmed : strip key = key
  value_trimmed : strip value = value
  key_line : OneLine key
  value_line : OneLine value
  key_ne : key ≠ []
  key_separator : '=' ∉ key
  key_comment : key.head? ≠ some '#'

/-- White space within a line. -/
structure Spaces where
  text : Text
  blank : Blank text
  line : OneLine text

inductive Line where
  | pair (before : Spaces) (p : Pair) (left right after : Spaces)
  | blank (spaces : Spaces)
  | comment (before : Spaces) (text : Text) (line : OneLine text)
  | other (text : Text) (line : OneLine text) (separator : '=' ∉ text)

namespace Line

def text : Line → Text
  | pair before p left right after =>
    before.text ++ p.key ++ left.text ++ '=' :: (right.text ++ p.value ++ after.text)
  | blank spaces => spaces.text
  | comment before text _ => before.text ++ '#' :: text
  | other text _ _ => text

/-- The pair that the line is for. -/
def pair? : Line → Option Pair
  | pair _ p _ _ _ => some p
  | _ => none

theorem oneLine (l : Line) : OneLine l.text := by
  have hcons : ∀ {c : Char} {t : Text}, isNewline c = false → OneLine t → OneLine (c :: t) :=
    fun hc ht => List.forall_mem_cons.mpr ⟨hc, ht⟩
  cases l with
  | pair before p left right after =>
    have hkey : OneLine (before.text ++ p.key ++ left.text) :=
      (before.line.append p.key_line).append left.line
    have hvalue : OneLine (right.text ++ p.value ++ after.text) :=
      (right.line.append p.value_line).append after.line
    exact hkey.append (hcons rfl hvalue)
  | blank spaces => exact spaces.line
  | comment before text hline => exact before.line.append (hcons rfl hline)
  | other text hline _ => exact hline

end Line

/-- How a line ends. -/
inductive Ending where
  | newline
  | carriage_return
  | both

def Ending.text : Ending → Text
  | newline => ['\n']
  | carriage_return => ['\r']
  | both => ['\r', '\n']

/-- A text with pairs in it. The last line may have no end. -/
structure Rendering where
  lines : List (Line × Ending)
  last : Option Line

def Rendering.text (r : Rendering) : Text :=
  (r.lines.flatMap fun l => l.1.text ++ l.2.text) ++ (r.last.map Line.text).getD []

def Rendering.pairs (r : Rendering) : List Pair :=
  (r.lines.map Prod.fst ++ r.last.toList).filterMap Line.pair?

/-- The value that the last of the pairs with the key has. -/
def lastValue (pairs : List Pair) (key : String) : Option String :=
  (pairs.filter fun p => String.ofList p.key = key).getLast?.map fun p => String.ofList p.value

/-! ### Lines -/

theorem partition_append {a : Text} {sep : Char} (ha : sep ∉ a) (b : Text) :
    partition (a ++ sep :: b) sep = (a, b) := by
  have hne : ∀ c ∈ a, decide (c ≠ sep) = true := fun c hc =>
    decide_eq_true fun heq => ha (heq ▸ hc)
  unfold partition
  rw [List.takeWhile_append_of_pos hne, List.dropWhile_append_of_pos hne,
    List.takeWhile_cons_of_neg (by simp), List.dropWhile_cons_of_neg (by simp),
    List.append_nil, List.tail_cons]

/-- The first character of what is trimmed is no white space. -/
theorem isspace_of_trimmed {c : Char} {t : Text} (h : strip (c :: t) = c :: t) :
    PyStr.isspace c = false := by
  have hself := dropWhile_of_strip h
  rw [← Bool.not_eq_true]
  intro hc
  rw [List.dropWhile_cons_of_pos hc] at hself
  have hle := (List.dropWhile_suffix (l := t) PyStr.isspace).length_le
  rw [hself, List.length_cons] at hle
  omega

/-- White space around a text is what `strip` takes off. -/
theorem strip_spaces {v : Text} (hv : strip v = v) (before after : Spaces) :
    strip (before.text ++ v ++ after.text) = v := by
  rw [strip_append_blank after.blank, strip_blank_append before.blank, hv]

/-- A line for a pair has the two sides of its first `=` for the key and the value. -/
theorem parse_line_pair (unit : Dict String String) (before : Spaces) (p : Pair)
    (left right after : Spaces) :
    parse_line unit (Line.pair before p left right after).text =
      unit.set (String.ofList p.key) (String.ofList p.value) := by
  obtain ⟨c, key, hkey⟩ := List.exists_cons_of_ne_nil p.key_ne
  have hspace : PyStr.isspace c = false := isspace_of_trimmed (hkey ▸ p.key_trimmed)
  have hfront : (before.text ++ p.key ++ left.text).dropWhile PyStr.isspace =
      p.key ++ left.text := by
    rw [List.append_assoc, List.dropWhile_append_of_pos before.blank, hkey, List.cons_append,
      List.dropWhile_cons_of_neg (by rw [hspace]; decide)]
  -- so the first `=` is the one of the line, and those of the value come after it
  have hseparator : '=' ∉ p.key ++ left.text := by
    intro hmem
    rcases List.mem_append.mp hmem with hmem | hmem
    · exact p.key_separator hmem
    · exact absurd (left.blank _ hmem) (by decide)
  have hleft : strip (p.key ++ left.text) = p.key := by
    rw [strip_append_blank left.blank, p.key_trimmed]
  have hright : strip ((right.text ++ p.value ++ after.text).rdropWhile PyStr.isspace) =
      p.value := by
    rw [strip_rdropWhile, strip_spaces p.value_trimmed]
  unfold parse_line Line.text
  simp only [strip_around (show PyStr.isspace '=' = false by rfl), hfront]
  generalize (right.text ++ p.value ++ after.text).rdropWhile PyStr.isspace = value at hright ⊢
  -- the key is not empty, and does not begin a comment
  have hcomment : ¬ (p.key ++ left.text ++ '=' :: value = [] ∨
      (p.key ++ left.text ++ '=' :: value).head? = some '#') := by
    have hhead := p.key_comment
    rw [hkey] at hhead ⊢
    simpa using hhead
  rw [if_neg hcomment, if_pos (by simp), partition_append hseparator, hleft, hright]

/-- What a line does to the unit. -/
theorem parse_line_text (unit : Dict String String) (l : Line) :
    parse_line unit l.text =
      l.pair?.elim unit fun p => unit.set (String.ofList p.key) (String.ofList p.value) := by
  cases l with
  | pair before p left right after => exact parse_line_pair unit before p left right after
  | blank spaces =>
    show parse_line unit spaces.text = unit
    unfold parse_line
    rw [strip_of_blank spaces.blank]
    rfl
  | comment before text _ =>
    show parse_line unit (before.text ++ '#' :: text) = unit
    have hfront : before.text.dropWhile PyStr.isspace = [] :=
      List.dropWhile_eq_nil_iff.mpr before.blank
    unfold parse_line
    rw [strip_around (by rfl), hfront]
    rfl
  | other text _ hseparator =>
    show parse_line unit text = unit
    have hsub : '=' ∉ strip text := fun hmem => hseparator
      ((List.dropWhile_suffix _).subset ((List.rdropWhile_prefix _ _).subset hmem))
    simp only [parse_line, if_neg hsub, ite_self]

/-! ### Files -/

/-- Empty lines do nothing, so that it is enough to split the file at the characters that end
    lines. -/
theorem parse_unit_file_eq (text : String) :
    parse_unit_file text = (text.toList.splitOnP isNewline).foldl parse_line .empty := by
  have hempty : (fun unit line => if decide (line ≠ []) = true then parse_line unit line
      else unit) = parse_line := by
    funext unit line
    cases line with
    | nil => rfl
    | cons c line => rw [if_pos (by simp)]
  have hfilter : ∀ parts : List Text, (parts.filter (· ≠ [])).foldl parse_line .empty =
      parts.foldl parse_line .empty := by
    intro parts
    rw [List.foldl_filter, hempty]
  unfold parse_unit_file
  rw [← hfilter, filter_lines, hfilter]

/-- The first line of a text. -/
theorem foldl_line (unit : Dict String String) (l : Line) (e : Ending) (rest : Text) :
    ((l.text ++ e.text ++ rest).splitOnP isNewline).foldl parse_line unit =
      (rest.splitOnP isNewline).foldl parse_line (parse_line unit l.text) := by
  have hfirst : ∀ {c : Char} (t : Text), isNewline c = true →
      ((l.text ++ c :: t).splitOnP isNewline).foldl parse_line unit =
        (t.splitOnP isNewline).foldl parse_line (parse_line unit l.text) := by
    intro c t hc
    rw [List.splitOnP_append_cons_of_forall_mem l.oneLine c hc, List.foldl_cons]
  rw [List.append_assoc]
  cases e with
  | newline => exact hfirst rest rfl
  | carriage_return => exact hfirst rest rfl
  | both =>
    -- the empty line between the two characters does nothing
    show ((l.text ++ '\r' :: '\n' :: rest).splitOnP isNewline).foldl parse_line unit = _
    rw [hfirst ('\n' :: rest) rfl, List.splitOnP_cons_eq_if_modifyHead, if_pos (by rfl)]
    rfl

/-- The assignments of a list of pairs. -/
def assigned (unit : Dict String String) (pairs : List Pair) : Dict String String :=
  pairs.foldl (fun unit p => unit.set (String.ofList p.key) (String.ofList p.value)) unit

/-- Lines with ends, and what comes after them. -/
theorem foldl_lines (ls : List (Line × Ending)) (rest : Text) (unit : Dict String String) :
    (((ls.flatMap fun l => l.1.text ++ l.2.text) ++ rest).splitOnP isNewline).foldl
        parse_line unit =
      (rest.splitOnP isNewline).foldl parse_line
        (assigned unit ((ls.map Prod.fst).filterMap Line.pair?)) := by
  induction ls generalizing unit with
  | nil => rfl
  | cons l ls ih =>
    rw [List.flatMap_cons, List.append_assoc, foldl_line, ih, parse_line_text, List.map_cons,
      List.filterMap_cons]
    cases l.1.pair? with
    | none => rfl
    | some p => rfl

theorem assigned_get (pairs : List Pair) (key : String) :
    (assigned .empty pairs).get key = lastValue pairs key := by
  induction pairs using List.reverseRecOn with
  | nil => rfl
  | append_singleton pairs p ih =>
    have hlast : assigned .empty (pairs ++ [p]) =
        (assigned .empty pairs).set (String.ofList p.key) (String.ofList p.value) := by
      unfold assigned
      rw [List.foldl_concat]
    rw [hlast, Dict.get_set, lastValue, List.filter_append]
    by_cases hkey : key = String.ofList p.key
    · rw [if_pos hkey, List.filter_cons_of_pos (by simp [hkey])]
      simp
    · have hne : ¬ String.ofList p.key = key := fun heq => hkey heq.symm
      rw [if_neg hkey, List.filter_cons_of_neg (by simpa using hne), List.filter_nil,
        List.append_nil, ih, lastValue]

/-- The unit of a rendering has the pairs, one assigned after the other. -/
theorem parse_text (r : Rendering) :
    parse_unit_file (String.ofList r.text) = assigned .empty r.pairs := by
  rw [parse_unit_file_eq, String.toList_ofList, Rendering.text, foldl_lines, Rendering.pairs,
    List.filterMap_append]
  cases r.last with
  | none =>
    -- nothing but an empty text is left
    rw [Option.toList_none, List.filterMap_nil, List.append_nil]
    rfl
  | some l =>
    show ((l.text).splitOnP isNewline).foldl parse_line _ = _
    rw [List.splitOnP_eq_singleton l.oneLine, List.foldl_cons, List.foldl_nil, parse_line_text,
      Option.toList_some, List.filterMap_cons, List.filterMap_nil, assigned, assigned,
      List.foldl_append]
    cases l.pair? with
    | none => rfl
    | some p => rfl

/-- **Unit files round trip**: whatever rendering of pairs is read, every key has the value of its
    last pair, and no other text is a key. -/
theorem unit_file_round_trip (r : Rendering) (key : String) :
    (parse_unit_file (String.ofList r.text)).get key = lastValue r.pairs key := by
  rw [parse_text, assigned_get]

example : parse_unit_file "# unit\r\n\r name = a\nexec = b --c=#d \nname=\te\nnone" =
    (((Dict.empty.set "name" "a").set "exec" "b --c=#d").set "name" "e") := by decide

end UnitFile
