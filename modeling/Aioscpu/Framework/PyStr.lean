import Mathlib.Data.Finset.Sort
import Mathlib.Data.List.DropRight
import Mathlib.Data.List.Infix
import Mathlib.Data.String.Basic

/-! # String Methods

  The methods of Python strings that the kernel uses, on the characters of a
  string.
-/

namespace PyStr

/-- What holds of the characters of a text is decided over the text, not over all characters. -/
scoped instance (priority := 2000) decidableForallMem (p : Char → Prop) [DecidablePred p]
    (t : List Char) : Decidable (∀ c ∈ t, p c) := List.decidableBAll p t

scoped instance (priority := 2000) decidableForallHead (p : Char → Prop) [DecidablePred p] :
    (c : Option Char) → Decidable (∀ d ∈ c, p d) := Option.decidableForallMem

theorem isAlpha_iff (c : Char) :
    c.isAlpha = true ↔ 65 ≤ c.toNat ∧ c.toNat ≤ 90 ∨ 97 ≤ c.toNat ∧ c.toNat ≤ 122 := by
  have heq : c.isAlpha = (decide ('A'.val ≤ c.val ∧ c.val ≤ 'Z'.val) ||
      (decide ('a'.val ≤ c.val) && decide (c.val ≤ 'z'.val))) := rfl
  rw [heq]
  simp only [Bool.or_eq_true, Bool.and_eq_true, decide_eq_true_eq, UInt32.le_iff_toNat_le]
  exact Iff.rfl

/-- `c.isspace()`, as `str.strip` uses it. -/
def isspace (c : Char) : Bool :=
  c.toNat ∈ [0x09, 0x0a, 0x0b, 0x0c, 0x0d, 0x1c, 0x1d, 0x1e, 0x1f, 0x20, 0x85, 0xa0, 0x1680,
    0x2000, 0x2001, 0x2002, 0x2003, 0x2004, 0x2005, 0x2006, 0x2007, 0x2008, 0x2009, 0x200a,
    0x2028, 0x2029, 0x202f, 0x205f, 0x3000]

/-- `s.strip()`. -/
def strip (s : String) : String :=
  String.ofList ((s.toList.dropWhile isspace).rdropWhile isspace)

/-- `s.lstrip(c)` for one character. -/
def lstrip (s : String) (c : Char) : String := String.ofList (s.toList.dropWhile (· = c))

/-- `s.split(c)` for one character. -/
def split (s : String) (c : Char) : List String := (s.toList.splitOn c).map String.ofList

/-- `c.join(parts)` for one character. -/
def join (c : Char) (parts : List String) : String :=
  String.ofList ([c].intercalate (parts.map String.toList))

/-- `s.split()`. -/
def words (s : String) : List String :=
  ((s.toList.splitOnP isspace).filter fun word => !word.isEmpty).map String.ofList

/-- `c` ends a line for `str.splitlines`. -/
def isLineBreak (c : Char) : Bool :=
  c.toNat ∈ [0x0a, 0x0b, 0x0c, 0x0d, 0x1c, 0x1d, 0x1e, 0x85, 0x2028, 0x2029]

def lineGroups : List Char → List (List Char)
  | [] => []
  | '\r' :: '\n' :: rest => [] :: lineGroups rest
  | c :: rest =>
    if isLineBreak c then [] :: lineGroups rest
    else
      match lineGroups rest with
      | [] => [[c]]
      | l :: ls => (c :: l) :: ls

/-- `s.splitlines()`. -/
def splitlines (s : String) : List String := (lineGroups s.toList).map String.ofList

/-- `s.replace(a, b)` for single characters. -/
def replace (s : String) (a b : Char) : String :=
  String.ofList (s.toList.map fun c => if c = a then b else c)

/-- `s.lower()`, as far as ASCII letters go. -/
def lower (s : String) : String := String.ofList (s.toList.map Char.toLower)

/-- `s.upper()`, as far as ASCII letters go. -/
def upper (s : String) : String := String.ofList (s.toList.map Char.toUpper)

/-- `s.endswith(suffix)`. -/
def endswith (s suffix : String) : Bool := suffix.toList.isSuffixOf s.toList

/-- `s.startswith(start)`. -/
def startswith (s start : String) : Bool := start.toList.isPrefixOf s.toList

/-- `part in s`. -/
def contains (s part : String) : Bool := decide (part.toList <:+: s.toList)

/-- The digits of a number, in groups between single underscores. -/
def digitGroups (digits : List Char) : Option (List Char) :=
  let groups := digits.splitOn '_'
  if groups.all fun g => !g.isEmpty && g.all Char.isDigit then some groups.flatten else none

/-- The number of decimal digits. -/
def ofDigits (digits : List Char) : Nat :=
  digits.foldl (fun n c => 10 * n + (c.toNat - '0'.toNat)) 0

/-- `int(s)` for a text whose digits are ASCII digits; `none` where it raises. There
    may be at most 4300 digits. -/
def int (s : String) : Option Int :=
  let number (digits : List Char) : Option Nat :=
    ((digitGroups digits).filter (·.length ≤ 4300)).map ofDigits
  match (strip s).toList with
  | '-' :: digits => (number digits).map fun n => -(n : Int)
  | '+' :: digits => (number digits).map Int.ofNat
  | digits => (number digits).map Int.ofNat

/-- `sorted(s)` for a set of strings. -/
def sorted (s : Finset String) : List String := s.sort (· ≤ ·)

theorem join_split (c : Char) (s : String) : join c (split s c) = s := by
  have hmap : (split s c).map String.toList = s.toList.splitOn c := by
    simp [split, Function.comp_def]
  unfold join
  rw [hmap, List.intercalate_splitOn, String.ofList_toList]

theorem split_join {c : Char} {parts : List String} (hc : ∀ part ∈ parts, c ∉ part.toList)
    (hne : parts ≠ []) : split (join c parts) c = parts := by
  have hc' : ∀ l ∈ parts.map String.toList, c ∉ l := by
    intro l hl
    obtain ⟨part, hpart, rfl⟩ := List.mem_map.mp hl
    exact hc part hpart
  unfold split join
  rw [String.toList_ofList, List.splitOn_intercalate c hc' (by simpa using hne)]
  simp [Function.comp_def]

/-- The parts determine the text. -/
theorem split_injective (c : Char) : Function.Injective fun s => split s c := by
  intro s t h
  have hjoin := congrArg (join c) h
  rwa [join_split, join_split] at hjoin

/-- No part has the separator in it. -/
theorem notMem_of_mem_split {c : Char} {s part : String} (h : part ∈ split s c) :
    c ∉ part.toList := by
  have hall : ∀ l : List Char, ∀ part ∈ l.splitOn c, c ∉ part := by
    intro l
    induction l with
    | nil => simp
    | cons d l ih =>
      rw [List.splitOn_cons_eq_if_modifyHead]
      split
      · intro part hpart
        rcases List.mem_cons.mp hpart with rfl | hpart
        · exact List.not_mem_nil
        · exact ih part hpart
      · next hne =>
        cases hparts : l.splitOn c with
        | nil => exact absurd hparts (List.splitOn_ne_nil c l)
        | cons first others =>
          rw [hparts] at ih
          obtain ⟨hfirst, hothers⟩ := List.forall_mem_cons.mp ih
          refine List.forall_mem_cons.mpr ⟨fun hmem => ?_, hothers⟩
          rcases List.mem_cons.mp hmem with rfl | hmem
          · exact hne (beq_self_eq_true c)
          · exact hfirst hmem
  obtain ⟨l, hl, rfl⟩ := List.mem_map.mp h
  rw [String.toList_ofList]
  exact hall s.toList l hl
/-- The words of a text have no white space. -/
theorem not_isspace_of_mem_words {s word : String} (h : word ∈ words s) :
    ∀ c ∈ word.toList, isspace c = false := by
  have hall : ∀ l : List Char, ∀ part ∈ l.splitOnP isspace, ∀ c ∈ part, isspace c = false := by
    intro l
    induction l with
    | nil => simp
    | cons d l ih =>
      rw [List.splitOnP_cons_eq_if_modifyHead]
      split
      · intro part hpart
        rcases List.mem_cons.mp hpart with rfl | hpart
        · simp
        · exact ih part hpart
      · next hd =>
        cases hparts : l.splitOnP isspace with
        | nil => exact absurd hparts (List.splitOnP_ne_nil isspace l)
        | cons first others =>
          rw [hparts] at ih
          obtain ⟨hfirst, hothers⟩ := List.forall_mem_cons.mp ih
          refine List.forall_mem_cons.mpr ⟨?_, hothers⟩
          exact List.forall_mem_cons.mpr ⟨Bool.not_eq_true _ ▸ hd, hfirst⟩
  obtain ⟨part, hpart, rfl⟩ := List.mem_map.mp h
  rw [String.toList_ofList]
  exact hall s.toList part (List.mem_of_mem_filter hpart)

/-- What is left after `strip`: nothing if and only if all is white space. -/
theorem strip_eq_empty_iff (s : String) : strip s = "" ↔ ∀ c ∈ s.toList, isspace c = true := by
  have hempty : strip s = "" ↔ (s.toList.dropWhile isspace).rdropWhile isspace = [] := by
    unfold strip
    rw [String.ofList_eq_empty_iff]
  rw [hempty, List.rdropWhile_eq_nil_iff]
  constructor
  · intro h
    rw [← List.dropWhile_eq_nil_iff]
    by_contra hne
    -- the first character that is left is not white space
    have hhead := List.head_dropWhile_not isspace hne
    rw [h _ (List.head_mem hne)] at hhead
    cases hhead
  · intro h c hc
    exact h c ((List.dropWhile_sublist isspace).subset hc)

end PyStr
