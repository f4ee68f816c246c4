import Aioscpu.Framework.PyStr
import Mathlib.Data.List.Count
import Mathlib.Data.List.Infix
import Mathlib.Data.List.TakeWhile
import Mathlib.Data.String.Basic

/-! # Templates

  Texts with keys in braces, as `str.replace` and `re.sub` fill them in.

  - `replace_text`: a replacement fills in its key, and nothing else.
  - `subBraces_append`: what stands in braces is dealt with on each side of a place
    that no braces enclose.
  - `subBraces_indented`: lines that are indented stay so when what stands in braces
    goes.
-/

namespace Template

open scoped PyStr

/-! ### Replacing -/

/-- The loop of `str.replace`, when so many characters have been dealt with already. -/
def replaceFrom (old new : List Char) : Nat → List Char → List Char
  | _, [] => []
  | skip + 1, _ :: rest => replaceFrom old new skip rest
  | 0, c :: rest =>
    if old <+: c :: rest then new ++ replaceFrom old new (old.length - 1) rest
    else c :: replaceFrom old new 0 rest

/-- `t.replace(old, new)`, for a text `old` that is not empty. -/
def replace (old new t : List Char) : List Char := replaceFrom old new 0 t

/-- A key as it stands in a template. -/
def braces (key : List Char) : List Char := '{' :: (key ++ ['}'])

theorem replaceFrom_drop (old new : List Char) (t : List Char) :
    ∀ skip, replaceFrom old new skip t = replaceFrom old new 0 (t.drop skip) := by
  induction t with
  | nil => intro skip; cases skip <;> rfl
  | cons c t ih =>
    intro skip
    cases skip with
    | zero => rfl
    | succ skip => exact ih skip

theorem replace_of_start {old : List Char} (h : old ≠ []) (new rest : List Char) :
    replace old new (old ++ rest) = new ++ replace old new rest := by
  obtain ⟨c, old', rfl⟩ := List.exists_cons_of_ne_nil h
  have hstart : c :: old' <+: c :: (old' ++ rest) := List.prefix_append (c :: old') rest
  rw [replace, List.cons_append, replaceFrom, if_pos hstart, replaceFrom_drop]
  simp [replace]

theorem replace_cons_of_not_start {old : List Char} {c : Char} {rest : List Char}
    (h : ¬ old <+: c :: rest) (new : List Char) :
    replace old new (c :: rest) = c :: replace old new rest := by
  rw [replace, replaceFrom, if_neg h]
  rfl

/-- A text without an opening brace is not changed. -/
theorem replace_append_of_not_mem {lit : List Char} (h : '{' ∉ lit) (key new rest : List Char) :
    replace (braces key) new (lit ++ rest) = lit ++ replace (braces key) new rest := by
  induction lit with
  | nil => rfl
  | cons c lit ih =>
    rw [List.mem_cons, not_or] at h
    have hc : ¬ braces key <+: c :: (lit ++ rest) := fun hstart =>
      h.1 (List.cons_prefix_cons.mp hstart).1
    rw [List.cons_append, replace_cons_of_not_start hc, ih h.2, List.cons_append]

/-- A piece of a template: a literal text, or a key. -/
inductive Piece where
  | lit (t : List Char)
  | key (name : List Char)
deriving DecidableEq

def Piece.text : Piece → List Char
  | lit t => t
  | key name => braces name

/-- There are no braces but those around the keys, as far as opening ones go. -/
def Piece.Clean : Piece → Prop
  | lit t => '{' ∉ t
  | key name => '{' ∉ name ∧ '}' ∉ name

instance : ∀ piece : Piece, Decidable piece.Clean
  | .lit t => inferInstanceAs (Decidable ('{' ∉ t))
  | .key name => inferInstanceAs (Decidable ('{' ∉ name ∧ '}' ∉ name))

def text (pieces : List Piece) : List Char := pieces.flatMap Piece.text

/-- The piece with the value of the key. -/
def Piece.fill (name value : List Char) : Piece → Piece
  | lit t => lit t
  | key name' => if name' = name then lit value else key name'

/-- Two keys in braces are equal where one begins the other. -/
theorem eq_of_braces_start {a b rest : List Char} (ha : '}' ∉ a) (hb : '}' ∉ b)
    (h : braces a <+: braces b ++ rest) : a = b := by
  rw [braces, braces, List.cons_append, List.cons_prefix_cons] at h
  obtain ⟨tail, htail⟩ := h.2
  have hsplit := congrArg (fun t => t.takeWhile (· ≠ '}')) htail
  have hclose : ∀ {t : List Char}, '}' ∉ t → ∀ u : List Char,
      ((t ++ ['}']) ++ u).takeWhile (· ≠ '}') = t := by
    intro t ht u
    have hpos : ∀ c ∈ t, decide (c ≠ '}') = true := fun c hc =>
      decide_eq_true fun heq => ht (heq ▸ hc)
    rw [List.append_assoc, List.takeWhile_append_of_pos hpos, List.singleton_append,
      List.takeWhile_cons_of_neg (by decide), List.append_nil]
  simpa only [hclose ha, hclose hb] using hsplit

theorem replace_piece {piece : Piece} (hclean : piece.Clean) {name : List Char} (hname : '}' ∉ name)
    (value rest : List Char) :
    replace (braces name) value (piece.text ++ rest) =
      (piece.fill name value).text ++ replace (braces name) value rest := by
  cases piece with
  | lit t => exact replace_append_of_not_mem hclean name value rest
  | key name' =>
    by_cases heq : name' = name
    · subst heq
      rw [Piece.fill, if_pos rfl]
      exact replace_of_start (List.cons_ne_nil _ _) value rest
    · rw [Piece.fill, if_neg heq]
      -- the braces open another key, and nothing opens one within it
      have hopen : ¬ braces name <+: '{' :: (name' ++ ['}'] ++ rest) := fun hstart =>
        heq (eq_of_braces_start hname hclean.2 hstart).symm
      have hlit : '{' ∉ name' ++ ['}'] := by
        rw [List.mem_append, not_or]
        exact ⟨hclean.1, by decide⟩
      show replace _ _ ('{' :: (name' ++ ['}'] ++ rest)) = '{' :: (name' ++ ['}'] ++ _)
      rw [replace_cons_of_not_start hopen, replace_append_of_not_mem hlit]

/-- A replacement fills in its key. -/
theorem replace_text {name : List Char} (hname : '}' ∉ name) (value rest : List Char) :
    ∀ {pieces : List Piece}, (∀ piece ∈ pieces, piece.Clean) →
      replace (braces name) value (text pieces ++ rest) =
        text (pieces.map (Piece.fill name value)) ++ replace (braces name) value rest := by
  intro pieces
  induction pieces with
  | nil => intro _; rfl
  | cons piece pieces ih =>
    intro hclean
    have hpieces : text (piece :: pieces) = piece.text ++ text pieces := rfl
    rw [hpieces, List.append_assoc, replace_piece (hclean piece List.mem_cons_self) hname,
      ih fun piece hmem => hclean piece (List.mem_cons_of_mem _ hmem), ← List.append_assoc]
    rfl

/-- Values without opening braces leave the pieces clean. -/
theorem fill_clean {pieces : List Piece} (hclean : ∀ piece ∈ pieces, piece.Clean)
    (name : List Char) {value : List Char} (hvalue : '{' ∉ value) :
    ∀ piece ∈ pieces.map (Piece.fill name value), piece.Clean := by
  intro piece hpiece
  obtain ⟨piece', hmem, rfl⟩ := List.mem_map.mp hpiece
  cases piece' with
  | lit t => exact hclean _ hmem
  | key name' =>
    rw [Piece.fill]
    split
    · exact hvalue
    · exact hclean _ hmem

/-! ### What stands in braces -/

def isBrace (c : Char) : Bool := c = '{' || c = '}'

/-- What stands between the opening brace before the text and the next brace, if that is
    a closing one. -/
def braced (rest : List Char) : Option (List Char) :=
  let e := rest.takeWhile fun c => !isBrace c
  if e ≠ [] ∧ (rest.dropWhile fun c => !isBrace c).head? = some '}' then some e else none

/-- The loop of `re.sub(r'\{([^{}]+)\}', f, t)`, when so many characters have been dealt
    with already. -/
def subBracesFrom (f : List Char → List Char) : Nat → List Char → List Char
  | _, [] => []
  | skip + 1, _ :: rest => subBracesFrom f skip rest
  | 0, c :: rest =>
    match if c = '{' then braced rest else none with
    | some e => f e ++ subBracesFrom f (e.length + 1) rest
    | none => c :: subBracesFrom f 0 rest

/-- `re.sub(r'\{([^{}]+)\}', f, t)`. -/
def subBraces (f : List Char → List Char) (t : List Char) : List Char := subBracesFrom f 0 t

def firstBrace (t : List Char) : Option Char := (t.filter isBrace).head?

def lastBrace (t : List Char) : Option Char := (t.filter isBrace).getLast?

/-- There is no brace in the text. -/
def Free (t : List Char) : Prop := ∀ c ∈ t, isBrace c = false

instance (t : List Char) : Decidable (Free t) :=
  inferInstanceAs (Decidable (∀ c ∈ t, isBrace c = false))

theorem free_nil : Free [] := fun _ hc => by cases hc

theorem Free.append {a b : List Char} (ha : Free a) (hb : Free b) : Free (a ++ b) := by
  intro c hc
  rcases List.mem_append.mp hc with hc | hc
  · exact ha c hc
  · exact hb c hc

theorem Free.filter {t : List Char} (h : Free t) : t.filter isBrace = [] :=
  List.filter_eq_nil_iff.mpr fun c hc hbrace => by rw [h c hc] at hbrace; cases hbrace

/-- A text has no braces, or a first one. -/
theorem free_or_split (t : List Char) :
    Free t ∨ ∃ a b rest, t = a ++ b :: rest ∧ Free a ∧ isBrace b = true := by
  induction t with
  | nil => exact Or.inl free_nil
  | cons c t ih =>
    by_cases hc : isBrace c = true
    · exact Or.inr ⟨[], c, t, rfl, free_nil, hc⟩
    · have hone : Free [c] := fun c' hc' =>
        List.mem_singleton.mp hc' ▸ Bool.not_eq_true _ ▸ hc
      rcases ih with hfree | ⟨a, b, rest, rfl, ha, hb⟩
      · exact Or.inl (hone.append hfree)
      · exact Or.inr ⟨c :: a, b, rest, rfl, hone.append ha, hb⟩

/-- A text has no braces, or a last one. -/
theorem free_or_split_last (t : List Char) :
    Free t ∨ ∃ a b rest, t = a ++ b :: rest ∧ Free rest ∧ isBrace b = true := by
  have hreverse : ∀ {t : List Char}, Free t.reverse → Free t :=
    fun h c hc => h c (List.mem_reverse.mpr hc)
  rcases free_or_split t.reverse with hfree | ⟨a, b, rest, heq, ha, hb⟩
  · exact Or.inl (hreverse hfree)
  · refine Or.inr ⟨rest.reverse, b, a.reverse, ?_, fun c hc => ha c (List.mem_reverse.mp hc), hb⟩
    rw [← List.reverse_reverse t, heq]
    simp

theorem firstBrace_append (a b : List Char) :
    firstBrace (a ++ b) = (firstBrace a).or (firstBrace b) := by
  unfold firstBrace
  rw [List.filter_append, List.head?_append]

theorem lastBrace_append (a b : List Char) :
    lastBrace (a ++ b) = (lastBrace b).or (lastBrace a) := by
  unfold lastBrace
  rw [List.filter_append, List.getLast?_append]

theorem Free.firstBrace {t : List Char} (h : Free t) : firstBrace t = none := by
  unfold Template.firstBrace
  rw [h.filter]
  rfl

theorem Free.lastBrace {t : List Char} (h : Free t) : lastBrace t = none := by
  unfold Template.lastBrace
  rw [h.filter]
  rfl

theorem firstBrace_cons {c : Char} (hc : isBrace c = true) (t : List Char) :
    firstBrace (c :: t) = some c := by
  unfold firstBrace
  rw [List.filter_cons_of_pos hc]
  rfl

/-- The braces of the text would close one before it and open one after it. -/
def Straddles (t : List Char) : Prop := firstBrace t = some '}' ∧ lastBrace t = some '{'

instance (t : List Char) : Decidable (Straddles t) := inferInstanceAs (Decidable (_ ∧ _))

theorem Straddles.split {t : List Char} (h : Straddles t) :
    ∃ a b c, t = a ++ '}' :: (b ++ '{' :: c) ∧ Free a ∧ Free c := by
  obtain ⟨hfirst, hlast⟩ := h
  rcases free_or_split t with hfree | ⟨a, d, rest, rfl, ha, hd⟩
  · rw [hfree.firstBrace] at hfirst
    cases hfirst
  · rw [firstBrace_append, ha.firstBrace, firstBrace_cons hd] at hfirst
    have heq : d = '}' := Option.some.inj hfirst
    subst heq
    -- the last brace is another one
    rcases free_or_split_last rest with hfree | ⟨b, e, c, rfl, hc, he⟩
    · have hone : ('}' :: rest : List Char) = ['}'] ++ rest := rfl
      rw [lastBrace_append, hone, lastBrace_append, hfree.lastBrace] at hlast
      cases hlast
    · refine ⟨a, b, c, ?_, ha, hc⟩
      have hone : ('}' :: (b ++ e :: c) : List Char) = '}' :: b ++ ([e] ++ c) := rfl
      have hbrace : lastBrace [e] = some e := by
        unfold lastBrace
        rw [List.filter_cons_of_pos he]
        rfl
      rw [lastBrace_append, hone, lastBrace_append, lastBrace_append, hc.lastBrace, hbrace] at hlast
      have heq : e = '{' := Option.some.inj hlast
      rw [heq]

theorem braced_of_free {t : List Char} (h : Free t) : braced t = none := by
  have hdrop : t.dropWhile (fun c => !isBrace c) = [] :=
    List.dropWhile_eq_nil_iff.mpr fun c hc => by rw [h c hc]; rfl
  unfold braced
  simp only [hdrop]
  rw [if_neg fun hboth => by cases hboth.2]

theorem braced_split {a rest : List Char} {b : Char} (ha : Free a) (hb : isBrace b = true) :
    braced (a ++ b :: rest) = if a ≠ [] ∧ b = '}' then some a else none := by
  have hpos : ∀ c ∈ a, (!isBrace c) = true := fun c hc => by rw [ha c hc]; rfl
  have htake : (a ++ b :: rest).takeWhile (fun c => !isBrace c) = a := by
    rw [List.takeWhile_append_of_pos hpos, List.takeWhile_cons_of_neg (by simp [hb]),
      List.append_nil]
  have hdrop : (a ++ b :: rest).dropWhile (fun c => !isBrace c) = b :: rest := by
    rw [List.dropWhile_append_of_pos hpos, List.dropWhile_cons_of_neg (by simp [hb])]
  unfold braced
  simp only [htake, hdrop, List.head?_cons, Option.some.injEq]

variable {f : List Char → List Char}

theorem subBracesFrom_drop (t : List Char) :
    ∀ skip, subBracesFrom f skip t = subBraces f (t.drop skip) := by
  induction t with
  | nil => intro skip; cases skip <;> rfl
  | cons c t ih =>
    intro skip
    cases skip with
    | zero => rfl
    | succ skip => exact ih skip

theorem subBraces_cons_of_ne {c : Char} (h : c ≠ '{') (rest : List Char) :
    subBraces f (c :: rest) = c :: subBraces f rest := by
  rw [subBraces, subBracesFrom, if_neg h]
  rfl

theorem subBraces_cons_none {rest : List Char} (h : braced rest = none) :
    subBraces f ('{' :: rest) = '{' :: subBraces f rest := by
  rw [subBraces, subBracesFrom, if_pos rfl, h]
  rfl

theorem subBraces_cons_some {a rest : List Char} (h : braced (a ++ '}' :: rest) = some a) :
    subBraces f ('{' :: (a ++ '}' :: rest)) = f a ++ subBraces f rest := by
  rw [subBraces, subBracesFrom, if_pos rfl, h]
  show f a ++ subBracesFrom f (a.length + 1) (a ++ '}' :: rest) = _
  rw [subBracesFrom_drop]
  simp

/-- What stands in braces is dealt with on the two sides of a place that no braces enclose. -/
theorem subBraces_append {y : List Char} (x : List Char) :
    ¬ (lastBrace x = some '{' ∧ firstBrace y = some '}') →
      subBraces f (x ++ y) = subBraces f x ++ subBraces f y := by
  induction hlen : x.length using Nat.strong_induction_on generalizing x with
  | _ n ih =>
    intro hplace
    cases x with
    | nil => rfl
    | cons c x =>
      -- the end of `x` has the same braces at its end
      have hend : ∀ {a rest : List Char}, c :: x = a ++ rest →
          ¬ (lastBrace rest = some '{' ∧ firstBrace y = some '}') := by
        rintro a rest heq ⟨hlast, hfirst⟩
        refine hplace ⟨?_, hfirst⟩
        rw [heq, lastBrace_append, hlast]
        rfl
      have hx : subBraces f (x ++ y) = subBraces f x ++ subBraces f y :=
        ih x.length (by rw [← hlen]; simp) x rfl (hend (List.singleton_append).symm)
      rw [List.cons_append]
      by_cases hc : c = '{'
      · subst hc
        rcases free_or_split x with hfree | ⟨a, b, rest, rfl, ha, hb⟩
        · -- the brace is the last one of `x`, and `y` does not close it
          have hlast : lastBrace (['{'] ++ x) = some '{' := by
            rw [lastBrace_append, hfree.lastBrace]
            rfl
          have hnone : braced (x ++ y) = none := by
            rcases free_or_split y with hfree' | ⟨a, b, rest, rfl, ha, hb⟩
            · exact braced_of_free (hfree.append hfree')
            · rw [← List.append_assoc, braced_split (hfree.append ha) hb]
              refine if_neg fun hboth => hplace ⟨hlast, ?_⟩
              rw [firstBrace_append, ha.firstBrace, firstBrace_cons hb, hboth.2]
              rfl
          rw [subBraces_cons_none hnone, subBraces_cons_none (braced_of_free hfree), hx]
          rfl
        · have hxy : braced (a ++ b :: rest ++ y) = braced (a ++ b :: rest) := by
            rw [List.append_assoc, List.cons_append, braced_split ha hb, braced_split ha hb]
          by_cases hclose : a ≠ [] ∧ b = '}'
          · obtain ⟨hne, rfl⟩ := hclose
            have hsome : ∀ rest, braced (a ++ '}' :: rest) = some a := fun rest => by
              rw [braced_split ha hb, if_pos ⟨hne, rfl⟩]
            rw [List.append_assoc, List.cons_append, subBraces_cons_some (hsome _),
              subBraces_cons_some (hsome _), List.append_assoc]
            congr 1
            refine ih rest.length ?_ rest rfl (hend (a := '{' :: (a ++ ['}'])) (by simp))
            rw [← hlen]
            simp only [List.length_cons, List.length_append]
            omega
          · have hnone : braced (a ++ b :: rest) = none := by
              rw [braced_split ha hb, if_neg hclose]
            rw [subBraces_cons_none (hxy.trans hnone), subBraces_cons_none hnone, hx]
            rfl
      · rw [subBraces_cons_of_ne hc, subBraces_cons_of_ne hc, hx]
        rfl

theorem subBraces_of_free {t : List Char} (h : Free t) : subBraces f t = t := by
  induction t with
  | nil => rfl
  | cons c t ih =>
    have hc : c ≠ '{' := by
      rintro rfl
      have hbrace := h '{' List.mem_cons_self
      cases hbrace
    rw [subBraces_cons_of_ne hc, ih fun c hc => h c (List.mem_cons_of_mem _ hc)]

/-- Around a text without braces. -/
theorem subBraces_append_free {x : List Char} (hx : lastBrace x ≠ some '{') (y : List Char) :
    subBraces f (x ++ y) = subBraces f x ++ subBraces f y :=
  subBraces_append x fun h => hx h.1

/-- What the braces of a text that straddles make of what stands between two copies of it. -/
theorem subBraces_straddling {x y z a b c : List Char} (hx : lastBrace x ≠ some '{')
    (ha : Free a) (hc : Free c) (hy : Free y) (hne : y ≠ []) :
    subBraces f (x ++ (a ++ '}' :: (b ++ '{' :: c) ++ (y ++ (a ++ '}' :: (b ++ '{' :: c) ++ z)))) =
      subBraces f x ++ (a ++ '}' :: (subBraces f b ++
        (f (c ++ y ++ a) ++ subBraces f (b ++ '{' :: c ++ z)))) := by
  have hfree : Free (c ++ y ++ a) := (hc.append hy).append ha
  have hne' : c ++ y ++ a ≠ [] := by
    simp [hne]
  have hinner : braced (c ++ y ++ a ++ '}' :: (b ++ '{' :: c ++ z)) = some (c ++ y ++ a) := by
    rw [braced_split hfree (by decide), if_pos ⟨hne', rfl⟩]
  have hassoc : x ++ (a ++ '}' :: (b ++ '{' :: c) ++ (y ++ (a ++ '}' :: (b ++ '{' :: c) ++ z))) =
      x ++ (a ++ '}' :: (b ++ '{' :: (c ++ y ++ a ++ '}' :: (b ++ '{' :: c ++ z)))) := by
    simp only [List.append_assoc, List.cons_append]
  have hopen : ¬ (lastBrace b = some '{' ∧
      firstBrace ('{' :: (c ++ y ++ a ++ '}' :: (b ++ '{' :: c ++ z))) = some '}') := by
    rintro ⟨-, hfirst⟩
    rw [firstBrace_cons (by decide)] at hfirst
    cases hfirst
  rw [hassoc, subBraces_append_free hx, subBraces_append_free (by rw [ha.lastBrace]; simp),
    subBraces_of_free ha, subBraces_cons_of_ne (by decide), subBraces_append b hopen,
    subBraces_cons_some hinner]

theorem mem_subBraces {c : Char} {t : List Char} (h : c ∈ subBraces f t) :
    c ∈ t ∨ ∃ e, c ∈ f e := by
  have hfrom : ∀ skip, c ∈ subBracesFrom f skip t → c ∈ t ∨ ∃ e, c ∈ f e := by
    clear h
    induction t with
    | nil => intro skip h; cases skip <;> cases h
    | cons d t ih =>
      intro skip h
      have htail : ∀ skip, c ∈ subBracesFrom f skip t → c ∈ d :: t ∨ ∃ e, c ∈ f e :=
        fun skip h => (ih skip h).imp_left (List.mem_cons_of_mem _)
      cases skip with
      | succ skip => exact htail skip h
      | zero =>
        rw [subBracesFrom] at h
        split at h
        · next e _ =>
          rcases List.mem_append.mp h with h | h
          · exact Or.inr ⟨e, h⟩
          · exact htail _ h
        · rcases List.mem_cons.mp h with rfl | h
          · exact Or.inl List.mem_cons_self
          · exact htail _ h
  exact hfrom 0 h

/-! ### Indented lines -/

/-- What follows a newline is a blank or another newline. -/
def Indented : List Char → Prop
  | [] => True
  | c :: t => (c = '\n' → ∀ d ∈ t.head?, d = ' ' ∨ d = '\n') ∧ Indented t

instance decidableIndented : ∀ t, Decidable (Indented t)
  | [] => inferInstanceAs (Decidable True)
  | c :: t =>
    have := decidableIndented t
    inferInstanceAs (Decidable ((c = '\n' → ∀ d ∈ t.head?, d = ' ' ∨ d = '\n') ∧ Indented t))

theorem indented_append {a b : List Char} (ha : '\n' ∉ a) (hb : Indented b) :
    Indented (a ++ b) := by
  induction a with
  | nil => exact hb
  | cons c a ih =>
    rw [List.mem_cons, not_or] at ha
    exact ⟨fun hc => absurd hc.symm ha.1, ih ha.2⟩

theorem Indented.drop {t : List Char} (h : Indented t) : ∀ n, Indented (t.drop n) := by
  induction t with
  | nil => intro n; cases n <;> trivial
  | cons c t ih =>
    intro n
    cases n with
    | zero => exact h
    | succ n => exact ih h.2 n

/-- No brace stands at the beginning of a line, so the head of what follows a newline stays. -/
theorem indented_cons {c : Char} {t u : List Char} (h : Indented (c :: t)) (hu : Indented u)
    (hhead : t.head? ≠ some '{' → u.head? = t.head?) : Indented (c :: u) := by
  refine ⟨fun hc => ?_, hu⟩
  have hnext := h.1 hc
  rw [hhead]
  · exact hnext
  · intro hbrace
    rcases hnext '{' hbrace with heq | heq <;> cases heq

theorem replaceFrom_indented {key new : List Char} (hnew : '\n' ∉ new) {t : List Char} :
    ∀ skip, Indented (t.drop skip) → Indented (replaceFrom (braces key) new skip t) := by
  induction t with
  | nil => intro skip _; cases skip <;> trivial
  | cons c t ih =>
    intro skip h
    cases skip with
    | succ skip => exact ih skip h
    | zero =>
      rw [replaceFrom]
      split
      · exact indented_append hnew (ih _ (h.2.drop _))
      · refine indented_cons h (ih 0 h.2) fun hhead => ?_
        cases t with
        | nil => rfl
        | cons d t =>
          have hd : ¬ braces key <+: d :: t := fun hstart =>
            hhead (congrArg some (List.cons_prefix_cons.mp hstart).1.symm)
          rw [replaceFrom, if_neg hd]
          rfl

theorem replace_indented {key new t : List Char} (hnew : '\n' ∉ new) (h : Indented t) :
    Indented (replace (braces key) new t) :=
  replaceFrom_indented hnew 0 h

theorem subBracesFrom_indented (hf : ∀ e, '\n' ∉ f e) {t : List Char} :
    ∀ skip, Indented (t.drop skip) → Indented (subBracesFrom f skip t) := by
  induction t with
  | nil => intro skip _; cases skip <;> trivial
  | cons c t ih =>
    intro skip h
    cases skip with
    | succ skip => exact ih skip h
    | zero =>
      rw [subBracesFrom]
      split
      · exact indented_append (hf _) (ih _ (h.2.drop _))
      · refine indented_cons h (ih 0 h.2) fun hhead => ?_
        cases t with
        | nil => rfl
        | cons d t =>
          have hd : d ≠ '{' := fun heq => hhead (congrArg some heq)
          rw [subBracesFrom, if_neg hd]
          rfl

theorem subBraces_indented (hf : ∀ e, '\n' ∉ f e) {t : List Char} (h : Indented t) :
    Indented (subBraces f t) :=
  subBracesFrom_indented hf 0 h

/-- The lines of an indented text, but for the first one. -/
theorem Indented.lines {t : List Char} (h : Indented t) :
    ∀ l ∈ (t.splitOn '\n').tail, ∀ c ∈ l.head?, c = ' ' := by
  induction t with
  | nil => intro l hl; cases hl
  | cons c t ih =>
    have ih := ih h.2
    intro l hl
    rw [List.splitOn_cons_eq_if_modifyHead] at hl
    split at hl
    · next hc =>
      -- the first line of the rest begins with what follows the newline
      have hnext := h.1 (beq_iff_eq.mp hc)
      cases t with
      | nil =>
        have hnil : l = [] := List.mem_singleton.mp hl
        rw [hnil]
        intro c hc
        cases hc
      | cons d t =>
        rw [List.splitOn_cons_eq_if_modifyHead] at hl ih
        by_cases hd : (d == '\n') = true
        · rw [if_pos hd] at hl ih
          rcases List.mem_cons.mp hl with rfl | hl
          · intro c hc
            cases hc
          · exact ih l hl
        · rw [if_neg hd] at hl ih
          cases hsplit : t.splitOn '\n' with
          | nil => exact absurd hsplit (List.splitOn_ne_nil _ _)
          | cons first rest =>
            rw [hsplit] at hl ih
            rcases List.mem_cons.mp hl with rfl | hl
            · intro c hc
              have hcd : c = d := (Option.some.inj hc).symm
              rcases hnext d rfl with heq | heq
              · exact hcd.trans heq
              · exact absurd (beq_iff_eq.mpr heq) hd
            · exact ih l hl
    · rw [List.tail_modifyHead] at hl
      exact ih l hl

/-- The first line begins with what has no newline in it. -/
theorem splitOn_first {a : List Char} (ha : '\n' ∉ a) (t : List Char) :
    ∃ w rest, (a ++ t).splitOn '\n' = (a ++ w) :: rest := by
  induction a with
  | nil =>
    obtain ⟨w, rest, heq⟩ := List.exists_cons_of_ne_nil (List.splitOn_ne_nil '\n' t)
    exact ⟨w, rest, heq⟩
  | cons c a ih =>
    rw [List.mem_cons, not_or] at ha
    obtain ⟨w, rest, heq⟩ := ih ha.2
    refine ⟨w, rest, ?_⟩
    rw [List.cons_append, List.splitOn_cons_eq_if_modifyHead,
      if_neg fun hc => ha.1 (beq_iff_eq.mp hc).symm, heq]
    rfl

end Template
