import Aioscpu.Aura.Memory

/-! # What Failed Saves and Loads Leave

  `save` and `load` of `aura/memory.py` with any file. The fields of an entry are whatever JSON
  the file has, and the metadata of a turn may be no JSON. `load` clears the turns before it
  looks at the entries, and `save` empties the file before it writes.
-/

/-- The metadata of a turn. -/
inductive Metadata (T : Type) where
  | json (v : Json T)
  /-- `json.dump` raises for it. -/
  | unserialisable

/-- A turn with fields of any kind. -/
structure LooseTurn (T : Type) where
  role : Json T
  content : Json T
  timestamp : Json T
  metadata : Metadata T

/-- A memory of such turns. -/
structure LooseMemory (T : Type) where
  turns : Deque (LooseTurn T)
  session_start : Json T

/-- What a file holds. A text that is cut off is no JSON. -/
inductive Content (T : Type) where
  | document (v : Json T)
  | unreadable

/-- How far the file operations of `save` come. -/
inductive Attempt where
  /-- The file is not opened, and is as before. -/
  | unopened
  /-- A write fails. -/
  | cut
  | complete
deriving DecidableEq, Repr

namespace LooseTurn

variable {T : Type}

/-- `to_dict`, if `json.dump` can write it. -/
def to_dict (turn : LooseTurn T) : Option (Json T) :=
  match turn.metadata with
  | .json v => some (.obj [("role", turn.role), ("content", turn.content),
      ("timestamp", turn.timestamp), ("metadata", v)])
  | .unserialisable => none

/-- The turn of an entry, which raises for what is no object. -/
def of_dict [Clock T] : Json T → Option (LooseTurn T)
  | .obj entry =>
    some
      { role := (entry.lookup "role").getD (.str "system")
        content := (entry.lookup "content").getD (.str "")
        timestamp := (entry.lookup "timestamp").getD (.float (Clock.ofSeconds 0))
        metadata := .json ((entry.lookup "metadata").getD (.obj [])) }
  | _ => none

end LooseTurn

namespace LooseMemory

variable {T : Type}

/-! ### Saving -/

/-- What `save` writes, if `json.dump` can write it. -/
def document (m : LooseMemory T) (now : T) : Option (Json T) :=
  ((Deque.lastItems m.turns.items ConversationMemory.DISK_TURN_CAP).mapM LooseTurn.to_dict).map
    fun turns => .obj [("version", .int 1), ("saved_at", .float now),
      ("session_start", m.session_start), ("turns", .arr turns)]

/-- `save`: what is in the file then, and what is returned. -/
def save (m : LooseMemory T) (now : T) (file : Option (Content T)) :
    Attempt → Option (Content T) × Bool
  | .unopened => (file, false)
  | .cut => (some .unreadable, false)
  | .complete =>
    match m.document now with
    | some v => (some (.document v), true)
    -- the text ends where `json.dump` raises
    | none => (some .unreadable, false)

/-! ### Loading -/

/-- `raw_turns[-n:]`, which raises for what has no slices. -/
def slice (raw_turns : Json T) (n : Nat) : Option (List (Json T)) :=
  match raw_turns with
  | .str s => some ((Deque.lastItems s.toList n).map fun c => .str (String.singleton c))
  | .arr items => some (Deque.lastItems items n)
  | _ => none

variable [Clock T]

/-- The loop of `load`, and whether it gets through. -/
def fill (turns : Deque (LooseTurn T)) : List (Json T) → Deque (LooseTurn T) × Bool
  | [] => (turns, true)
  | entry :: entries =>
    match LooseTurn.of_dict entry with
    | some turn => fill (turns.append turn) entries
    | none => (turns, false)

/-- `raw_turns`. -/
def rawTurns (data : Json.Fields T) : Json T := (data.lookup "turns").getD (.arr [])

/-- `load` with what `json.load` gives. -/
def restore (m : LooseMemory T) : Json T → LooseMemory T × Nat
  | .obj data =>
    match slice (rawTurns data) m.turns.maxlen with
    | none => ({ m with turns := m.turns.clear }, 0)
    | some entries =>
      let (turns, done) := fill m.turns.clear entries
      if done then
        (⟨turns, (data.lookup "session_start").getD m.session_start⟩, turns.items.length)
      else ({ m with turns }, 0)
  | _ => (m, 0)

/-- `load`, and what it returns. -/
def load (m : LooseMemory T) : Option (Content T) → LooseMemory T × Nat
  | some (.document v) => m.restore v
  | some .unreadable => (m, 0)
  | none => (m, 0)

/-! ### What the operations are to do -/

/-- The turns in the file that a memory has room for, if all their entries can be read. -/
def newest (data : Json.Fields T) (maxlen : Nat) : Option (List (LooseTurn T)) :=
  ((slice (rawTurns data) maxlen).bind (List.mapM LooseTurn.of_dict)).map (List.rtake · maxlen)

/-- All of the file is in the memory. -/
structure Restored (m : LooseMemory T) (data : Json.Fields T) (r : LooseMemory T × Nat) : Prop where
  turns : newest data m.turns.maxlen = some r.1.turns.items
  session_start : r.1.session_start = (data.lookup "session_start").getD m.session_start
  count : r.2 = r.1.turns.items.length

/-- A load restores the file, or changes nothing. -/
def LoadIntact (m : LooseMemory T) (file : Option (Content T)) : Prop :=
  (∃ data, file = some (.document (.obj data)) ∧ Restored m data (m.load file)) ∨
    m.load file = (m, 0)

/-- A file that a save fails on loads as before. -/
def SaveIntact (m : LooseMemory T) (now : T) (file : Option (Content T)) (attempt : Attempt) :
    Prop :=
  (m.save now file attempt).2 = false →
    ∀ m' : LooseMemory T, m'.load (m.save now file attempt).1 = m'.load file

/-- The entries before the first one that raises, as turns. -/
def leading (entries : List (Json T)) : List (LooseTurn T) :=
  (entries.takeWhile fun entry => (LooseTurn.of_dict entry).isSome).filterMap LooseTurn.of_dict

/-- The condition on a load: the file is no object, or its entries can be read, or those before the
    first that cannot are the turns that are held. -/
def Readable (m : LooseMemory T) (file : Option (Content T)) : Prop :=
  ∀ data, file = some (.document (.obj data)) →
    (newest data m.turns.maxlen).isSome = true ∨
      m.turns.items =
        (leading ((slice (rawTurns data) m.turns.maxlen).getD [])).rtake m.turns.maxlen

/-- The condition on a save: it comes through, or does not open the file, or the file is none that
    can be loaded. -/
def Unharmed (m : LooseMemory T) (now : T) (file : Option (Content T)) (attempt : Attempt) : Prop :=
  attempt = .unopened ∨ (attempt = .complete ∧ (m.document now).isSome = true) ∨
    ∀ data, file ≠ some (.document (.obj data))

/-! ### Loads -/

theorem fill_eq (turns : Deque (LooseTurn T)) (entries : List (Json T)) :
    fill turns entries =
      ((leading entries).foldl Deque.append turns, (entries.mapM LooseTurn.of_dict).isSome) := by
  induction entries generalizing turns with
  | nil => rfl
  | cons entry entries ih =>
    unfold fill leading
    rw [List.takeWhile_cons, List.mapM_cons]
    cases hturn : LooseTurn.of_dict entry with
    | none => rfl
    | some turn =>
      dsimp only
      rw [ih, Option.isSome_some, if_pos rfl, List.filterMap_cons_some hturn, List.foldl_cons]
      cases entries.mapM LooseTurn.of_dict <;> rfl

/-- Where all entries can be read, all of them lead. -/
theorem leading_of_mapM {entries : List (Json T)} {l : List (LooseTurn T)}
    (h : entries.mapM LooseTurn.of_dict = some l) : leading entries = l := by
  induction entries generalizing l with
  | nil =>
    cases h
    rfl
  | cons entry entries ih =>
    rw [List.mapM_cons] at h
    cases hturn : LooseTurn.of_dict entry with
    | none =>
      rw [hturn] at h
      cases h
    | some turn =>
      cases hrest : entries.mapM LooseTurn.of_dict with
      | none =>
        rw [hturn, hrest] at h
        cases h
      | some rest =>
        rw [hturn, hrest] at h
        cases h
        have hlead := ih hrest
        unfold leading at hlead ⊢
        rw [List.takeWhile_cons, hturn, Option.isSome_some, if_pos rfl,
          List.filterMap_cons_some hturn, hlead]

/-- The turns that a load leaves. -/
def kept (m : LooseMemory T) (data : Json.Fields T) : Deque (LooseTurn T) :=
  (leading ((slice (rawTurns data) m.turns.maxlen).getD [])).foldl Deque.append m.turns.clear

theorem kept_items (m : LooseMemory T) (data : Json.Fields T) :
    (m.kept data).items =
      (leading ((slice (rawTurns data) m.turns.maxlen).getD [])).rtake m.turns.maxlen := by
  have hempty : m.turns.clear.items = ([] : List (LooseTurn T)).rtake m.turns.clear.maxlen := by
    simp [Deque.clear, Deque.empty]
  unfold kept
  rw [Deque.foldl_append_items hempty, List.nil_append]
  rfl

theorem kept_maxlen (m : LooseMemory T) (data : Json.Fields T) :
    (m.kept data).maxlen = m.turns.maxlen := Deque.foldl_append_maxlen _ _

/-- A load of an object. -/
theorem restore_obj (m : LooseMemory T) (data : Json.Fields T) :
    m.restore (.obj data) =
      if (newest data m.turns.maxlen).isSome then
        (⟨m.kept data, (data.lookup "session_start").getD m.session_start⟩,
          (m.kept data).items.length)
      else ({ m with turns := m.kept data }, 0) := by
  rcases Option.eq_none_or_eq_some (slice (rawTurns data) m.turns.maxlen) with
    hslice | ⟨entries, hslice⟩
  · have hnone : newest data m.turns.maxlen = none := by
      rw [newest, hslice]
      rfl
    rw [hnone]
    simp only [restore, kept, hslice]
    rfl
  · have hsome : (newest data m.turns.maxlen).isSome = (entries.mapM LooseTurn.of_dict).isSome := by
      rw [newest, hslice, Option.isSome_map, Option.bind_some]
    rw [hsome]
    simp only [restore, kept, hslice, fill_eq, Option.getD_some]

theorem newest_eq {m : LooseMemory T} {data : Json.Fields T} {l : List (LooseTurn T)}
    (h : newest data m.turns.maxlen = some l) : l = (m.kept data).items := by
  rw [kept_items]
  unfold newest at h
  obtain ⟨turns, hturns, rfl⟩ := Option.map_eq_some_iff.mp h
  obtain ⟨entries, hslice, hmap⟩ := Option.bind_eq_some_iff.mp hturns
  rw [hslice, Option.getD_some, leading_of_mapM hmap]

/-- Rings of the same size are equal if they have the same items. -/
theorem deque_eq {α : Type} {d d' : Deque α} (hmaxlen : d.maxlen = d'.maxlen)
    (hitems : d.items = d'.items) : d = d' := by
  obtain ⟨maxlen, items, bounded⟩ := d
  obtain ⟨maxlen', items', bounded'⟩ := d'
  obtain rfl : maxlen = maxlen' := hmaxlen
  obtain rfl : items = items' := hitems
  rfl

/-- A file that is no object leaves every memory as it is. -/
theorem load_eq_of_ne {file : Option (Content T)}
    (h : ∀ data, file ≠ some (.document (.obj data))) (m : LooseMemory T) :
    m.load file = (m, 0) := by
  cases file with
  | none => rfl
  | some content =>
    cases content with
    | unreadable => rfl
    | document v =>
      cases v with
      | obj data => exact absurd rfl (h data)
      | _ => rfl

theorem load_intact_iff (m : LooseMemory T) (file : Option (Content T)) :
    LoadIntact m file ↔ Readable m file := by
  by_cases hfile : ∃ data, file = some (.document (.obj data))
  · obtain ⟨data, rfl⟩ := hfile
    have hload : m.load (some (.document (.obj data))) = m.restore (.obj data) := rfl
    have hreadable : Readable m (some (.document (.obj data))) ↔
        (newest data m.turns.maxlen).isSome = true ∨ m.turns.items = (m.kept data).items := by
      rw [kept_items]
      constructor
      · intro h
        exact h data rfl
      · intro h data' heq
        cases heq
        exact h
    rw [hreadable]
    unfold LoadIntact
    rw [hload, restore_obj]
    by_cases hnewest : (newest data m.turns.maxlen).isSome = true
    · rw [if_pos hnewest]
      refine iff_of_true (Or.inl ⟨data, rfl, ?_, rfl, rfl⟩) (Or.inl hnewest)
      obtain ⟨l, hl⟩ := Option.isSome_iff_exists.mp hnewest
      rw [hl, newest_eq hl]
    · rw [if_neg hnewest, or_iff_right hnewest]
      constructor
      · rintro (⟨data', heq, hrestored⟩ | hsame)
        · -- the turns of the file are not all there
          cases heq
          rw [hrestored.turns] at hnewest
          exact absurd rfl hnewest
        · have hturns := congrArg (fun r : LooseMemory T × Nat => r.1.turns.items) hsame
          exact hturns.symm
      · intro hitems
        have hkept : m.kept data = m.turns := deque_eq (m.kept_maxlen data) hitems.symm
        rw [hkept]
        exact Or.inr rfl
  · have hload : m.load file = (m, 0) := load_eq_of_ne (fun data heq => hfile ⟨data, heq⟩) m
    exact iff_of_true (Or.inr hload) fun data heq => absurd ⟨data, heq⟩ hfile

/-! ### Saves -/

/-- Two turns that differ. -/
def firstTurn : LooseTurn T := ⟨.bool true, .null, .null, .json .null⟩

def secondTurn : LooseTurn T := ⟨.bool false, .null, .null, .json .null⟩

/-- A memory for one turn that holds it. -/
def holding (turn : LooseTurn T) : LooseMemory T :=
  ⟨(Deque.empty 1).append turn, .null⟩

/-- Every object changes some memory that loads it. -/
theorem exists_restore_ne (data : Json.Fields T) :
    ∃ m : LooseMemory T, m.restore (.obj data) ≠ (m, 0) := by
  by_contra hall
  have hall : ∀ m : LooseMemory T, m.restore (.obj data) = (m, 0) := by
    intro m
    by_contra hne
    exact hall ⟨m, hne⟩
  -- a memory that is left as it is holds what leads in the file
  have hitems : ∀ turn : LooseTurn T, [turn] = ((holding turn).kept data).items := by
    intro turn
    have hsame := hall (holding turn)
    rw [restore_obj] at hsame
    split at hsame
    · exact (congrArg (fun r : LooseMemory T × Nat => r.1.turns.items) hsame).symm
    · exact (congrArg (fun r : LooseMemory T × Nat => r.1.turns.items) hsame).symm
  have hsame : ((holding firstTurn).kept data).items =
      ((holding (secondTurn (T := T))).kept data).items := by
    rw [kept_items, kept_items]
    rfl
  rw [← hitems, ← hitems] at hsame
  cases hsame

/-- A save that leaves no JSON is harmless for files that are no objects, and only for them. -/
theorem unreadable_iff (file : Option (Content T)) :
    (∀ m : LooseMemory T, m.load (some .unreadable) = m.load file) ↔
      ∀ data, file ≠ some (.document (.obj data)) := by
  constructor
  · rintro h data rfl
    obtain ⟨m, hne⟩ := exists_restore_ne data
    exact hne (h m).symm
  · intro h m
    rw [load_eq_of_ne h m]
    rfl

theorem save_intact_iff (m : LooseMemory T) (now : T) (file : Option (Content T))
    (attempt : Attempt) : SaveIntact m now file attempt ↔ Unharmed m now file attempt := by
  cases attempt with
  | unopened => exact iff_of_true (fun _ _ => rfl) (Or.inl rfl)
  | cut =>
    have hleft : SaveIntact m now file .cut ↔
        ∀ m' : LooseMemory T, m'.load (some .unreadable) = m'.load file :=
      ⟨fun h => h rfl, fun h _ => h⟩
    rw [hleft, unreadable_iff]
    simp [Unharmed]
  | complete =>
    rcases Option.eq_none_or_eq_some (m.document now) with hdoc | ⟨v, hdoc⟩
    · have hsave : m.save now file .complete = (some .unreadable, false) := by
        unfold save
        dsimp only
        rw [hdoc]
      have hleft : SaveIntact m now file .complete ↔
          ∀ m' : LooseMemory T, m'.load (some .unreadable) = m'.load file := by
        unfold SaveIntact
        rw [hsave]
        exact ⟨fun h => h rfl, fun h _ => h⟩
      rw [hleft, unreadable_iff]
      simp [Unharmed, hdoc]
    · have hsave : m.save now file .complete = (some (.document v), true) := by
        unfold save
        dsimp only
        rw [hdoc]
      refine iff_of_true ?_ (Or.inr (Or.inl ⟨rfl, ?_⟩))
      · intro hfalse
        rw [hsave] at hfalse
        cases hfalse
      · rw [hdoc]
        rfl

/-! ### Memories of the faithful model -/

/-- A turn whose fields have the kinds that the code gives them. -/
def loosenTurn (turn : Turn T) : LooseTurn T :=
  ⟨.str turn.role, .str turn.content, .float turn.timestamp, .json (.obj turn.metadata)⟩

/-- A memory of such turns. -/
def loosen (m : ConversationMemory T) : LooseMemory T where
  turns :=
    { maxlen := m.turns.maxlen
      items := m.turns.items.map loosenTurn
      bounded := (List.length_map loosenTurn).trans_le m.turns.bounded }
  session_start := .float m.session_start

omit [Clock T] in
theorem mapM_to_dict (l : List (Turn T)) :
    (l.map loosenTurn).mapM LooseTurn.to_dict = some (l.map Turn.to_dict) := by
  induction l with
  | nil => rfl
  | cons turn l ih =>
    rw [List.map_cons, List.mapM_cons, ih]
    rfl

theorem mapM_of_dict (l : List (Turn T)) :
    (l.map Turn.to_dict).mapM LooseTurn.of_dict = some (l.map loosenTurn) := by
  induction l with
  | nil => rfl
  | cons turn l ih =>
    rw [List.map_cons, List.mapM_cons, ih]
    rfl

omit [Clock T] in
/-- Such a memory is saved as `ConversationMemory.save` saves it. -/
theorem loosen_document (m : ConversationMemory T) (now : T) :
    (loosen m).document now = some (m.document now) := by
  unfold document ConversationMemory.document ConversationMemory.to_list
  rw [ConversationMemory.lastItems_map]
  show ((Deque.lastItems (m.turns.items.map loosenTurn) _).mapM LooseTurn.to_dict).map _ = _
  rw [ConversationMemory.lastItems_map, mapM_to_dict]
  rfl

/-- The ring of the faithful model after the entries of turns. -/
def refilled (m : ConversationMemory T) (l : List (Turn T)) : Deque (Turn T) :=
  (Deque.lastItems l m.turns.maxlen).foldl Deque.append m.turns.clear

/-- Entries of turns are all read, and the ring keeps what the ring of the faithful model does. -/
theorem restore_of_slice {m : ConversationMemory T} {data : Json.Fields T} {l : List (Turn T)}
    {start : T}
    (hslice : slice (rawTurns data) m.turns.maxlen =
      some ((Deque.lastItems l m.turns.maxlen).map Turn.to_dict))
    (hstart : data.lookup "session_start" = some (.float start)) :
    (loosen m).restore (.obj data) =
      (loosen ⟨refilled m l, start⟩, (refilled m l).items.length) := by
  have hmaxlen : (loosen m).turns.maxlen = m.turns.maxlen := rfl
  have hread := mapM_of_dict (Deque.lastItems l m.turns.maxlen)
  have hnewest : (newest data (loosen m).turns.maxlen).isSome = true := by
    rw [hmaxlen, newest, hslice, Option.bind_some, hread]
    rfl
  have hitems : ((loosen m).kept data).items = (refilled m l).items.map loosenTurn := by
    have hring := Deque.lastItems_items (loosen m).turns (l.map loosenTurn)
    rw [hmaxlen] at hring
    rw [kept, hmaxlen, hslice, Option.getD_some, leading_of_mapM hread,
      ← ConversationMemory.lastItems_map, hring, refilled, Deque.lastItems_items, Deque.map_rtake]
  have hkept : (loosen m).kept data = (loosen ⟨refilled m l, start⟩).turns := by
    refine deque_eq ?_ hitems
    rw [kept_maxlen]
    show m.turns.maxlen = (refilled m l).maxlen
    rw [refilled, Deque.foldl_append_maxlen]
    rfl
  rw [restore_obj, if_pos hnewest, hitems, List.length_map, hkept, hstart]
  rfl

/-- Such a file is loaded as `ConversationMemory.load` loads it. -/
theorem loosen_restore (m m' : ConversationMemory T) (now : T) :
    (loosen m').restore (m.document now) =
      (loosen (m'.restore (m.document now)).1, (m'.restore (m.document now)).2) := by
  have hcap : Deque.lastItems m.to_list ConversationMemory.DISK_TURN_CAP =
      (m.turns.items.rtake ConversationMemory.DISK_TURN_CAP).map Turn.to_dict := by
    unfold ConversationMemory.to_list
    rw [ConversationMemory.lastItems_map, Deque.lastItems, if_neg (by decide)]
  have hcount : (refilled m' (m.turns.items.rtake ConversationMemory.DISK_TURN_CAP)).items.length =
      (m.turns.items.rtake (min ConversationMemory.DISK_TURN_CAP m'.turns.maxlen)).length := by
    rw [refilled, Deque.lastItems_items, Deque.rtake_rtake]
  rw [ConversationMemory.restore_document, ← hcount]
  refine restore_of_slice ?_ rfl
  rw [← ConversationMemory.lastItems_map, ← hcap]
  rfl

/-! ### Both operations -/

/-- **Failed loads and saves**: a load restores the file or changes nothing exactly if the entries
    of the file can be read, or those before the first that cannot are the turns that are held
    already; and the file of a save that fails loads as before exactly if it was not opened, or
    was none that can be loaded. -/
theorem persists_iff (m : LooseMemory T) (now : T) (file : Option (Content T)) (attempt : Attempt) :
    (LoadIntact m file ↔ Readable m file) ∧
      (SaveIntact m now file attempt ↔ Unharmed m now file attempt) :=
  ⟨load_intact_iff m file, save_intact_iff m now file attempt⟩

/-- A memory as `ConversationMemory()` makes it. -/
def fresh : LooseMemory ℚ := ⟨.empty 20, .float 0⟩

/-- A file with one turn and a number. -/
def damaged : Content ℚ :=
  .document (.obj [("turns", .arr [.obj [("role", .str "user"), ("content", .str "a")], .int 5])])

/-- A memory with a turn that cannot be written. -/
def untidy : LooseMemory ℚ :=
  { fresh with turns := fresh.turns.append ⟨.str "user", .str "a", .float 1, .unserialisable⟩ }

/-- The file that an empty memory saves. -/
def saved : Content ℚ :=
  .document (.obj [("version", .int 1), ("saved_at", .float 0), ("session_start", .float 0),
    ("turns", .arr [])])

/-- The load of a damaged file reports 0 turns and leaves one, and a save that fails leaves a file
    that is not loaded. -/
theorem partly_loaded :
    ¬ LoadIntact fresh (some damaged) ∧ ¬ SaveIntact untidy 2 (some saved) .complete := by
  constructor
  · rintro (⟨data, heq, hrestored⟩ | hsame)
    · have hcount := hrestored.count
      have hzero : (fresh.load (some damaged)).2 = 0 := rfl
      have hone : (fresh.load (some damaged)).1.turns.items.length = 1 := rfl
      rw [hzero, hone] at hcount
      cases hcount
    · have hone : (fresh.load (some damaged)).1.turns.items.length = 1 := rfl
      rw [hsame] at hone
      cases hone
  · intro h
    -- the saved file has another session start than this memory
    have hsame := h rfl ⟨.empty 20, .float 1⟩
    have hstart := congrArg (fun r : LooseMemory ℚ × Nat => r.1.session_start) hsame
    have hnumbers : (1 : ℚ) = 0 := Json.float.inj hstart
    norm_num at hnumbers

end LooseMemory
