import Aioscpu.Framework.Deque
import Aioscpu.Framework.FileSystem
import Aioscpu.Framework.Json
import Aioscpu.Framework.PyStr

/-! # Conversation Memory

  `aura/memory.py`: the last turns of the conversation, and their file. Three
  bounds come together when a memory is saved and loaded: the ring that is
  saved, the cap of the file and the ring that is filled.

  Main result (`load_save`): what a memory holds when it has loaded the file of
  another one.
-/

/-- One turn. `T` is the type of floating-point numbers. -/
structure Turn (T : Type) where
  role : String
  content : String
  timestamp : T
  metadata : List (String × Json T)

/-- The rolling window. The bound of `turns` is `max_turns`. -/
structure ConversationMemory (T : Type) where
  turns : Deque (Turn T)
  session_start : T

variable {T β : Type}

namespace Turn

def to_dict (turn : Turn T) : Json T :=
  .obj [("role", .str turn.role), ("content", .str turn.content),
    ("timestamp", .float turn.timestamp), ("metadata", .obj turn.metadata)]

/-- `entry.get(key, default)` for a text; `none` for what `save` does not write. -/
def getStr (entry : List (String × Json T)) (key default : String) : Option String :=
  match entry.lookup key with
  | none => some default
  | some (.str text) => some text
  | some _ => none

variable [Clock T]

/-- The same for a number. -/
def getFloat (entry : List (String × Json T)) (key : String) (default : T) : Option T :=
  match entry.lookup key with
  | none => some default
  | some (.float x) => some x
  | some _ => none

/-- The same for an object. -/
def getObj (entry : List (String × Json T)) (key : String) : Option (List (String × Json T)) :=
  match entry.lookup key with
  | none => some []
  | some (.obj fields) => some fields
  | some _ => none

/-- The turn of an entry of the file. -/
def of_dict : Json T → Option (Turn T)
  | .obj entry => do
    let role ← getStr entry "role" "system"
    let content ← getStr entry "content" ""
    let timestamp ← getFloat entry "timestamp" (Clock.ofSeconds 0)
    let metadata ← getObj entry "metadata"
    return { role, content, timestamp, metadata }
  | _ => none

/-- A turn is read as it was written. -/
theorem of_to_dict (turn : Turn T) : of_dict turn.to_dict = some turn := by
  obtain ⟨role, content, timestamp, metadata⟩ := turn
  rfl

end Turn

namespace ConversationMemory

/-- `ConversationMemory(max_turns)`, at a time. -/
def new (max_turns : Nat) (now : T) : ConversationMemory T := ⟨.empty max_turns, now⟩

/-- `add`, at a time. -/
def add (m : ConversationMemory T) (role content : String) (metadata : List (String × Json T))
    (now : T) : ConversationMemory T :=
  { m with turns := m.turns.append ⟨role, content, now, metadata⟩ }

def add_user (m : ConversationMemory T) (content : String) (now : T) : ConversationMemory T :=
  m.add "user" content [] now

def add_aura (m : ConversationMemory T) (content : String) (now : T) : ConversationMemory T :=
  m.add "aura" content [] now

def turn_count (m : ConversationMemory T) : Nat := m.turns.items.length

/-- `get_turns`, for the last so many. -/
def get_turns (m : ConversationMemory T) (last_n : Nat) : List (Turn T) :=
  Deque.lastItems m.turns.items last_n

/-- `label.get(role, role.capitalize())`. -/
def label (capitalize : String → String) (role : String) : String :=
  if role = "user" then "User"
  else if role = "aura" then "AURA"
  else if role = "system" then "System"
  else capitalize role

def format_for_prompt (capitalize : String → String) (m : ConversationMemory T)
    (last_n : Nat) : String :=
  "\n".intercalate ((m.get_turns last_n).map fun t =>
    label capitalize t.role ++ ": " ++ t.content)

/-! ### Persistence -/

def DISK_TURN_CAP : Nat := 500

def to_list (m : ConversationMemory T) : List (Json T) := m.turns.items.map Turn.to_dict

/-- What `save` writes, at a time. -/
def document (m : ConversationMemory T) (now : T) : Json T :=
  .obj [("version", .int 1), ("saved_at", .float now), ("session_start", .float m.session_start),
    ("turns", .arr (Deque.lastItems m.to_list DISK_TURN_CAP))]

/-- `save`, and what it returns. `dumps` is the text that `json.dump` writes. -/
def save (dumps : Json T → β) (m : ConversationMemory T) (path : List String) (now : T)
    (fs : FileSystem β) : FileSystem β × Bool :=
  let (fs', made) := fs.makedirs Dir.top (Dir.top.walk path).names.dropLast
  if made then
    match fs'.write path (dumps (m.document now)) with
    | some (fs'', _) => (fs'', true)
    | none => (fs', false)
  else (fs', false)

variable [Clock T]

/-- The loop of `load`, and whether it gets through. -/
def fill (turns : Deque (Turn T)) : List (Json T) → Deque (Turn T) × Bool
  | [] => (turns, true)
  | entry :: entries =>
    match Turn.of_dict entry with
    | some turn => fill (turns.append turn) entries
    | none => (turns, false)

/-- `load` with what `json.load` gives. -/
def restore (m : ConversationMemory T) : Json T → ConversationMemory T × Nat
  | .obj data =>
    match (data.lookup "turns").getD (.arr []) with
    | .arr raw_turns =>
      let (turns, done) := fill m.turns.clear (Deque.lastItems raw_turns m.turns.maxlen)
      if done then
        match data.lookup "session_start" with
        | some (.float session_start) => (⟨turns, session_start⟩, turns.items.length)
        | _ => ({ m with turns }, turns.items.length)
      else ({ m with turns }, 0)
    | _ => ({ m with turns := m.turns.clear }, 0)
  | _ => (m, 0)

/-- `load`, and what it returns. -/
def load (loads : β → Option (Json T)) (m : ConversationMemory T) (path : List String)
    (fs : FileSystem β) : ConversationMemory T × Nat :=
  match (fs.read path).bind fun file => loads file.2 with
  | some data => m.restore data
  | none => (m, 0)

/-! ### Round trip -/

/-- Entries of turns fill the ring with these turns. -/
theorem fill_to_dict (turns : Deque (Turn T)) (l : List (Turn T)) :
    fill turns (l.map Turn.to_dict) = (l.foldl Deque.append turns, true) := by
  induction l generalizing turns with
  | nil => rfl
  | cons turn l ih =>
    rw [List.map_cons, fill, Turn.of_to_dict]
    exact ih (turns.append turn)

theorem lastItems_map {α γ : Type} (f : α → γ) (l : List α) (n : Nat) :
    Deque.lastItems (l.map f) n = (Deque.lastItems l n).map f := by
  unfold Deque.lastItems
  split
  · rfl
  · rw [Deque.map_rtake]

/-- **Document and restoration**: of the turns in the document the ring keeps the newest. -/
theorem restore_document (m m' : ConversationMemory T) (now : T) :
    m'.restore (m.document now) =
      (⟨(Deque.lastItems (m.turns.items.rtake DISK_TURN_CAP) m'.turns.maxlen).foldl Deque.append
          m'.turns.clear, m.session_start⟩,
        (m.turns.items.rtake (min DISK_TURN_CAP m'.turns.maxlen)).length) := by
  have hcap : Deque.lastItems m.to_list DISK_TURN_CAP =
      (m.turns.items.rtake DISK_TURN_CAP).map Turn.to_dict := by
    unfold to_list
    rw [lastItems_map, Deque.lastItems, if_neg (by decide)]
  have hfill := fill_to_dict m'.turns.clear
    (Deque.lastItems (m.turns.items.rtake DISK_TURN_CAP) m'.turns.maxlen)
  rw [← lastItems_map, ← hcap] at hfill
  have hlength := Deque.lastItems_items m'.turns (m.turns.items.rtake DISK_TURN_CAP)
  rw [Deque.rtake_rtake] at hlength
  rw [← hlength]
  unfold restore document
  have hturns : ∀ version saved_at session_start turns : Json T,
      (([("version", version), ("saved_at", saved_at), ("session_start", session_start),
        ("turns", turns)] : List (String × Json T)).lookup "turns").getD (.arr []) = turns :=
    fun _ _ _ _ => rfl
  dsimp only
  rw [hturns]
  dsimp only
  rw [hfill]
  rfl

/-- **Save and load**: the memory that loads the file holds the newest turns of the other one, as
    many as that one holds, the file takes and it has room for, and has its session start. -/
theorem load_save {dumps : Json T → β} {loads : β → Option (Json T)} {m : ConversationMemory T}
    {path : List String} {now : T} {fs fs' : FileSystem β}
    (hround : loads (dumps (m.document now)) = some (m.document now))
    (hsave : m.save dumps path now fs = (fs', true)) (m' : ConversationMemory T) :
    let n := min m.turns.items.length (min 500 m'.turns.maxlen)
    (m'.load loads path fs').1.turns.items = m.turns.items.rtake n ∧
      (m'.load loads path fs').1.turns.maxlen = m'.turns.maxlen ∧
      (m'.load loads path fs').1.session_start = m.session_start ∧
      (m'.load loads path fs').2 = n := by
  have hread : ∃ d, fs'.read path = some (d, dumps (m.document now)) := by
    unfold save at hsave
    dsimp only at hsave
    split at hsave
    · split at hsave
      · next fs'' d hwrite =>
        obtain ⟨rfl, -⟩ := Prod.mk.inj hsave
        obtain ⟨-, -, -, -, hread⟩ := FileSystem.write_spec hwrite
        exact ⟨d, hread⟩
      · cases hsave
    · cases hsave
  obtain ⟨d, hread⟩ := hread
  have hload : m'.load loads path fs' = m'.restore (m.document now) := by
    unfold load
    rw [hread, Option.bind_some, hround]
  -- a ring holds no more turns than there are
  have hmin : m.turns.items.rtake (min m.turns.items.length (min 500 m'.turns.maxlen)) =
      m.turns.items.rtake (min 500 m'.turns.maxlen) := by
    unfold List.rtake
    congr 1
    omega
  intro n
  rw [hload, restore_document, hmin]
  refine ⟨?_, Deque.foldl_append_maxlen _ _, rfl, ?_⟩
  · dsimp only
    rw [Deque.lastItems_items, Deque.rtake_rtake]
    rfl
  · dsimp only
    rw [Deque.length_rtake]
    exact Nat.min_comm ..

/-- Two turns. -/
def twoTurns : ConversationMemory ℚ := ((new 2 0).add_user "a" 1).add_aura "b" 2

/-- Two turns are saved, and a memory for one turn loads them. -/
theorem load_save_one :
    ∃ fs, twoTurns.save id ["m"] 3 .empty = (fs, true) ∧
      (load some (new 1 5) ["m"] fs).1.turns.items = twoTurns.turns.items.rtake 1 ∧
      (load some (new 1 5) ["m"] fs).2 = 1 := by
  have hsave : twoTurns.save id ["m"] 3 .empty = ((twoTurns.save id ["m"] 3 .empty).1, true) :=
    Prod.ext rfl (by decide +kernel)
  obtain ⟨hitems, -, -, hcount⟩ := load_save rfl hsave (new 1 5)
  exact ⟨_, hsave, hitems, hcount⟩

end ConversationMemory
