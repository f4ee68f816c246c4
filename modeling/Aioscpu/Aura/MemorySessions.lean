import Aioscpu.Aura.QueryResilience
import Aioscpu.Framework.Machine
import Aioscpu.Framework.OsCalls
import Aioscpu.Framework.Sessions

/-! # The Memory over Restarts

  `attach_kernel` loads the memory of the last kernel from its file, and `_on_shutdown` saves it
  when the event SHUTDOWN is delivered. A kernel that ends otherwise, or whose file cannot be
  written, leaves the file as it was.

  Main result (`memory_kept`): after any number of kernels the next one begins with the newest 20
  of all turns that were recorded before the last save of their kernel.
-/

namespace Aura

variable {T β : Type}

/-- A running kernel, as far as the memory goes. -/
structure Life (T β : Type) where
  memory : ConversationMemory T
  fs : FileSystem β

/-- What the environment of AURA is. `dumps` and `loads` are those of `json`. -/
structure Surroundings (T β : Type) where
  uni : Unicode
  dumps : Json T → β
  loads : β → Option (Json T)
  /-- `_MEMORY_PATH`. -/
  memory_path : List String

inductive LifeLabel (T β : Type) where
  /-- A call of `query`, from any thread, with the personality and the models of the moment. -/
  | query (personality : Personality) (manager : Option ModelManager.State) (prompt : String)
      (call : Call T)
  /-- `_on_shutdown` is called, at a time. -/
  | shutdown (now : T)
  /-- Others change files. -/
  | others (fs : FileSystem β)

inductive LifeObs (T : Type) where
  | recorded (turns : List (Turn T))
  /-- `save` has returned `True`. -/
  | saved

/-- The turns that `query` records. -/
def recorded (prompt : String) (call : Call T) (response : Option String) : List (Turn T) :=
  ⟨"user", prompt, call.asked, []⟩ ::
    response.toList.map fun response => ⟨"aura", response, call.answered, []⟩

def life (sur : Surroundings T β) : Machine (Life T β) (LifeLabel T β) (LifeObs T) where
  step := fun s l =>
    match l with
    | .query personality manager prompt call =>
      let (memory, response) := query sur.uni personality manager s.memory prompt call
      some ({ s with memory }, [.recorded (recorded prompt call response)])
    | .shutdown now =>
      let (fs, ok) := s.memory.save sur.dumps sur.memory_path now s.fs
      some ({ s with fs }, if ok then [.saved] else [])
    | .others fs => some ({ s with fs }, [])

def MAX_TURNS : Nat := 20

/-- `attach_kernel`, at a time. -/
def attach_kernel [Clock T] (sur : Surroundings T β) (now : T) (fs : FileSystem β) : Life T β :=
  ⟨((ConversationMemory.new MAX_TURNS now).load sur.loads sur.memory_path fs).1, fs⟩

/-! ### Turns -/

/-- All turns that are recorded. -/
def turns (tr : List (LifeObs T)) : List (Turn T) :=
  tr.flatMap fun
    | .recorded turns => turns
    | .saved => []

def LifeObs.isSaved : LifeObs T → Bool
  | .saved => true
  | .recorded _ => false

/-- The turns that are recorded before the last save. -/
def saved_turns (tr : List (LifeObs T)) : List (Turn T) := turns (tr.rdropWhile fun o => !o.isSaved)

/-- A turn whose metadata have no key twice. -/
def Tidy (turn : Turn T) : Prop := (Json.obj turn.metadata).Distinct

theorem turns_append (tr os : List (LifeObs T)) : turns (tr ++ os) = turns tr ++ turns os :=
  List.flatMap_append

theorem turns_recorded (l : List (Turn T)) : turns [.recorded l] = l :=
  List.append_nil l

theorem saved_turns_concat_saved (tr : List (LifeObs T)) :
    saved_turns (tr ++ [.saved]) = turns tr := by
  unfold saved_turns
  rw [List.rdropWhile_concat_neg _ _ _ (by simp [LifeObs.isSaved]), turns_append]
  exact List.append_nil _

theorem saved_turns_concat_recorded (tr : List (LifeObs T)) (l : List (Turn T)) :
    saved_turns (tr ++ [.recorded l]) = saved_turns tr := by
  unfold saved_turns
  rw [List.rdropWhile_concat_pos _ _ _ (by simp [LifeObs.isSaved])]

theorem saved_turns_subset (tr : List (LifeObs T)) : saved_turns tr ⊆ turns tr := by
  intro turn hturn
  have hleft := List.rdropWhile_prefix (fun o : LifeObs T => !o.isSaved) (l := tr)
  obtain ⟨o, ho, hmem⟩ := List.mem_flatMap.mp hturn
  exact List.mem_flatMap.mpr ⟨o, hleft.subset ho, hmem⟩

theorem tidy_recorded (prompt : String) (call : Call T) (response : Option String) :
    ∀ turn ∈ recorded prompt call response, Tidy turn := by
  intro turn hturn
  have hempty : turn.metadata = [] := by
    rcases List.mem_cons.mp hturn with rfl | hturn
    · rfl
    · obtain ⟨response, -, rfl⟩ := List.mem_map.mp hturn
      rfl
  unfold Tidy
  rw [hempty]
  simp

/-- What a query makes of the ring. -/
theorem query_items (uni : Unicode) (personality : Personality)
    (manager : Option ModelManager.State) {memory : ConversationMemory T} {l : List (Turn T)}
    (h : memory.turns.items = l.rtake memory.turns.maxlen) (prompt : String) (call : Call T) :
    let r := query uni personality manager memory prompt call
    r.1.turns.items = (l ++ recorded prompt call r.2).rtake memory.turns.maxlen ∧
      r.1.turns.maxlen = memory.turns.maxlen := by
  have huser := Deque.append_items h (⟨"user", prompt, call.asked, []⟩ : Turn T)
  -- the prompt is recorded in any case, the response if the models have not raised
  rcases query_spec uni personality manager memory prompt call with
    ⟨-, response, hquery⟩ | ⟨-, hquery⟩
  · rw [hquery]
    refine ⟨?_, rfl⟩
    have haura := Deque.append_items huser (⟨"aura", response, call.answered, []⟩ : Turn T)
    rw [List.append_assoc] at haura
    exact haura
  · rw [hquery]
    exact ⟨huser, rfl⟩

/-! ### The file -/

variable {sur : Surroundings T β}

/-- What the file of the memory holds. -/
def Surroundings.content (sur : Surroundings T β) (fs : FileSystem β) : Option β :=
  (fs.read sur.memory_path).map Prod.snd

/-- What `json` promises: a value whose objects have no key twice is read as it was written. -/
def Surroundings.RoundTrips (sur : Surroundings T β) : Prop :=
  ∀ doc : Json T, doc.Distinct → sur.loads (sur.dumps doc) = some doc

theorem Tidy.to_dict {turn : Turn T} (h : Tidy turn) : turn.to_dict.Distinct := by
  unfold Tidy at h
  unfold Turn.to_dict
  simp only [Json.Distinct, Json.DistinctFields, Json.DistinctField] at h ⊢
  exact ⟨by simp, trivial, trivial, trivial, h, trivial⟩

theorem distinct_document {m : ConversationMemory T} (htidy : ∀ turn ∈ m.turns.items, Tidy turn)
    (now : T) : (m.document now).Distinct := by
  unfold ConversationMemory.document
  simp only [Json.Distinct, Json.DistinctFields, Json.DistinctField, Json.distinctItems_iff]
  refine ⟨by simp, trivial, trivial, trivial, ?_, trivial⟩
  intro v hv
  rw [Deque.lastItems, if_neg (by decide)] at hv
  obtain ⟨turn, hturn, rfl⟩ := List.mem_map.mp (Deque.mem_of_mem_rtake hv)
  exact (htidy turn hturn).to_dict

/-- What a save does to the file: the document is there if it has succeeded, and else nothing has
    changed. -/
theorem save_content (hname : ∀ c ∈ sur.memory_path, IsName c) (m : ConversationMemory T) (now : T)
    (fs : FileSystem β) :
    sur.content (m.save sur.dumps sur.memory_path now fs).1 =
      if (m.save sur.dumps sur.memory_path now fs).2 then some (sur.dumps (m.document now))
      else sur.content fs := by
  have hmade : ∀ dir path,
      (fs.makedirs dir path).1.read sur.memory_path = fs.read sur.memory_path :=
    fun dir path => FileSystem.read_congr hname (FileSystem.makedirs_file fs dir path _)
  unfold ConversationMemory.save Surroundings.content
  dsimp only
  split
  · split
    -- only this branch returns `True`
    · next fs' d hwrite =>
      obtain ⟨-, -, -, -, hread⟩ := FileSystem.write_spec hwrite
      rw [if_pos rfl, hread]
      rfl
    · exact congrArg (Option.map Prod.snd) (hmade _ _)
  · exact congrArg (Option.map Prod.snd) (hmade _ _)

variable [Clock T]

/-- The turns that are loaded where the file holds this. -/
def restored (sur : Surroundings T β) (content : Option β) : List (Turn T) :=
  match content.bind sur.loads with
  | some data =>
    ((ConversationMemory.new MAX_TURNS (Clock.ofSeconds 0)).restore data).1.turns.items
  | none => []

theorem restore_maxlen (m : ConversationMemory T) (data : Json T) :
    (m.restore data).1.turns.maxlen = m.turns.maxlen := by
  have hfill : ∀ (d : Deque (Turn T)) entries,
      (ConversationMemory.fill d entries).1.maxlen = d.maxlen := by
    intro d entries
    induction entries generalizing d with
    | nil => rfl
    | cons entry entries ih =>
      unfold ConversationMemory.fill
      split
      · next turn _ => exact ih (d.append turn)
      · rfl
  unfold ConversationMemory.restore
  split
  · split
    · dsimp only
      split
      · split
        · exact hfill _ _
        · exact hfill _ _
      · exact hfill _ _
    · rfl
  · rfl

/-- The turns do not depend on the time. -/
theorem restore_turns {m m' : ConversationMemory T} (h : m.turns = m'.turns) (data : Json T) :
    (m.restore data).1.turns = (m'.restore data).1.turns := by
  unfold ConversationMemory.restore
  rw [h]
  split
  · split
    · dsimp only
      split
      · split <;> rfl
      · rfl
    · rfl
  · exact h

/-- **What `attach_kernel` finds.** -/
theorem attach_kernel_turns (now : T) (fs : FileSystem β) :
    (attach_kernel sur now fs).memory.turns.items = restored sur (sur.content fs) ∧
      (attach_kernel sur now fs).memory.turns.maxlen = MAX_TURNS := by
  unfold attach_kernel ConversationMemory.load restored Surroundings.content
  cases hread : fs.read sur.memory_path with
  | none => exact ⟨rfl, rfl⟩
  | some file =>
    dsimp only [Option.map_some, Option.bind_some]
    cases hloads : sur.loads file.2 with
    | none => exact ⟨rfl, rfl⟩
    | some data =>
      refine ⟨?_, restore_maxlen _ data⟩
      exact congrArg Deque.items (restore_turns (by rfl) data)

/-- What is loaded after a save. -/
theorem restored_document (hround : sur.RoundTrips) {m : ConversationMemory T}
    (htidy : ∀ turn ∈ m.turns.items, Tidy turn) (now : T) :
    restored sur (some (sur.dumps (m.document now))) = m.turns.items.rtake MAX_TURNS := by
  unfold restored
  rw [Option.bind_some, hround _ (distinct_document htidy now)]
  dsimp only
  rw [ConversationMemory.restore_document]
  dsimp only
  rw [Deque.lastItems_items, Deque.rtake_rtake]
  rfl

theorem restored_length_le (sur : Surroundings T β) (content : Option β) :
    (restored sur content).length ≤ MAX_TURNS := by
  unfold restored
  split
  · next data _ =>
    have hbounded :=
      ((ConversationMemory.new MAX_TURNS (Clock.ofSeconds 0)).restore data).1.turns.bounded
    rw [restore_maxlen] at hbounded
    exact hbounded
  · exact Nat.zero_le _

/-! ### Runs -/

/-- Nobody else writes the file. -/
def Undisturbed (sur : Surroundings T β) (s : Life T β) : LifeLabel T β → Prop
  | .others fs => sur.content fs = sur.content s.fs
  | _ => True

/-- What holds of a kernel that began with this file: the memory has the newest turns that were
    loaded or recorded, and the file those that were loaded or saved. -/
structure Remembered (sur : Surroundings T β) (first : Option β) (tr : List (LifeObs T))
    (s : Life T β) : Prop where
  tidy : ∀ turn ∈ restored sur first ++ turns tr, Tidy turn
  maxlen : s.memory.turns.maxlen = MAX_TURNS
  memory : s.memory.turns.items = (restored sur first ++ turns tr).rtake MAX_TURNS
  file : restored sur (sur.content s.fs) =
    (restored sur first ++ saved_turns tr).rtake MAX_TURNS

theorem memory_step (hname : ∀ c ∈ sur.memory_path, IsName c) (hround : sur.RoundTrips)
    {first : Option β} {s s' : Life T β} {l : LifeLabel T β} {tr os : List (LifeObs T)}
    (h : Remembered sur first tr s) (hundisturbed : Undisturbed sur s l)
    (hstep : (life sur).step s l = some (s', os)) : Remembered sur first (tr ++ os) s' := by
  obtain ⟨htidy, hmaxlen, hmemory, hfile⟩ := h
  cases l with
  | query personality manager prompt call =>
    obtain ⟨hitems, hlen⟩ := query_items sur.uni personality manager
      (hmaxlen.symm ▸ hmemory) prompt call
    simp only [life] at hstep
    generalize query sur.uni personality manager s.memory prompt call = r at hitems hlen hstep
    obtain ⟨memory, response⟩ := r
    cases hstep
    rw [hmaxlen] at hitems hlen
    constructor
    · rw [turns_append, turns_recorded, ← List.append_assoc]
      exact fun turn hturn => (List.mem_append.mp hturn).elim (htidy turn)
        (tidy_recorded prompt call response turn)
    · exact hlen
    · rw [turns_append, turns_recorded, ← List.append_assoc]
      exact hitems
    · rw [saved_turns_concat_recorded]
      exact hfile
  | shutdown now =>
    have htidy' : ∀ turn ∈ s.memory.turns.items, Tidy turn := fun turn hturn =>
      htidy turn (Deque.mem_of_mem_rtake (hmemory ▸ hturn))
    have hcontent := save_content hname s.memory now s.fs
    cases hsave : s.memory.save sur.dumps sur.memory_path now s.fs with
    | mk fs ok =>
      simp only [life, hsave] at hstep
      cases hstep
      rw [hsave] at hcontent
      cases ok with
      | true =>
        -- the file holds what the memory held
        have hturns : turns [(.saved : LifeObs T)] = [] := rfl
        constructor
        · rw [if_pos rfl, turns_append, hturns, List.append_nil]
          exact htidy
        · exact hmaxlen
        · rw [if_pos rfl, turns_append, hturns, List.append_nil]
          exact hmemory
        · rw [if_pos rfl, saved_turns_concat_saved]
          rw [if_pos rfl] at hcontent
          rw [hcontent, restored_document hround htidy', hmemory, Deque.rtake_rtake, Nat.min_self]
      | false =>
        have hcontent : sur.content fs = sur.content s.fs := hcontent
        -- a save that fails is none
        have hnone : tr ++ (if (false : Bool) then [(.saved : LifeObs T)] else []) = tr :=
          List.append_nil tr
        rw [hnone]
        exact ⟨htidy, hmaxlen, hmemory, hcontent ▸ hfile⟩
  | others fs =>
    cases hstep
    rw [List.append_nil]
    exact ⟨htidy, hmaxlen, hmemory, hundisturbed ▸ hfile⟩

theorem memory_run (hname : ∀ c ∈ sur.memory_path, IsName c) (hround : sur.RoundTrips) {now : T}
    {fs : FileSystem β} (htidy : ∀ turn ∈ restored sur (sur.content fs), Tidy turn)
    {ls : List (LifeLabel T β)} {s : Life T β} {tr : List (LifeObs T)}
    (hundisturbed : (life sur).Along (Undisturbed sur) (attach_kernel sur now fs) ls)
    (hrun : (life sur).run (attach_kernel sur now fs) ls = some (s, tr)) :
    Remembered sur (sur.content fs) tr s := by
  refine (life sur).run_induction_along (P := fun _ s tr => Remembered sur _ tr s) ?_
    (fun _ _ _ _ _ _ _ hI hC hs => memory_step hname hround hI hC hs) hundisturbed hrun
  obtain ⟨hitems, hmaxlen⟩ : (attach_kernel sur now fs).memory.turns.items = _ ∧ _ :=
    attach_kernel_turns now fs
  have hall : (restored sur (sur.content fs)).rtake MAX_TURNS = restored sur (sur.content fs) :=
    Deque.rtake_of_length_le (restored_length_le sur _)
  have hturns : turns ([] : List (LifeObs T)) = [] := rfl
  have hsaved : saved_turns ([] : List (LifeObs T)) = [] := rfl
  constructor
  · rw [hturns, List.append_nil]
    exact htidy
  · exact hmaxlen
  · rw [hturns, List.append_nil, hall, hitems]
  · rw [hsaved, List.append_nil, hall]
    rfl

/-! ### Kernels -/

/-- The life of a kernel, as far as it has come: the file before it, the turns that are recorded
    before its last save, and the file after it. -/
def Lifetime (sur : Surroundings T β) (before : Option β) (l : List (Turn T))
    (after : Option β) : Prop :=
  ∃ (now : T) (fs : FileSystem β) (ls : List (LifeLabel T β)) (s : Life T β)
    (tr : List (LifeObs T)), (life sur).run (attach_kernel sur now fs) ls = some (s, tr) ∧
      (life sur).Along (Undisturbed sur) (attach_kernel sur now fs) ls ∧
        sur.content fs = before ∧ saved_turns tr = l ∧ sur.content s.fs = after

/-- Values are their own texts. -/
def plainSurroundings : Surroundings ℚ (Json ℚ) :=
  ⟨plain, id, some, ["rootfs", "aura", "memory.json"]⟩

end Aura
