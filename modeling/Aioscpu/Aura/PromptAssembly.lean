import Aioscpu.Aura.QueryResilience

/-! # Assembly of the Prompt

  A query records its prompt before it builds the text for the model. The history in that text
  is the window of the conversation that ends with the prompt, and the prompt stands once more
  at the end.
-/

namespace Aura

variable {T : Type}

/-! ### The parts of the text -/

/-- The line of a turn. -/
def line (uni : Unicode) (turn : Turn T) : String :=
  ConversationMemory.label uni.capitalize turn.role ++ ": " ++ turn.content

/-- The history section of these turns, if there are any. -/
def historySection (uni : Unicode) (turns : List (Turn T)) : List String :=
  if turns.isEmpty then []
  else ["[Conversation history]\n" ++ "\n".intercalate (turns.map (line uni))]

/-- The text with these turns for its history. -/
def assemble (uni : Unicode) (personality : Personality) (ctx : Context) (turns : List (Turn T))
    (user_prompt : String) : String :=
  "\n\n".intercalate ([build_system_prompt personality ctx] ++ historySection uni turns ++
    (if ctx.recent_logs = "" then [] else ["[Recent log activity]\n" ++ ctx.recent_logs]) ++
    ["User: " ++ user_prompt ++ "\nAURA:"])

/-- The turn that a query records. -/
def current (prompt : String) (call : Call T) : Turn T := ⟨"user", prompt, call.asked, []⟩

/-- The text that a query hands to the model. -/
def full_prompt (uni : Unicode) (personality : Personality) (memory : ConversationMemory T)
    (prompt : String) (call : Call T) : String :=
  build_prompt uni personality (memory.add_user prompt call.asked) call.prompt_ctx prompt

/-- What a query does with what the model gives back. -/
def answer (uni : Unicode) (personality : Personality) (memory : ConversationMemory T)
    (prompt : String) (call : Call T) : Option String → ConversationMemory T × Option String
  | some raw =>
    let response := format_response uni personality raw prompt call.ctx
    (memory.add_aura response call.answered, some response)
  | none => (memory, none)

/-- The model is asked with the full prompt. -/
theorem query_full_prompt (uni : Unicode) (personality : Personality)
    (manager : Option ModelManager.State) (memory : ConversationMemory T) (prompt : String)
    (call : Call T) :
    query uni personality manager memory prompt call =
      answer uni personality (memory.add_user prompt call.asked) prompt call
        (match asked_engine manager with
        | some engine =>
          engine.infer uni.repr (full_prompt uni personality memory prompt call)
            (summary call.ctx prompt) call.reply
        | none => some "") := by
  unfold query answer full_prompt
  cases asked_engine manager with
  | none => rfl
  | some engine => rfl

/-! ### The window -/

theorem line_ne_empty (uni : Unicode) (turn : Turn T) : line uni turn ≠ "" := by
  intro h
  have hlength := congrArg String.length h
  unfold line at hlength
  rw [String.length_append, String.length_append] at hlength
  have hcolon : ": ".length = 2 := rfl
  have hzero : "".length = 0 := rfl
  omega

/-- A transcript is empty if and only if no turn is in it. -/
theorem transcript_empty_iff (uni : Unicode) (turns : List (Turn T)) :
    "\n".intercalate (turns.map (line uni)) = "" ↔ turns.isEmpty = true := by
  cases turns with
  | nil => simp
  | cons turn turns =>
    refine iff_of_false (fun h => ?_) (by simp)
    rw [List.map_cons] at h
    cases turns with
    | nil =>
      rw [List.map_nil, String.intercalate_singleton] at h
      exact line_ne_empty uni turn h
    | cons turn' turns =>
      rw [List.map_cons, String.intercalate_cons_cons] at h
      have hlength := congrArg String.length h
      rw [String.length_append, String.length_append] at hlength
      have hbreak : "\n".length = 1 := rfl
      have hzero : "".length = 0 := rfl
      omega

/-- The text is assembled from the last turns of the memory. -/
theorem build_prompt_eq (uni : Unicode) (personality : Personality) (memory : ConversationMemory T)
    (ctx : Context) (user_prompt : String) :
    build_prompt uni personality memory ctx user_prompt =
      assemble uni personality ctx (memory.turns.items.rtake MAX_HISTORY_TURNS) user_prompt := by
  have hwindow : memory.get_turns MAX_HISTORY_TURNS =
      memory.turns.items.rtake MAX_HISTORY_TURNS := by
    unfold ConversationMemory.get_turns Deque.lastItems
    rw [if_neg (by decide)]
  have hformat : memory.format_for_prompt uni.capitalize MAX_HISTORY_TURNS =
      "\n".intercalate ((memory.turns.items.rtake MAX_HISTORY_TURNS).map (line uni)) := by
    unfold ConversationMemory.format_for_prompt
    rw [hwindow]
    rfl
  unfold build_prompt assemble historySection
  rw [hformat]
  dsimp only
  by_cases hempty : (memory.turns.items.rtake MAX_HISTORY_TURNS).isEmpty = true
  · rw [if_pos hempty, if_pos ((transcript_empty_iff uni _).mpr hempty)]
  · rw [if_neg hempty, if_neg fun h => hempty ((transcript_empty_iff uni _).mp h)]

/-- The last items of a list that ends with `a`. -/
theorem rtake_concat {α : Type} (l : List α) (a : α) (n : Nat) :
    (l ++ [a]).rtake n = if n = 0 then [] else l.rtake (n - 1) ++ [a] := by
  split
  · next h => rw [h, List.rtake_zero]
  · next h =>
    obtain ⟨m, rfl⟩ := Nat.exists_eq_succ_of_ne_zero h
    rw [List.rtake_concat_succ, Nat.succ_sub_one]

/-- The history that a query shows: its own turn, and what came before as far as the window and
    the memory reach. -/
def history (memory : ConversationMemory T) (prompt : String) (call : Call T) : List (Turn T) :=
  if memory.turns.maxlen = 0 then []
  else memory.turns.items.rtake (min 7 (memory.turns.maxlen - 1)) ++ [current prompt call]

theorem window_add_user (memory : ConversationMemory T) (prompt : String) (call : Call T) :
    (memory.add_user prompt call.asked).turns.items.rtake MAX_HISTORY_TURNS =
      history memory prompt call := by
  show ((memory.turns.items ++ [current prompt call]).rtake memory.turns.maxlen).rtake 8 = _
  rw [Deque.rtake_rtake, rtake_concat]
  unfold history
  by_cases hzero : memory.turns.maxlen = 0
  · have hmin : min memory.turns.maxlen 8 = 0 := by omega
    rw [if_pos hmin, if_pos hzero]
  · have hmin : ¬ min memory.turns.maxlen 8 = 0 := by omega
    have hpred : min memory.turns.maxlen 8 - 1 = min 7 (memory.turns.maxlen - 1) := by omega
    rw [if_neg hmin, if_neg hzero, hpred]

/-- **Assembly of the prompt**: a query hands the model a text whose history is the turn of the
    query after the last seven turns before it, and that ends with the prompt once more. -/
theorem prompt_assembly (uni : Unicode) (personality : Personality)
    (manager : Option ModelManager.State) (memory : ConversationMemory T) (prompt : String)
    (call : Call T) :
    query uni personality manager memory prompt call =
        answer uni personality (memory.add_user prompt call.asked) prompt call
          (match asked_engine manager with
          | some engine =>
            engine.infer uni.repr (full_prompt uni personality memory prompt call)
              (summary call.ctx prompt) call.reply
          | none => some "") ∧
      full_prompt uni personality memory prompt call =
        assemble uni personality call.prompt_ctx
          (if memory.turns.maxlen = 0 then []
          else memory.turns.items.rtake (min 7 (memory.turns.maxlen - 1)) ++ [current prompt call])
          prompt := by
  refine ⟨query_full_prompt uni personality manager memory prompt call, ?_⟩
  unfold full_prompt
  rw [build_prompt_eq, window_add_user]
  rfl

/-- A first question. -/
def firstCall : Call Nat := ⟨atRest, atRest, some "because", 0, 1⟩

/-- The first question already has a history: itself. -/
theorem prompt_in_history :
    full_prompt plain ⟨"universal", "linux"⟩ (.new 20 0) "why?" firstCall ≠
      assemble plain ⟨"universal", "linux"⟩ firstCall.prompt_ctx
        ((ConversationMemory.new 20 0).turns.items.rtake 8) "why?" := by
  unfold full_prompt
  rw [build_prompt_eq, window_add_user]
  have hhistory : history (.new 20 0) "why?" firstCall = [current "why?" firstCall] := rfl
  have hbefore : (ConversationMemory.new (T := Nat) 20 0).turns.items.rtake 8 = [] := rfl
  have hlogs : firstCall.prompt_ctx.recent_logs = "" := rfl
  have hbreak : "\n\n".length = 2 := rfl
  intro h
  have hlength := congrArg String.length h
  rw [hhistory, hbefore] at hlength
  simp only [assemble, historySection, hlogs, List.isEmpty_cons, List.isEmpty_nil, if_true,
    Bool.false_eq_true, if_false, List.append_nil, List.cons_append, List.nil_append,
    String.intercalate_cons_cons, String.intercalate_singleton, String.length_append, hbreak]
    at hlength
  omega

end Aura
