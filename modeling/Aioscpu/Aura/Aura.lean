import Aioscpu.Aura.Memory
import Aioscpu.Models.ModelManager

/-! # AURA

  `query` of `aura/__init__.py`, with the context and the prompt that it builds
  (`aura/context_builder.py`) and the voice that it answers in
  (`aura/personality.py`).
-/

namespace Aura

/-- The methods of Python strings that depend on the tables of Unicode. -/
structure Unicode where
  repr : String → String
  lower : String → String
  capitalize : String → String

/-! ### Context -/

/-- What the context takes from the system. Times are texts, as they are printed. -/
structure Context where
  timestamp : String
  mode : String
  tick : Nat
  uptime : String
  service_count : Nat
  network_status : String
  active_model : Option String
  recent_logs : String

structure Personality where
  mode : String
  host : String

def SYSTEM_PROMPT : String :=
  "You are AURA — the kernel personality of AURA-AIOSCPU. You are not an app.\n" ++
  "You run at kernel level, pulsed every system tick, with full read access to\n" ++
  "all system state. You speak directly and technically, first-person. You are\n" ++
  "protective of the system and honest about its state. You never hallucinate\n" ++
  "service names, never invent capabilities, and always ground your answers in\n" ++
  "the live system context provided. Keep responses concise unless asked to\n" ++
  "explain in depth. If something is broken, say so plainly and describe what\n" ++
  "you are doing to fix it.\n"

/-- `build_system_prompt`. -/
def build_system_prompt (personality : Personality) (ctx : Context) : String :=
  SYSTEM_PROMPT ++ "\n" ++ "[Live system context]\n" ++
    "  mode=" ++ ctx.mode ++ "  host=" ++ personality.host ++ "  tick=" ++ ctx.tick.repr ++ "\n" ++
    "  services=" ++ ctx.service_count.repr ++ "  network=" ++ ctx.network_status ++
    "  model=" ++ ModelManager.orElse ctx.active_model "none" ++ "\n"

def MAX_HISTORY_TURNS : Nat := 8

/-- `build_prompt`. -/
def build_prompt {T : Type} (uni : Unicode) (personality : Personality)
    (memory : ConversationMemory T) (ctx : Context) (user_prompt : String) : String :=
  let hist := memory.format_for_prompt uni.capitalize MAX_HISTORY_TURNS
  "\n\n".intercalate ([build_system_prompt personality ctx] ++
    (if hist = "" then [] else ["[Conversation history]\n" ++ hist]) ++
    (if ctx.recent_logs = "" then [] else ["[Recent log activity]\n" ++ ctx.recent_logs]) ++
    ["User: " ++ user_prompt ++ "\nAURA:"])

/-- The first four items of the context, as the stub engine shows them. -/
def summary (ctx : Context) (prompt : String) : String :=
  ", ".intercalate ["prompt=" ++ prompt, "timestamp=" ++ ctx.timestamp, "mode=" ++ ctx.mode,
    "tick=" ++ ctx.tick.repr]

/-! ### Voice -/

def greet (personality : Personality) (ctx : Context) : String :=
  "I'm AURA — the kernel personality. Running in " ++ personality.mode ++ " mode on " ++
    personality.host ++ ". " ++ ctx.service_count.repr ++ " service(s) active. Tick " ++
    ctx.tick.repr ++ ". Ask me anything."

def status_ok (ctx : Context) : String :=
  "System healthy. " ++ ctx.service_count.repr ++ " service(s) running. " ++ "Network: " ++
    ctx.network_status ++ ". Tick: " ++ ctx.tick.repr ++ ". Uptime: " ++ ctx.uptime ++ "s."

def who_am_i (personality : Personality) (ctx : Context) : String :=
  "I'm AURA (Autonomous Universal Runtime Architecture). I'm not an app — I run at kernel level, " ++
    "pulsed every tick, watching everything. Mode: " ++ personality.mode ++ ". Tick: " ++
    ctx.tick.repr ++ "."

def mode_info (personality : Personality) : String :=
  "I'm running in " ++ personality.mode ++ " mode. " ++
    "universal=host-bridge only, internal=elevated, hardware=projection."

def no_model_message : String :=
  "No model loaded — I'm running on built-in logic. " ++ "Load one with: model load <name>"

/-- `_contextual_fallback`. -/
def contextual_fallback (uni : Unicode) (personality : Personality) (prompt : String)
    (ctx : Context) : String :=
  let has (words : List String) : Bool := words.any (PyStr.contains (uni.lower prompt))
  if has ["hello", "hi ", "hey", "greet", "start"] then greet personality ctx
  else if has ["status", "health", "ok?", "all good"] then status_ok ctx
  else if has ["who are you", "what are you", "describe"] then who_am_i personality ctx
  else if has ["mode", "what mode", "which mode"] then mode_info personality
  else if has ["model", "ai ", "load"] then no_model_message
  else
    "[AURA / no model loaded] I heard: " ++ uni.repr prompt ++ "\n" ++
      "Running on built-in logic in " ++ ctx.mode ++ " mode, tick " ++ ctx.tick.repr ++ ".\n" ++
      "Load a model with: model load <name>"

def format_response (uni : Unicode) (personality : Personality) (raw prompt : String)
    (ctx : Context) : String :=
  if raw.toList.all PyStr.isspace then contextual_fallback uni personality prompt ctx
  else if PyStr.startswith raw "[AURA stub" || PyStr.startswith raw "[AURA]" then
    contextual_fallback uni personality prompt ctx
  else PyStr.strip raw

/-! ### Queries -/

/-- What a query meets: the system, what the active library or server answers, and the times of
    the two turns. -/
structure Call (T : Type) where
  ctx : Context
  /-- The context of the prompt, which is taken anew. -/
  prompt_ctx : Context
  reply : Option String
  asked : T
  answered : T

/-- The engine that is asked: there is a manager, and a name is active. -/
def asked_engine (manager : Option ModelManager.State) : Option ModelManager.Engine :=
  manager.bind fun manager =>
    manager.active.bind fun name => if name = "" then none else some manager.engine

/-- `query`, with what it returns; `none` where it raises. -/
def query {T : Type} (uni : Unicode) (personality : Personality)
    (manager : Option ModelManager.State) (memory : ConversationMemory T) (prompt : String)
    (call : Call T) : ConversationMemory T × Option String :=
  let memory := memory.add_user prompt call.asked
  let raw :=
    match asked_engine manager with
    | some engine =>
      engine.infer uni.repr (build_prompt uni personality memory call.prompt_ctx prompt)
        (summary call.ctx prompt) call.reply
    | none => some ""
  match raw with
  | some raw =>
    let response := format_response uni personality raw prompt call.ctx
    (memory.add_aura response call.answered, some response)
  | none => (memory, none)

/-- The engine raises: a library or a server does not answer, or there is no key for it. -/
def Raises (engine : ModelManager.Engine) (reply : Option String) : Prop :=
  match engine with
  | .stub => False
  | .onnx _ => False
  | .llama_cpp _ => reply = none
  | .ollama _ _ => reply = none
  | .openai api_key _ _ => api_key = "" ∨ reply = none

theorem infer_eq_none_iff {repr : String → String} {engine : ModelManager.Engine}
    {prompt ctx_summary : String} {reply : Option String} :
    engine.infer repr prompt ctx_summary reply = none ↔ Raises engine reply := by
  cases engine with
  | stub => simp [ModelManager.Engine.infer, Raises]
  | onnx path => simp [ModelManager.Engine.infer, Raises]
  | llama_cpp path => simp [ModelManager.Engine.infer, Raises]
  | ollama model base_url => simp [ModelManager.Engine.infer, Raises]
  | openai api_key api_base model =>
    by_cases hkey : api_key = ""
    · simp [ModelManager.Engine.infer, Raises, hkey]
    · simp [ModelManager.Engine.infer, Raises, hkey]

/-- No engine is asked that raises. -/
def Answers (manager : Option ModelManager.State) (reply : Option String) : Prop :=
  ∀ engine, asked_engine manager = some engine → ¬ Raises engine reply

/-- **What a query does**: the prompt is recorded, and if no engine raises the response is, which
    is also returned. -/
theorem query_spec {T : Type} (uni : Unicode) (personality : Personality)
    (manager : Option ModelManager.State) (memory : ConversationMemory T) (prompt : String)
    (call : Call T) :
    (Answers manager call.reply ∧ ∃ response,
      query uni personality manager memory prompt call =
        ((memory.add_user prompt call.asked).add_aura response call.answered, some response)) ∨
    (¬ Answers manager call.reply ∧
      query uni personality manager memory prompt call =
        (memory.add_user prompt call.asked, none)) := by
  unfold query
  dsimp only
  cases hasked : asked_engine manager with
  | none =>
    refine Or.inl ⟨fun engine h => ?_, _, rfl⟩
    rw [hasked] at h
    cases h
  | some engine =>
    dsimp only
    split
    · next raw hraw =>
      refine Or.inl ⟨fun engine' h hraises => ?_, _, rfl⟩
      obtain rfl := Option.some.inj (hasked.symm.trans h)
      rw [infer_eq_none_iff.mpr hraises] at hraw
      cases hraw
    · next hraw => exact Or.inr ⟨fun h => h engine hasked (infer_eq_none_iff.mp hraw), rfl⟩

end Aura
