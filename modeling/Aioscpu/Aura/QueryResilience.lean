import Aioscpu.Aura.Aura

/-! # Query Resilience

  Queries, from the shell and from elsewhere, with the engine that is active at
  the time. The user's turn is recorded before the engine is asked and the
  response after it, and what the engine raises leaves `query` and ends
  `Shell.run`.

  Main result (`resilient_iff_calm`): all is well throughout a run if and only
  if no engine raises.
-/

namespace Aura

variable {T : Type}

/-! ### The shell -/

/-- Where `Shell.run` is. -/
inductive Loop
  | waiting
  | stopped
  /-- An exception has ended it, of a query or of a built-in command. -/
  | raised (by_query : Bool)
deriving DecidableEq

def HISTORY_LIMIT : Nat := 200

structure State (T : Type) where
  memory : ConversationMemory T
  personality : Personality
  manager : Option ModelManager.State
  loop : Loop
  history : List String

/-- The built-in commands of the shell. -/
def BUILTINS : List String :=
  ["help", "status", "services", "sysinfo", "version", "uname", "device", "model", "build",
    "rebuild", "repair", "test", "logs", "ls", "cat", "pwd", "mkdir", "rm", "write", "echo", "ps",
    "clear", "history", "date", "uptime", "whoami", "ping", "net", "pkg", "web", "exit", "quit"]

/-- How the handler of a built-in command ends. -/
inductive Handler
  | returns
  /-- It has called `stop`. -/
  | stops
  | raises

/-- What happens. The commands of the plugins are the same in a run. -/
inductive Label (T : Type)
  /-- A caller other than the shell asks. -/
  | query (prompt : String) (call : Call T)
  /-- `Shell.run` reads a line. -/
  | line (text : String) (handler : Handler) (call : Call T)
  /-- The input has ended. -/
  | eof
  /-- Something is done with the model manager. -/
  | models (l : ModelManager.Label)
  /-- `set_context`, of the personality. -/
  | set_context (personality : Personality)

/-- A query has returned, or raised. -/
inductive Obs
  | answered (prompt response : String)
  | raised (prompt : String)

/-- `query`, as a step. -/
def ask (uni : Unicode) (s : State T) (prompt : String) (call : Call T) : State T × Option String :=
  let (memory, response) := query uni s.personality s.manager s.memory prompt call
  ({ s with memory }, response)

def observed (prompt : String) : Option String → List Obs
  | some response => [.answered prompt response]
  | none => [.raised prompt]

/-- The lines that have been read, the last so many. -/
def remember (history : List String) (line : String) : List String :=
  if history.length + 1 > HISTORY_LIMIT then (history ++ [line]).drop 1 else history ++ [line]

/-- `dispatch` sends the line to a built-in command. -/
def is_builtin (uni : Unicode) (plugins : List String) (line : String) : Bool :=
  match PyStr.words line with
  | [] => false
  | command :: _ => decide (uni.lower command ∈ BUILTINS ++ plugins)

/-- The rest of the loop of `Shell.run`, and the observations of `dispatch`. -/
def run_line (uni : Unicode) (plugins : List String) (s : State T) (line : String)
    (handler : Handler) (call : Call T) : State T × List Obs :=
  if line = "" then (s, [])
  else
    let s := { s with history := remember s.history line }
    if PyStr.words line = [] then (s, [])
    else if is_builtin uni plugins line then
      match handler with
      | .returns => (s, [])
      | .stops => ({ s with loop := .stopped }, [])
      | .raises => ({ s with loop := .raised false }, [])
    else
      let (s, response) := ask uni s line call
      (if response = none then { s with loop := .raised true } else s, observed line response)

def step (uni : Unicode) (plugins : List String) (s : State T) :
    Label T → Option (State T × List Obs)
  | .query prompt call =>
    let (s, response) := ask uni s prompt call
    some (s, observed prompt response)
  | .line text handler call =>
    if s.loop = .waiting then some (run_line uni plugins s (PyStr.strip text) handler call)
    else none
  | .eof => if s.loop = .waiting then some ({ s with loop := .stopped }, []) else none
  | .models l => some ({ s with manager := s.manager.map fun m => (ModelManager.step m l).1 }, [])
  | .set_context personality => some ({ s with personality }, [])

/-- The session over time. -/
def session (uni : Unicode) (plugins : List String) : Machine (State T) (Label T) Obs where
  step := step uni plugins

/-- The state when `Shell.run` begins. -/
def start (memory : ConversationMemory T) (personality : Personality)
    (manager : Option ModelManager.State) (history : List String) : State T :=
  { memory, personality, manager, loop := .waiting, history }

/-! ### Resilience -/

/-- Who says what. -/
def said (turn : Turn T) : String × String := (turn.role, turn.content)

/-- User prompt, response, user prompt, response, ... -/
def alternation (tr : List Obs) : List (String × String) :=
  tr.flatMap fun o =>
    match o with
    | .answered prompt response => [("user", prompt), ("aura", response)]
    | .raised _ => []

/-- Every query has returned, the memory holds the last turns of the conversation, and no query has
    ended the shell. -/
structure Resilient (memory : ConversationMemory T) (s : State T) (tr : List Obs) : Prop where
  returned : ∀ o ∈ tr, ∃ prompt response, o = .answered prompt response
  max_turns : s.memory.turns.maxlen = memory.turns.maxlen
  memory : s.memory.turns.items.map said =
    (memory.turns.items.map said ++ alternation tr).rtake memory.turns.maxlen
  shell : s.loop ≠ .raised true

/-- The line goes to AURA. -/
def IsQuery (uni : Unicode) (plugins : List String) (line : String) : Prop :=
  line ≠ "" ∧ PyStr.words line ≠ [] ∧ is_builtin uni plugins line = false

/-- No engine raises in the step. -/
def Calm (uni : Unicode) (plugins : List String) (s : State T) : Label T → Prop
  | .query _ call => Answers s.manager call.reply
  | .line text _ call => IsQuery uni plugins (PyStr.strip text) → Answers s.manager call.reply
  | _ => True

/-! ### Steps -/

theorem append_said {d : Deque (Turn T)} {l : List (String × String)} (turn : Turn T)
    (h : d.items.map said = l.rtake d.maxlen) :
    (d.append turn).items.map said = (l ++ [said turn]).rtake d.maxlen := by
  have hmap : (d.append turn).items.map said =
      (d.items.map said ++ [said turn]).rtake d.maxlen := by
    simp [Deque.append, List.rtake, List.map_drop]
  rw [hmap, h, Deque.rtake_rtake_append]

/-- Nothing is asked, and the shell goes on or is ended by something else. -/
theorem Resilient.of_quiet {memory : ConversationMemory T} {s s' : State T} {tr : List Obs}
    (h : Resilient memory s tr) (hmemory : s'.memory = s.memory) (hloop : s'.loop ≠ .raised true) :
    Resilient memory s' (tr ++ []) := by
  rw [List.append_nil]
  exact ⟨h.returned, by rw [hmemory, h.max_turns], by rw [hmemory, h.memory], hloop⟩

/-- A query that returns. -/
theorem Resilient.of_answer {memory : ConversationMemory T} {s s' : State T} {tr : List Obs}
    (h : Resilient memory s tr) {prompt response : String} {asked answered : T}
    (hmemory : s'.memory = (s.memory.add_user prompt asked).add_aura response answered)
    (hloop : s'.loop ≠ .raised true) :
    Resilient memory s' (tr ++ [.answered prompt response]) := by
  refine ⟨fun o ho => ?_, by rw [hmemory]; exact h.max_turns, ?_, hloop⟩
  · rcases List.mem_append.mp ho with ho | ho
    · exact h.returned o ho
    · exact ⟨prompt, response, List.mem_singleton.mp ho⟩
  · have hbefore := h.memory
    rw [← h.max_turns] at hbefore ⊢
    -- first the turn of the user, then the response
    have huser := append_said ⟨"user", prompt, asked, []⟩ hbefore
    have haura := append_said ⟨"aura", response, answered, []⟩ huser
    rw [hmemory]
    refine haura.trans ?_
    show List.rtake _ s.memory.turns.maxlen = List.rtake _ s.memory.turns.maxlen
    congr 1
    simp [alternation, said]

/-- After a query that raises not every query has returned. -/
theorem not_resilient_raised {memory : ConversationMemory T} {s : State T} {tr : List Obs}
    {prompt : String} : ¬ Resilient memory s (tr ++ [.raised prompt]) := by
  intro h
  obtain ⟨prompt', response, heq⟩ := h.returned (.raised prompt) (by simp)
  cases heq

variable {uni : Unicode} {plugins : List String}

/-- **A query**: it leaves all well if and only if no engine raises. -/
theorem ask_resilient (uni : Unicode) {memory : ConversationMemory T} {s : State T} {tr : List Obs}
    (h : Resilient memory s tr) (prompt : String) (call : Call T) :
    (Answers s.manager call.reply ∧ ∃ response, (ask uni s prompt call).2 = some response ∧
      ∀ s' : State T, s'.memory = (ask uni s prompt call).1.memory → s'.loop ≠ .raised true →
        Resilient memory s' (tr ++ [.answered prompt response])) ∨
    (¬ Answers s.manager call.reply ∧ (ask uni s prompt call).2 = none) := by
  rcases query_spec uni s.personality s.manager s.memory prompt call with
    ⟨hcalm, response, hquery⟩ | ⟨hraises, hquery⟩
  · refine Or.inl ⟨hcalm, response, ?_, fun s' hmemory hloop => ?_⟩
    · unfold ask
      rw [hquery]
    · have hturns : (ask uni s prompt call).1.memory =
          (s.memory.add_user prompt call.asked).add_aura response call.answered := by
        unfold ask
        rw [hquery]
      exact h.of_answer (hmemory.trans hturns) hloop
  · refine Or.inr ⟨hraises, ?_⟩
    unfold ask
    rw [hquery]

theorem query_step {memory : ConversationMemory T} {s : State T} {tr : List Obs}
    (h : Resilient memory s tr) (prompt : String) (call : Call T) :
    Resilient memory (ask uni s prompt call).1 (tr ++ observed prompt (ask uni s prompt call).2) ↔
      Answers s.manager call.reply := by
  have hask := ask_resilient uni h prompt call
  rcases hask with ⟨hcalm, response, hasked, hafter⟩ | hraised
  · rw [hasked]
    exact iff_of_true (hafter _ rfl h.shell) hcalm
  · rw [hraised.2]
    exact iff_of_false not_resilient_raised hraised.1

theorem line_step {memory : ConversationMemory T} {s : State T} {tr : List Obs}
    (h : Resilient memory s tr) (line : String) (handler : Handler) (call : Call T) :
    Resilient memory (run_line uni plugins s line handler call).1
        (tr ++ (run_line uni plugins s line handler call).2) ↔
      (IsQuery uni plugins line → Answers s.manager call.reply) := by
  unfold run_line
  by_cases hempty : line = ""
  · rw [if_pos hempty]
    exact iff_of_true (h.of_quiet rfl h.shell) fun hquery => absurd hempty hquery.1
  rw [if_neg hempty]
  dsimp only
  by_cases hwords : PyStr.words line = []
  · rw [if_pos hwords]
    exact iff_of_true (h.of_quiet rfl h.shell) fun hquery => absurd hwords hquery.2.1
  rw [if_neg hwords]
  by_cases hbuiltin : is_builtin uni plugins line = true
  · rw [if_pos hbuiltin]
    refine iff_of_true ?_ fun hquery => ?_
    · cases handler with
      | returns => exact h.of_quiet rfl h.shell
      | stops => exact h.of_quiet rfl (by simp)
      | raises => exact h.of_quiet rfl (by simp)
    · rw [hquery.2.2] at hbuiltin
      cases hbuiltin
  · rw [if_neg hbuiltin]
    have hquery : IsQuery uni plugins line := ⟨hempty, hwords, by simpa using hbuiltin⟩
    have hremembered : Resilient memory { s with history := remember s.history line } tr :=
      ⟨h.returned, h.max_turns, h.memory, h.shell⟩
    have hask := ask_resilient uni hremembered line call
    rcases hask with ⟨hcalm, response, hasked, hafter⟩ | hraised
    · refine iff_of_true ?_ fun _ => hcalm
      rw [hasked, if_neg (Option.some_ne_none response)]
      exact hafter _ rfl h.shell
    · refine iff_of_false ?_ fun hcalm => hraised.1 (hcalm hquery)
      rw [hraised.2]
      exact not_resilient_raised

/-- **One step**: all stays well if and only if no engine raises. -/
theorem step_resilient {memory : ConversationMemory T} {s s' : State T} {tr os : List Obs}
    {l : Label T} (h : Resilient memory s tr) (hstep : step uni plugins s l = some (s', os)) :
    Calm uni plugins s l ↔ Resilient memory s' (tr ++ os) := by
  cases l with
  | query prompt call =>
    obtain ⟨rfl, rfl⟩ := Prod.mk.inj (Option.some.inj hstep)
    exact (query_step h prompt call).symm
  | line text handler call =>
    have hread : (if s.loop = .waiting then
        some (run_line uni plugins s (PyStr.strip text) handler call) else none) =
          some (s', os) := hstep
    split at hread
    · have hline : Resilient memory (run_line uni plugins s (PyStr.strip text) handler call).1
          (tr ++ (run_line uni plugins s (PyStr.strip text) handler call).2) ↔ _ :=
        line_step h (PyStr.strip text) handler call
      rw [Option.some.inj hread] at hline
      exact hline.symm
    · cases hread
  | eof =>
    have hended : (if s.loop = .waiting then some ({ s with loop := .stopped }, []) else none) =
        some (s', os) := hstep
    split at hended
    · obtain ⟨rfl, rfl⟩ := Prod.mk.inj (Option.some.inj hended)
      exact iff_of_true trivial (h.of_quiet rfl (by simp))
    · exact absurd hended.symm (Option.some_ne_none _)
  | models l =>
    obtain ⟨rfl, rfl⟩ := Prod.mk.inj (Option.some.inj hstep)
    exact iff_of_true trivial (h.of_quiet rfl h.shell)
  | set_context personality =>
    obtain ⟨rfl, rfl⟩ := Prod.mk.inj (Option.some.inj hstep)
    exact iff_of_true trivial (h.of_quiet rfl h.shell)

/-! ### Runs -/

theorem start_resilient (memory : ConversationMemory T) (personality : Personality)
    (manager : Option ModelManager.State) (history : List String) :
    Resilient memory (start memory personality manager history) [] := by
  refine ⟨fun _ h => absurd h List.not_mem_nil, rfl, ?_, by simp [start]⟩
  show memory.turns.items.map said = (memory.turns.items.map said ++ []).rtake memory.turns.maxlen
  have hbounded := memory.turns.bounded
  rw [List.append_nil, List.rtake, List.length_map,
    Nat.sub_eq_zero_of_le hbounded, List.drop_zero]

/-- **Query resilience**: throughout a run every query returns, the memory holds the last turns of
    the conversation and no query ends the shell, if and only if no engine that is asked raises. -/
theorem resilient_iff_calm {memory : ConversationMemory T} {personality : Personality}
    {manager : Option ModelManager.State} {history : List String} {ls : List (Label T)}
    {s : State T} {tr : List Obs}
    (hrun : (session uni plugins).run (start memory personality manager history) ls =
      some (s, tr)) :
    (session uni plugins).Along (Calm uni plugins) (start memory personality manager history) ls ↔
      ∀ pre t tr', pre <+: ls →
        (session uni plugins).run (start memory personality manager history) pre = some (t, tr') →
          Resilient memory t tr' :=
  (session uni plugins).along_iff_throughout (start_resilient memory personality manager history)
    (fun _ _ _ _ _ _ _ _ h hstep => step_resilient h hstep) hrun

/-! ### A session -/

def plain : Unicode := ⟨id, id, id⟩

/-- The system at rest. -/
def atRest : Context :=
  { timestamp := "0", mode := "universal", tick := 0, uptime := "0", service_count := 0,
    network_status := "unknown", active_model := none, recent_logs := "" }

/-- A question in the shell, and what the server answers. -/
def asks (reply : Option String) : Label Nat :=
  .line "why?" .returns ⟨atRest, atRest, reply, 0, 1⟩

/-- The shell begins with an empty memory, and the Ollama backend is active. -/
def withOllama : State Nat :=
  start (.new 20 0) ⟨"universal", "linux"⟩
    (some (ModelManager.load_ollama (ModelManager.new "m" 512 .missing fun _ => none) "phi3" none
      true).1) []

theorem resilient_iff_calm_answered :
    ∃ s tr, (session plain []).run withOllama [asks (some "because")] = some (s, tr) ∧
      ((session plain []).Along (Calm plain []) withOllama [asks (some "because")] ↔
        ∀ pre t tr', pre <+: [asks (some "because")] →
          (session plain []).run withOllama pre = some (t, tr') →
            Resilient (.new 20 0) t tr') := by
  obtain ⟨s, tr, hrun, -⟩ := (session plain []).exists_run withOllama [asks (some "because")]
    (fun _ _ => true) (by decide +kernel)
  exact ⟨s, tr, hrun, resilient_iff_calm hrun⟩

/-- The server does not answer: the question ends the shell, and has no response in the memory. -/
theorem shell_ended_by_query :
    ∃ s tr, (session plain []).run withOllama [asks none] = some (s, tr) ∧
      s.loop = .raised true ∧ s.memory.turns.items.map said = [("user", "why?")] ∧
      ¬ Resilient (.new 20 0) s tr := by
  obtain ⟨s, tr, hrun, htest⟩ := (session plain []).exists_run withOllama [asks none]
    (fun s _ => decide (s.loop = .raised true) &&
      decide (s.memory.turns.items.map said = [("user", "why?")])) (by decide +kernel)
  rw [Bool.and_eq_true, decide_eq_true_eq, decide_eq_true_eq] at htest
  exact ⟨s, tr, hrun, htest.1, htest.2, fun h => h.shell htest.1⟩

end Aura
