import Aioscpu.Framework.Machine
import Aioscpu.Services.CommandChannel

/-! # Responses of the Command Center

  What `register_now` and `send_heartbeat` make of the answer to their request. An answer is
  any JSON, and both calls have counted their success before they look into it.

  The calls run one after the other. What the HTTP library does with a request is decided by
  the environment, as is whether the handler of a command raises.
-/

namespace CommandCenterResponses

variable {T : Type}

/-- What comes back from `urlopen`. -/
inductive Reply (T : Type) where
  /-- The request is not made, or it fails, or its answer cannot be read. -/
  | failed
  | empty
  /-- Text that is not JSON. -/
  | malformed
  | document (v : Json T)

/-- What `_post` returns, `none` where it raises. -/
def Reply.body : Reply T → Option (Json T)
  | .failed => none
  | .empty => some (.obj [])
  | .malformed => none
  | .document v => some v

/-- What a client is made with. -/
structure Config (T : Type) where
  identity : NodeIdentity T
  platform : Platform
  cc_url : String
  /-- Whether there is a `command_handler`. -/
  handler : Bool

/-- `_registered` and the counters. -/
structure Client (T : Type) where
  registered : Bool
  last_hb_ts : T
  hb_count : Nat
  error_count : Nat

/-- What the environment decides during a call. -/
structure Env (T : Type) where
  /-- What happens to a request, which is its URL and its data. -/
  post : String → Json.Fields T → Reply T
  /-- What `metrics_fn` returns; `none` where there is none, and where it raises. -/
  metrics : Option (Json T)
  ts : T
  /-- The time at which a heartbeat was answered. -/
  now : T
  /-- Whether the handler raises for a command, which is the `n`-th. -/
  raises : Nat → Json T → Bool

inductive Label (T : Type) where
  | register_now (env : Env T)
  | send_heartbeat (env : Env T)

inductive Obs (T : Type) where
  /-- A call of `command_handler`. -/
  | handled (cmd : Json T)
  | handler_error (cmd : Json T)

/-- What a call leaves behind. -/
structure Outcome (T : Type) where
  client : Client T
  result : Bool
  trace : List (Obs T)

def init [Clock T] : Client T := ⟨false, Clock.ofSeconds 0, 0, 0⟩

/-- The handler of exceptions of both calls. -/
def failing (client : Client T) : Outcome T :=
  ⟨{ client with error_count := client.error_count + 1 }, false, []⟩

/-! ### Registration -/

/-- What `_register` sends. -/
def registration (config : Config T) : Json.Fields T :=
  Dict.assign "capabilities" (.arr (config.identity.capabilities.keys.map .str))
    (config.identity.to_dict config.platform)

/-- The answer to a registration. -/
def registerReply (config : Config T) (env : Env T) : Reply T :=
  env.post (config.cc_url ++ "/api/nodes/register") (registration config)

/-- `len(v)` does not raise. -/
def sized : Json T → Bool
  | .str _ => true
  | .arr _ => true
  | .obj _ => true
  | _ => false

/-- What `_register` logs of the answer can be had. -/
def logs : Json T → Bool
  | .obj items => sized ((items.lookup "peers").getD (.arr []))
  | _ => false

/-- `_register`. -/
def register (config : Config T) (client : Client T) (env : Env T) : Outcome T :=
  match (registerReply config env).body with
  | none => failing client
  | some resp =>
    let client := { client with registered := true }
    if logs resp then ⟨client, true, []⟩ else failing client

/-! ### Heartbeats -/

/-- What `_heartbeat` sends. -/
def heartbeatData (env : Env T) : Json.Fields T :=
  [("ts", .float env.ts), ("status", .str "running"), ("metrics", env.metrics.getD (.obj []))]

/-- The answer to a heartbeat. -/
def heartbeatReply (config : Config T) (env : Env T) : Reply T :=
  env.post (config.cc_url ++ "/api/nodes/" ++ config.identity.node_id ++ "/heartbeat")
    (heartbeatData env)

/-- `list(v)`, `none` where `v` is not iterable. -/
def elements : Json T → Option (List (Json T))
  | .str s => some (s.toList.map fun c => .str (String.singleton c))
  | .arr items => some items
  | .obj items => some (items.map fun item => .str item.1)
  | _ => none

/-- The loop over the commands, from the `n`-th one on. -/
def run_commands (raises : Nat → Json T → Bool) : Nat → List (Json T) → List (Obs T)
  | _, [] => []
  | n, cmd :: commands =>
    .handled cmd ::
      ((if raises n cmd then [.handler_error cmd] else []) ++
        run_commands raises (n + 1) commands)

/-- `resp.get("commands", [])`. -/
def commandsOf (items : Json.Fields T) : Json T := (items.lookup "commands").getD (.arr [])

section calls

variable [Clock T] (config : Config T) (client : Client T)

/-- `_heartbeat`. -/
def heartbeat (env : Env T) : Outcome T :=
  match (heartbeatReply config env).body with
  | none => failing client
  | some resp =>
    let client := { client with last_hb_ts := env.now, hb_count := client.hb_count + 1 }
    match resp with
    | .obj items =>
      if (commandsOf items).truthy ∧ config.handler then
        match elements (commandsOf items) with
        | none => failing client
        | some commands => ⟨client, true, run_commands env.raises 0 commands⟩
      else ⟨client, true, []⟩
    | _ => failing client

/-- `register_now` and `send_heartbeat`. -/
def call (l : Label T) : Outcome T :=
  if config.cc_url = "" then ⟨client, false, []⟩
  else
    match l with
    | .register_now env => register config client env
    | .send_heartbeat env => heartbeat config client env

end calls

/-- The calls, one after the other. -/
def machine [Clock T] (config : Config T) : Machine (Client T) (Label T) (Obs T) where
  step := fun client l =>
    some ((call config client l).client, (call config client l).trace)

/-! ### What a call is to do -/

/-- The effect of a success. -/
def Effect (client client' : Client T) : Label T → Prop
  | .register_now _ => client'.registered = true
  | .send_heartbeat _ => client'.hb_count = client.hb_count + 1

/-- The effect of a failure. -/
structure Failed (client client' : Client T) : Prop where
  counted : client'.error_count = client.error_count + 1
  registered : client'.registered = client.registered
  hb_count : client'.hb_count = client.hb_count

/-- The commands that the handler was called with. -/
def handled (tr : List (Obs T)) : List (Json T) :=
  tr.filterMap fun
    | .handled cmd => some cmd
    | .handler_error _ => none

/-- The handler is called for all commands of a list. -/
def Dispatched (config : Config T) (tr : List (Obs T)) : Label T → Prop
  | .register_now _ => True
  | .send_heartbeat env =>
    ∀ items commands, (heartbeatReply config env).body = some (.obj items) →
      items.lookup "commands" = some (.arr commands) → config.handler = true →
      handled tr = commands

/-- The law of a call. -/
structure Lawful [Clock T] (config : Config T) (client : Client T) (l : Label T) : Prop where
  succeeds : (call config client l).result = true →
    Effect client (call config client l).client l ∧
      Dispatched config (call config client l).trace l
  fails : (call config client l).result = false → Failed client (call config client l).client

/-- The condition: an answer to a registration is an object whose `peers` have a length, unless
    the client is registered already, and an answer to a heartbeat is an object whose
    `commands` can be handed over. -/
def WellShaped [Clock T] (config : Config T) (client : Client T) : Label T → Prop
  | .register_now env =>
    ∀ resp, (registerReply config env).body = some resp →
      logs resp = true ∨ client.registered = true
  | .send_heartbeat env =>
    ∀ resp, (heartbeatReply config env).body = some resp →
      ∃ items, resp = .obj items ∧
        ((commandsOf items).truthy = true → config.handler = true →
          (elements (commandsOf items)).isSome = true)

/-! ### The law -/

/-- The handler is called for each command, whether it raises or not. -/
theorem handled_run_commands (raises : Nat → Json T → Bool) (n : Nat) (commands : List (Json T)) :
    handled (run_commands raises n commands) = commands := by
  induction commands generalizing n with
  | nil => rfl
  | cons cmd commands ih =>
    have hcons : handled (run_commands raises n (cmd :: commands)) =
        cmd :: handled (run_commands raises (n + 1) commands) := by
      rw [run_commands]
      cases raises n cmd <;> rfl
    rw [hcons, ih]

theorem failing_failed (client : Client T) : Failed client (failing client).client :=
  ⟨rfl, rfl, rfl⟩

section laws

variable [Clock T] {config : Config T} {client : Client T} {env : Env T}

/-- A call that fails before it has changed anything. -/
theorem lawful_of_failing {l : Label T} (h : call config client l = failing client) :
    Lawful config client l := by
  refine ⟨fun htrue => ?_, fun _ => ?_⟩
  · rw [h] at htrue
    cases htrue
  · rw [h]
    exact failing_failed client

theorem register_lawful_iff (hurl : config.cc_url ≠ "") :
    Lawful config client (.register_now env) ↔ WellShaped config client (.register_now env) := by
  have hcall : call config client (.register_now env) = register config client env := if_neg hurl
  unfold register at hcall
  cases hbody : (registerReply config env).body with
  | none =>
    rw [hbody] at hcall
    refine iff_of_true (lawful_of_failing hcall) ?_
    intro resp hresp
    rw [hbody] at hresp
    cases hresp
  | some resp =>
    rw [hbody] at hcall
    have hshape : WellShaped config client (.register_now env) ↔
        logs resp = true ∨ client.registered = true := by
      constructor
      · intro h
        exact h resp hbody
      · rintro h resp' hresp'
        rw [hbody] at hresp'
        cases hresp'
        exact h
    rw [hshape]
    by_cases hlogs : logs resp = true
    · refine iff_of_true ⟨fun _ => ?_, fun hfalse => ?_⟩ (Or.inl hlogs)
      · rw [hcall]
        simp only [hlogs, if_true]
        exact ⟨rfl, trivial⟩
      · rw [hcall] at hfalse
        simp only [hlogs, if_true] at hfalse
        cases hfalse
    · -- the flag is set, and the call fails
      rw [or_iff_right hlogs]
      simp only [hlogs] at hcall
      constructor
      · intro h
        have hfailed := h.fails (by rw [hcall]; rfl)
        rw [hcall] at hfailed
        exact hfailed.registered.symm
      · intro hregistered
        refine ⟨fun htrue => ?_, fun _ => ?_⟩
        · rw [hcall] at htrue
          cases htrue
        · rw [hcall]
          exact ⟨rfl, hregistered.symm, rfl⟩

/-- A heartbeat that fails after it was counted. -/
theorem not_lawful_of_counted {l : Label T} {now : T}
    (h : call config client l =
      failing { client with last_hb_ts := now, hb_count := client.hb_count + 1 }) :
    ¬ Lawful config client l := by
  intro hlawful
  have hfailed := hlawful.fails (by rw [h]; rfl)
  rw [h] at hfailed
  have hcount : client.hb_count + 1 = client.hb_count := hfailed.hb_count
  omega

/-- A heartbeat that succeeds. -/
theorem lawful_of_counted {tr : List (Obs T)} {now : T}
    (h : call config client (.send_heartbeat env) =
      ⟨{ client with last_hb_ts := now, hb_count := client.hb_count + 1 }, true, tr⟩)
    (hdispatched : Dispatched config tr (.send_heartbeat env)) :
    Lawful config client (.send_heartbeat env) := by
  refine ⟨fun _ => ?_, fun hfalse => ?_⟩
  · rw [h]
    exact ⟨rfl, hdispatched⟩
  · rw [h] at hfalse
    cases hfalse

theorem wellShaped_heartbeat_iff {resp : Json T}
    (hbody : (heartbeatReply config env).body = some resp) :
    WellShaped config client (.send_heartbeat env) ↔ ∃ items, resp = .obj items ∧
      ((commandsOf items).truthy = true → config.handler = true →
        (elements (commandsOf items)).isSome = true) := by
  constructor
  · intro h
    exact h resp hbody
  · rintro h resp' hresp'
    rw [hbody] at hresp'
    cases hresp'
    exact h

theorem heartbeat_lawful_iff_of_object {items : Json.Fields T} (hurl : config.cc_url ≠ "")
    (hbody : (heartbeatReply config env).body = some (.obj items)) :
    Lawful config client (.send_heartbeat env) ↔
      ((commandsOf items).truthy = true → config.handler = true →
        (elements (commandsOf items)).isSome = true) := by
  have hcall : call config client (.send_heartbeat env) = heartbeat config client env :=
    if_neg hurl
  unfold heartbeat at hcall
  simp only [hbody] at hcall
  have hcommands : ∀ items' commands, (heartbeatReply config env).body = some (.obj items') →
      items'.lookup "commands" = some (.arr commands) → commandsOf items = .arr commands := by
    intro items' commands hitems hlookup
    rw [hbody] at hitems
    cases hitems
    unfold commandsOf
    rw [hlookup]
    rfl
  by_cases htest : (commandsOf items).truthy = true ∧ config.handler = true
  · rw [if_pos htest] at hcall
    cases helements : elements (commandsOf items) with
    | none =>
      rw [helements] at hcall
      refine iff_of_false (not_lawful_of_counted hcall) fun h => ?_
      cases h htest.1 htest.2
    | some commands =>
      rw [helements] at hcall
      refine iff_of_true (lawful_of_counted hcall ?_) fun _ _ => rfl
      intro items' commands' hitems hlookup _
      rw [hcommands items' commands' hitems hlookup] at helements
      cases helements
      exact handled_run_commands env.raises 0 commands
  · rw [if_neg htest] at hcall
    refine iff_of_true (lawful_of_counted hcall ?_) fun htruthy hhandler =>
      absurd ⟨htruthy, hhandler⟩ htest
    -- an empty list is falsy, and there is nothing to handle
    intro items' commands hitems hlookup hhandler
    rw [hcommands items' commands hitems hlookup] at htest
    cases commands with
    | nil => rfl
    | cons cmd commands => exact absurd ⟨rfl, hhandler⟩ htest

theorem heartbeat_lawful_iff (hurl : config.cc_url ≠ "") :
    Lawful config client (.send_heartbeat env) ↔
      WellShaped config client (.send_heartbeat env) := by
  have hcall : call config client (.send_heartbeat env) = heartbeat config client env :=
    if_neg hurl
  unfold heartbeat at hcall
  cases hbody : (heartbeatReply config env).body with
  | none =>
    rw [hbody] at hcall
    refine iff_of_true (lawful_of_failing hcall) ?_
    intro resp hresp
    rw [hbody] at hresp
    cases hresp
  | some resp =>
    rw [wellShaped_heartbeat_iff hbody]
    by_cases hobject : ∃ items, resp = .obj items
    · obtain ⟨items, rfl⟩ := hobject
      rw [heartbeat_lawful_iff_of_object hurl hbody]
      constructor
      · intro h
        exact ⟨items, rfl, h⟩
      · rintro ⟨items', heq, h⟩
        cases heq
        exact h
    · -- the heartbeat is counted, and then there is no `get`
      have hfails : call config client (.send_heartbeat env) =
          failing { client with last_hb_ts := env.now, hb_count := client.hb_count + 1 } := by
        rw [hcall, hbody]
        cases resp with
        | obj items => exact absurd ⟨items, rfl⟩ hobject
        | _ => rfl
      refine iff_of_false (not_lawful_of_counted hfails) ?_
      rintro ⟨items, heq, -⟩
      exact hobject ⟨items, heq⟩

theorem lawful_iff (hurl : config.cc_url ≠ "") (l : Label T) :
    Lawful config client l ↔ WellShaped config client l := by
  cases l with
  | register_now env => exact register_lawful_iff hurl
  | send_heartbeat env => exact heartbeat_lawful_iff hurl

/-- **Responses**: all calls of a sequence succeed with their effect and hand over their commands,
    or fail and count an error, if and only if all their answers have the shape that the calls
    look for. -/
theorem lawful_iff_wellShaped (config : Config T) (hurl : config.cc_url ≠ "")
    (ls : List (Label T)) :
    (∀ pre l client tr, pre ++ [l] <+: ls → (machine config).run init pre = some (client, tr) →
      Lawful config client l) ↔ (machine config).Along (WellShaped config) init ls := by
  rw [Machine.along_iff_forall]
  constructor
  · intro h pre l client tr hpre hrun
    exact (lawful_iff hurl l).mp (h pre l client tr hpre hrun)
  · intro h pre l client tr hpre hrun
    exact (lawful_iff hurl l).mpr (h pre l client tr hpre hrun)

end laws

/-- A client with a handler. -/
def handling : Config ℚ :=
  ⟨⟨"n", "node", "0.1.0", 0, .empty, by decide⟩, ⟨"host", "Linux", "x86", "3.12"⟩, "http://cc",
    true⟩

/-- Every request gets the answer. -/
def answering (v : Json ℚ) : Env ℚ := ⟨fun _ _ => .document v, none, 1, 2, fun _ _ => true⟩

theorem lawful_iff_wellShaped_handling :
    (∀ pre l client tr,
      pre ++ [l] <+: [.send_heartbeat (answering (.obj [("commands", .arr [.str "stop"])]))] →
      (machine handling).run init pre = some (client, tr) → Lawful handling client l) ↔
      (machine handling).Along (WellShaped handling) init
        [.send_heartbeat (answering (.obj [("commands", .arr [.str "stop"])]))] :=
  lawful_iff_wellShaped handling (by decide) _

/-- An answer that is an empty list counts as a heartbeat and as an error. -/
theorem list_answer_counted_twice :
    (call handling init (.send_heartbeat (answering (.arr [])))).result = false ∧
      (call handling init (.send_heartbeat (answering (.arr [])))).client.hb_count = 1 ∧
      ¬ Lawful handling init (.send_heartbeat (answering (.arr []))) := by
  refine ⟨by decide, by decide, fun h => ?_⟩
  have hcount := (h.fails (by decide)).hb_count
  exact absurd hcount (by decide)

end CommandCenterResponses
