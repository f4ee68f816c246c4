import Aioscpu.Framework.Refinement
import Aioscpu.Services.CommandHandler
import Aioscpu.Services.WebTerminal
import Aioscpu.Shell.History

/-! # The Shell in the Web Terminal

  `_Handler` of `services/web_terminal.py`, without a `kernel_api`, as the kernel makes it. The
  line `web start` has started it. The lines that are posted to it run in the shell, beside the
  loop that reads lines from the keyboard.

  The server takes one request after the other in the thread that runs `serve_forever`, and
  `shutdown` waits until `serve_forever` has returned. A request, a step of the loop and a call
  of `stop` each happen as a whole. `stop` leaves the port bound, so no `web start` succeeds after
  it (`serverOf_run`).

  Main results:

  - `terminal_law`: each request is answered, and each `stop` returns, until a `web stop` is
    posted. That one waits for itself: nothing is answered any more, and no `stop` returns.
  - `posted_lines`: what is posted is not read. The loop goes through a session of the shell in
    which other threads change the system, with the lines from the keyboard as its lines.
-/

namespace WebShell

open Shell (Host plainHost plainShell)

variable {T β P C H W : Type}

/-! ### Requests -/

/-- What the handler takes from the libraries; `none` where it raises. -/
structure Http (T : Type) where
  /-- `urlparse(path).path`. -/
  urlparse : String → Option String
  /-- `json.loads`. -/
  loads : List UInt8 → Option (Json T)
  /-- `str(v)`, where `v` is no text. -/
  str : Json T → Option String

structure Request extends CommandHandler.Request where
  /-- `self.rfile.read(-1)`. -/
  readall : Option (List UInt8)

/-- `self.rfile.read(length)`. -/
def read (request : Request) (length : Int) : Option (List UInt8) :=
  if 0 ≤ length then request.rfile length.toNat
  else if length = -1 then request.readall else none

inductive Body (T : Type) where
  | page
  | text (s : String)
  | json (v : Json T)

structure Response (T : Type) where
  code : Nat
  content_type : String
  body : Body T

/-- A response in JSON. -/
def json (code : Nat) (items : List (String × Json T)) : Response T :=
  ⟨code, "application/json", .json (.obj items)⟩

def not_found : Response T := ⟨404, "text/plain", .text "Not found"⟩

def bad_request : Response T := json 400 [("error", .str "bad request")]

/-- What the environment decides while a request is handled. -/
structure Env (T : Type) where
  uptime_s : T
  ts : T
  /-- The log of the events; `none` where `json.dumps` raises for it. -/
  events : Option (Json T)
  /-- `str(exc)`, where the line raises. -/
  exc : String

/-- `_Handler.do_GET`; `none` where it raises. -/
def do_GET (http : Http T) (request : Request) (env : Env T) : Option (Response T) :=
  (http.urlparse request.path).bind fun path =>
    if path = "/" ∨ path = "/index.html" then some ⟨200, "text/html; charset=utf-8", .page⟩
    else if path = "/api/status" then
      some (json 200 [("running", .bool true), ("version", .str "0.1.0"),
        ("uptime_s", .float env.uptime_s)])
    else if path = "/api/events" then
      env.events.map fun log => ⟨200, "application/json", .json log⟩
    else if path = "/api/services" then
      some (json 200 [("services", .obj []), ("ts", .float env.ts)])
    else if path = "/api/sysinfo" then
      some (json 200 [("sysinfo", .obj []), ("ts", .float env.ts)])
    else some not_found

/-- `str(data.get(key, "")).strip()`. -/
def field (http : Http T) (data : Json T) (key : String) : Option String :=
  match data with
  | .obj items =>
    match (items.lookup key).getD (.str "") with
    | .str s => some (PyStr.strip s)
    | v => (http.str v).map PyStr.strip
  -- only an object has `get`
  | _ => none

/-- The text that `_handle_post_cmd` and `_handle_post_aura_query` read from a request. -/
def read_field (http : Http T) (request : Request) (key : String) : Option String := do
  let length ← CommandHandler.content_length request.toRequest
  let raw ← read request length
  let data ← http.loads raw
  field http data key

/-- The two paths that run a line. -/
inductive Endpoint where
  | cmd
  | query
deriving DecidableEq, Repr

/-- What `do_POST` comes to. -/
inductive Posted (T : Type) where
  | responds (r : Response T)
  /-- `dispatch_fn(line)` is called. -/
  | runs (endpoint : Endpoint) (line : String)

/-- `_Handler.do_POST` up to the call of `dispatch_fn`; `none` where it raises. -/
def do_POST (http : Http T) (request : Request) (env : Env T) : Option (Posted T) :=
  (http.urlparse request.path).map fun path =>
    if path = "/api/cmd" then
      match read_field http request "cmd" with
      | none => .responds bad_request
      | some cmd =>
        if cmd = "" then .responds (json 200 [("output", .str ""), ("ts", .float env.ts)])
        else .runs .cmd cmd
    else if path = "/api/aura/query" then
      match read_field http request "prompt" with
      | none => .responds bad_request
      | some prompt =>
        if prompt = "" then .responds (json 400 [("error", .str "prompt required")])
        else .runs .query prompt
    else .responds not_found

/-- The response to a line that has returned or raised. -/
def answer (env : Env T) : Endpoint → Option (Option String) → Response T
  | .cmd, some output => json 200 [("output", .str (output.getD "")), ("ts", .float env.ts)]
  | .cmd, none => json 200 [("output", .str ("Error: " ++ env.exc)), ("ts", .float env.ts)]
  | .query, some output => json 200 [("response", .str (output.getD "")), ("ts", .float env.ts)]
  | .query, none => json 500 [("error", .str env.exc)]

/-! ### The terminal, the loop of the shell, and those who stop the terminal -/

/-- Where `serve_forever` stands. -/
inductive Server where
  /-- It takes the next request. -/
  | serving
  /-- A handler has called `shutdown`, and waits. -/
  | blocked
  /-- It has returned. -/
  | down
deriving DecidableEq, Repr

structure State (β P C H W : Type) where
  shell : Shell.State β P C H W
  /-- Where `Shell.run` stands. -/
  loop : Shell.Pc
  /-- The line that `Shell.run` has read waits for `serve_forever`. -/
  hung : Bool
  server : Server

inductive Label (T β P C W : Type) where
  /-- A step of the shell from `Shell.run` or from other threads. -/
  | shell (l : Shell.Label β P C W)
  | get (request : Request) (env : Env T)
  | post (request : Request) (env : Env T)
  /-- `Kernel.shutdown` calls `stop` if the terminal is running. -/
  | stop

inductive Obs (T : Type) where
  | shell (o : Shell.Obs)
  | answered (r : Response T)
  | unanswered
  /-- `stop` has returned. -/
  | stopped
  /-- `stop` waits, and does not return. -/
  | stuck

/-- The line is `web stop`. -/
def StopsWeb (host : Host β P C H W) (line : String) : Bool :=
  match PyStr.words line with
  | token :: arg :: _ =>
    Shell.register_builtins.lookup (host.lower token) = some .web ∧ host.lower arg = "stop"
  | _ => false

/-- The step is one of `Shell.run`. -/
def ofLoop : Shell.Label β P C W → Bool
  | .test | .line _ | .interrupt => true
  | .stop | .others _ => false

/-- The line that `Shell.run` reads is `web stop`. -/
def typesStop (host : Host β P C H W) : Shell.Label β P C W → Bool
  | .line text => StopsWeb host (PyStr.strip text)
  | _ => false

/-- `WebTerminalService.stop`, if `is_running`. -/
def stop : Server → Server × List (Obs T)
  | .serving => (.down, [.stopped])
  | .blocked => (.blocked, [.stuck])
  | .down => (.down, [])

/-- `Shell.run` up to the call of the command: the line is remembered. -/
def remembered (shell : Shell.State β P C H W) : Shell.Label β P C W → Shell.State β P C H W
  | .line text => { shell with history := Shell.remember shell.history (PyStr.strip text) }
  | _ => shell

/-- A step of the shell. The command `web stop` calls `stop` before it returns. -/
def shell_step (host : Host β P C H W) (s : State β P C H W) (l : Shell.Label β P C W) :
    Option (State β P C H W × List (Obs T)) :=
  -- the loop waits inside `stop`; other threads go on
  if s.hung ∧ ofLoop l then none
  else
    ((Shell.machine host).step (s.shell, s.loop) l).map fun r =>
      if typesStop host l then
        if s.server = .blocked then
          ({ s with shell := remembered s.shell l, hung := true }, (stop s.server).2)
        else
          ({ s with shell := r.1.1, loop := r.1.2, server := (stop (T := T) s.server).1 },
            (stop s.server).2 ++ r.2.map .shell)
      else ({ s with shell := r.1.1, loop := r.1.2 }, r.2.map .shell)

/-- What `do_POST` does for the server that takes the request. -/
def post_step (host : Host β P C H W) (s : State β P C H W) (env : Env T) :
    Option (Posted T) → State β P C H W × Obs T
  | none => (s, .unanswered)
  | some (.responds r) => (s, .answered r)
  | some (.runs endpoint line) =>
    -- the handler calls `shutdown` in the thread that it waits for
    if StopsWeb host line then ({ s with server := .blocked }, .unanswered)
    else
      let r := Shell.dispatch host s.shell line
      ({ s with shell := r.1 }, .answered (answer env endpoint r.2))

/-- The terminal beside the loop of the shell. -/
def machine (http : Http T) (host : Host β P C H W) :
    Machine (State β P C H W) (Label T β P C W) (Obs T) where
  step := fun s l =>
    match l with
    | .shell l => shell_step host s l
    | .get request env =>
      some (s, [if s.server = .serving then
        ((do_GET http request env).map .answered).getD .unanswered else .unanswered])
    | .post request env =>
      if s.server = .serving then
        let r := post_step host s env (do_POST http request env)
        some (r.1, [r.2])
      else some (s, [.unanswered])
    | .stop => some ({ s with server := (stop (T := T) s.server).1 }, (stop s.server).2)

/-- The terminal serves, and the loop of the shell is about to read its first line. -/
def start (shell : Shell.State β P C H W) : State β P C H W := ⟨shell, .testing, false, .serving⟩

/-! ### The service -/

/-- Where `serve_forever` stands in a service that has been started. -/
def serverOf (service : WebTerminalService T) : Server :=
  if service.running then .serving else .down

/-- The call is one of `stop`. -/
def isStop : WebTerminalService.Label T → Bool
  | .stop => true
  | .start _ => false

/-- A start changes nothing: the service runs, or its port is still bound. -/
theorem start_unchanged {service : WebTerminalService T} (hheld : service.Held)
    (hserver : service.server.isSome) (now : T) : (service.start now).1 = service := by
  rcases service.start_cases now with ⟨-, heq⟩ | ⟨-, -, heq⟩ | ⟨-, hclosed, -⟩
  · rw [heq]
  · rw [heq]
  · exact absurd hclosed (hheld.listening hserver)

/-- **The server is that of the service**: whatever starts and stops follow, it serves until the
    first stop, and never again. -/
theorem serverOf_run {service service' : WebTerminalService T}
    {ls : List (WebTerminalService.Label T)} {tr : List WebTerminalService.Obs}
    (hheld : service.Held) (hserver : service.server.isSome)
    (hrun : WebTerminalService.machine.run service ls = some (service', tr)) :
    serverOf service' =
      if ls.any isStop then (stop (T := T) (serverOf service)).1 else serverOf service := by
  have hdown : (stop (T := T) (serverOf service)).1 = .down := by
    unfold serverOf
    cases service.running <;> rfl
  rw [hdown]
  refine (WebTerminalService.machine.run_induction (P := fun ls t _ => t.Held ∧
    t.server.isSome ∧ serverOf t = if ls.any isStop then .down else serverOf service)
    ⟨hheld, hserver, rfl⟩ ?_ hrun).2.2
  rintro ls t tr l t' os - ⟨hheld', hserver', hbefore⟩ hs
  rw [List.any_append]
  cases l with
  | start now =>
    obtain ⟨rfl, -⟩ := Prod.mk.inj (Option.some.inj hs)
    rw [start_unchanged hheld' hserver']
    refine ⟨hheld', hserver', ?_⟩
    simpa [isStop] using hbefore
  | stop =>
    obtain ⟨rfl, -⟩ := Prod.mk.inj (Option.some.inj hs)
    refine ⟨WebTerminalService.stop_held hheld', hserver', ?_⟩
    simp [isStop, serverOf, WebTerminalService.stop]

/-! ### Until a `web stop` is posted -/

/-- A client sends a request. -/
def Label.isRequest : Label T β P C W → Bool
  | .get .. | .post .. => true
  | .shell _ | .stop => false

/-- The handler of the request does not raise: its path can be parsed, and the log can be sent. -/
def Label.proper (http : Http T) : Label T β P C W → Bool
  | .get request env => (do_GET http request env).isSome
  | .post request env => (do_POST http request env).isSome
  | .shell _ | .stop => true

/-- A client posts `web stop`. -/
def Label.postsStop (http : Http T) (host : Host β P C H W) : Label T β P C W → Bool
  | .post request env =>
    match do_POST http request env with
    | some (.runs _ line) => StopsWeb host line
    | _ => false
  | _ => false

/-- Somebody else stops the terminal. -/
def Label.stops (host : Host β P C H W) : Label T β P C W → Bool
  | .shell l => typesStop host l
  | .stop => true
  | .get .. | .post .. => false

def Obs.isAnswered : Obs T → Bool
  | .answered _ => true
  | _ => false

def Obs.isStopped : Obs T → Bool
  | .stopped => true
  | _ => false

def Obs.isStuck : Obs T → Bool
  | .stuck => true
  | _ => false

/-- The server after a step. -/
def Server.next (http : Http T) (host : Host β P C H W) (l : Label T β P C W) : Server → Server
  | .serving =>
    if l.postsStop http host then .blocked else if l.stops host then .down else .serving
  | server => server

theorem Label.stops_of_request {host : Host β P C H W} {l : Label T β P C W}
    (h : l.isRequest = true) : l.stops host = false := by
  cases l with
  | get request env => rfl
  | post request env => rfl
  | shell l => cases h
  | stop => cases h

theorem Label.request_of_postsStop {http : Http T} {host : Host β P C H W}
    {l : Label T β P C W} (h : l.postsStop http host = true) : l.isRequest = true := by
  cases l with
  | post request env => rfl
  | get request env => cases h
  | shell l => cases h
  | stop => cases h

/-- What the observations of some steps count, by the state of the server before them. -/
structure Counted (http : Http T) (host : Host β P C H W) (server : Server)
    (ls : List (Label T β P C W)) (os : List (Obs T)) : Prop where
  answered : os.countP Obs.isAnswered = ls.countP fun l =>
    server = .serving ∧ l.isRequest ∧ l.proper http ∧ ¬ l.postsStop http host
  stopped : os.countP Obs.isStopped = ls.countP fun l => server = .serving ∧ l.stops host
  stuck : os.countP Obs.isStuck = ls.countP fun l => server = .blocked ∧ l.stops host

theorem Counted.append {http : Http T} {host : Host β P C H W} {server : Server}
    {ls ls' : List (Label T β P C W)} {os os' : List (Obs T)} (h : Counted http host server ls os)
    (h' : Counted http host server ls' os') : Counted http host server (ls ++ ls') (os ++ os') := by
  constructor
  · rw [List.countP_append, List.countP_append, h.answered, h'.answered]
  · rw [List.countP_append, List.countP_append, h.stopped, h'.stopped]
  · rw [List.countP_append, List.countP_append, h.stuck, h'.stuck]

/-- What the shell prints is none of it. -/
theorem countP_shell {p : Obs T → Bool} (hp : ∀ o, p (.shell o) = false) (os : List Shell.Obs) :
    (os.map (Obs.shell (T := T))).countP p = 0 := by
  rw [List.countP_map, List.countP_eq_zero]
  intro o _
  simp [hp]

/-- What one step does to the server, and what it counts. -/
def Sound (http : Http T) (host : Host β P C H W) (s : State β P C H W) (l : Label T β P C W)
    (s' : State β P C H W) (os : List (Obs T)) : Prop :=
  s'.server = s.server.next http host l ∧ Counted http host s.server [l] os

/-- `stop` returns unless it is blocked. -/
theorem stop_sound (http : Http T) (host : Host β P C H W) {s s' : State β P C H W}
    {l : Label T β P C W} (hrequest : l.isRequest = false) (hposts : l.postsStop http host = false)
    (hstops : l.stops host = true) (hserver : s'.server = (stop (T := T) s.server).1)
    (os : List Shell.Obs) : Sound http host s l s' ((stop s.server).2 ++ os.map .shell) := by
  unfold Sound
  rw [hserver]
  have hanswered : (os.map (Obs.shell (T := T))).countP Obs.isAnswered = 0 :=
    countP_shell (fun _ => rfl) os
  have hstopped : (os.map (Obs.shell (T := T))).countP Obs.isStopped = 0 :=
    countP_shell (fun _ => rfl) os
  have hstuck : (os.map (Obs.shell (T := T))).countP Obs.isStuck = 0 :=
    countP_shell (fun _ => rfl) os
  cases s.server with
  | serving =>
    refine ⟨by simp [Server.next, stop, hposts, hstops], ?_, ?_, ?_⟩
    · simp [stop, Obs.isAnswered, hanswered, hrequest]
    · simp [stop, List.countP_cons, Obs.isStopped, hstopped, hstops]
    · simp [stop, Obs.isStuck, hstuck]
  | blocked =>
    refine ⟨rfl, ?_, ?_, ?_⟩
    · simp [stop, Obs.isAnswered, hanswered]
    · simp [stop, Obs.isStopped, hstopped]
    · simp [stop, List.countP_cons, Obs.isStuck, hstuck, hstops]
  | down =>
    refine ⟨rfl, ?_, ?_, ?_⟩
    · simp [stop, hanswered]
    · simp [stop, hstopped]
    · simp [stop, hstuck]

theorem shell_sound (http : Http T) {host : Host β P C H W} {s s' : State β P C H W}
    {l : Shell.Label β P C W} {os : List (Obs T)} (hs : shell_step host s l = some (s', os)) :
    Sound http host s (.shell l) s' os := by
  unfold shell_step at hs
  split at hs
  · cases hs
  · obtain ⟨r, -, heq⟩ := Option.map_eq_some_iff.mp hs
    by_cases htypes : typesStop host l = true
    · rw [if_pos htypes] at heq
      by_cases hserver : s.server = .blocked
      · rw [if_pos hserver] at heq
        obtain ⟨rfl, rfl⟩ := Prod.mk.inj heq
        rw [← List.append_nil (stop s.server).2]
        exact stop_sound http host (l := .shell l) rfl rfl htypes (by rw [hserver]; rfl) []
      · rw [if_neg hserver] at heq
        obtain ⟨rfl, rfl⟩ := Prod.mk.inj heq
        exact stop_sound http host (l := .shell l) rfl rfl htypes rfl r.2
    · rw [if_neg htypes] at heq
      obtain ⟨rfl, rfl⟩ := Prod.mk.inj heq
      have hstops : (Label.shell l : Label T β P C W).stops host = false :=
        Bool.eq_false_of_not_eq_true htypes
      refine ⟨?_, ?_, ?_, ?_⟩
      · cases s.server with
        | serving => simp [Server.next, Label.postsStop, hstops]
        | blocked => rfl
        | down => rfl
      · exact (countP_shell (fun _ => rfl) r.2).trans (by simp [Label.isRequest])
      · exact (countP_shell (fun _ => rfl) r.2).trans (by simp [hstops])
      · exact (countP_shell (fun _ => rfl) r.2).trans (by simp [hstops])

/-- A request that the server does not take. -/
theorem untaken_sound (http : Http T) (host : Host β P C H W) {s : State β P C H W}
    {l : Label T β P C W} (hstops : l.stops host = false) (hserver : s.server ≠ .serving) :
    Sound http host s l s [.unanswered] := by
  refine ⟨?_, ?_, ?_, ?_⟩
  · cases h : s.server with
    | serving => exact absurd h hserver
    | blocked => rfl
    | down => rfl
  · simp [Obs.isAnswered, hserver]
  · simp [Obs.isStopped, hserver]
  · simp [Obs.isStuck, hstops]

/-- A request that the server takes. -/
theorem taken_sound (http : Http T) (host : Host β P C H W) {s s' : State β P C H W}
    {l : Label T β P C W} (hrequest : l.isRequest = true) (hstops : l.stops host = false)
    (hserver : s.server = .serving) {o : Obs T}
    (hnext : s'.server = if l.postsStop http host then .blocked else .serving)
    (ho : (∃ r, o = .answered r) ∧ l.proper http = true ∧ l.postsStop http host = false ∨
      o = .unanswered ∧ (l.proper http = false ∨ l.postsStop http host = true)) :
    Sound http host s l s' [o] := by
  unfold Sound
  rw [hserver, hnext]
  refine ⟨by simp [Server.next, hstops], ?_, ?_, ?_⟩
  · rcases ho with ⟨⟨r, rfl⟩, hproper, hposts⟩ | ⟨rfl, h | h⟩
    · simp [Obs.isAnswered, hrequest, hproper, hposts]
    · simp [Obs.isAnswered, h]
    · simp [Obs.isAnswered, h]
  · rcases ho with ⟨⟨r, rfl⟩, -⟩ | ⟨rfl, -⟩
    · simp [Obs.isStopped, hstops]
    · simp [Obs.isStopped, hstops]
  · rcases ho with ⟨⟨r, rfl⟩, -⟩ | ⟨rfl, -⟩
    · simp [Obs.isStuck]
    · simp [Obs.isStuck]

theorem step_sound {http : Http T} {host : Host β P C H W} {s s' : State β P C H W}
    {l : Label T β P C W} {os : List (Obs T)} (hs : (machine http host).step s l = some (s', os)) :
    Sound http host s l s' os := by
  cases l with
  | shell l => exact shell_sound http hs
  | get request env =>
    obtain ⟨rfl, rfl⟩ := Prod.mk.inj (Option.some.inj hs)
    by_cases hserver : s.server = .serving
    · rw [if_pos hserver]
      refine taken_sound http host rfl rfl hserver hserver ?_
      cases hget : do_GET http request env with
      | none => exact Or.inr ⟨rfl, Or.inl (by simp [Label.proper, hget])⟩
      | some r => exact Or.inl ⟨⟨r, rfl⟩, by simp [Label.proper, hget], rfl⟩
    · rw [if_neg hserver]
      exact untaken_sound http host rfl hserver
  | post request env =>
    by_cases hserver : s.server = .serving
    · simp only [machine, if_pos hserver, Option.some.injEq, Prod.mk.injEq] at hs
      obtain ⟨rfl, rfl⟩ := hs
      cases hpost : do_POST http request env with
      | none =>
        have hposts : (Label.post request env : Label T β P C W).postsStop http host = false := by
          simp [Label.postsStop, hpost]
        refine taken_sound http host rfl rfl hserver (by rw [hposts]; exact hserver) ?_
        exact Or.inr ⟨rfl, Or.inl (by simp [Label.proper, hpost])⟩
      | some posted =>
        have hproper : (Label.post request env : Label T β P C W).proper http = true := by
          simp [Label.proper, hpost]
        cases posted with
        | responds r =>
          have hposts : (Label.post request env : Label T β P C W).postsStop http host = false := by
            simp [Label.postsStop, hpost]
          refine taken_sound http host rfl rfl hserver (by rw [hposts]; exact hserver) ?_
          exact Or.inl ⟨⟨r, rfl⟩, hproper, hposts⟩
        | runs endpoint line =>
          have hposts : (Label.post request env : Label T β P C W).postsStop http host =
              StopsWeb host line := by
            simp [Label.postsStop, hpost]
          -- either the handler waits for itself, or the line has run
          by_cases hweb : StopsWeb host line = true
          · rw [post_step, if_pos hweb]
            refine taken_sound http host rfl rfl hserver (by rw [hposts, if_pos hweb]) ?_
            exact Or.inr ⟨rfl, Or.inr (hposts.trans hweb)⟩
          · rw [post_step, if_neg hweb]
            refine taken_sound http host rfl rfl hserver ?_ ?_
            · rw [hposts, if_neg hweb]
              exact hserver
            · exact Or.inl ⟨⟨_, rfl⟩, hproper, hposts.trans (Bool.eq_false_of_not_eq_true hweb)⟩
    · simp only [machine, if_neg hserver, Option.some.injEq, Prod.mk.injEq] at hs
      obtain ⟨rfl, rfl⟩ := hs
      exact untaken_sound http host rfl hserver
  | stop =>
    obtain ⟨rfl, rfl⟩ := Prod.mk.inj (Option.some.inj hs)
    rw [← List.append_nil (stop s.server).2]
    exact stop_sound http host (l := .stop) rfl rfl rfl rfl []

/-- Steps that leave the server as it is. -/
theorem run_sound {http : Http T} {host : Host β P C H W} {s s' : State β P C H W}
    {ls : List (Label T β P C W)} {tr : List (Obs T)}
    (h : ∀ l ∈ ls, s.server.next http host l = s.server)
    (hrun : (machine http host).run s ls = some (s', tr)) :
    s'.server = s.server ∧ Counted http host s.server ls tr := by
  refine (machine http host).run_induction_along
    (C := fun _ l => s.server.next http host l = s.server)
    (P := fun ls s' tr => s'.server = s.server ∧ Counted http host s.server ls tr)
    ⟨rfl, rfl, rfl, rfl⟩ ?_ (Machine.along_of_mem _ (fun l hl _ => h l hl) s) hrun
  rintro ls t tr l t' os - ⟨hserver, hcounted⟩ hkeeps hs
  obtain ⟨hnext, hstep⟩ := step_sound hs
  rw [hserver] at hnext hstep
  exact ⟨hnext.trans hkeeps, hcounted.append hstep⟩

/-- The terminal ends with the step. -/
def Label.ends (http : Http T) (host : Host β P C H W) (l : Label T β P C W) : Bool :=
  l.postsStop http host || l.stops host

theorem next_of_not_ends {http : Http T} {host : Host β P C H W} {l : Label T β P C W}
    (h : l.ends http host = false) : Server.next http host l .serving = .serving := by
  rw [Label.ends, Bool.or_eq_false_iff] at h
  simp [Server.next, h]

/-- What the counts of a whole run are, by the step that has ended the terminal and those that
    have come after it. -/
def Ended (http : Http T) (host : Host β P C H W) (s : State β P C H W) (tr : List (Obs T)) :
    List (Label T β P C W) → Prop
  | [] => s.server = .serving ∧ tr.countP Obs.isStopped = 0 ∧ tr.countP Obs.isStuck = 0
  | l :: after =>
    if l.postsStop http host then
      s.server = .blocked ∧ tr.countP Obs.isStopped = 0 ∧
        tr.countP Obs.isStuck = after.countP (Label.stops host)
    else s.server = .down ∧ tr.countP Obs.isStopped = 1 ∧ tr.countP Obs.isStuck = 0

/-- The counts before the terminal ends. -/
theorem before_counted {http : Http T} {host : Host β P C H W} {shell : Shell.State β P C H W}
    {before : List (Label T β P C W)} (hproper : ∀ l ∈ before, l.proper http = true)
    (hbefore : ∀ l ∈ before, l.ends http host = false) {s : State β P C H W} {tr : List (Obs T)}
    (hrun : (machine http host).run (start shell) before = some (s, tr)) :
    s.server = .serving ∧ tr.countP Obs.isAnswered = before.countP Label.isRequest ∧
      tr.countP Obs.isStopped = 0 ∧ tr.countP Obs.isStuck = 0 := by
  -- the server serves all along
  have hnone : ∀ l ∈ before, l.postsStop http host = false ∧ l.stops host = false := by
    intro l hl
    have hends := hbefore l hl
    rw [Label.ends, Bool.or_eq_false_iff] at hends
    exact hends
  obtain ⟨hserver, hcounted⟩ :=
    run_sound (s := start shell) (fun l hl => next_of_not_ends (hbefore l hl)) hrun
  refine ⟨hserver, ?_, ?_, ?_⟩
  · rw [hcounted.answered]
    apply List.countP_congr
    intro l hl
    simp [start, hproper l hl, hnone l hl]
  · rw [hcounted.stopped, List.countP_eq_zero]
    intro l hl
    simp [hnone l hl]
  · rw [hcounted.stuck, List.countP_eq_zero]
    intro l hl
    simp [start]

/-- The counts after the terminal has ended. -/
theorem after_counted {http : Http T} {host : Host β P C H W} {s s' : State β P C H W}
    {after : List (Label T β P C W)} {tr : List (Obs T)} (hended : s.server ≠ .serving)
    (hrun : (machine http host).run s after = some (s', tr)) :
    s'.server = s.server ∧ tr.countP Obs.isAnswered = 0 ∧ tr.countP Obs.isStopped = 0 ∧
      tr.countP Obs.isStuck =
        if s.server = .blocked then after.countP (Label.stops host) else 0 := by
  have hkeeps : ∀ l ∈ after, s.server.next http host l = s.server := by
    intro l _
    cases h : s.server with
    | serving => exact absurd h hended
    | blocked => rfl
    | down => rfl
  obtain ⟨hserver, hcounted⟩ := run_sound hkeeps hrun
  refine ⟨hserver, ?_, ?_, ?_⟩
  · rw [hcounted.answered, List.countP_eq_zero]
    intro l _
    simp [hended]
  · rw [hcounted.stopped, List.countP_eq_zero]
    intro l _
    simp [hended]
  · rw [hcounted.stuck]
    by_cases hblocked : s.server = .blocked
    · simp [hblocked]
    · simp [hblocked]

/-- From the step that ends the terminal on. -/
theorem ended_counted {http : Http T} {host : Host β P C H W} {s s' : State β P C H W}
    {l : Label T β P C W} {after : List (Label T β P C W)} {tr : List (Obs T)}
    (hserver : s.server = .serving) (hends : l.ends http host = true)
    (hrun : (machine http host).run s (l :: after) = some (s', tr)) :
    tr.countP Obs.isAnswered = 0 ∧ Ended http host s' tr (l :: after) := by
  obtain ⟨u, os, tr', hs, hafter, rfl⟩ := (machine http host).run_cons_iff.mp hrun
  obtain ⟨hnext, hanswered, hstopped, hstuck⟩ := step_sound hs
  rw [hserver] at hnext hanswered hstopped hstuck
  simp only [List.countP_cons, List.countP_nil] at hanswered hstopped hstuck
  by_cases hposts : l.postsStop http host = true
  · -- the handler of a client has called `shutdown`
    have hstops : l.stops host = false :=
      Label.stops_of_request (Label.request_of_postsStop hposts)
    have hblocked : u.server = .blocked := hnext.trans (if_pos hposts)
    obtain ⟨hserver', h₁, h₂, h₃⟩ := after_counted (by rw [hblocked]; decide) hafter
    rw [if_pos hblocked] at h₃
    simp only [Ended, hposts, if_true]
    refine ⟨?_, hserver'.trans hblocked, ?_, ?_⟩
    · simp [hanswered, h₁, hposts]
    · simp [hstopped, h₂, hstops]
    · simp [hstuck, h₃]
  · -- the keyboard or the kernel has called `stop`
    have hstops : l.stops host = true := by
      simpa [Label.ends, hposts] using hends
    have hrequest : l.isRequest = false := by
      by_contra hrequest
      rw [Label.stops_of_request (Bool.eq_true_of_not_eq_false hrequest)] at hstops
      cases hstops
    have hdown : u.server = .down := hnext.trans ((if_neg hposts).trans (if_pos hstops))
    obtain ⟨hserver', h₁, h₂, h₃⟩ := after_counted (by rw [hdown]; decide) hafter
    rw [hdown, if_neg (by decide)] at h₃
    simp only [Ended, hposts, if_false, Bool.false_eq_true]
    refine ⟨?_, hserver'.trans hdown, ?_, ?_⟩
    · simp [hanswered, h₁, hrequest]
    · simp [hstopped, h₂, hstops]
    · simp [hstuck, h₃]

/-- Steps before it that neither stop nor wait change nothing. -/
theorem Ended.prepend {http : Http T} {host : Host β P C H W} {s : State β P C H W}
    {before tr : List (Obs T)} {ls : List (Label T β P C W)} (h : Ended http host s tr ls)
    (hstopped : before.countP Obs.isStopped = 0) (hstuck : before.countP Obs.isStuck = 0) :
    Ended http host s (before ++ tr) ls := by
  cases ls with
  | nil =>
    obtain ⟨hserver, h₁, h₂⟩ := h
    exact ⟨hserver, by rw [List.countP_append, hstopped, h₁],
      by rw [List.countP_append, hstuck, h₂]⟩
  | cons l after =>
    unfold Ended at h ⊢
    rw [List.countP_append, List.countP_append, hstopped, hstuck, Nat.zero_add, Nat.zero_add]
    exact h

/-- The bytes of a text in ASCII. -/
def bytes (text : String) : List UInt8 := text.toList.map fun c => UInt8.ofNat c.toNat

/-- The body of a request for `/api/cmd`. -/
def bodyOf (cmd : String) : List UInt8 := bytes ("\x7b\"cmd\": \"" ++ cmd ++ "\"\x7d")

/-- Clients that post a few lines. -/
def plainHttp : Http ℚ where
  urlparse := some
  loads := fun raw =>
    (["pwd", "exit", "web stop"].find? fun cmd => bodyOf cmd = raw).map fun cmd =>
      .obj [("cmd", .str cmd)]
  str := fun _ => none

def plainEnv : Env ℚ := ⟨1, 1, some (.arr []), "error"⟩

def plainGet : Label ℚ String Unit Unit Unit :=
  .get ⟨⟨"/", [], fun _ => some []⟩, some []⟩ plainEnv

/-- The line is posted, with the number of the bytes of the body. -/
def plainPost (length cmd : String) : Label ℚ String Unit Unit Unit :=
  .post ⟨⟨"/api/cmd", [("Content-Length", length)], fun n => some ((bodyOf cmd).take n)⟩,
    some (bodyOf cmd)⟩ plainEnv

/-- The steps of the shell. -/
def keyboard (ls : List (Label T β P C W)) : List (Shell.Label β P C W) :=
  ls.filterMap fun
    | .shell l => some l
    | _ => none

/-- What the shell prints. -/
def shown : Obs T → Option Shell.Obs
  | .shell o => some o
  | _ => none

theorem shown_shell (os : List Shell.Obs) :
    (os.map (Obs.shell (T := T))).filterMap shown = os := by
  rw [List.filterMap_map]
  exact List.filterMap_some

theorem shown_stop (server : Server) : ((stop server).2 : List (Obs T)).filterMap shown = [] := by
  cases server <;> rfl

/-- A step of the shell that does not wait is one of the machine of the shell. -/
theorem shell_embeds {host : Host β P C H W} {s s' : State β P C H W} {l : Shell.Label β P C W}
    {os : List (Obs T)} (hfree : s'.hung = false) (hs : shell_step host s l = some (s', os)) :
    s.hung = false ∧ (Shell.machine host).run (s.shell, s.loop) [l] =
      some ((s'.shell, s'.loop), os.filterMap shown) := by
  unfold shell_step at hs
  split at hs
  · cases hs
  · obtain ⟨r, hr, heq⟩ := Option.map_eq_some_iff.mp hs
    rw [Machine.run_singleton, hr]
    by_cases htypes : typesStop host l = true
    · rw [if_pos htypes] at heq
      -- the loop would wait
      by_cases hserver : s.server = .blocked
      · rw [if_pos hserver] at heq
        obtain ⟨rfl, -⟩ := Prod.mk.inj heq
        cases hfree
      · rw [if_neg hserver] at heq
        obtain ⟨rfl, rfl⟩ := Prod.mk.inj heq
        rw [List.filterMap_append, shown_stop, shown_shell]
        exact ⟨hfree, rfl⟩
    · rw [if_neg htypes] at heq
      obtain ⟨rfl, rfl⟩ := Prod.mk.inj heq
      rw [shown_shell]
      exact ⟨hfree, rfl⟩

/-- A request is nothing to the loop, or a line of another thread. -/
theorem post_embeds (host : Host β P C H W) (s : State β P C H W) (env : Env T)
    (posted : Option (Posted T)) :
    (post_step host s env posted).1.hung = s.hung ∧
      ∃ ls', Shell.texts ls' = [] ∧ (Shell.machine host).run (s.shell, s.loop) ls' =
        some (((post_step host s env posted).1.shell, (post_step host s env posted).1.loop),
          [(post_step host s env posted).2].filterMap shown) := by
  cases posted with
  | none => exact ⟨rfl, [], rfl, rfl⟩
  | some posted =>
    cases posted with
    | responds r => exact ⟨rfl, [], rfl, rfl⟩
    | runs endpoint line =>
      unfold post_step
      by_cases hweb : StopsWeb host line = true
      · simp only [hweb, if_true]
        exact ⟨trivial, [], rfl, rfl⟩
      · simp only [hweb, if_false, Bool.false_eq_true]
        exact ⟨trivial, Shell.dispatched host s.shell line, Shell.texts_dispatched _ _,
          Shell.dispatched_run _ _ _⟩

/-- **Each run of the terminal is one of the shell**, with the same texts read. -/
theorem run_embeds {http : Http T} {host : Host β P C H W} {s s' : State β P C H W}
    {ls : List (Label T β P C W)} {tr : List (Obs T)} (hfree : s'.hung = false)
    (hrun : (machine http host).run s ls = some (s', tr)) :
    s.hung = false ∧ ∃ ls', Shell.texts ls' = Shell.texts (keyboard ls) ∧
      (Shell.machine host).run (s.shell, s.loop) ls' =
        some ((s'.shell, s'.loop), tr.filterMap shown) := by
  refine (machine http host).embeds (Shell.machine host) (fun s => (s.shell, s.loop)) shown
    (I := fun s => s.hung = false)
    (R := fun ls ls' => Shell.texts ls' = Shell.texts (keyboard ls)) rfl ?_ ?_ hfree hrun
  · intro ls ls' ks ks' h h'
    simp only [Shell.texts, keyboard, List.filterMap_append] at h h' ⊢
    rw [h, h']
  · intro s l s' os hfree hs
    cases l with
    | shell l =>
      obtain ⟨hfree', hrun'⟩ := shell_embeds hfree hs
      exact ⟨hfree', [l], rfl, hrun'⟩
    | get request env =>
      obtain ⟨rfl, rfl⟩ := Prod.mk.inj (Option.some.inj hs)
      refine ⟨hfree, [], rfl, ?_⟩
      split
      · cases do_GET http request env <;> rfl
      · rfl
    | post request env =>
      by_cases hserver : s.server = .serving
      · simp only [machine, if_pos hserver, Option.some.injEq, Prod.mk.injEq] at hs
        obtain ⟨rfl, rfl⟩ := hs
        obtain ⟨hhung, ls', htexts, hrun'⟩ :=
          post_embeds host s env (do_POST http request env)
        exact ⟨hhung ▸ hfree, ls', htexts, hrun'⟩
      · simp only [machine, if_neg hserver, Option.some.injEq, Prod.mk.injEq] at hs
        obtain ⟨rfl, rfl⟩ := hs
        exact ⟨hfree, [], rfl, rfl⟩
    | stop =>
      obtain ⟨rfl, rfl⟩ := Prod.mk.inj (Option.some.inj hs)
      refine ⟨hfree, [], rfl, ?_⟩
      rw [shown_stop]
      rfl

/-! ### Lines that are posted -/

/-- The lines that are typed at the prompt. -/
def typed (ls : List (Label T β P C W)) : List String := Shell.read_lines (keyboard ls)

/-- A client posts `exit`. -/
def Label.postsExit (http : Http T) (host : Host β P C H W) : Label T β P C W → Bool
  | .post request env =>
    match do_POST http request env with
    | some (.runs _ line) => Shell.Exits host line
    | _ => false
  | _ => false

/-- `exit` is not `web stop`. -/
theorem not_stopsWeb_of_exits {host : Host β P C H W} {line : String}
    (h : Shell.Exits host line = true) : StopsWeb host line = false := by
  unfold Shell.Exits at h
  unfold StopsWeb
  cases hwords : PyStr.words line with
  | nil => rfl
  | cons token args =>
    have hlookup : Shell.register_builtins.lookup (host.lower token) = some .exit := by
      simpa [hwords] using h
    cases args with
    | nil => rfl
    | cons arg args => simp [hlookup]

/-- A posted `exit` stops the loop of the shell. -/
theorem exit_stops {http : Http T} {host : Host β P C H W} {s s' : State β P C H W}
    {l : Label T β P C W} {os : List (Obs T)} (hserver : s.server = .serving)
    (hexit : l.postsExit http host = true)
    (hs : (machine http host).step s l = some (s', os)) : s'.shell.running = false := by
  cases l with
  | post request env =>
    simp only [machine, if_pos hserver, Option.some.injEq, Prod.mk.injEq] at hs
    obtain ⟨rfl, -⟩ := hs
    cases hpost : do_POST http request env with
    | none => simp [Label.postsExit, hpost] at hexit
    | some posted =>
      cases posted with
      | responds r => simp [Label.postsExit, hpost] at hexit
      | runs endpoint line =>
        have hexits : Shell.Exits host line = true := by
          simpa [Label.postsExit, hpost] using hexit
        simp only [post_step, not_stopsWeb_of_exits hexits, if_false, Bool.false_eq_true]
        exact Shell.dispatch_exits_running hexits
  | shell l => cases hexit
  | get request env => cases hexit
  | stop => cases hexit

/-- **Posted lines are not read**: as long as the loop of the shell does not wait, it has gone
    through a session of the shell, with the lines that were typed and the same output, in which
    what was posted is what other threads do to the system. Its history has the typed lines only.
    Once `exit` has been posted, at most one more line is read. -/
theorem posted_lines {http : Http T} {host : Host β P C H W} {shell : Shell.State β P C H W}
    (hlimit : shell.history.length ≤ Shell.HISTORY_LIMIT) {ls : List (Label T β P C W)}
    {s : State β P C H W} {tr : List (Obs T)} (hfree : s.hung = false)
    (hrun : (machine http host).run (start shell) ls = some (s, tr)) :
    (∃ ls', Shell.texts ls' = Shell.texts (keyboard ls) ∧
      (Shell.machine host).run (shell, .testing) ls' =
        some ((s.shell, s.loop), tr.filterMap shown)) ∧
    s.shell.history = (shell.history ++ typed ls).rtake Shell.HISTORY_LIMIT ∧
    ∀ before l after, ls = before ++ l :: after → (∀ l ∈ before, l.ends http host = false) →
      l.postsExit http host = true → (Shell.texts (keyboard after)).length ≤ 1 := by
  obtain ⟨-, ls', htexts, hsession⟩ := run_embeds hfree hrun
  refine ⟨⟨ls', htexts, hsession⟩, ?_, ?_⟩
  · have hmemory := Shell.history_memory hlimit hsession
    rw [Shell.read_lines_texts, htexts, ← Shell.read_lines_texts] at hmemory
    exact hmemory
  · rintro before l after rfl hbefore hexit
    obtain ⟨t, tr₁, tr₂, hrun₁, hrun₂, -⟩ := (machine http host).run_append_iff.mp hrun
    obtain ⟨u, os, tr₃, hs, hrun₃, -⟩ := (machine http host).run_cons_iff.mp hrun₂
    have hserver : t.server = .serving :=
      (run_sound (s := start shell) (fun l hl => next_of_not_ends (hbefore l hl)) hrun₁).1
    have hstopped := exit_stops hserver hexit hs
    -- what the loop reads after it, it reads in a session of its own
    obtain ⟨-, ks, hks, hrest⟩ := run_embeds hfree hrun₃
    rw [← hks]
    exact Shell.stopped_reads hstopped hrest

/-- A client posts `exit` while the loop waits for a line. -/
theorem posted_lines_exit :
    ∃ s tr, (machine plainHttp plainHost).run (start plainShell)
        [.shell .test, plainPost "15" "exit", .shell (.line "pwd"), .shell .test] =
          some (s, tr) ∧ s.shell.history = ["pwd"] := by
  obtain ⟨s, tr, hrun, hfree⟩ := (machine plainHttp plainHost).exists_run (start plainShell)
    [.shell .test, plainPost "15" "exit", .shell (.line "pwd"), .shell .test]
    (fun s _ => !s.hung) (by decide +kernel)
  obtain ⟨-, hhistory, -⟩ :=
    posted_lines (by decide +kernel) (Bool.eq_false_of_not_eq_true' hfree) hrun
  exact ⟨s, tr, hrun, hhistory.trans (by decide +kernel)⟩

end WebShell
