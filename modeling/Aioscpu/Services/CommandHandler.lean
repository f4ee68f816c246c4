import Aioscpu.Framework.Traced
import Aioscpu.Services.CommandChannel

/-! # Command Handler

  `_CommandHandler` of `services/command_channel.py`: `do_GET` and `do_POST`
  with all their handlers, from the headers and the bytes of a request to the
  responses. A handler calls the other components of the node and sends
  responses, and it may raise at any place.

  What a component returns is a parameter, and it may raise where the handler
  guards the call. `loads` is `json.loads`, `int` is `int(v)` of a JSON value
  and `str` is `str(v)`.
-/

namespace CommandHandler

open CommandChannel (Response Handler getRoutes postRoutes route)

/-! ### Requests -/

/-- What `json.loads` does with some bytes. -/
inductive Loaded (T : Type) where
  | value (v : Json T)
  /-- A `JSONDecodeError` or some other `ValueError`. -/
  | value_error
  /-- The `RecursionError` of a value that is nested too deep. -/
  | recursion_error

structure Request where
  path : String
  headers : List (String × String)
  /-- `self.rfile.read(n)`; `none` where it raises: for a number that is no index, for
      one that does not fit into the memory, for a connection that is gone. -/
  rfile : Nat → Option (List UInt8)

inductive Method where
  | GET
  | POST
deriving DecidableEq, Repr

/-- `self.headers.get(name)`. -/
def get_header (request : Request) (name : String) : Option String :=
  (request.headers.find? fun h => PyStr.lower h.1 = PyStr.lower name).map Prod.snd

/-- `int(self.headers.get("Content-Length", 0))`; `none` where it raises. -/
def content_length (request : Request) : Option Int :=
  match get_header request "Content-Length" with
  | none => some 0
  | some text => PyStr.int text

/-! ### Server -/

variable {T : Type}

/-- What the methods of `KernelAPI` return or raise. -/
structure KernelApi (T : Type) where
  list_services : Except String (Json T)
  start_service : String → Except String (Json T)
  stop_service : String → Except String (Json T)
  publish : Except String (Json T)

/-- What the methods of `VirtualMesh` return. -/
structure Mesh (T : Type) where
  status : Json T
  sync_state : Json T

/-- `_CommandChannelServer`, with what the components return while a request is
    handled. -/
structure Server (T : Type) where
  api_key : String
  node_id : String
  «alias» : String
  /-- `identity.to_dict()`. -/
  identity : Json T
  capability_summary : Json T
  kernel_api : Option (KernelApi T)
  /-- `peer_registry.to_list()`: one value for each peer. -/
  peer_registry : Option (List (Json T))
  /-- Whether `_save` of the registry gets through the recursion limit. -/
  saves : Bool
  mesh : Option (Mesh T)
  /-- What `health_report()` returns or raises. -/
  health_monitor : Option (Except String (Json T))
  dispatch_fn : Option (String → Except String (Json T))
  log_buffer : List String
  /-- `_collect_metrics()`. -/
  metrics : Json T
  /-- How deep a value may be nested for `json.dumps` to get through. -/
  recursion_limit : Nat
  /-- It gets through what the handlers build on their own. -/
  two_le_recursion_limit : 2 ≤ recursion_limit
  /-- `round(time.time() - srv.start_time, 1)`. -/
  uptime_s : T
  ts : T

/-! ### Computations of a handler -/

/-- The calls of the other components. -/
inductive Call (T : Type) where
  | list_services
  | start_service (name : String)
  | stop_service (name : String)
  | publish (event_type source priority : String)
  | dispatch (cmd : String)
  | add_or_update (node_id : Json T) (args : PeerArgs T)
  | health_report
  | mesh_status
  | sync_state

inductive Obs (T : Type) where
  | called (c : Call T)
  /-- A response is sent. -/
  | responded (r : Response T)

def Obs.isResponse : Obs T → Bool
  | .called _ => false
  | .responded _ => true

inductive Exc where
  /-- A component has raised. -/
  | exception (text : String)
  | attribute_error
  | type_error
  /-- `int(v)` has raised. -/
  | conversion_error
  | read_error
  | recursion_error
  | unicode_error

/-- `str(exc)`. Only what a component raises gets into a response. -/
def Exc.str : Exc → String
  | .exception text => text
  | _ => ""

abbrev Handling (T α : Type) := Traced (Obs T) Exc α

/-- A call of a component. -/
def call (c : Call T) (answer : Except String (Json T)) : Handling T (Json T) :=
  .observe (.called c) (answer.mapError .exception)

/-- Headers are encoded in Latin-1. -/
def encodable (text : String) : Bool := text.toList.all (·.toNat < 256)

/-- `_send_json`. Nothing is sent before the last header. -/
def send_json (srv : Server T) (data : Json T) (status : Nat) : Handling T Unit :=
  if data.depth ≤ srv.recursion_limit then
    if encodable srv.node_id then .observe (.responded ⟨status, data⟩) (.ok ())
    else .raise .unicode_error
  else .raise .recursion_error

/-- The value of `error` in a response. -/
def error (text : String) : Json T := .obj [("error", .str text)]

/-- `body.get`: only an object has it. -/
def as_dict : Json T → Handling T (List (String × Json T))
  | .obj items => pure items
  | _ => .raise .attribute_error

/-- `v.strip()`: only a text has it. -/
def stripped : Json T → Handling T String
  | .str s => pure (PyStr.strip s)
  | _ => .raise .attribute_error

/-! ### Handlers of GET -/

def handle_identity (srv : Server T) : Handling T Unit := send_json srv srv.identity 200

def status_data (srv : Server T) : List (String × Json T) :=
  [("node_id", .str srv.node_id), ("alias", .str srv.alias), ("version", .str "0.1.0"),
    ("status", .str "running"), ("uptime_s", .float srv.uptime_s), ("ts", .float srv.ts)]

/-- The field that the API adds, if it does not raise. -/
def status_services (api : KernelApi T) : Handling T (List (String × Json T)) :=
  Traced.catching
    (do
      let services ← call .list_services api.list_services
      return [("services", services)])
    fun _ => pure []

def handle_status (srv : Server T) : Handling T Unit :=
  match srv.kernel_api with
  | none => send_json srv (.obj (status_data srv)) 200
  | some api => do
    let services ← status_services api
    send_json srv (.obj (status_data srv ++ services)) 200

def handle_capabilities (srv : Server T) : Handling T Unit :=
  send_json srv
    (.obj [("node_id", .str srv.node_id), ("capabilities", srv.capability_summary)]) 200

def handle_metrics (srv : Server T) : Handling T Unit := send_json srv srv.metrics 200

/-- `bool(srv.peer_registry)`: the registry has a length. -/
def has_registry (srv : Server T) : Bool := srv.peer_registry.any (!·.isEmpty)

def handle_peers (srv : Server T) : Handling T Unit :=
  if has_registry srv then
    send_json srv (.obj [("peers", .arr (srv.peer_registry.getD []))]) 200
  else send_json srv (.obj [("peers", .arr [])]) 200

def handle_services (srv : Server T) : Handling T Unit :=
  match srv.kernel_api with
  | none => send_json srv (.obj [("services", .obj [])]) 200
  | some api => Traced.catching
    (do
      let services ← call .list_services api.list_services
      send_json srv (.obj [("services", services)]) 200)
    fun _ => send_json srv (.obj [("services", .obj [])]) 200

def handle_health (srv : Server T) : Handling T Unit :=
  match srv.health_monitor with
  | none => send_json srv (.obj [("status", .str "unknown")]) 200
  | some health_report => Traced.catching
    (do
      let report ← call .health_report health_report
      send_json srv report 200)
    fun _ => send_json srv (.obj [("status", .str "unknown")]) 200

def handle_mesh_status (srv : Server T) : Handling T Unit :=
  match srv.mesh with
  | none => send_json srv (.obj [("mesh", .str "not configured")]) 200
  | some mesh => do
    let status ← call .mesh_status (.ok mesh.status)
    send_json srv status 200

def handle_logs (srv : Server T) : Handling T Unit :=
  let lines := srv.log_buffer.rtake 200
  send_json srv
    (.obj [("lines", .arr (lines.map .str)), ("count", .int lines.length)]) 200

def handle_version (srv : Server T) : Handling T Unit :=
  send_json srv (.obj [("version", .str "0.1.0"), ("node_id", .str srv.node_id)]) 200

/-! ### Handlers of POST -/

/-- Arrays and objects are no keys of a dictionary. -/
def hashable : Json T → Bool
  | .arr _ => false
  | .obj _ => false
  | _ => true

/-- `srv.peer_registry.add_or_update(node_id, ...)`. The peer is in the registry by
    the time it is saved. -/
def add_or_update (srv : Server T) (node_id : Json T) (args : PeerArgs T) : Handling T Unit :=
  if hashable node_id then
    .observe (.called (.add_or_update node_id args))
      (if srv.saves then .ok () else .error .recursion_error)
  else .raise .type_error

section bodies

variable [Clock T] (int : Json T → Option Int) (str : Json T → String)

/-- The registry gets a peer that announces itself. -/
def announce (srv : Server T) (node_id : Json T) (items : List (String × Json T)) :
    Handling T Unit :=
  -- an empty registry is taken for a missing one
  if has_registry srv then do
    let args ← Traced.ofOption .conversion_error ((PeerEntry.ofObject items).args int)
    add_or_update srv node_id args
  else pure ()

def handle_announce (srv : Server T) (body : Json T) : Handling T Unit := do
  let items ← as_dict body
  let node_id := (items.lookup "node_id").getD .null
  if node_id.truthy then
    announce int srv node_id items
    send_json srv (.obj [("status", .str "ok"), ("node_id", .str srv.node_id)]) 200
  else send_json srv (error "node_id required") 400

/-- What `_handle_cmd` does with the command. -/
def command (srv : Server T) (cmd : String) : Handling T Unit :=
  if cmd = "" then send_json srv (error "cmd required") 400
  else
    match srv.dispatch_fn with
    | none => send_json srv (error "no dispatch function configured") 503
    | some dispatch =>
      Traced.catching
        (do
          let output ← call (.dispatch cmd) (dispatch cmd)
          send_json srv
            (.obj [("output", .str (str (output.or (.str "")))), ("ts", .float srv.ts)]) 200)
        fun exc =>
          send_json srv (.obj [("error", .str exc.str), ("ts", .float srv.ts)]) 500

def handle_cmd (srv : Server T) (body : Json T) : Handling T Unit := do
  let items ← as_dict body
  let cmd ← stripped ((items.lookup "cmd").getD (.str ""))
  command str srv cmd

/-- What `_handle_service_start` and `_handle_service_stop` do with the name. -/
def named_call (c : String → Call T) (method : KernelApi T → String → Except String (Json T))
    (srv : Server T) (name : String) : Handling T Unit :=
  if name = "" then send_json srv (error "name required") 400
  else
    match srv.kernel_api with
    | none => send_json srv (error "kernel_api not configured") 503
    | some api =>
      Traced.catching
        (do
          let ok ← call (c name) (method api name)
          send_json srv
            (.obj [("status", .str (if ok.truthy then "ok" else "failed")),
              ("service", .str name)]) 200)
        fun exc => send_json srv (error exc.str) 500

/-- The body of the two handlers. -/
def service_call (c : String → Call T) (method : KernelApi T → String → Except String (Json T))
    (srv : Server T) (body : Json T) : Handling T Unit := do
  let items ← as_dict body
  let name ← stripped ((items.lookup "name").getD (.str ""))
  named_call c method srv name

def handle_service_start (srv : Server T) (body : Json T) : Handling T Unit :=
  service_call .start_service (·.start_service) srv body

def handle_service_stop (srv : Server T) (body : Json T) : Handling T Unit :=
  service_call .stop_service (·.stop_service) srv body

def handle_mesh_sync (srv : Server T) : Handling T Unit :=
  match srv.mesh with
  | none => send_json srv (error "mesh not configured") 503
  | some mesh => do
    let result ← call .sync_state (.ok mesh.sync_state)
    send_json srv result 200

def handle_build_trigger (srv : Server T) : Handling T Unit :=
  match srv.kernel_api with
  | none => send_json srv (error "kernel_api not configured") 503
  | some api => Traced.catching
    (do
      let _ ← call (.publish "BUILD_TRIGGER" "command_channel" "normal") api.publish
      send_json srv (.obj [("status", .str "triggered")]) 200)
    fun exc => send_json srv (error exc.str) 500

/-- A handler, with the body of a POST. -/
def handle (srv : Server T) (body : Json T) : Handler → Handling T Unit
  | .handle_identity => handle_identity srv
  | .handle_status => handle_status srv
  | .handle_capabilities => handle_capabilities srv
  | .handle_metrics => handle_metrics srv
  | .handle_peers => handle_peers srv
  | .handle_services => handle_services srv
  | .handle_health => handle_health srv
  | .handle_mesh_status => handle_mesh_status srv
  | .handle_logs => handle_logs srv
  | .handle_version => handle_version srv
  | .handle_announce => handle_announce int srv body
  | .handle_cmd => handle_cmd str srv body
  | .handle_service_start => handle_service_start srv body
  | .handle_service_stop => handle_service_stop srv body
  | .handle_mesh_sync => handle_mesh_sync srv
  | .handle_build_trigger => handle_build_trigger srv

/-! ### Routing -/

/-- `_check_auth`. -/
def check_auth (srv : Server T) (request : Request) : Bool :=
  srv.api_key = "" ∨ (get_header request "X-AURA-Key").getD "" = srv.api_key

variable (loads : List UInt8 → Loaded T)

/-- `json.loads`, with the `except` clause of `_read_body`. -/
def load_body (bytes : List UInt8) : Handling T (Json T) :=
  match loads bytes with
  | .value v => pure v
  | .value_error => pure (.obj [])
  | .recursion_error => .raise .recursion_error

/-- `_read_body`. -/
def read_body (request : Request) : Handling T (Json T) := do
  let length ← Traced.ofOption .conversion_error (content_length request)
  if length ≤ 0 then pure (.obj [])
  else do
    let bytes ← Traced.ofOption .read_error (request.rfile length.toNat)
    load_body loads bytes

/-- The handler of a path. -/
def dispatch (routes : List (String × Handler)) (srv : Server T) (request : Request)
    (body : Json T) : Handling T Unit :=
  match routes.lookup (route request.path) with
  | some handler => handle int str srv body handler
  | none => send_json srv CommandChannel.not_found.body 404

def do_GET (srv : Server T) (request : Request) : Handling T Unit :=
  if check_auth srv request then dispatch int str getRoutes srv request (.obj [])
  else send_json srv CommandChannel.forbidden.body 403

def do_POST (srv : Server T) (request : Request) : Handling T Unit :=
  if check_auth srv request then do
    let body ← read_body loads request
    dispatch int str postRoutes srv request body
  else send_json srv CommandChannel.forbidden.body 403

def serve (srv : Server T) (request : Request) : Method → Handling T Unit
  | .GET => do_GET int str srv request
  | .POST => do_POST int str loads srv request

end bodies

/-! ### Responses -/

/-- The handler returns after exactly one response. -/
abbrev Answers (x : Handling T Unit) : Prop := x.Once Obs.isResponse

/-- No response is sent. -/
abbrev Silent {α : Type} (x : Handling T α) : Prop := x.Quiet Obs.isResponse

theorem silent_call (c : Call T) (answer : Except String (Json T)) : Silent (call c answer) :=
  Traced.quiet_observe rfl _

theorem silent_ofOption {α : Type} (e : Exc) (a : Option α) :
    Silent (Traced.ofOption e a : Handling T α) := rfl

theorem silent_as_dict (body : Json T) : Silent (as_dict body) := by
  cases body <;> rfl

theorem silent_stripped (v : Json T) : Silent (stripped v) := by
  cases v <;> rfl

theorem silent_add_or_update (srv : Server T) (node_id : Json T) (args : PeerArgs T) :
    Silent (add_or_update srv node_id args) := by
  unfold add_or_update
  split
  · exact Traced.quiet_observe rfl _
  · exact Traced.quiet_raise _

theorem silent_status_services (api : KernelApi T) : Silent (status_services api) := by
  unfold status_services
  cases api.list_services <;> rfl

/-- The fields that `status_services` returns. -/
def services_fields (api : KernelApi T) : List (String × Json T) :=
  match api.list_services with
  | .ok services => [("services", services)]
  | .error _ => []

theorem status_services_result (api : KernelApi T) :
    (status_services api).result = .ok (services_fields api) := by
  unfold status_services services_fields
  cases api.list_services <;> rfl

theorem silent_read_body (loads : List UInt8 → Loaded T) (request : Request) :
    Silent (read_body loads request) := by
  refine (silent_ofOption _ _).andThen fun length _ => ?_
  split
  · rfl
  · refine (silent_ofOption _ _).andThen fun bytes _ => ?_
    unfold load_body
    cases loads bytes <;> rfl

/-- A response is sent if `json.dumps` gets through it, and the id of the node goes
    into a header. -/
theorem answers_send_iff (srv : Server T) (data : Json T) (status : Nat) :
    Answers (send_json srv data status) ↔
      encodable srv.node_id = true ∧ data.depth ≤ srv.recursion_limit := by
  unfold send_json
  split
  next hdepth =>
    split
    next h => exact iff_of_true (Traced.once_observe rfl _) ⟨h, hdepth⟩
    next h => exact iff_of_false (Traced.quiet_raise _).not_once fun hboth => h hboth.1
  next hdepth => exact iff_of_false (Traced.quiet_raise _).not_once fun hboth => hdepth hboth.2

theorem send_trace {srv : Server T} {data : Json T} {status : Nat}
    (h : Answers (send_json srv data status)) :
    (send_json srv data status).trace = [.responded ⟨status, data⟩] := by
  obtain ⟨hencodable, hdepth⟩ := (answers_send_iff ..).mp h
  unfold send_json
  rw [if_pos hdepth, if_pos hencodable]
  rfl

/-- What a handler builds on its own is sent. -/
theorem answers_own_iff {srv : Server T} {data : Json T} (hdata : data.depth ≤ 2) (status : Nat) :
    Answers (send_json srv data status) ↔ encodable srv.node_id = true := by
  rw [answers_send_iff]
  exact and_iff_left (hdata.trans srv.two_le_recursion_limit)

/-- What is not sent raises before. -/
theorem silent_send {srv : Server T} {data : Json T} {status : Nat}
    (h : ¬ (encodable srv.node_id = true ∧ data.depth ≤ srv.recursion_limit)) :
    Silent (send_json srv data status) ∧ ∃ e, (send_json srv data status).result = .error e := by
  unfold send_json
  split
  next hdepth =>
    rw [if_neg fun hencodable => h ⟨hencodable, hdepth⟩]
    exact ⟨Traced.quiet_raise _, _, rfl⟩
  next => exact ⟨Traced.quiet_raise _, _, rfl⟩

theorem send_own_eq {srv : Server T} (h : encodable srv.node_id = true) (data : Json T)
    (hdata : data.depth ≤ 2) (status : Nat) :
    send_json srv data status = ⟨[.responded ⟨status, data⟩], .ok ()⟩ := by
  unfold send_json
  rw [if_pos (hdata.trans srv.two_le_recursion_limit), if_pos h]
  rfl

/-- A guarded call answers, whatever the component returns or raises. -/
theorem answers_guarded_iff (srv : Server T) (c : Call T) (answer : Except String (Json T))
    (data : Json T → Json T) (status : Nat) {failed : Exc → Json T}
    (hfailed : ∀ exc, (failed exc).depth ≤ 2) (status' : Nat) :
    Answers (Traced.catching
      (do
        let v ← call c answer
        send_json srv (data v) status)
      fun exc => send_json srv (failed exc) status') ↔ encodable srv.node_id = true := by
  have hcall : Silent (call c answer) := silent_call c answer
  by_cases h : encodable srv.node_id = true
  · have hanswers := fun exc => (answers_own_iff (hfailed exc) status').mpr h
    refine iff_of_true (Traced.once_catching ?_ hanswers) h
    cases answer with
    | error text => exact Or.inr ⟨hcall, .exception text, rfl⟩
    | ok v =>
      -- what `json.dumps` does not get through is caught like an exception of the component
      by_cases hdata : (data v).depth ≤ srv.recursion_limit
      · exact Or.inl (hcall.once_andThen_iff.mpr ⟨v, rfl, (answers_send_iff ..).mpr ⟨h, hdata⟩⟩)
      · have hsend : Silent (send_json srv (data v) status) ∧
            ∃ e, (send_json srv (data v) status).result = .error e :=
          silent_send fun hboth => hdata hboth.2
        obtain ⟨hsilent, e, he⟩ := hsend
        refine Or.inr ⟨hcall.andThen fun w hw => ?_, e, ?_⟩
        · rwa [← Except.ok.inj hw]
        · exact he
  · -- both responses fail at the same header
    have hsilent : ∀ data status, Silent (send_json srv data status) := fun data status =>
      (silent_send fun hboth => h hboth.1).1
    refine iff_of_false (Traced.Quiet.not_once ?_) h
    exact (hcall.andThen fun v _ => hsilent _ _).catching fun exc => hsilent _ _

/-- A call that is not guarded, and then a response. -/
theorem answers_call_iff (srv : Server T) (c : Call T) (v : Json T) (status : Nat) :
    Answers
      (do
        let v ← call c (.ok v)
        send_json srv v status) ↔
      encodable srv.node_id = true ∧ v.depth ≤ srv.recursion_limit := by
  refine (silent_call _ _).once_andThen_iff.trans ?_
  rw [← answers_send_iff srv v status]
  constructor
  · rintro ⟨w, hw, h⟩
    rwa [Except.ok.inj hw]
  · intro h
    exact ⟨v, rfl, h⟩

theorem answers_handle_status_iff (srv : Server T) :
    Answers (handle_status srv) ↔ encodable srv.node_id = true ∧
      ∀ api, srv.kernel_api = some api → ∀ services, api.list_services = .ok services →
        services.depth < srv.recursion_limit := by
  unfold handle_status
  cases hkernel : srv.kernel_api with
  | none =>
    refine (answers_own_iff (by simp [status_data]) _).trans ?_
    exact (and_iff_left fun api h => by cases h).symm
  | some api =>
    refine (silent_status_services api).once_andThen_iff.trans ?_
    simp only [status_services_result, Except.ok.injEq, exists_eq_left', answers_send_iff,
      Option.some.injEq, forall_eq']
    refine and_congr_right fun _ => ?_
    unfold services_fields
    cases api.list_services with
    | ok services => simp [status_data, Nat.add_one_le_iff]
    | error text =>
      have hlimit : 1 ≤ srv.recursion_limit := Nat.le_of_succ_le srv.two_le_recursion_limit
      simpa [status_data] using hlimit

theorem answers_handle_peers_iff (srv : Server T) :
    Answers (handle_peers srv) ↔ encodable srv.node_id = true ∧
      ∀ peer ∈ srv.peer_registry.getD [], peer.depth + 2 ≤ srv.recursion_limit := by
  have hlimit := srv.two_le_recursion_limit
  unfold handle_peers
  split
  next =>
    rw [answers_send_iff]
    refine and_congr_right fun _ => ?_
    have hdepth : (Json.obj [("peers", .arr (srv.peer_registry.getD []))]).depth =
        Json.depthItems (srv.peer_registry.getD []) + 2 := by simp
    have hsub := Json.depthItems_le_iff (srv.peer_registry.getD []) (srv.recursion_limit - 2)
    rw [hdepth, ← Nat.le_sub_iff_add_le hlimit, hsub]
    exact forall₂_congr fun peer _ => Nat.le_sub_iff_add_le hlimit
  next hregistry =>
    refine (answers_own_iff (by simp) _).trans ?_
    have hnone : srv.peer_registry.getD [] = [] := by
      unfold has_registry at hregistry
      cases hpeers : srv.peer_registry with
      | none => rfl
      | some peers => simpa [hpeers] using hregistry
    rw [hnone]
    exact (and_iff_left fun peer h => by cases h).symm

theorem answers_handle_services_iff (srv : Server T) :
    Answers (handle_services srv) ↔ encodable srv.node_id = true := by
  unfold handle_services
  cases srv.kernel_api with
  | none => exact answers_own_iff (by simp) _
  | some api => exact answers_guarded_iff _ _ _ _ _ (fun _ => by simp) _

theorem answers_handle_health_iff (srv : Server T) :
    Answers (handle_health srv) ↔ encodable srv.node_id = true := by
  unfold handle_health
  cases srv.health_monitor with
  | none => exact answers_own_iff (by simp) _
  | some health_report => exact answers_guarded_iff _ _ _ (fun v => v) _ (fun _ => by simp) _

theorem answers_handle_mesh_status_iff (srv : Server T) :
    Answers (handle_mesh_status srv) ↔ encodable srv.node_id = true ∧
      ∀ mesh, srv.mesh = some mesh → mesh.status.depth ≤ srv.recursion_limit := by
  unfold handle_mesh_status
  cases srv.mesh with
  | none =>
    refine (answers_own_iff (by simp) _).trans ?_
    exact (and_iff_left fun mesh h => by cases h).symm
  | some mesh =>
    refine (answers_call_iff ..).trans ?_
    simp

theorem answers_handle_mesh_sync_iff (srv : Server T) :
    Answers (handle_mesh_sync srv) ↔ encodable srv.node_id = true ∧
      ∀ mesh, srv.mesh = some mesh → mesh.sync_state.depth ≤ srv.recursion_limit := by
  unfold handle_mesh_sync
  cases srv.mesh with
  | none =>
    refine (answers_own_iff (by simp [error]) _).trans ?_
    exact (and_iff_left fun mesh h => by cases h).symm
  | some mesh =>
    refine (answers_call_iff ..).trans ?_
    simp

theorem answers_handle_logs_iff (srv : Server T) :
    Answers (handle_logs srv) ↔ encodable srv.node_id = true :=
  answers_own_iff (by simp [Json.depthItems_texts]) _

theorem answers_handle_build_trigger_iff (srv : Server T) :
    Answers (handle_build_trigger srv) ↔ encodable srv.node_id = true := by
  unfold handle_build_trigger
  cases srv.kernel_api with
  | none => exact answers_own_iff (by simp [error]) _
  | some api => exact answers_guarded_iff _ _ _ _ _ (fun _ => by simp [error]) _

theorem as_dict_ok_iff {body : Json T} {items : List (String × Json T)} :
    (as_dict body).result = .ok items ↔ body = .obj items := by
  cases body <;> simp [as_dict, Traced.raise]

theorem stripped_ok_iff {v : Json T} {text : String} :
    (stripped v).result = .ok text ↔ ∃ s, v = .str s ∧ PyStr.strip s = text := by
  cases v <;> simp [stripped, Traced.raise]

/-- The field of the object is a text, if the object has it. -/
def TextField (items : List (String × Json T)) (key : String) : Prop :=
  ∀ v, items.lookup key = some v → ∃ s, v = .str s

theorem textField_iff {items : List (String × Json T)} {key : String} :
    TextField items key ↔ ∃ s, (items.lookup key).getD (.str "") = .str s := by
  unfold TextField
  cases items.lookup key with
  | none => simp
  | some v => simp

/-- What a field that is stripped and then used needs. -/
theorem answers_stripped_iff {srv : Server T} {body : Json T} {key : String}
    {f : String → Handling T Unit}
    (hf : ∀ text, Answers (f text) ↔ encodable srv.node_id = true) :
    Answers
      (do
        let items ← as_dict body
        let text ← stripped ((items.lookup key).getD (.str ""))
        f text) ↔
      encodable srv.node_id = true ∧ ∃ items, body = .obj items ∧ TextField items key := by
  refine (silent_as_dict body).once_andThen_iff.trans ?_
  constructor
  · rintro ⟨items, hitems, hanswers⟩
    obtain ⟨text, htext, hanswers⟩ := (silent_stripped _).once_andThen_iff.mp hanswers
    obtain ⟨s, hs, -⟩ := stripped_ok_iff.mp htext
    exact ⟨(hf text).mp hanswers, items, as_dict_ok_iff.mp hitems, textField_iff.mpr ⟨s, hs⟩⟩
  · rintro ⟨h, items, hitems, hfield⟩
    obtain ⟨s, hs⟩ := textField_iff.mp hfield
    exact ⟨items, as_dict_ok_iff.mpr hitems, (silent_stripped _).once_andThen_iff.mpr
      ⟨PyStr.strip s, stripped_ok_iff.mpr ⟨s, hs, rfl⟩, (hf _).mpr h⟩⟩

/-- The body that a request carries. Its length is a number, and without bytes, or with
    bytes that are no JSON, it is an empty object. -/
inductive Carries (loads : List UInt8 → Loaded T) (request : Request) : Json T → Prop where
  | empty {length : Int} (hlength : content_length request = some length) (h : length ≤ 0) :
    Carries loads request (.obj [])
  | value {length : Int} (hlength : content_length request = some length) (h : 0 < length)
      {bytes : List UInt8} (hbytes : request.rfile length.toNat = some bytes) {v : Json T}
      (hv : loads bytes = .value v) : Carries loads request v
  | no_json {length : Int} (hlength : content_length request = some length) (h : 0 < length)
      {bytes : List UInt8} (hbytes : request.rfile length.toNat = some bytes)
      (hv : loads bytes = .value_error) : Carries loads request (.obj [])

theorem load_body_ok_iff (loads : List UInt8 → Loaded T) (bytes : List UInt8) (body : Json T) :
    (load_body loads bytes).result = .ok body ↔
      loads bytes = .value body ∨ loads bytes = .value_error ∧ body = .obj [] := by
  unfold load_body
  cases loads bytes with
  | value v => simp
  | value_error => simp [eq_comm]
  | recursion_error => simp [Traced.raise]

theorem read_body_ok_iff (loads : List UInt8 → Loaded T) (request : Request) (body : Json T) :
    (read_body loads request).result = .ok body ↔ Carries loads request body := by
  unfold read_body
  rw [Traced.bind_eq, Traced.andThen_ok_iff]
  constructor
  · rintro ⟨length, hlength, h⟩
    have hlength := Traced.ofOption_ok_iff.mp hlength
    split at h
    next hle =>
      obtain rfl : Json.obj [] = body := Except.ok.inj h
      exact .empty hlength hle
    next hle =>
      obtain ⟨bytes, hbytes, h⟩ := Traced.andThen_ok_iff.mp h
      have hbytes := Traced.ofOption_ok_iff.mp hbytes
      rcases (load_body_ok_iff ..).mp h with hv | ⟨hv, rfl⟩
      · exact .value hlength (not_le.mp hle) hbytes hv
      · exact .no_json hlength (not_le.mp hle) hbytes hv
  · rintro (⟨hlength, hle⟩ | ⟨hlength, hlt, hbytes, hv⟩ | ⟨hlength, hlt, hbytes, hv⟩)
    · refine ⟨_, Traced.ofOption_ok_iff.mpr hlength, ?_⟩
      rw [if_pos hle]
      rfl
    · refine ⟨_, Traced.ofOption_ok_iff.mpr hlength, ?_⟩
      rw [if_neg (not_le.mpr hlt)]
      exact Traced.andThen_ok_iff.mpr ⟨_, Traced.ofOption_ok_iff.mpr hbytes,
        (load_body_ok_iff ..).mpr (Or.inl hv)⟩
    · refine ⟨_, Traced.ofOption_ok_iff.mpr hlength, ?_⟩
      rw [if_neg (not_le.mpr hlt)]
      exact Traced.andThen_ok_iff.mpr ⟨_, Traced.ofOption_ok_iff.mpr hbytes,
        (load_body_ok_iff ..).mpr (Or.inr ⟨hv, rfl⟩)⟩

section bodies

variable (int : Json T → Option Int)

/-- The announcements that the registry takes: the id of the node is a key, the port is a
    number, and the registry can be saved. -/
structure Announceable (srv : Server T) (items : List (String × Json T)) (node_id : Json T) :
    Prop where
  hashable : hashable node_id = true
  port : (int ((items.lookup "port").getD (.int 0))).isSome = true
  saves : srv.saves = true

theorem silent_announce (srv : Server T) (node_id : Json T) (items : List (String × Json T)) :
    Silent (announce int srv node_id items) := by
  unfold announce
  split
  · exact (silent_ofOption _ _).andThen fun args _ => silent_add_or_update srv node_id args
  · rfl

theorem add_or_update_ok_iff (srv : Server T) (node_id : Json T) (args : PeerArgs T) :
    (add_or_update srv node_id args).result = .ok () ↔
      hashable node_id = true ∧ srv.saves = true := by
  unfold add_or_update
  split
  next hkey =>
    cases hsaves : srv.saves with
    | true => exact iff_of_true rfl ⟨hkey, rfl⟩
    | false => exact iff_of_false (fun h => by cases h) fun h => by cases h.2
  next hkey => exact iff_of_false (fun h => by cases h) fun h => hkey h.1

theorem announce_ok_iff (srv : Server T) (node_id : Json T) (items : List (String × Json T)) :
    (announce int srv node_id items).result = .ok () ↔
      (has_registry srv = true → Announceable int srv items node_id) := by
  unfold announce
  split
  next hregistry =>
    -- the port is the one argument that is converted
    have hargs : (PeerEntry.ofObject items).args int =
        (int ((items.lookup "port").getD (.int 0))).map _ := rfl
    rw [Traced.bind_eq, hargs]
    cases hport : int ((items.lookup "port").getD (.int 0)) with
    | none =>
      rw [Traced.andThen_of_error (e := .conversion_error) rfl]
      refine iff_of_false (fun h => by cases h) fun h => ?_
      have hsome := (h hregistry).port
      rw [hport] at hsome
      cases hsome
    | some port =>
      rw [Traced.andThen_of_ok rfl]
      refine (add_or_update_ok_iff srv node_id _).trans ?_
      exact ⟨fun h _ => ⟨h.1, by rw [hport]; rfl, h.2⟩,
        fun h => ⟨(h hregistry).hashable, (h hregistry).saves⟩⟩
  next hregistry => exact iff_of_true rfl fun h => absurd h hregistry

variable [Clock T] (str : Json T → String)

theorem answers_command_iff (srv : Server T) (cmd : String) :
    Answers (command str srv cmd) ↔ encodable srv.node_id = true := by
  unfold command
  split
  · exact answers_own_iff (by simp [error]) _
  · cases srv.dispatch_fn with
    | none => exact answers_own_iff (by simp [error]) _
    | some dispatch => exact answers_guarded_iff _ _ _ _ _ (fun _ => by simp) _

theorem answers_named_call_iff (c : String → Call T)
    (method : KernelApi T → String → Except String (Json T)) (srv : Server T) (name : String) :
    Answers (named_call c method srv name) ↔ encodable srv.node_id = true := by
  unfold named_call
  split
  · exact answers_own_iff (by simp [error]) _
  · cases srv.kernel_api with
    | none => exact answers_own_iff (by simp [error]) _
    | some api => exact answers_guarded_iff _ _ _ _ _ (fun _ => by simp [error]) _

theorem answers_handle_announce_iff (srv : Server T) (body : Json T) :
    Answers (handle_announce int srv body) ↔ encodable srv.node_id = true ∧
      ∃ items, body = .obj items ∧
        (((items.lookup "node_id").getD .null).truthy = true → has_registry srv = true →
          Announceable int srv items ((items.lookup "node_id").getD .null)) := by
  refine (silent_as_dict body).once_andThen_iff.trans ?_
  simp only [as_dict_ok_iff]
  rw [← exists_and_left]
  refine exists_congr fun items => ?_
  rw [and_left_comm]
  refine and_congr_right fun _ => ?_
  split
  next htruthy =>
    refine (silent_announce int srv _ items).once_andThen_iff.trans ?_
    have hsend : Answers (send_json srv
        (.obj [("status", .str "ok"), ("node_id", .str srv.node_id)]) 200) ↔
        encodable srv.node_id = true := answers_own_iff (by simp) 200
    rw [← announce_ok_iff, forall_prop_of_true htruthy]
    simp only [hsend]
    exact ⟨fun ⟨_, hok, h⟩ => ⟨h, hok⟩, fun ⟨h, hok⟩ => ⟨(), hok, h⟩⟩
  next htruthy =>
    refine (answers_own_iff (by simp [error]) _).trans ?_
    exact (and_iff_left fun htrue => absurd htrue htruthy).symm

/-- What a handler gets through with: a body that it takes, and values of the components
    that are not nested too deep for a response. -/
def Takes (srv : Server T) (body : Json T) : Handler → Prop
  | .handle_identity => srv.identity.depth ≤ srv.recursion_limit
  | .handle_status =>
    ∀ api, srv.kernel_api = some api → ∀ services, api.list_services = .ok services →
      services.depth < srv.recursion_limit
  | .handle_capabilities => srv.capability_summary.depth < srv.recursion_limit
  | .handle_metrics => srv.metrics.depth ≤ srv.recursion_limit
  | .handle_peers => ∀ peer ∈ srv.peer_registry.getD [], peer.depth + 2 ≤ srv.recursion_limit
  | .handle_mesh_status =>
    ∀ mesh, srv.mesh = some mesh → mesh.status.depth ≤ srv.recursion_limit
  | .handle_mesh_sync =>
    ∀ mesh, srv.mesh = some mesh → mesh.sync_state.depth ≤ srv.recursion_limit
  | .handle_announce =>
    ∃ items, body = .obj items ∧
      (((items.lookup "node_id").getD .null).truthy = true → has_registry srv = true →
        Announceable int srv items ((items.lookup "node_id").getD .null))
  | .handle_cmd => ∃ items, body = .obj items ∧ TextField items "cmd"
  | .handle_service_start => ∃ items, body = .obj items ∧ TextField items "name"
  | .handle_service_stop => ∃ items, body = .obj items ∧ TextField items "name"
  | .handle_services => True
  | .handle_health => True
  | .handle_logs => True
  | .handle_version => True
  | .handle_build_trigger => True

theorem answers_handle_iff (srv : Server T) (body : Json T) (handler : Handler) :
    Answers (handle int str srv body handler) ↔
      encodable srv.node_id = true ∧ Takes int srv body handler := by
  cases handler with
  | handle_announce => exact answers_handle_announce_iff int srv body
  | handle_cmd => exact answers_stripped_iff (answers_command_iff str srv)
  | handle_service_start => exact answers_stripped_iff (answers_named_call_iff _ _ srv)
  | handle_service_stop => exact answers_stripped_iff (answers_named_call_iff _ _ srv)
  | handle_status => exact answers_handle_status_iff srv
  | handle_peers => exact answers_handle_peers_iff srv
  | handle_mesh_status => exact answers_handle_mesh_status_iff srv
  | handle_mesh_sync => exact answers_handle_mesh_sync_iff srv
  | handle_identity => exact answers_send_iff ..
  | handle_capabilities =>
    refine (answers_send_iff ..).trans (and_congr_right fun _ => ?_)
    simp [Takes, Nat.add_one_le_iff]
  | handle_metrics => exact answers_send_iff ..
  | handle_services => exact (answers_handle_services_iff srv).trans (and_iff_left trivial).symm
  | handle_health => exact (answers_handle_health_iff srv).trans (and_iff_left trivial).symm
  | handle_logs => exact (answers_handle_logs_iff srv).trans (and_iff_left trivial).symm
  | handle_version => exact (answers_own_iff (by simp) _).trans (and_iff_left trivial).symm
  | handle_build_trigger =>
    exact (answers_handle_build_trigger_iff srv).trans (and_iff_left trivial).symm

/-! ### Whole requests -/

variable (loads : List UInt8 → Loaded T)

theorem answers_dispatch_iff (routes : List (String × Handler)) (srv : Server T)
    (request : Request) (body : Json T) :
    Answers (dispatch int str routes srv request body) ↔ encodable srv.node_id = true ∧
      ∀ handler, routes.lookup (route request.path) = some handler →
        Takes int srv body handler := by
  unfold dispatch
  cases hroute : routes.lookup (route request.path) with
  | none =>
    have hdata : (CommandChannel.not_found : Response T).body.depth ≤ 2 := by
      simp [CommandChannel.not_found]
    refine (answers_own_iff hdata _).trans ?_
    exact (and_iff_left fun handler h => by cases h).symm
  | some handler =>
    refine (answers_handle_iff int str srv body handler).trans ?_
    refine and_congr_right fun _ => ⟨fun h handler' heq => ?_, fun h => h handler rfl⟩
    rwa [← Option.some.inj heq]

/-- The routes of a method. -/
def Method.routes : Method → List (String × Handler)
  | .GET => getRoutes
  | .POST => postRoutes

/-- The body that the handler of a request gets. -/
def Method.Receives (request : Request) (body : Json T) : Method → Prop
  | .GET => body = .obj []
  | .POST => Carries loads request body

/-- What the interface promises of a request: the handler returns after exactly one
    response, which is all it does for a request without the key. -/
structure Robust (srv : Server T) (request : Request) (x : Handling T Unit) : Prop where
  answers : Answers x
  unauthenticated : check_auth srv request = false → ∃ r, x.trace = [.responded r]

omit [Clock T] in
theorem forbidden_robust_iff {srv : Server T} {request : Request} :
    Robust srv request (send_json srv CommandChannel.forbidden.body 403) ↔
      encodable srv.node_id = true := by
  have hdata : (CommandChannel.forbidden : Response T).body.depth ≤ 2 := by
    simp [CommandChannel.forbidden]
  constructor
  · exact fun h => (answers_own_iff hdata _).mp h.answers
  · intro h
    refine ⟨(answers_own_iff hdata _).mpr h, fun _ => ?_⟩
    rw [send_own_eq h _ hdata]
    exact ⟨_, rfl⟩

end bodies

/-! ### The requests of other nodes -/

/-- The server of a node, as the requests of other nodes see it. -/
structure Serves (srv : Server T) (node : CommandChannel.Node T) (env : CommandChannel.Env T) :
    Prop where
  node_id : srv.node_id = node.mesh.identity.node_id
  «alias» : srv.alias = node.mesh.identity.alias
  uptime_s : srv.uptime_s = env.uptime_s
  ts : srv.ts = env.ts
  services : env.services = srv.kernel_api.bind fun api => api.list_services.toOption
  registry : has_registry srv = CommandChannel.has_registry node
  saves : srv.saves = true
  encodable : encodable srv.node_id = true
  shallow : ∀ services ∈ env.services, services.depth < srv.recursion_limit

section serves

variable {srv : Server T} {node : CommandChannel.Node T} {env : CommandChannel.Env T}

/-- The status of a node is what other nodes are told. -/
theorem handle_status_serves (h : Serves srv node env) :
    .responded (CommandChannel.handle_status node env) ∈ (handle_status srv).trace := by
  have hdata : status_data srv = [("node_id", .str node.mesh.identity.node_id),
      ("alias", .str node.mesh.identity.alias), ("version", .str "0.1.0"),
      ("status", .str "running"), ("uptime_s", .float env.uptime_s), ("ts", .float env.ts)] := by
    unfold status_data
    rw [h.node_id, h.alias, h.uptime_s, h.ts]
  have hanswers : Answers (handle_status srv) := by
    refine (answers_handle_status_iff srv).mpr ⟨h.encodable, fun api hapi services hok => ?_⟩
    refine h.shallow services ?_
    rw [h.services, hapi, Option.bind_some, hok]
    rfl
  unfold CommandChannel.handle_status
  rw [h.services, ← hdata]
  unfold handle_status at hanswers ⊢
  cases hkernel : srv.kernel_api with
  | none =>
    rw [hkernel] at hanswers
    dsimp only at hanswers ⊢
    rw [send_trace hanswers]
    simp
  | some api =>
    rw [hkernel] at hanswers
    obtain ⟨fields, hfields, hsend⟩ := (silent_status_services api).once_andThen_iff.mp hanswers
    obtain rfl := Except.ok.inj ((status_services_result api).symm.trans hfields)
    dsimp only
    rw [Traced.bind_eq, Traced.andThen_of_ok hfields, send_trace hsend]
    refine List.mem_append_right _ ?_
    unfold services_fields
    cases hservices : api.list_services with
    | ok services => simp [Except.toOption, hservices]
    | error text => simp [Except.toOption, hservices]

/-- An announcement with a text for an id does to the registry what the mesh relies on. -/
theorem handle_announce_serves [Clock T] (int : Json T → Option Int) (h : Serves srv node env)
    {body : Json T} (hid : ∀ items, body = .obj items → TextField items "node_id") :
    match CommandChannel.handle_announce int node env body with
    | none => ∃ e, (handle_announce int srv body).result = .error e
    | some (node', r) =>
      (handle_announce int srv body).result = .ok () ∧
        (node' = node ∧ (handle_announce int srv body).trace = [.responded r] ∨
          ∃ id args, node' = CommandChannel.announced node id args env.announced ∧
            (handle_announce int srv body).trace =
              [.called (.add_or_update (.str id) args), .responded r]) := by
  cases body with
  | obj items =>
    -- both read a missing id and an id that is a text alike
    have hnode_id : (PeerEntry.ofObject items).node_id = none ∧
          (items.lookup "node_id").getD .null = .null ∨
        ∃ id, (PeerEntry.ofObject items).node_id = some id ∧
          (items.lookup "node_id").getD .null = .str id := by
      simp only [PeerEntry.ofObject]
      cases hlookup : items.lookup "node_id" with
      | none => exact Or.inl ⟨rfl, rfl⟩
      | some v =>
        obtain ⟨id, rfl⟩ := hid items rfl v hlookup
        exact Or.inr ⟨id, rfl, rfl⟩
    have hrequired := send_own_eq h.encodable (.obj [("error", .str "node_id required")])
      (by simp) 400
    have hok := send_own_eq h.encodable
      (.obj [("status", .str "ok"), ("node_id", .str node.mesh.identity.node_id)]) (by simp) 200
    rcases hnode_id with ⟨hnone, hnull⟩ | ⟨id, hsome, hstr⟩
    · simp [CommandChannel.handle_announce, handle_announce, hnone, hnull, as_dict,
        Traced.andThen, Json.truthy, hrequired, error]
    · by_cases hempty : id = ""
      · simp [CommandChannel.handle_announce, handle_announce, hsome, hstr, hempty, as_dict,
          Traced.andThen, Json.truthy, hrequired, error]
      · by_cases hregistry : CommandChannel.has_registry node = true
        · cases hargs : (PeerEntry.ofObject items).args int with
          | none =>
            simp [CommandChannel.handle_announce, handle_announce, announce, hsome, hstr, hempty,
              as_dict, Traced.andThen, Json.truthy, h.registry, hregistry, hargs,
              Traced.ofOption]
          | some args =>
            simp [CommandChannel.handle_announce, handle_announce, announce, hsome, hstr, hempty,
              as_dict, Traced.andThen, Json.truthy, h.registry, hregistry, hargs,
              Traced.ofOption, add_or_update, hashable, Traced.observe, h.saves, hok, h.node_id]
        · simp [CommandChannel.handle_announce, handle_announce, announce, hsome, hstr, hempty,
            as_dict, Traced.andThen, Json.truthy, h.registry, hregistry, hok, h.node_id]
  | _ => exact ⟨.attribute_error, rfl⟩

end serves

theorem two_le_thousand : 2 ≤ 1000 := by decide

/-- A node without other components, and without a key. -/
def bareServer : Server ℚ where
  api_key := ""
  node_id := "a"
  «alias» := "aura-a"
  identity := .obj []
  capability_summary := .obj []
  kernel_api := none
  peer_registry := none
  saves := true
  mesh := none
  health_monitor := none
  dispatch_fn := none
  log_buffer := []
  metrics := .obj []
  recursion_limit := 1000
  two_le_recursion_limit := two_le_thousand
  uptime_s := 0
  ts := 0

theorem bareServer_sendable : encodable bareServer.node_id = true := by decide

/-- The bytes `[]` are sent as a command. -/
def arrayRequest : Request where
  path := "/api/cmd"
  headers := [("Content-Length", "2")]
  rfile := fun _ => some [0x5b, 0x5d]

end CommandHandler
