import Aioscpu.Framework.PyStr
import Aioscpu.Vnet.Mesh

/-! # Command Channel

  The requests of `services/command_channel.py` that nodes make of each other:
  the announcement of a peer and the status of a node. What the handlers of
  the other paths respond is a parameter.

  The headers of a request are those that the caller sets. The ones that the
  HTTP library adds do not matter here.
-/

/-- What the platform tells about the machine of a node. -/
structure Platform where
  hostname : String
  system : String
  arch : String
  python : String

/-- `NodeIdentity.to_dict`. -/
def NodeIdentity.to_dict {T : Type} (self : NodeIdentity T) (platform : Platform) :
    List (String × Json T) :=
  [("node_id", .str self.node_id), ("alias", .str self.alias), ("version", .str self.version),
    ("created_at", .float self.created_at), ("hostname", .str platform.hostname),
    ("platform", .str platform.system), ("arch", .str platform.arch),
    ("python", .str platform.python),
    ("capabilities", .arr (self.capabilities.keys.map .str))]

namespace CommandChannel

structure Request (T : Type) where
  path : String
  headers : List (String × String)
  /-- What `_read_body` returns. -/
  body : Json T

structure Response (T : Type) where
  status : Nat
  body : Json T

/-- A node with its mesh and its command channel, which share the registry of
    the peers. -/
structure Node (T : Type) where
  mesh : VirtualMesh T
  platform : Platform
  api_key : String

variable {T : Type}

inductive Handler where
  | handle_identity
  | handle_status
  | handle_capabilities
  | handle_metrics
  | handle_peers
  | handle_services
  | handle_health
  | handle_mesh_status
  | handle_logs
  | handle_version
  | handle_announce
  | handle_cmd
  | handle_service_start
  | handle_service_stop
  | handle_mesh_sync
  | handle_build_trigger
deriving DecidableEq, Repr

/-- The routes of `do_GET`. -/
def getRoutes : List (String × Handler) :=
  [("/api/node/identity", .handle_identity), ("/api/node/status", .handle_status),
    ("/api/node/capabilities", .handle_capabilities), ("/api/node/metrics", .handle_metrics),
    ("/api/peers", .handle_peers), ("/api/services", .handle_services),
    ("/api/health", .handle_health), ("/api/mesh/status", .handle_mesh_status),
    ("/api/logs", .handle_logs), ("/api/version", .handle_version)]

/-- The routes of `do_POST`. -/
def postRoutes : List (String × Handler) :=
  [("/api/node/announce", .handle_announce), ("/api/cmd", .handle_cmd),
    ("/api/service/start", .handle_service_start), ("/api/service/stop", .handle_service_stop),
    ("/api/mesh/sync", .handle_mesh_sync), ("/api/build/trigger", .handle_build_trigger)]

/-- `self.path.split("?")[0].rstrip("/")`. -/
def route (path : String) : String :=
  String.ofList ((path.toList.takeWhile (· ≠ '?')).rdropWhile (· = '/'))

/-- `self.headers.get(name, "")`. -/
def header (request : Request T) (name : String) : String :=
  ((request.headers.find? fun h => PyStr.lower h.1 = PyStr.lower name).map Prod.snd).getD ""

/-- `_check_auth`. -/
def check_auth (node : Node T) (request : Request T) : Bool :=
  node.api_key = "" ∨ header request "X-AURA-Key" = node.api_key

def forbidden : Response T := ⟨403, .obj [("error", .str "Forbidden")]⟩

def not_found : Response T := ⟨404, .obj [("error", .str "Not found"), ("code", .int 404)]⟩

/-- What the environment decides while a request is handled. -/
structure Env (T : Type) where
  /-- `round(time.time() - srv.start_time, 1)`. -/
  uptime_s : T
  ts : T
  /-- What `list_services` returns, if there is an API and it does not raise. -/
  services : Option (Json T)
  /-- The time stamps of a record that is announced. -/
  announced : Readings T
  /-- What another handler does; `none` where it raises. -/
  other : Handler → Option (Node T × Response T)

/-- `_handle_status`. -/
def handle_status (node : Node T) (env : Env T) : Response T :=
  ⟨200, .obj
    ([("node_id", .str node.mesh.identity.node_id), ("alias", .str node.mesh.identity.alias),
      ("version", .str "0.1.0"), ("status", .str "running"), ("uptime_s", .float env.uptime_s),
      ("ts", .float env.ts)] ++ (env.services.map fun services => ("services", services)).toList)⟩

/-- `bool(srv.peer_registry)`: the registry has a length. -/
def has_registry (node : Node T) : Bool := node.mesh.peers.count ≠ 0

/-- An empty registry knows nobody. -/
theorem get_of_not_has_registry {node : Node T} (h : ¬ has_registry node = true) (id : String) :
    node.mesh.peers.peers.get id = none := by
  unfold has_registry PeerRegistry.count at h
  have hitems : node.mesh.peers.peers.records.items = [] := by simpa using h
  unfold Peers.get Dict.get
  rw [hitems]
  rfl

section requests

variable [Clock T] (int : Json T → Option Int)

/-- The node with its registry after an announcement. -/
def announced (node : Node T) (node_id : String) (args : PeerArgs T) (now : Readings T) :
    Node T :=
  { node with
    mesh := { node.mesh with peers := node.mesh.peers.add_or_update node_id args now } }

/-- `_handle_announce`; `none` where the handler raises. -/
def handle_announce (node : Node T) (env : Env T) (body : Json T) :
    Option (Node T × Response T) :=
  match body with
  | .obj items =>
    let body := PeerEntry.ofObject items
    let ok : Response T :=
      ⟨200, .obj [("status", .str "ok"), ("node_id", .str node.mesh.identity.node_id)]⟩
    match body.node_id with
    | none => some (node, ⟨400, .obj [("error", .str "node_id required")]⟩)
    | some node_id =>
      if node_id = "" then some (node, ⟨400, .obj [("error", .str "node_id required")]⟩)
      -- an empty registry is taken for a missing one
      else if has_registry node then
        (body.args int).map fun args => (announced node node_id args env.announced, ok)
      else some (node, ok)
  -- only an object has `get`
  | _ => none

/-- A handler. -/
def handle (node : Node T) (env : Env T) (request : Request T) (handler : Handler) :
    Option (Node T × Response T) :=
  match handler with
  | .handle_status => some (node, handle_status node env)
  | .handle_announce => handle_announce int node env request.body
  | handler => env.other handler

/-- `do_GET` and `do_POST`, with their routes. -/
def dispatch (routes : List (String × Handler)) (node : Node T) (env : Env T)
    (request : Request T) : Option (Node T × Response T) :=
  if check_auth node request then
    match routes.lookup (route request.path) with
    | none => some (node, not_found)
    | some handler => handle int node env request handler
  else some (node, forbidden)

def do_GET (node : Node T) (env : Env T) (request : Request T) : Option (Node T × Response T) :=
  dispatch int getRoutes node env request

def do_POST (node : Node T) (env : Env T) (request : Request T) : Option (Node T × Response T) :=
  dispatch int postRoutes node env request

end requests

/-- `urlopen` raises for an error, and without a response. -/
def opened (response : Option (Node T × Response T)) : Option (Response T) :=
  (response.map Prod.snd).filter (·.status < 400)

end CommandChannel
