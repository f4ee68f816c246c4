import Aioscpu.Services.CommandChannel

/-! # Announcement of a Peer

  A node announces itself to a peer, and the peer pulls its status from it.
  The two ends are `announce_to_peer` and `_fetch_peer_status` of the mesh, and
  the command channels of the two nodes.

  A parameter `connect` stands for the network: the node whose channel answers
  when a node connects to a host and a port.
-/

namespace CommandChannel

variable {ι T : Type}

/-- The body of `announce_to_peer`. -/
def announcement (node : Node T) : List (String × Json T) :=
  node.mesh.identity.to_dict node.platform ++
    [("host", .str node.platform.hostname), ("port", .int 7332)]

/-- The request of `announce_to_peer`. -/
def announce_request (node : Node T) : Request T :=
  ⟨"/api/node/announce", [("Content-Type", "application/json")], .obj (announcement node)⟩

/-- The request of `_fetch_peer_status`. -/
def status_request (node : Node T) : Request T :=
  ⟨"/api/node/status", [("X-Node-ID", node.mesh.identity.node_id),
    ("X-Node-Alias", node.mesh.identity.alias)], .obj []⟩

/-- What the announcement tells. -/
def announced_args (node : Node T) : PeerArgs T :=
  { «alias» := .str node.mesh.identity.alias
    host := .str node.platform.hostname
    port := .int 7332
    capabilities := .arr (node.mesh.identity.capabilities.keys.map .str)
    version := .str node.mesh.identity.version }

section requests

variable [Clock T] [DecidableEq ι] (int : Json T → Option Int)
  (connect : ι → Json T → Json T → Option ι)

/-- `VirtualMesh.announce_to_peer`. -/
def announce_to_peer (env : Env T) (nodes : ι → Node T) (a : ι) (peer : PeerRecord T) :
    (ι → Node T) × Bool :=
  if ¬ (peer.host.truthy ∧ peer.port.truthy) then (nodes, false)
  else
    match connect a peer.host peer.port with
    | none => (nodes, false)
    | some b =>
      let response := do_POST int (nodes b) env (announce_request (nodes a))
      ((response.map fun r => Function.update nodes b r.1).getD nodes, (opened response).isSome)

/-- `VirtualMesh._fetch_peer_status`. -/
def fetch_peer_status (env : ι → Env T) (nodes : ι → Node T) (b : ι) (peer : PeerRecord T) :
    Option (Json T) :=
  (connect b peer.host peer.port).bind fun a =>
    (opened (do_GET int (nodes a) (env a) (status_request (nodes b)))).map Response.body

/-- The environment of a synchronisation over the network. -/
def syncEnv (env : ι → Env T) (nodes : ι → Node T) (b : ι) (polled elected : String → T)
    (answered : String → Readings T) (synced : T) : VirtualMesh.SyncEnv T :=
  ⟨polled, fetch_peer_status int connect env nodes b, answered, elected, synced⟩

end requests

/-! ### The two requests -/

theorem announce_request_header (node : Node T) :
    header (announce_request node) "X-AURA-Key" = "" := by
  have hname : ¬ PyStr.lower "Content-Type" = PyStr.lower "X-AURA-Key" := by decide
  simp [header, announce_request, hname]

theorem status_request_header (node : Node T) :
    header (status_request node) "X-AURA-Key" = "" := by
  have hid : ¬ PyStr.lower "X-Node-ID" = PyStr.lower "X-AURA-Key" := by decide
  have halias : ¬ PyStr.lower "X-Node-Alias" = PyStr.lower "X-AURA-Key" := by decide
  simp [header, status_request, hid, halias]

/-- A request without a key passes if and only if no key is set. -/
theorem check_auth_iff (node : Node T) {request : Request T}
    (h : header request "X-AURA-Key" = "") :
    check_auth node request = true ↔ node.api_key = "" := by
  unfold check_auth
  rw [h, decide_eq_true_iff]
  exact or_iff_left_of_imp fun hempty => hempty.symm

/-- What the peer reads from the announcement. -/
theorem announcement_entry (node : Node T) (parse : Json T → Option Int) :
    (PeerEntry.ofObject (announcement node)).node_id = some node.mesh.identity.node_id ∧
      (PeerEntry.ofObject (announcement node)).args (Json.toInt parse) =
        some (announced_args node) := ⟨rfl, rfl⟩

variable [Clock T]

/-- The peer refuses an announcement if a key is set. Else it takes it, but
    into a registry only that is not empty. -/
theorem do_POST_announce (parse : Json T → Option Int) (node node' : Node T) (env : Env T) :
    (node.api_key ≠ "" ∧
      do_POST (Json.toInt parse) node env (announce_request node') = some (node, forbidden)) ∨
    (node.api_key = "" ∧ ∃ response, response.status = 200 ∧
      do_POST (Json.toInt parse) node env (announce_request node') =
        some (if has_registry node then
          announced node node'.mesh.identity.node_id (announced_args node') env.announced
          else node, response)) := by
  have hauth := check_auth_iff node (announce_request_header node')
  unfold do_POST dispatch
  by_cases hkey : node.api_key = ""
  · right
    have hroute : postRoutes.lookup (route (announce_request node').path) =
        some .handle_announce := by
      show postRoutes.lookup (route "/api/node/announce") = some .handle_announce
      decide
    obtain ⟨hid, hargs⟩ := announcement_entry node' parse
    rw [if_pos (hauth.mpr hkey), hroute]
    refine ⟨hkey, ⟨200, .obj [("status", .str "ok"),
      ("node_id", .str node.mesh.identity.node_id)]⟩, rfl, ?_⟩
    simp only [handle, handle_announce, announce_request, hid, hargs, Option.map_some,
      node'.mesh.identity.identified, if_false]
    split <;> rfl
  · exact Or.inl ⟨hkey, if_neg (mt hauth.mp hkey)⟩

/-- A node tells its status if no key is set. -/
theorem do_GET_status (int : Json T → Option Int) (node node' : Node T) (env : Env T) :
    (node.api_key ≠ "" ∧
      do_GET int node env (status_request node') = some (node, forbidden)) ∨
    (node.api_key = "" ∧
      do_GET int node env (status_request node') = some (node, handle_status node env)) := by
  have hauth := check_auth_iff node (status_request_header node')
  unfold do_GET dispatch
  by_cases hkey : node.api_key = ""
  · have hroute : getRoutes.lookup (route (status_request node').path) =
        some .handle_status := by
      show getRoutes.lookup (route "/api/node/status") = some .handle_status
      decide
    rw [if_pos (hauth.mpr hkey), hroute]
    exact Or.inr ⟨hkey, rfl⟩
  · exact Or.inl ⟨hkey, if_neg (mt hauth.mp hkey)⟩

/-! ### What the peer knows then -/

section record

variable (nodes : ι → Node T) (a b : ι)

/-- The id of the node that announces itself. -/
def announcer : String := (nodes a).mesh.identity.node_id

/-- The host that the peer has for it then: its host name, or where that is
    blank the host that the peer had. -/
def advertisedHost : Json T :=
  match (nodes b).mesh.peers.peers.get (announcer nodes a) with
  | some peer => (Json.str (nodes a).platform.hostname).or peer.host
  | none => .str (nodes a).platform.hostname

/-- The record that the peer has of it then. -/
def announcedRecord (env : Env T) : PeerRecord T :=
  (nodes b).mesh.peers.refreshed (announcer nodes a) (announced_args (nodes a)) env.announced

theorem announcedRecord_host (env : Env T) :
    (announcedRecord nodes a b env).host = advertisedHost nodes a b := by
  unfold announcedRecord advertisedHost PeerRegistry.refreshed
  cases (nodes b).mesh.peers.peers.get (announcer nodes a) <;> rfl

theorem announcedRecord_port (env : Env T) :
    (announcedRecord nodes a b env).port = .int 7332 := by
  unfold announcedRecord PeerRegistry.refreshed
  cases (nodes b).mesh.peers.peers.get (announcer nodes a) <;> rfl

/-- The record that an announcement leaves is stale 300 seconds after it. -/
theorem announcedRecord_fresh_iff (env : Env T) (now : T) :
    (announcedRecord nodes a b env).is_stale now = false ↔
      ¬ Clock.ofSeconds 300 < now - env.announced.last_seen := by
  have hseen : (announcedRecord nodes a b env).last_seen = env.announced.last_seen :=
    PeerRegistry.refreshed_last_seen ..
  unfold PeerRecord.is_stale
  rw [hseen, decide_eq_false_iff_not]

end record

/-! ### The next synchronisation -/

/-- The synchronisation fetches the status of the node from its own channel,
    which lets it in, and refreshes the record of the node from it. -/
def Pulls (int : Json T → Option Int) (connect : ι → Json T → Json T → Option ι)
    (nodes : ι → Node T) (envs : ι → Env T) (a : ι) (mesh : VirtualMesh T) (b : ι)
    (env : VirtualMesh.SyncEnv T) : Prop :=
  ∃ record info, mesh.peers.peers.get (announcer nodes a) = some record ∧
    connect b record.host record.port = some a ∧
    do_GET int (nodes a) (envs a) (status_request (nodes b)) =
      some (nodes a, ⟨200, .obj info⟩) ∧
    .refreshed (announcer nodes a) info ∈ (mesh.sync_peers env).trace

/-- A peer that has a record of a node without a key pulls from it if and only
    if the record is active and its address leads to the node. -/
theorem pulls_iff (int : Json T → Option Int) (connect : ι → Json T → Json T → Option ι)
    {nodes : ι → Node T} {a b : ι} (hopen : (nodes a).api_key = "") (envs : ι → Env T)
    {mesh : VirtualMesh T} {record : PeerRecord T}
    (hrecord : mesh.peers.peers.get (announcer nodes a) = some record)
    (polled elected : String → T) (answered : String → Readings T) (synced : T) :
    Pulls int connect nodes envs a mesh b
        (syncEnv int connect envs nodes b polled elected answered synced) ↔
      record.host.truthy = true ∧ record.port.truthy = true ∧
        connect b record.host record.port = some a ∧
        record.is_stale (polled (announcer nodes a)) = false := by
  have hnode : record.node_id = announcer nodes a := mesh.peers.peers.named _ _ hrecord
  have hactive : record ∈ mesh.peers.active polled ↔
      record.is_stale (polled (announcer nodes a)) = false := by
    rw [PeerRegistry.mem_active_iff, hnode]
    exact and_iff_right hrecord
  constructor
  · rintro ⟨record', info, hrecord', hconnect, -, hrefreshed⟩
    obtain rfl := Option.some.inj (hrecord.symm.trans hrecord')
    obtain ⟨peer, hpeer, info', hanswer, heq⟩ :=
      (VirtualMesh.mem_sync_peers_trace_iff ..).mp hrefreshed
    -- the peer that has answered is the node
    have hget := ((PeerRegistry.mem_active_iff ..).mp hpeer).1
    rw [← (VirtualMesh.Obs.refreshed.inj heq).1] at hget
    obtain rfl := Option.some.inj (hrecord.symm.trans hget)
    exact ⟨hanswer.host, hanswer.port, hconnect, hactive.mp hpeer⟩
  · rintro ⟨hhost, hport, hconnect, hfresh⟩
    -- the node tells its status to anybody
    obtain ⟨info, hne, hget⟩ : ∃ info, info ≠ [] ∧
        do_GET int (nodes a) (envs a) (status_request (nodes b)) =
          some (nodes a, ⟨200, .obj info⟩) := by
      rcases do_GET_status int (nodes a) (nodes b) (envs a) with ⟨hlocked, -⟩ | ⟨-, hget⟩
      · exact absurd hopen hlocked
      · exact ⟨_, List.cons_ne_nil _ _, hget⟩
    have hfetch : fetch_peer_status int connect envs nodes b record = some (.obj info) := by
      unfold fetch_peer_status
      rw [hconnect, Option.bind_some, hget]
      rfl
    refine ⟨record, info, hrecord, hconnect, hget, ?_⟩
    rw [VirtualMesh.mem_sync_peers_trace_iff]
    exact ⟨record, hactive.mpr hfresh, info, ⟨hhost, hport, hfetch, hne⟩, by rw [hnode]⟩

/-- A peer that has no record of a node pulls nothing from it. -/
theorem not_pulls (int : Json T → Option Int) (connect : ι → Json T → Json T → Option ι)
    {nodes : ι → Node T} {a b : ι} (envs : ι → Env T) {mesh : VirtualMesh T}
    (hnone : mesh.peers.peers.get (announcer nodes a) = none) (env : VirtualMesh.SyncEnv T) :
    ¬ Pulls int connect nodes envs a mesh b env := by
  rintro ⟨record, info, hrecord, -⟩
  cases hnone.symm.trans hrecord

/-! ### An announcement and the next synchronisation -/

variable [DecidableEq ι]

/-- The nodes after the peer has taken the announcement. -/
def taken (env : Env T) (nodes : ι → Node T) (a b : ι) : ι → Node T :=
  Function.update nodes b (if has_registry (nodes b) then
    announced (nodes b) (announcer nodes a) (announced_args (nodes a)) env.announced
    else nodes b)

/-- What an announcement to a peer that is up does: it returns `True` if and
    only if no key is set, and then it is recorded if the registry is not
    empty. -/
theorem announce_to_peer_spec (parse : Json T → Option Int)
    (connect : ι → Json T → Json T → Option ι) (env : Env T) (nodes : ι → Node T) {a b : ι}
    {peer : PeerRecord T} (hhost : peer.host.truthy = true) (hport : peer.port.truthy = true)
    (hup : connect a peer.host peer.port = some b) :
    ((nodes b).api_key ≠ "" ∧
      (announce_to_peer (Json.toInt parse) connect env nodes a peer).2 = false) ∨
    ((nodes b).api_key = "" ∧
      announce_to_peer (Json.toInt parse) connect env nodes a peer =
        (taken env nodes a b, true)) := by
  unfold announce_to_peer taken
  simp only [hhost, hport, and_self, not_true_eq_false, if_false, hup]
  rcases do_POST_announce parse (nodes b) (nodes a) env with
    ⟨hkey, hpost⟩ | ⟨hkey, response, hstatus, hpost⟩
  · refine Or.inl ⟨hkey, ?_⟩
    rw [hpost]
    rfl
  · refine Or.inr ⟨hkey, ?_⟩
    rw [hpost]
    simp [opened, hstatus, Option.filter, announcer]

/-- What an announcement needs to be answered by a synchronisation. -/
structure Welcome (connect : ι → Json T → Json T → Option ι) (nodes : ι → Node T) (a b : ι)
    (env : Env T) (polled : String → T) : Prop where
  unlocked : (nodes b).api_key = ""
  registry : has_registry (nodes b) = true
  host : (advertisedHost nodes a b).truthy = true
  reached : connect b (advertisedHost nodes a b) (.int 7332) = some a
  fresh : ¬ Clock.ofSeconds 300 < polled (announcer nodes a) - env.announced.last_seen

/-- The registry of the peer after it has taken the announcement. -/
theorem taken_get (env : Env T) (nodes : ι → Node T) (a b : ι) :
    ((taken env nodes a b) b).mesh.peers.peers.get (announcer nodes a) =
      if has_registry (nodes b) then some (announcedRecord nodes a b env) else none := by
  unfold taken
  rw [Function.update_self]
  by_cases h : has_registry (nodes b) = true
  · rw [if_pos h, if_pos h]
    unfold announced
    rw [PeerRegistry.add_or_update_get, if_pos rfl]
    rfl
  · rw [if_neg h, if_neg h]
    exact get_of_not_has_registry h _

/-- An announcement changes nothing but the registry of the peer. -/
theorem taken_same (env : Env T) (nodes : ι → Node T) (a b i : ι) :
    ((taken env nodes a b) i).api_key = (nodes i).api_key ∧
    ((taken env nodes a b) i).mesh.identity = (nodes i).mesh.identity := by
  unfold taken
  by_cases hi : i = b
  · subst hi
    rw [Function.update_self]
    split <;> exact ⟨rfl, rfl⟩
  · rw [Function.update_of_ne hi]
    exact ⟨rfl, rfl⟩

/-- A node on a machine with this name, with peers that it knows. -/
def nodeOf (identity : NodeIdentity ℚ) (hostname api_key : String) (peers : PeerRegistry ℚ) :
    Node ℚ :=
  ⟨.init identity peers, ⟨hostname, "Linux", "x86_64", "3.11"⟩, api_key⟩

/-- Two nodes that share a key. The second one has this registry. -/
def twoNodes (api_key : String) (peers : PeerRegistry ℚ) : Bool → Node ℚ
  | false => nodeOf ⟨"a", "node", "0.1.0", 0, .empty, NodeIdentity.a_ne_empty⟩ "alpha" api_key
      (.init none fun _ => ⟨0, 0⟩)
  | true => nodeOf ⟨"b", "node", "0.1.0", 0, .empty, NodeIdentity.b_ne_empty⟩ "beta" api_key peers

def nobody : PeerRegistry ℚ := .init none fun _ => ⟨0, 0⟩

def somebody : PeerRegistry ℚ := nobody.add_or_update "c" {} ⟨0, 0⟩

/-- The first node answers under its host name on a port, the second one on the
    default port. -/
def twoHosts (port : Int) : Bool → Json ℚ → Json ℚ → Option Bool
  | _, .str host, .int p =>
    if host = "alpha" ∧ p = port then some false
    else if host = "beta" ∧ p = 7332 then some true else none
  | _, _, _ => none

/-- How the first node knows the second one. -/
def beta : PeerRecord ℚ :=
  ⟨"b", .str "node", .str "beta", .int 7332, .arr [], .str "running", 0, 0, .str "0.1.0"⟩

def quietEnv : Env ℚ := ⟨1, 1, none, ⟨1, 1⟩, fun _ => none⟩

end CommandChannel
