import Aioscpu.Framework.Dict
import Aioscpu.Framework.Json
import Aioscpu.Framework.Machine

/-! # Peer Registry

  The peer registry of `vnet/peer_registry.py`, with the file that it keeps in
  its directory. All writes of the file succeed, and the file holds the
  document that `json.load` reads back.

  The ids of nodes are strings. The other values that come from a peer are
  whatever JSON the peer sent. A parameter `int` stands for `int(v)`, which is
  `none` where that raises.
-/

/-- `T` is the type of clock readings. -/
structure PeerRecord (T : Type) where
  node_id : String
  «alias» : Json T
  host : Json T
  port : Json T
  capabilities : Json T
  status : Json T
  first_seen : T
  last_seen : T
  version : Json T

/-- An object of a JSON document, with the fields of a peer that it has. -/
structure PeerEntry (T : Type) where
  node_id : Option String
  «alias» : Option (Json T)
  host : Option (Json T)
  port : Option (Json T)
  capabilities : Option (Json T)
  status : Option (Json T)
  first_seen : Option T
  last_seen : Option T
  version : Option (Json T)

/-- The keyword arguments of `add_or_update`, with their defaults. -/
structure PeerArgs (T : Type) where
  «alias» : Json T := .str "unknown"
  host : Json T := .str ""
  port : Json T := .int 0
  capabilities : Json T := .null
  status : Json T := .str "unknown"
  version : Json T := .str ""

/-- The readings of the clock for the two time stamps of a record. -/
structure Readings (T : Type) where
  first_seen : T
  last_seen : T

namespace PeerRecord

variable {T : Type}

/-- `PeerRecord.is_stale`, with the reading of the clock. -/
def is_stale [Clock T] (self : PeerRecord T) (now : T) : Bool :=
  Clock.ofSeconds 300 < now - self.last_seen

/-- `PeerRecord.touch`. -/
def touch (self : PeerRecord T) (now : T) : PeerRecord T := { self with last_seen := now }

/-- `PeerRecord.to_dict`. -/
def to_dict (self : PeerRecord T) : PeerEntry T :=
  { node_id := some self.node_id
    «alias» := some self.alias
    host := some self.host
    port := some self.port
    capabilities := some self.capabilities
    status := some self.status
    first_seen := some self.first_seen
    last_seen := some self.last_seen
    version := some self.version }

end PeerRecord

namespace PeerEntry

variable {T : Type}

/-- `PeerRecord(**r)`, with the defaults of the class. -/
def record (self : PeerEntry T) (node_id : String) (now : Readings T) : PeerRecord T :=
  { node_id
    «alias» := self.alias.getD (.str "unknown")
    host := self.host.getD (.str "")
    port := self.port.getD (.int 0)
    capabilities := self.capabilities.getD (.arr [])
    status := self.status.getD (.str "unknown")
    first_seen := self.first_seen.getD now.first_seen
    last_seen := self.last_seen.getD now.last_seen
    version := self.version.getD (.str "") }

/-- The arguments that `merge_from_cc` and the announcement handler pass on. -/
def args (int : Json T → Option Int) (self : PeerEntry T) : Option (PeerArgs T) :=
  (int (self.port.getD (.int 0))).map fun port =>
    { «alias» := self.alias.getD (.str "unknown")
      host := self.host.getD (.str "")
      port := .int port
      capabilities := self.capabilities.getD (.arr [])
      status := self.status.getD (.str "unknown")
      version := self.version.getD (.str "") }

/-- The fields of a peer that an object has. Only texts are ids of nodes. -/
def ofObject (items : List (String × Json T)) : PeerEntry T where
  node_id :=
    match items.lookup "node_id" with
    | some (.str node_id) => some node_id
    | _ => none
  «alias» := items.lookup "alias"
  host := items.lookup "host"
  port := items.lookup "port"
  capabilities := items.lookup "capabilities"
  status := items.lookup "status"
  first_seen := none
  last_seen := none
  version := items.lookup "version"

@[simp] theorem record_to_dict (peer : PeerRecord T) (now : Readings T) :
    peer.to_dict.record peer.node_id now = peer := rfl

end PeerEntry

/-- The records by the ids of their nodes. -/
structure Peers (T : Type) where
  records : Dict String (PeerRecord T)
  named : ∀ id peer, records.get id = some peer → peer.node_id = id

namespace Peers

variable {T : Type}

def empty : Peers T := ⟨.empty, fun _ _ h => (nomatch h)⟩

def get (self : Peers T) (id : String) : Option (PeerRecord T) := self.records.get id

/-- `self._peers[peer.node_id] = peer`. Records change in place, so a changed
    one is put back the same way. -/
def put (self : Peers T) (peer : PeerRecord T) : Peers T where
  records := self.records.set peer.node_id peer
  named := by
    intro id peer' h
    rw [Dict.get_set] at h
    split at h
    · next heq => exact Option.some.inj h ▸ heq.symm
    · exact self.named id peer' h

/-- `del self._peers[node_id]`. -/
def erase (self : Peers T) (id : String) : Peers T where
  records := self.records.erase id
  named := by
    intro id' peer h
    rw [Dict.get_erase] at h
    split at h
    · exact (nomatch h)
    · exact self.named id' peer h

/-- `to_list`. -/
def to_list (self : Peers T) : List (PeerEntry T) :=
  self.records.values.map PeerRecord.to_dict

@[simp] theorem get_empty (id : String) : (empty : Peers T).get id = none := rfl

theorem get_put (self : Peers T) (peer : PeerRecord T) (id : String) :
    (self.put peer).get id = if id = peer.node_id then some peer else self.get id :=
  Dict.get_set ..

theorem get_erase (self : Peers T) (id id' : String) :
    (self.erase id).get id' = if id' = id then none else self.get id' :=
  Dict.get_erase ..

theorem put_keys {self : Peers T} {id : String} {peer : PeerRecord T}
    (h : self.get id = some peer) {peer' : PeerRecord T} (hid : peer'.node_id = id) :
    (self.put peer').records.keys = self.records.keys := by
  subst hid
  exact self.records.keys_set_of_get h peer'

/-- Registries with the same ids in the same order are equal if they have the
    same records. -/
theorem eq_of_get {p q : Peers T} (hkeys : p.records.keys = q.records.keys)
    (hget : ∀ id, p.get id = q.get id) : p = q := by
  obtain ⟨records, named⟩ := p
  obtain ⟨records', named'⟩ := q
  obtain rfl : records = records' := Dict.eq_of_get hkeys hget
  rfl

end Peers

/-- The registry with the document in `peers.json`, if the file exists. An
    entry of the document is `none` where it is no object. -/
structure PeerRegistry (T : Type) where
  peers : Peers T
  file : Option (List (Option (PeerEntry T)))

namespace PeerRegistry

variable {T : Type}

/-- What the methods do to the file and to `last_seen`. -/
inductive Obs (T : Type) where
  /-- `_save` has written the file. -/
  | saved
  /-- `last_seen` of a known peer is set. -/
  | touched (node_id : String) (old now : T)

/-! ### Persistence -/

/-- `PeerRegistry._save`. -/
def save (self : PeerRegistry T) : PeerRegistry T :=
  { self with file := some (self.peers.to_list.map some) }

/-- The loop of `_load`, with the readings of the clock for what is missing. -/
def load_records : Peers T → List (Option (PeerEntry T) × Readings T) → Peers T
  | peers, [] => peers
  | peers, (none, _) :: records => load_records peers records
  | peers, (some r, now) :: records =>
    match r.node_id with
    | none => load_records peers records
    | some node_id => load_records (peers.put (r.record node_id now)) records

/-- `PeerRegistry._load`. -/
def load (file : Option (List (Option (PeerEntry T)))) (clock : Nat → Readings T) : Peers T :=
  match file with
  | none => .empty
  | some records => load_records .empty (records.zipIdx.map fun r => (r.1, clock r.2))

/-- `PeerRegistry.__init__` on a directory with this file. -/
def init (file : Option (List (Option (PeerEntry T)))) (clock : Nat → Readings T) :
    PeerRegistry T := ⟨load file clock, file⟩

/-! ### Mutations -/

section mutations

variable [Clock T]

/-- The branch of `add_or_update` for a peer that is known. -/
def update (peer : PeerRecord T) (args : PeerArgs T) (now : T) : PeerRecord T :=
  { peer with
    «alias» := args.alias.or peer.alias
    host := args.host.or peer.host
    port := args.port.or peer.port
    capabilities := args.capabilities.ifNone peer.capabilities
    status := args.status
    version := args.version.or peer.version
    last_seen := now }

/-- The branch for a new peer. -/
def create (node_id : String) (args : PeerArgs T) (now : Readings T) : PeerRecord T :=
  { node_id
    «alias» := args.alias
    host := args.host
    port := args.port
    capabilities := args.capabilities.or (.arr [])
    status := args.status
    first_seen := now.first_seen
    last_seen := now.last_seen
    version := args.version }

/-- The record that `add_or_update` returns. -/
def refreshed (self : PeerRegistry T) (node_id : String) (args : PeerArgs T)
    (now : Readings T) : PeerRecord T :=
  match self.peers.get node_id with
  | some peer => update peer args now.last_seen
  | none => create node_id args now

/-- `PeerRegistry.add_or_update`. -/
def add_or_update (self : PeerRegistry T) (node_id : String) (args : PeerArgs T)
    (now : Readings T) : PeerRegistry T :=
  save { self with peers := self.peers.put (self.refreshed node_id args now) }

/-- `PeerRegistry.remove`. -/
def remove (self : PeerRegistry T) (node_id : String) : PeerRegistry T × Bool :=
  match self.peers.get node_id with
  | some _ => (save { self with peers := self.peers.erase node_id }, true)
  | none => (self, false)

/-- `PeerRegistry.touch`. -/
def touch (self : PeerRegistry T) (node_id : String) (now : T) : PeerRegistry T × Bool :=
  match self.peers.get node_id with
  | some peer => ({ self with peers := self.peers.put (peer.touch now) }, true)
  | none => (self, false)

/-- `PeerRegistry.merge_from_cc`, after `count` peers. The result is an error
    where `int` raises, with the number of peers that are merged by then. -/
def merge_from_cc (int : Json T → Option Int) (clock : Nat → Readings T) :
    PeerRegistry T → Nat → List (Option (PeerEntry T)) → PeerRegistry T × Except Nat Nat
  | self, count, [] => (self, .ok count)
  | self, count, none :: peer_list => merge_from_cc int clock self count peer_list
  | self, count, some p :: peer_list =>
    match p.node_id with
    | none => merge_from_cc int clock self count peer_list
    | some node_id =>
      if node_id = "" then merge_from_cc int clock self count peer_list
      else
        match p.args int with
        | none => (self, .error count)
        | some args =>
          merge_from_cc int clock (self.add_or_update node_id args (clock count)) (count + 1)
            peer_list

end mutations

/-! ### Queries -/

/-- `PeerRegistry.active`; each record is tested at a reading of its own. -/
def active [Clock T] (self : PeerRegistry T) (now : String → T) : List (PeerRecord T) :=
  self.peers.records.values.filter fun peer => !peer.is_stale (now peer.node_id)

/-- `PeerRegistry.count`, and `len(registry)`. -/
def count (self : PeerRegistry T) : Nat := self.peers.records.items.length

/-! ### Runs -/

inductive Label (T : Type) where
  | add_or_update (node_id : String) (args : PeerArgs T) (now : Readings T)
  | remove (node_id : String)
  | touch (node_id : String) (now : T)
  | merge_from_cc (peer_list : List (Option (PeerEntry T))) (clock : Nat → Readings T)

/-- How many peers a merge has added or updated. -/
def merged : Except Nat Nat → Nat
  | .ok n => n
  | .error n => n

/-- The mutations, one after the other. -/
def machine [Clock T] (int : Json T → Option Int) :
    Machine (PeerRegistry T) (Label T) (Obs T) where
  step := fun s l =>
    match l with
    | .add_or_update node_id args now => some (s.add_or_update node_id args now, [.saved])
    | .remove node_id =>
      some ((s.remove node_id).1, if (s.remove node_id).2 then [.saved] else [])
    | .touch node_id now =>
      some ((s.touch node_id now).1,
        ((s.peers.get node_id).map fun peer => .touched node_id peer.last_seen now).toList)
    | .merge_from_cc peer_list clock =>
      some ((s.merge_from_cc int clock 0 peer_list).1,
        List.replicate (merged (s.merge_from_cc int clock 0 peer_list).2) .saved)

/-! ### What the methods do to a record -/

@[simp] theorem save_peers (s : PeerRegistry T) : s.save.peers = s.peers := rfl

theorem mem_values_iff (s : PeerRegistry T) (peer : PeerRecord T) :
    peer ∈ s.peers.records.values ↔ s.peers.get peer.node_id = some peer := by
  unfold Dict.values Peers.get
  rw [List.mem_map]
  constructor
  · rintro ⟨⟨id, peer'⟩, hmem, rfl⟩
    have hget := Dict.get_of_mem hmem
    have hid : peer'.node_id = id := s.peers.named _ _ hget
    rw [hid]
    exact hget
  · intro hget
    exact ⟨(peer.node_id, peer), Dict.mem_of_get hget, rfl⟩

section records

variable [Clock T]

@[simp] theorem refreshed_node_id (s : PeerRegistry T) (node_id : String) (args : PeerArgs T)
    (now : Readings T) : (s.refreshed node_id args now).node_id = node_id := by
  unfold refreshed
  cases h : s.peers.get node_id with
  | none => rfl
  | some peer =>
    have hid : peer.node_id = node_id := s.peers.named _ _ h
    exact hid

@[simp] theorem refreshed_last_seen (s : PeerRegistry T) (node_id : String)
    (args : PeerArgs T) (now : Readings T) :
    (s.refreshed node_id args now).last_seen = now.last_seen := by
  unfold refreshed
  cases s.peers.get node_id <;> rfl

/-- The other records stay. -/
theorem add_or_update_get (s : PeerRegistry T) (node_id : String) (args : PeerArgs T)
    (now : Readings T) (id : String) :
    (s.add_or_update node_id args now).peers.get id =
      if id = node_id then some (s.refreshed node_id args now) else s.peers.get id := by
  unfold add_or_update
  rw [save_peers, Peers.get_put, refreshed_node_id]

/-- The active peers are the known ones that are not stale. -/
theorem mem_active_iff (s : PeerRegistry T) (now : String → T) (peer : PeerRecord T) :
    peer ∈ s.active now ↔
      s.peers.get peer.node_id = some peer ∧ peer.is_stale (now peer.node_id) = false := by
  unfold active
  rw [List.mem_filter, mem_values_iff, Bool.not_eq_true']

end records

end PeerRegistry
