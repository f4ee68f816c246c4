import Aioscpu.Vnet.PeerRegistry

/-! # Merge of the Peers that a Command Center Sends

  `merge_from_cc` on a list of any JSON values. The id of a node is then whatever JSON an
  object has for it: a text, a number, or what is no key of a dictionary at all.

  A parameter `int` stands for `int(v)`, and `integer` for the integer that a
  floating-point number is equal to. `_save` can open its file. It writes values that nest at
  most `limit` deep, and raises a `RecursionError` otherwise, which it does not catch.
-/

/-- A key of a dictionary. Numbers that are equal are one key. -/
inductive NodeKey (T : Type) where
  | none
  | text (s : String)
  | int (i : Int)
  | float (x : T)
deriving DecidableEq

/-- A record whose id is any JSON. -/
structure NodeRecord (T : Type) where
  node_id : Json T
  «alias» : Json T
  host : Json T
  port : Json T
  capabilities : Json T
  status : Json T
  first_seen : T
  last_seen : T
  version : Json T

/-- What stops a merge. -/
inductive MergeError where
  /-- The error of `int`. -/
  | conversion_error
  /-- An unhashable id. -/
  | type_error
  | recursion_error
deriving DecidableEq, Repr

/-- `self._peers`. -/
abbrev Nodes (T : Type) := Dict (NodeKey T) (NodeRecord T)

namespace PeerMerge

variable {T : Type}

/-- The key that an id is, `none` where it has no hash. -/
def key (integer : T → Option Int) : Json T → Option (NodeKey T)
  | .null => some .none
  | .bool b => some (.int (if b then 1 else 0))
  | .int i => some (.int i)
  | .float x =>
    match integer x with
    | some i => some (.int i)
    | none => some (.float x)
  | .str s => some (.text s)
  | .arr _ => none
  | .obj _ => none

/-- The values of a record that come from a peer. -/
def values (peer : NodeRecord T) : List (Json T) :=
  [peer.node_id, peer.alias, peer.host, peer.port, peer.capabilities, peer.status, peer.version]

variable [Clock T]

/-- `_save` does not raise. -/
def saves (limit : Nat) (nodes : Nodes T) : Bool :=
  nodes.values.all fun peer => (values peer).all fun v => v.depth ≤ limit

/-- The record that `add_or_update` puts into the registry. -/
def refreshed (node_id : Json T) (args : PeerArgs T) (now : Readings T) :
    Option (NodeRecord T) → NodeRecord T
  | some peer =>
    { peer with
      «alias» := args.alias.or peer.alias
      host := args.host.or peer.host
      port := args.port.or peer.port
      capabilities := args.capabilities.ifNone peer.capabilities
      status := args.status
      version := args.version.or peer.version
      last_seen := now.last_seen }
  | none =>
    { node_id
      «alias» := args.alias
      host := args.host
      port := args.port
      capabilities := args.capabilities.or (.arr [])
      status := args.status
      first_seen := now.first_seen
      last_seen := now.last_seen
      version := args.version }

/-- The registry with the record. -/
def put (nodes : Nodes T) (k : NodeKey T) (node_id : Json T) (args : PeerArgs T)
    (now : Readings T) : Nodes T := nodes.set k (refreshed node_id args now (nodes.get k))

section

variable (integer : T → Option Int) (limit : Nat)

/-- `add_or_update`, with what it raises. -/
def add_or_update (nodes : Nodes T) (node_id : Json T) (args : PeerArgs T) (now : Readings T) :
    Nodes T × Except MergeError Unit :=
  match key integer node_id with
  | none => (nodes, .error .type_error)
  | some k =>
    -- the record is in the registry before the file is written
    let nodes := put nodes k node_id args now
    (nodes, if saves limit nodes then .ok () else .error .recursion_error)

variable (int : Json T → Option Int) (clock : Nat → Readings T)

/-- `merge_from_cc`, after `count` peers. -/
def merge_from_cc : Nodes T → Nat → List (Json T) → Nodes T × Except MergeError Nat
  | nodes, count, [] => (nodes, .ok count)
  | nodes, count, .obj items :: peer_list =>
    let node_id := (items.lookup "node_id").getD .null
    if node_id.truthy then
      match (PeerEntry.ofObject items).args int with
      | none => (nodes, .error .conversion_error)
      | some args =>
        match add_or_update integer limit nodes node_id args (clock count) with
        | (nodes, .ok ()) => merge_from_cc nodes (count + 1) peer_list
        | (nodes, .error err) => (nodes, .error err)
    else merge_from_cc nodes count peer_list
  | nodes, count, _ :: peer_list => merge_from_cc nodes count peer_list

/-! ### The well-formed entries -/

omit [Clock T] in
/-- The id and the arguments of an entry with a text that is not empty for its id, and a port
    that is an integer. -/
def well_formed : Json T → Option (String × PeerArgs T)
  | .obj items =>
    match items.lookup "node_id" with
    | some (.str s) =>
      if s = "" then none else ((PeerEntry.ofObject items).args int).map fun args => (s, args)
    | _ => none
  | _ => none

/-- The registry with these peers added, from the `count`-th one on. -/
def added : Nodes T → Nat → List (String × PeerArgs T) → Nodes T
  | nodes, _, [] => nodes
  | nodes, count, (s, args) :: peers =>
    added (put nodes (.text s) (.str s) args (clock count)) (count + 1) peers

/-- The merge does what it should for the list. -/
def RobustMerge (nodes : Nodes T) (peer_list : List (Json T)) : Prop :=
  merge_from_cc integer limit int clock nodes 0 peer_list =
    (added clock nodes 0 (peer_list.filterMap (well_formed int)),
      .ok (peer_list.filterMap (well_formed int)).length)

/-- The entry has an id. -/
def Identified (v : Json T) : Prop :=
  ∃ items, v = .obj items ∧ ((items.lookup "node_id").getD .null).truthy = true

/-- The condition: each entry with an id is well-formed, and after each of them the registry can
    be saved. -/
structure Mergeable (nodes : Nodes T) (peer_list : List (Json T)) : Prop where
  formed : ∀ v ∈ peer_list, Identified v → (well_formed int v).isSome = true
  saved : ∀ peers, peers ≠ [] → peers <+: peer_list.filterMap (well_formed int) →
    saves limit (added clock nodes 0 peers) = true

end

/-! ### Registries of texts -/

/-- The record of a peer. -/
def NodeRecord.ofPeer (peer : PeerRecord T) : NodeRecord T :=
  { node_id := .str peer.node_id
    «alias» := peer.alias
    host := peer.host
    port := peer.port
    capabilities := peer.capabilities
    status := peer.status
    first_seen := peer.first_seen
    last_seen := peer.last_seen
    version := peer.version }

omit [Clock T] in
theorem text_injective : Function.Injective (NodeKey.text : String → NodeKey T) := by
  intro s s' h
  cases h
  rfl

/-- The registry whose ids are texts. -/
def ofPeers (peers : Peers T) : Nodes T :=
  peers.records.image .text text_injective NodeRecord.ofPeer

/-- Under a text, `add_or_update` does what it does to the registry of texts. -/
theorem add_or_update_ofPeers (integer : T → Option Int) (limit : Nat)
    (s : PeerRegistry T) (node_id : String) (args : PeerArgs T) (now : Readings T) :
    (add_or_update integer limit (ofPeers s.peers) (.str node_id) args now).1 =
      ofPeers (s.add_or_update node_id args now).peers := by
  have hrecord : refreshed (.str node_id) args now ((ofPeers s.peers).get (.text node_id)) =
      NodeRecord.ofPeer (s.refreshed node_id args now) := by
    unfold ofPeers PeerRegistry.refreshed Peers.get
    rw [Dict.get_image]
    cases hget : s.peers.records.get node_id with
    | none => rfl
    | some peer => rfl
  show (ofPeers s.peers).set (.text node_id) (refreshed (.str node_id) args now _) =
    (s.peers.records.set (s.refreshed node_id args now).node_id _).image .text text_injective _
  rw [hrecord, PeerRegistry.refreshed_node_id]
  exact Dict.set_image ..

/-! ### One entry -/

section entries

variable {integer : T → Option Int} {limit : Nat} {int : Json T → Option Int}
  {clock : Nat → Readings T}

theorem identified_obj {items : List (String × Json T)} :
    Identified (.obj items) ↔ ((items.lookup "node_id").getD .null).truthy = true := by
  constructor
  · rintro ⟨items', heq, h⟩
    cases heq
    exact h
  · intro h
    exact ⟨items, rfl, h⟩

theorem well_formed_identified {v : Json T} {peer : String × PeerArgs T}
    (h : well_formed int v = some peer) : Identified v := by
  unfold well_formed at h
  split at h
  · next items =>
    split at h
    · next s hid =>
      split at h
      · cases h
      · next hne =>
        rw [identified_obj, hid]
        show decide (s ≠ "") = true
        exact decide_eq_true hne
    · cases h
  · cases h

/-- Entries without an id are skipped. -/
theorem merge_skip {v : Json T} (h : ¬ Identified v) (nodes : Nodes T) (count : Nat)
    (peer_list : List (Json T)) :
    merge_from_cc integer limit int clock nodes count (v :: peer_list) =
      merge_from_cc integer limit int clock nodes count peer_list := by
  cases v with
  | obj items =>
    rw [identified_obj] at h
    rw [merge_from_cc]
    simp only [h]
    rfl
  | _ => rfl

/-- A well-formed entry is added, and the registry is saved. -/
theorem merge_add {v : Json T} {s : String} {args : PeerArgs T}
    (h : well_formed int v = some (s, args)) (nodes : Nodes T) (count : Nat)
    (peer_list : List (Json T)) :
    merge_from_cc integer limit int clock nodes count (v :: peer_list) =
      if saves limit (put nodes (.text s) (.str s) args (clock count)) then
        merge_from_cc integer limit int clock (put nodes (.text s) (.str s) args (clock count))
          (count + 1) peer_list
      else (put nodes (.text s) (.str s) args (clock count), .error .recursion_error) := by
  have hid := well_formed_identified h
  unfold well_formed at h
  split at h
  · next items =>
    rw [identified_obj] at hid
    split at h
    · next s' hnode_id =>
      split at h
      · cases h
      · obtain ⟨args', hargs, heq⟩ := Option.map_eq_some_iff.mp h
        cases heq
        rw [hnode_id] at hid
        have hid : (Json.str s : Json T).truthy = true := hid
        rw [merge_from_cc]
        simp only [hnode_id, Option.getD_some, hid, hargs, if_true]
        -- a text always has a key, so only the file can stop the merge
        unfold add_or_update
        simp only [key]
        by_cases hsaves : saves limit (put nodes (.text s) (.str s) args (clock count)) = true
        · rw [if_pos hsaves, if_pos hsaves]
        · rw [if_neg hsaves, if_neg hsaves]
    · cases h
  · cases h

/-- Another entry with an id stops the merge, or counts. -/
theorem merge_odd {v : Json T} (h : Identified v) (nodes : Nodes T) (count : Nat)
    (peer_list : List (Json T)) :
    (∃ nodes' err, merge_from_cc integer limit int clock nodes count (v :: peer_list) =
      (nodes', .error err)) ∨
    ∃ nodes', merge_from_cc integer limit int clock nodes count (v :: peer_list) =
      merge_from_cc integer limit int clock nodes' (count + 1) peer_list := by
  obtain ⟨items, rfl, htruthy⟩ := h
  rw [merge_from_cc]
  simp only [htruthy, if_true]
  split
  · exact Or.inl ⟨_, _, rfl⟩
  · split
    · exact Or.inr ⟨_, rfl⟩
    · exact Or.inl ⟨_, _, rfl⟩

/-- A merge that ends has counted all the well-formed entries. -/
theorem merge_count {nodes nodes' : Nodes T} {count n : Nat} {peer_list : List (Json T)}
    (h : merge_from_cc integer limit int clock nodes count peer_list = (nodes', .ok n)) :
    count + (peer_list.filterMap (well_formed int)).length ≤ n := by
  induction peer_list generalizing nodes count with
  | nil =>
    cases h
    exact Nat.le_refl _
  | cons v peer_list ih =>
    by_cases hid : Identified v
    · rcases merge_odd hid nodes count peer_list with ⟨_, _, herr⟩ | ⟨nodes₁, hrest⟩
      · cases herr.symm.trans h
      · have hle := ih (hrest.symm.trans h)
        cases hwf : well_formed int v with
        | none =>
          rw [List.filterMap_cons_none hwf]
          omega
        | some peer =>
          rw [List.filterMap_cons_some hwf, List.length_cons]
          omega
    · have hwf : well_formed int v = none := by
        by_contra hsome
        obtain ⟨peer, hpeer⟩ := Option.ne_none_iff_exists'.mp hsome
        exact hid (well_formed_identified hpeer)
      rw [List.filterMap_cons_none hwf]
      rw [merge_skip hid] at h
      exact ih h

/-! ### The law -/

/-- The registry can be saved after each of the peers if it can after the first one and, from
    there on, after the others. -/
theorem all_saves_cons {nodes : Nodes T} {count : Nat} {s : String} {args : PeerArgs T}
    {rest : List (String × PeerArgs T)} :
    (∀ peers, peers ≠ [] → peers <+: (s, args) :: rest →
        saves limit (added clock nodes count peers) = true) ↔
      saves limit (put nodes (.text s) (.str s) args (clock count)) = true ∧
      ∀ peers, peers ≠ [] → peers <+: rest →
        saves limit (added clock (put nodes (.text s) (.str s) args (clock count)) (count + 1)
          peers) = true := by
  constructor
  · intro hsaved
    -- the first peer alone, and the first peer with more
    refine ⟨?_, fun peers hne hpre => ?_⟩
    · exact hsaved [(s, args)] (List.cons_ne_nil _ _)
        (List.prefix_cons_iff.mpr (Or.inr ⟨[], rfl, List.nil_prefix⟩))
    · exact hsaved ((s, args) :: peers) (List.cons_ne_nil _ _)
        (List.prefix_cons_iff.mpr (Or.inr ⟨peers, rfl, hpre⟩))
  · rintro ⟨hfirst, hsaved⟩ peers hne hpre
    obtain ⟨peers', rfl, hpre'⟩ := (List.prefix_cons_iff.mp hpre).resolve_left hne
    by_cases hnil : peers' = []
    · subst hnil
      exact hfirst
    · exact hsaved peers' hnil hpre'

/-- Robustness from the `count`-th peer on. -/
theorem merge_iff (nodes : Nodes T) (count : Nat) (peer_list : List (Json T)) :
    merge_from_cc integer limit int clock nodes count peer_list =
        (added clock nodes count (peer_list.filterMap (well_formed int)),
          .ok (count + (peer_list.filterMap (well_formed int)).length)) ↔
      (∀ v ∈ peer_list, Identified v → (well_formed int v).isSome = true) ∧
      ∀ peers, peers ≠ [] → peers <+: peer_list.filterMap (well_formed int) →
        saves limit (added clock nodes count peers) = true := by
  induction peer_list generalizing nodes count with
  | nil =>
    constructor
    · intro _
      refine ⟨fun _ h => (nomatch h), fun peers hne hpre => ?_⟩
      exact absurd (List.prefix_nil.mp hpre) hne
    · intro _
      rfl
  | cons v peer_list ih =>
    cases hwf : well_formed int v with
    | some peer =>
      -- the entry is added, and the merge goes on if the file is written
      obtain ⟨s, args⟩ := peer
      rw [List.filterMap_cons_some hwf, merge_add hwf, List.length_cons, added]
      have hcount : count + ((peer_list.filterMap (well_formed int)).length + 1) =
          count + 1 + (peer_list.filterMap (well_formed int)).length := by omega
      have hhead : Identified v → (well_formed int v).isSome = true := fun _ => by
        rw [hwf]
        rfl
      rw [hcount, List.forall_mem_cons, and_iff_right hhead, all_saves_cons]
      by_cases hsaves : saves limit (put nodes (.text s) (.str s) args (clock count)) = true
      · rw [if_pos hsaves, ih, and_iff_right hsaves]
      · rw [if_neg hsaves]
        constructor
        · intro h
          cases (Prod.ext_iff.mp h).2
        · rintro ⟨-, hfirst, -⟩
          exact absurd hfirst hsaves
    | none =>
      rw [List.filterMap_cons_none hwf]
      by_cases hid : Identified v
      · -- the entry is counted if the merge ends at all
        constructor
        · intro h
          rcases merge_odd hid nodes count peer_list with ⟨_, _, herr⟩ | ⟨nodes', hrest⟩
          · cases (Prod.ext_iff.mp (herr.symm.trans h)).2
          · have hle := merge_count (hrest.symm.trans h)
            omega
        · rintro ⟨hformed, -⟩
          have hsome := hformed v List.mem_cons_self hid
          rw [hwf] at hsome
          cases hsome
      · rw [merge_skip hid, ih, List.forall_mem_cons]
        have hskip : Identified v → (well_formed int v).isSome = true := fun h => absurd h hid
        rw [and_iff_right hskip]

/-- **Merge of the peers of a Command Center**: a merge adds the well-formed entries in their
    order, counts them and does not raise if and only if every entry with an id is well-formed
    and the registry can be saved after each of them. -/
theorem robust_iff_mergeable (integer : T → Option Int) (limit : Nat) (int : Json T → Option Int)
    (clock : Nat → Readings T) (nodes : Nodes T) (peer_list : List (Json T)) :
    RobustMerge integer limit int clock nodes peer_list ↔
      Mergeable limit int clock nodes peer_list := by
  unfold RobustMerge
  have h := @merge_iff T _ integer limit int clock nodes 0 peer_list
  rw [Nat.zero_add] at h
  rw [h]
  constructor
  · rintro ⟨hformed, hsaved⟩
    exact ⟨hformed, hsaved⟩
  · rintro ⟨hformed, hsaved⟩
    exact ⟨hformed, hsaved⟩

end entries

/-- A node without a port. -/
def portless : List (Json ℚ) := [.obj [("node_id", .str "n"), ("port", .null)]]

/-- The conversion of a port that is null raises, and the merge does not end. -/
theorem null_port_raises :
    ¬ RobustMerge (fun _ => none) 900 (Json.toInt fun _ => none) (fun _ => ⟨0, 0⟩) .empty
      portless := by
  intro h
  cases (Prod.ext_iff.mp h).2

end PeerMerge
