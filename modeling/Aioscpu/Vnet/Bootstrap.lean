import Aioscpu.Vnet.Announcement
import Aioscpu.Vnet.Coordinator

/-! # Bootstrap of a Mesh

  The nodes of a cluster announce themselves to each other and synchronise, in
  any order. No command center adds peers, and nobody sets a key.

  A node that has heard of all others within the last 300 seconds elects the
  least id of the cluster. But an announcement reaches a registry only that is
  not empty. So the nodes of a cluster that starts with empty registries never
  hear of each other, and each one elects itself.
-/

namespace CommandChannel

variable {ι T : Type}

/-- `ι` is the type of nodes. -/
inductive MeshLabel (ι T : Type) where
  /-- `a.announce_to_peer(peer)`, with what the peer reads from its clock. -/
  | announce (a : ι) (peer : PeerRecord T) (env : Env T)
  /-- `b.sync_state()`, with what each node reads when it answers. -/
  | sync (b : ι) (envs : ι → Env T) (polled elected : String → T)
      (answered : String → Readings T) (synced : T)

/-- The peer is up, and it is this node. -/
structure Reaches [Clock T] (connect : ι → Json T → Json T → Option ι) (a : ι) (peer : PeerRecord T)
    (b : ι) : Prop where
  host : peer.host.truthy = true
  port : peer.port.truthy = true
  up : connect a peer.host peer.port = some b

/-- The node synchronises. -/
def MeshLabel.Syncs (b : ι) : MeshLabel ι T → Prop
  | .announce .. => False
  | .sync b' .. => b' = b

/-- The step may set the `last_seen` of a record to this reading. -/
def MeshLabel.Stamps (t : T) : MeshLabel ι T → Prop
  | .announce _ _ env => env.announced.last_seen = t
  | .sync _ _ _ _ answered _ => ∃ id, (answered id).last_seen = t

section cluster

variable [Clock T] [DecidableEq ι] (int : Json T → Option Int)
  (connect : ι → Json T → Json T → Option ι)

/-- The node after a synchronisation over the network. -/
def synchronised (envs : ι → Env T) (nodes : ι → Node T) (b : ι) (polled elected : String → T)
    (answered : String → Readings T) (synced : T) : Node T :=
  { nodes b with
    mesh := ((nodes b).mesh.sync_state
      (syncEnv int connect envs nodes b polled elected answered synced)).1 }

/-- A cluster, with what each announcement returns. -/
def cluster : Machine (ι → Node T) (MeshLabel ι T) (ι × Bool) where
  step := fun nodes l =>
    match l with
    | .announce a peer env =>
      let r := announce_to_peer int connect env nodes a peer
      some (r.1, [(a, r.2)])
    | .sync b envs polled elected answered synced =>
      some (Function.update nodes b
        (synchronised int connect envs nodes b polled elected answered synced), [])

end cluster

/-! ### What a synchronisation keeps -/

section sync

variable [Clock T] (mesh : VirtualMesh T) (env : VirtualMesh.SyncEnv T)

/-- A synchronisation refreshes the records of known peers only, and each of
    them has the old time stamp or that of its answer. -/
theorem sync_peers_record (id : String) :
    (∀ record, mesh.peers.peers.get id = some record →
      ∃ record', (mesh.sync_peers env).peers.peers.get id = some record' ∧
        (record'.last_seen = record.last_seen ∨
          record'.last_seen = (env.answered id).last_seen)) ∧
    (mesh.peers.peers.get id = none → (mesh.sync_peers env).peers.peers.get id = none) := by
  refine mesh.sync_peers_induction env (P := fun acc =>
    (∀ record, mesh.peers.peers.get id = some record →
      ∃ record', acc.peers.peers.get id = some record' ∧
        (record'.last_seen = record.last_seen ∨
          record'.last_seen = (env.answered id).last_seen)) ∧
    (mesh.peers.peers.get id = none → acc.peers.peers.get id = none)) ?_ ?_
  · exact ⟨fun record h => ⟨record, h, Or.inl rfl⟩, fun h => h⟩
  · intro acc peer hpeer hacc
    rcases VirtualMesh.sync_peer_cases env acc peer with ⟨info, -, hpeers, -, -⟩ |
      ⟨-, hpeers, -, -⟩
    · rw [hpeers, PeerRegistry.add_or_update_get]
      by_cases hid : id = peer.node_id
      · -- the peer is one of the registry
        subst hid
        have hknown := ((PeerRegistry.mem_active_iff ..).mp hpeer).1
        rw [if_pos rfl]
        refine ⟨fun record _ => ⟨_, rfl, Or.inr (PeerRegistry.refreshed_last_seen ..)⟩, ?_⟩
        intro hnone
        cases hknown.symm.trans hnone
      · rw [if_neg hid]
        exact hacc
    · rw [hpeers]
      exact hacc

/-- The candidates of the election at the end of a synchronisation. -/
def balloted : List String :=
  { mesh with peers := (mesh.sync_peers env).peers }.candidates env.elected

theorem sync_state_peers :
    (mesh.sync_state env).1.peers = (mesh.sync_peers env).peers := rfl

theorem mem_balloted_iff (id : String) :
    id ∈ balloted mesh env ↔ id = mesh.identity.node_id ∨
      ∃ record, (mesh.sync_peers env).peers.peers.get id = some record ∧
        record.is_stale (env.elected id) = false := by
  unfold balloted VirtualMesh.candidates
  rw [List.mem_cons, List.mem_map]
  refine or_congr Iff.rfl ⟨?_, ?_⟩
  · rintro ⟨record, hrecord, rfl⟩
    exact ⟨record, (PeerRegistry.mem_active_iff ..).mp hrecord⟩
  · rintro ⟨record, hrecord, hfresh⟩
    have hid := (mesh.sync_peers env).peers.peers.named _ _ hrecord
    subst hid
    exact ⟨record, (PeerRegistry.mem_active_iff ..).mpr ⟨hrecord, hfresh⟩, rfl⟩

end sync

/-! ### What a step keeps -/

section steps

theorem has_registry_iff (node : Node T) :
    has_registry node = true ↔ ∃ id record, node.mesh.peers.peers.get id = some record := by
  constructor
  · intro h
    unfold has_registry PeerRegistry.count at h
    cases hitems : node.mesh.peers.peers.records.items with
    | nil => simp [hitems] at h
    | cons item items =>
      have hmem : item ∈ node.mesh.peers.peers.records.items := by
        rw [hitems]
        exact List.mem_cons_self
      exact ⟨item.1, item.2, Dict.get_of_mem hmem⟩
  · rintro ⟨id, record, hget⟩
    by_contra hempty
    cases hget.symm.trans (get_of_not_has_registry hempty id)

/-- What holds between the nodes before and after any number of steps. -/
structure Kept (s s' : ι → Node T) : Prop where
  api_key : ∀ i, (s' i).api_key = (s i).api_key
  identity : ∀ i, (s' i).mesh.identity = (s i).mesh.identity
  registry : ∀ i, has_registry (s' i) = has_registry (s i)
  /-- A registry learns of nodes of the cluster only. -/
  known : ∀ i id record, (s' i).mesh.peers.peers.get id = some record →
    (∃ record', (s i).mesh.peers.peers.get id = some record') ∨ ∃ j, announcer s j = id

theorem Kept.refl (s : ι → Node T) : Kept s s :=
  ⟨fun _ => rfl, fun _ => rfl, fun _ => rfl, fun _ _ record h => Or.inl ⟨record, h⟩⟩

theorem Kept.announcer {s s' : ι → Node T} (h : Kept s s') (i : ι) :
    CommandChannel.announcer s' i = CommandChannel.announcer s i :=
  congrArg NodeIdentity.node_id (h.identity i)

theorem Kept.trans {s s' s'' : ι → Node T} (h : Kept s s') (h' : Kept s' s'') : Kept s s'' where
  api_key i := (h'.api_key i).trans (h.api_key i)
  identity i := (h'.identity i).trans (h.identity i)
  registry i := (h'.registry i).trans (h.registry i)
  known := by
    intro i id record hget
    rcases h'.known i id record hget with ⟨record', hbefore⟩ | ⟨j, hj⟩
    · exact h.known i id record' hbefore
    · exact Or.inr ⟨j, (h.announcer j).symm.trans hj⟩

variable [Clock T]

/-- The registry of a node after it has synchronised. -/
theorem synchronised_get_iff (int : Json T → Option Int)
    (connect : ι → Json T → Json T → Option ι) (envs : ι → Env T) (nodes : ι → Node T) (b : ι)
    (polled elected : String → T) (answered : String → Readings T) (synced : T) (id : String) :
    (∃ record, (synchronised int connect envs nodes b polled elected answered
        synced).mesh.peers.peers.get id = some record) ↔
      ∃ record, (nodes b).mesh.peers.peers.get id = some record := by
  unfold synchronised
  rw [sync_state_peers]
  obtain ⟨hsome, hnone⟩ := sync_peers_record (nodes b).mesh
    (syncEnv int connect envs nodes b polled elected answered synced) id
  constructor
  · rintro ⟨record, hrecord⟩
    cases hget : (nodes b).mesh.peers.peers.get id with
    | none => cases hrecord.symm.trans (hnone hget)
    | some record' => exact ⟨record', rfl⟩
  · rintro ⟨record, hrecord⟩
    obtain ⟨record', hrecord', -⟩ := hsome record hrecord
    exact ⟨record', hrecord'⟩

/-- What a node elects when it synchronises. -/
theorem sync_elects (int : Json T → Option Int) (connect : ι → Json T → Json T → Option ι)
    (envs : ι → Env T) (nodes : ι → Node T) (b : ι) (polled elected : String → T)
    (answered : String → Readings T) (synced : T) :
    ∃ c, (synchronised int connect envs nodes b polled elected answered
        synced).mesh.coordinator = some c ∧
      IsLeast {id | id = announcer nodes b ∨
        ∃ record, (synchronised int connect envs nodes b polled elected answered
            synced).mesh.peers.peers.get id = some record ∧
          record.is_stale (elected id) = false} c := by
  -- the node itself is always a candidate
  have hne : balloted (nodes b).mesh
      (syncEnv int connect envs nodes b polled elected answered synced) ≠ [] :=
    List.cons_ne_nil _ _
  obtain ⟨c, helect, hleast⟩ := VirtualMesh.elect_isLeast hne
  refine ⟨c, helect, ?_⟩
  simp only [mem_balloted_iff] at hleast
  exact hleast

variable [DecidableEq ι]

/-- The registries after an announcement has been taken. -/
theorem taken_get_of (env : Env T) (nodes : ι → Node T) (a b i : ι) (id : String) :
    ((taken env nodes a b) i).mesh.peers.peers.get id =
      if i = b ∧ has_registry (nodes b) = true ∧ id = announcer nodes a then
        some (announcedRecord nodes a b env)
      else (nodes i).mesh.peers.peers.get id := by
  unfold taken
  by_cases hi : i = b
  · subst hi
    rw [Function.update_self]
    by_cases hregistry : has_registry (nodes i) = true
    · rw [if_pos hregistry]
      unfold announced
      rw [PeerRegistry.add_or_update_get]
      simp only [hregistry, true_and]
      rfl
    · rw [if_neg hregistry, if_neg fun h => hregistry h.2.1]
  · rw [Function.update_of_ne hi, if_neg fun h => hi h.1]

theorem taken_kept (env : Env T) (nodes : ι → Node T) (a b : ι) :
    Kept nodes (taken env nodes a b) where
  api_key i := (taken_same env nodes a b i).1
  identity i := (taken_same env nodes a b i).2
  registry := by
    intro i
    rw [Bool.eq_iff_iff, has_registry_iff, has_registry_iff]
    simp only [taken_get_of]
    constructor
    · rintro ⟨id, record, hget⟩
      by_cases h : i = b ∧ has_registry (nodes b) = true ∧ id = announcer nodes a
      · obtain ⟨rfl, hregistry, -⟩ := h
        exact (has_registry_iff _).mp hregistry
      · rw [if_neg h] at hget
        exact ⟨id, record, hget⟩
    · rintro ⟨id, record, hget⟩
      by_cases h : i = b ∧ has_registry (nodes b) = true ∧ id = announcer nodes a
      · exact ⟨id, _, if_pos h⟩
      · exact ⟨id, record, (if_neg h).trans hget⟩
  known := by
    intro i id record hget
    rw [taken_get_of] at hget
    by_cases h : i = b ∧ has_registry (nodes b) = true ∧ id = announcer nodes a
    · exact Or.inr ⟨a, h.2.2.symm⟩
    · rw [if_neg h] at hget
      exact Or.inl ⟨record, hget⟩

/-- An announcement is taken by the node that it reaches, or does nothing. -/
theorem announce_cases (parse : Json T → Option Int) (connect : ι → Json T → Json T → Option ι)
    (env : Env T) (nodes : ι → Node T) (a : ι) (peer : PeerRecord T) :
    (∃ b, Reaches connect a peer b ∧ (nodes b).api_key = "" ∧
      (announce_to_peer (Json.toInt parse) connect env nodes a peer).1 = taken env nodes a b) ∨
    ((∀ b, Reaches connect a peer b → (nodes b).api_key ≠ "") ∧
      (announce_to_peer (Json.toInt parse) connect env nodes a peer).1 = nodes) := by
  by_cases hup : ∃ b, Reaches connect a peer b
  · obtain ⟨b, hreach⟩ := hup
    rcases do_POST_announce parse (nodes b) (nodes a) env with ⟨hkey, hpost⟩ |
      ⟨hkey, response, -, hpost⟩
    · right
      constructor
      · intro b' hreach'
        obtain rfl := Option.some.inj (hreach.up.symm.trans hreach'.up)
        exact hkey
      · unfold announce_to_peer
        simp only [hreach.host, hreach.port, hreach.up, and_self, not_true_eq_false, if_false,
          hpost]
        exact Function.update_eq_self b nodes
    · left
      refine ⟨b, hreach, hkey, ?_⟩
      unfold announce_to_peer
      simp only [hreach.host, hreach.port, hreach.up, and_self, not_true_eq_false, if_false,
        hpost]
      rfl
  · right
    refine ⟨fun b hreach => absurd ⟨b, hreach⟩ hup, ?_⟩
    unfold announce_to_peer
    by_cases haddress : peer.host.truthy = true ∧ peer.port.truthy = true
    · rw [if_neg (not_not_intro haddress)]
      cases hconnect : connect a peer.host peer.port with
      | none => rfl
      | some b => exact absurd ⟨b, haddress.1, haddress.2, hconnect⟩ hup
    · rw [if_pos haddress]

/-- What one step of the cluster keeps. -/
theorem step_kept {parse : Json T → Option Int} {connect : ι → Json T → Json T → Option ι}
    {nodes nodes' : ι → Node T} {l : MeshLabel ι T} {os : List (ι × Bool)}
    (hs : (cluster (Json.toInt parse) connect).step nodes l = some (nodes', os)) :
    Kept nodes nodes' := by
  cases l with
  | announce a peer env =>
    obtain ⟨rfl, -⟩ := Prod.mk.inj (Option.some.inj hs)
    rcases announce_cases parse connect env nodes a peer with ⟨b, -, -, heq⟩ | ⟨-, heq⟩
    · rw [heq]
      exact taken_kept env nodes a b
    · rw [heq]
      exact Kept.refl nodes
  | sync b envs polled elected answered synced =>
    obtain ⟨rfl, -⟩ := Prod.mk.inj (Option.some.inj hs)
    have hget := synchronised_get_iff (Json.toInt parse) connect envs nodes b polled elected
      answered synced
    refine ⟨?_, ?_, ?_, ?_⟩
    all_goals
      intro i
      by_cases hi : i = b
      all_goals first | (subst hi; rw [Function.update_self]) | rw [Function.update_of_ne hi]
    · rfl
    · rfl
    · rw [Bool.eq_iff_iff, has_registry_iff, has_registry_iff]
      exact exists_congr hget
    · exact fun id record h => Or.inl ((hget id).mp ⟨record, h⟩)
    · exact fun id record h => Or.inl ⟨record, h⟩

theorem run_kept {parse : Json T → Option Int} {connect : ι → Json T → Json T → Option ι}
    {s s' : ι → Node T} {ls : List (MeshLabel ι T)} {tr : List (ι × Bool)}
    (hrun : (cluster (Json.toInt parse) connect).run s ls = some (s', tr)) : Kept s s' :=
  (cluster (Json.toInt parse) connect).run_invariant (Kept.refl s)
    (fun _ _ _ _ h hs => h.trans (step_kept hs)) hrun

/-! ### What a node has heard of another -/

/-- The node has a record of the other one that its election takes. -/
def Heard (elected : String → T) (nodes : ι → Node T) (a b : ι) : Prop :=
  ∃ record, (nodes b).mesh.peers.peers.get (announcer nodes a) = some record ∧
    record.is_stale (elected (announcer nodes a)) = false

/-- What the step stamps is no more than 300 seconds old at the election. -/
def Fresh (elected : String → T) (l : MeshLabel ι T) : Prop :=
  ∀ t, l.Stamps t → ∀ id, ¬ Clock.ofSeconds 300 < elected id - t

theorem step_heard {parse : Json T → Option Int} {connect : ι → Json T → Json T → Option ι}
    {elected : String → T} {nodes nodes' : ι → Node T} {l : MeshLabel ι T}
    {os : List (ι × Bool)} {a b : ι} (h : Heard elected nodes a b) (hfresh : Fresh elected l)
    (hs : (cluster (Json.toInt parse) connect).step nodes l = some (nodes', os)) :
    Heard elected nodes' a b := by
  unfold Heard
  rw [(step_kept hs).announcer a]
  obtain ⟨record, hget, hstale⟩ := h
  cases l with
  | announce a' peer env =>
    obtain ⟨rfl, -⟩ := Prod.mk.inj (Option.some.inj hs)
    rcases announce_cases parse connect env nodes a' peer with ⟨b', -, -, heq⟩ | ⟨-, heq⟩
    · rw [heq, taken_get_of]
      split
      · next hnew =>
        -- the other node, or one with its id, has announced itself again
        refine ⟨_, rfl, ?_⟩
        rw [hnew.2.2, announcedRecord_fresh_iff]
        exact hfresh _ rfl _
      · exact ⟨record, hget, hstale⟩
    · rw [heq]
      exact ⟨record, hget, hstale⟩
  | sync b' envs polled elected' answered synced =>
    obtain ⟨rfl, -⟩ := Prod.mk.inj (Option.some.inj hs)
    by_cases hb : b = b'
    · subst hb
      rw [Function.update_self]
      unfold synchronised
      rw [sync_state_peers]
      obtain ⟨record', hget', hseen⟩ := (sync_peers_record (nodes b).mesh
        (syncEnv (Json.toInt parse) connect envs nodes b polled elected' answered synced)
        (announcer nodes a)).1 record hget
      refine ⟨record', hget', ?_⟩
      unfold PeerRecord.is_stale at hstale ⊢
      rcases hseen with hseen | hseen
      · rw [hseen]
        exact hstale
      · rw [hseen, decide_eq_false_iff_not]
        exact hfresh _ ⟨_, rfl⟩ _
    · rw [Function.update_of_ne hb]
      exact ⟨record, hget, hstale⟩

theorem run_heard {parse : Json T → Option Int} {connect : ι → Json T → Json T → Option ι}
    {elected : String → T} {nodes nodes' : ι → Node T} {ls : List (MeshLabel ι T)}
    {tr : List (ι × Bool)} {a b : ι} (h : Heard elected nodes a b)
    (hfresh : ∀ l ∈ ls, Fresh elected l)
    (hrun : (cluster (Json.toInt parse) connect).run nodes ls = some (nodes', tr)) :
    Heard elected nodes' a b :=
  (cluster (Json.toInt parse) connect).run_induction_along
    (C := fun _ l => Fresh elected l) (P := fun _ nodes _ => Heard elected nodes a b) h
    (fun _ _ _ _ _ _ _ hheard hC hs => step_heard hheard hC hs)
    (Machine.along_of_mem _ (fun l hl _ => hfresh l hl) nodes) hrun

/-! ### Elections -/

/-- The last of these steps is an election of `b`, and `a` has announced itself
    to `b` no more than 300 seconds before. -/
def Announced (connect : ι → Json T → Json T → Option ι) (elected : String → T)
    (ls : List (MeshLabel ι T)) (a b : ι) : Prop :=
  ∃ pre peer env post, ls = pre ++ .announce a peer env :: post ∧ Reaches connect a peer b ∧
    ∀ l ∈ .announce a peer env :: post, Fresh elected l

/-- An announcement within the last 300 seconds has been heard, if the registry
    was not empty. -/
theorem announced_heard {parse : Json T → Option Int}
    {connect : ι → Json T → Json T → Option ι} {elected : String → T} {s s' : ι → Node T}
    {ls : List (MeshLabel ι T)} {tr : List (ι × Bool)} {a b : ι}
    (hopen : (s b).api_key = "") (hregistry : has_registry (s b) = true)
    (h : Announced connect elected ls a b)
    (hrun : (cluster (Json.toInt parse) connect).run s ls = some (s', tr)) :
    Heard elected s' a b := by
  obtain ⟨pre, peer, env, post, rfl, hreach, hfresh⟩ := h
  obtain ⟨t, tr₁, tr₂, hbefore, hrest, -⟩ := (Machine.run_append_iff _).mp hrun
  obtain ⟨t', os, tr', hs, hafter, -⟩ := (Machine.run_cons_iff _).mp hrest
  have hkept := run_kept hbefore
  refine run_heard ?_ (fun l hl => hfresh l (List.mem_cons_of_mem _ hl)) hafter
  unfold Heard
  rw [(step_kept hs).announcer a]
  obtain ⟨rfl, -⟩ := Prod.mk.inj (Option.some.inj hs)
  -- nobody has set a key, so the announcement is taken
  rcases announce_cases parse connect env t a peer with ⟨b', hreach', -, heq⟩ | ⟨hclosed, -⟩
  · obtain rfl := Option.some.inj (hreach.up.symm.trans hreach'.up)
    refine ⟨announcedRecord t a b env, ?_, ?_⟩
    · rw [heq, taken_get_of]
      exact if_pos ⟨rfl, (hkept.registry b).trans hregistry, rfl⟩
    · rw [announcedRecord_fresh_iff]
      exact hfresh _ List.mem_cons_self _ rfl _
  · exact absurd ((hkept.api_key b).trans hopen) (hclosed b hreach)

/-- Only its own synchronisations change the coordinator of a node. -/
theorem step_coordinator {parse : Json T → Option Int}
    {connect : ι → Json T → Json T → Option ι} {nodes nodes' : ι → Node T} {l : MeshLabel ι T}
    {os : List (ι × Bool)} {b : ι} (h : ¬ l.Syncs b)
    (hs : (cluster (Json.toInt parse) connect).step nodes l = some (nodes', os)) :
    (nodes' b).mesh.coordinator = (nodes b).mesh.coordinator := by
  cases l with
  | announce a peer env =>
    obtain ⟨rfl, -⟩ := Prod.mk.inj (Option.some.inj hs)
    rcases announce_cases parse connect env nodes a peer with ⟨b', -, -, heq⟩ | ⟨-, heq⟩
    · rw [heq]
      unfold taken
      by_cases hb : b = b'
      · subst hb
        rw [Function.update_self]
        split <;> rfl
      · rw [Function.update_of_ne hb]
    · rw [heq]
  | sync b' envs polled elected answered synced =>
    obtain ⟨rfl, -⟩ := Prod.mk.inj (Option.some.inj hs)
    have hb : b ≠ b' := fun heq => h heq.symm
    rw [Function.update_of_ne hb]

theorem run_coordinator {parse : Json T → Option Int}
    {connect : ι → Json T → Json T → Option ι} {nodes nodes' : ι → Node T}
    {ls : List (MeshLabel ι T)} {tr : List (ι × Bool)} {b : ι} (h : ∀ l ∈ ls, ¬ l.Syncs b)
    (hrun : (cluster (Json.toInt parse) connect).run nodes ls = some (nodes', tr)) :
    (nodes' b).mesh.coordinator = (nodes b).mesh.coordinator :=
  (cluster (Json.toInt parse) connect).run_induction_along
    (C := fun _ l => ¬ l.Syncs b)
    (P := fun _ t _ => (t b).mesh.coordinator = (nodes b).mesh.coordinator) rfl
    (fun _ _ _ _ _ _ _ heq hC hs => (step_coordinator hC hs).trans heq)
    (Machine.along_of_mem _ (fun l hl _ => h l hl) nodes) hrun

end steps

/-- Two nodes. The second one has a record of the first one. -/
def acquainted : Bool → Node ℚ := twoNodes "" (nobody.add_or_update "a" {} ⟨0, 0⟩)

/-- The second one synchronises. -/
def secondSyncs : MeshLabel Bool ℚ :=
  .sync true (fun _ => quietEnv) (fun _ => 60) (fun _ => 61) (fun _ => ⟨60, 60⟩) 62

end CommandChannel
