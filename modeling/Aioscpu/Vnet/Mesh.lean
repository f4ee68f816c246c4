import Aioscpu.Vnet.NodeIdentity
import Aioscpu.Vnet.PeerRegistry
import Mathlib.Data.List.Sort
import Mathlib.Data.String.Basic
import Mathlib.Logic.Function.Basic

/-! # Virtual Mesh

  The mesh of `vnet/mesh.py`: a node pulls the status of its active peers, and
  elects the active node with the lowest id.

  What a peer answers is up to the environment, and so is each reading of the
  clock. A synchronisation runs as a whole. Between two of them the registry
  of a node may change in any other way, as by the announcement of a peer.
-/

/-- `T` is the type of clock readings. -/
structure VirtualMesh (T : Type) where
  identity : NodeIdentity T
  peers : PeerRegistry T
  sync_count : Nat
  last_sync_ts : T
  coordinator : Option String

namespace VirtualMesh

variable {T : Type}

/-- `VirtualMesh.__init__`. -/
def init [Clock T] (identity : NodeIdentity T) (peers : PeerRegistry T) : VirtualMesh T :=
  ⟨identity, peers, 0, Clock.ofSeconds 0, none⟩

/-- What the environment decides during a synchronisation. -/
structure SyncEnv (T : Type) where
  /-- When the peers are tested before they are asked. -/
  polled : String → T
  /-- What a peer answers; `none` where the request raises. -/
  fetch : PeerRecord T → Option (Json T)
  /-- When the record of a peer is refreshed. -/
  answered : String → Readings T
  /-- When the peers are tested for the election. -/
  elected : String → T
  synced : T

inductive Obs (T : Type) where
  /-- The record of a peer is refreshed from a response. -/
  | refreshed (node_id : String) (info : List (String × Json T))
  | elected (candidates : List String)

/-- The variables of the loop of `sync_state`, and what it has done. -/
structure Sync (T : Type) where
  peers : PeerRegistry T
  reachable : Nat
  unreachable : Nat
  updated : List String
  trace : List (Obs T)

/-- What `sync_state` returns. -/
structure Summary where
  reachable : Nat
  unreachable : Nat
  updated : List String
  coordinator : Option String
  peer_count : Nat
deriving DecidableEq, Repr

/-- `info.get(key, default)`. -/
def field (info : List (String × Json T)) (key : String) (default : Json T) : Json T :=
  (info.lookup key).getD default

/-- The arguments for the record of a peer that has answered. -/
def status_args (peer : PeerRecord T) (info : List (String × Json T)) : PeerArgs T :=
  { «alias» := field info "alias" peer.alias
    host := peer.host
    port := peer.port
    capabilities := field info "capabilities" peer.capabilities
    status := field info "status" (.str "unknown")
    version := field info "version" peer.version }

section sync

variable [Clock T]

/-- The body of the loop of `sync_state`. -/
def sync_peer (env : SyncEnv T) (acc : Sync T) (peer : PeerRecord T) : Sync T :=
  if ¬ (peer.host.truthy ∧ peer.port.truthy) then acc
  else
    match env.fetch peer with
    | none => { acc with unreachable := acc.unreachable + 1 }
    | some info =>
      if info.truthy then
        match info with
        | .obj info =>
          { acc with
            peers := acc.peers.add_or_update peer.node_id (status_args peer info)
              (env.answered peer.node_id)
            reachable := acc.reachable + 1
            updated := acc.updated ++ [peer.node_id]
            trace := acc.trace ++ [.refreshed peer.node_id info] }
        -- only an object has `get`
        | _ => { acc with unreachable := acc.unreachable + 1 }
      else acc

/-- The loop of `sync_state`. -/
def sync_peers (self : VirtualMesh T) (env : SyncEnv T) : Sync T :=
  (self.peers.active env.polled).foldl (sync_peer env) ⟨self.peers, 0, 0, [], []⟩

/-- The candidates of `_compute_coordinator`. -/
def candidates (self : VirtualMesh T) (now : String → T) : List String :=
  self.identity.node_id :: (self.peers.active now).map PeerRecord.node_id

/-- `sorted(candidates)[0]`. -/
def elect (candidates : List String) : Option String :=
  (candidates.insertionSort (· ≤ ·)).head?

/-- `_compute_coordinator`. -/
def compute_coordinator (self : VirtualMesh T) (now : String → T) : VirtualMesh T :=
  { self with coordinator := elect (self.candidates now) }

/-- `VirtualMesh.sync_state`. -/
def sync_state (self : VirtualMesh T) (env : SyncEnv T) :
    VirtualMesh T × Summary × List (Obs T) :=
  let sync := self.sync_peers env
  let candidates := { self with peers := sync.peers }.candidates env.elected
  let self := { self with peers := sync.peers }.compute_coordinator env.elected
  ({ self with sync_count := self.sync_count + 1, last_sync_ts := env.synced },
    { reachable := sync.reachable
      unreachable := sync.unreachable
      updated := sync.updated
      coordinator := self.coordinator
      peer_count := self.peers.count },
    sync.trace ++ [.elected candidates])

end sync

/-- `VirtualMesh.am_coordinator`. -/
def am_coordinator (self : VirtualMesh T) : Bool :=
  self.coordinator = some self.identity.node_id

/-! ### Clusters -/

/-- `ι` is the type of nodes. -/
inductive Label (ι T : Type) where
  | sync_state (i : ι) (env : SyncEnv T)
  /-- The registry of the node changes. -/
  | change (i : ι) (l : PeerRegistry.Label T)

/-- The nodes of a cluster, each with a registry of its own. -/
def machine {ι : Type} [DecidableEq ι] [Clock T] (int : Json T → Option Int) :
    Machine (ι → VirtualMesh T) (Label ι T) (ι × Obs T) where
  step := fun s l =>
    match l with
    | .sync_state i env =>
      some (Function.update s i ((s i).sync_state env).1,
        ((s i).sync_state env).2.2.map fun o => (i, o))
    | .change i l =>
      ((PeerRegistry.machine int).step (s i).peers l).map fun r =>
        (Function.update s i { s i with peers := r.1 }, [])

/-! ### What a synchronisation refreshes -/

section refreshing

variable [Clock T]

/-- The peer is asked, and answers with an object that is not empty. -/
structure Answers (env : SyncEnv T) (peer : PeerRecord T) (info : List (String × Json T)) :
    Prop where
  host : peer.host.truthy = true
  port : peer.port.truthy = true
  fetched : env.fetch peer = some (.obj info)
  nonempty : info ≠ []

/-- What the loop does for one peer. -/
theorem sync_peer_cases (env : SyncEnv T) (acc : Sync T) (peer : PeerRecord T) :
    (∃ info, Answers env peer info ∧
      (sync_peer env acc peer).peers = acc.peers.add_or_update peer.node_id
        (status_args peer info) (env.answered peer.node_id) ∧
      (sync_peer env acc peer).updated = acc.updated ++ [peer.node_id] ∧
      (sync_peer env acc peer).trace = acc.trace ++ [.refreshed peer.node_id info]) ∨
    ((∀ info, ¬ Answers env peer info) ∧
      (sync_peer env acc peer).peers = acc.peers ∧
      (sync_peer env acc peer).updated = acc.updated ∧
      (sync_peer env acc peer).trace = acc.trace) := by
  unfold sync_peer
  by_cases haddress : peer.host.truthy = true ∧ peer.port.truthy = true
  · simp only [haddress, and_self, not_true_eq_false, if_false]
    cases hfetch : env.fetch peer with
    | none =>
      refine Or.inr ⟨fun info h => ?_, rfl, rfl, rfl⟩
      cases hfetch.symm.trans h.fetched
    | some info =>
      cases info with
      | obj info =>
        by_cases hempty : info = []
        · subst hempty
          refine Or.inr ⟨fun info h => ?_, rfl, rfl, rfl⟩
          obtain rfl := Json.obj.inj (Option.some.inj (hfetch.symm.trans h.fetched))
          exact h.nonempty rfl
        · left
          have htruthy : (Json.obj info).truthy = true := by
            simp [Json.truthy, hempty]
          refine ⟨info, ⟨haddress.1, haddress.2, hfetch, hempty⟩, ?_⟩
          simp only [htruthy, if_true, and_self]
      | _ =>
        right
        refine ⟨fun info h => ?_, ?_⟩
        · cases hfetch.symm.trans h.fetched
        · dsimp only
          split <;> exact ⟨rfl, rfl, rfl⟩
  · simp only [haddress, not_false_eq_true, if_true, and_self, and_true]
    exact Or.inr fun info h => haddress ⟨h.host, h.port⟩

/-- What holds before the loop and is kept for each active peer holds after it. -/
theorem sync_peers_induction (self : VirtualMesh T) (env : SyncEnv T) {P : Sync T → Prop}
    (hinit : P ⟨self.peers, 0, 0, [], []⟩)
    (hstep : ∀ acc peer, peer ∈ self.peers.active env.polled → P acc →
      P (sync_peer env acc peer)) : P (self.sync_peers env) := by
  unfold sync_peers
  exact List.foldlRecOn _ _ hinit fun acc hacc peer hpeer => hstep acc peer hpeer hacc

/-- The records are refreshed from what the active peers answer. -/
theorem mem_sync_peers_trace_iff (self : VirtualMesh T) (env : SyncEnv T) (o : Obs T) :
    o ∈ (self.sync_peers env).trace ↔
      ∃ peer ∈ self.peers.active env.polled, ∃ info, Answers env peer info ∧
        o = .refreshed peer.node_id info := by
  have hfold : ∀ (l : List (PeerRecord T)) (acc : Sync T),
      o ∈ (l.foldl (sync_peer env) acc).trace ↔
        o ∈ acc.trace ∨ ∃ peer ∈ l, ∃ info, Answers env peer info ∧
          o = .refreshed peer.node_id info := by
    intro l
    induction l with
    | nil => simp
    | cons peer l ih =>
      intro acc
      rw [List.foldl_cons, ih]
      rcases sync_peer_cases env acc peer with ⟨info, hanswer, -, -, htrace⟩ |
        ⟨hnone, -, -, htrace⟩
      · have hone : (∃ info, Answers env peer info ∧ o = .refreshed peer.node_id info) ↔
            o = .refreshed peer.node_id info := by
          constructor
          · rintro ⟨info', hanswer', rfl⟩
            have heq := hanswer.fetched.symm.trans hanswer'.fetched
            rw [Json.obj.inj (Option.some.inj heq)]
          · exact fun heq => ⟨info, hanswer, heq⟩
        simp [htrace, hone, or_assoc]
      · have hno : ¬ ∃ info, Answers env peer info ∧ o = .refreshed peer.node_id info := by
          rintro ⟨info, hanswer, -⟩
          exact hnone info hanswer
        simp [htrace, hno]
  unfold sync_peers
  rw [hfold]
  simp

/-- A record that is not refreshed stays. -/
theorem sync_peers_get (self : VirtualMesh T) (env : SyncEnv T) {id : String}
    (h : ∀ info, .refreshed id info ∉ (self.sync_peers env).trace) :
    (self.sync_peers env).peers.peers.get id = self.peers.peers.get id := by
  have hkept : (∀ info, .refreshed id info ∉ (self.sync_peers env).trace) →
      (self.sync_peers env).peers.peers.get id = self.peers.peers.get id := by
    refine self.sync_peers_induction env
      (P := fun acc => (∀ info, .refreshed id info ∉ acc.trace) →
        acc.peers.peers.get id = self.peers.peers.get id) (fun _ => rfl) ?_
    intro acc peer _ hacc hnone
    rcases sync_peer_cases env acc peer with ⟨info, -, hpeers, -, htrace⟩ |
      ⟨-, hpeers, -, htrace⟩
    · rw [htrace] at hnone
      have hne : id ≠ peer.node_id := by
        rintro rfl
        exact hnone info (List.mem_append_right _ (List.mem_singleton.mpr rfl))
      rw [hpeers, PeerRegistry.add_or_update_get, if_neg hne]
      exact hacc fun info' hmem => hnone info' (List.mem_append_left _ hmem)
    · rw [hpeers]
      exact hacc (htrace ▸ hnone)
  exact hkept h

end refreshing

/-! ### Steps of a cluster -/

section steps

variable {ι : Type} [DecidableEq ι] [Clock T]

/-- What a step does: a node synchronises, or its registry changes. -/
inductive Step (int : Json T → Option Int) (s : ι → VirtualMesh T) :
    Label ι T → List (ι × Obs T) → (ι → VirtualMesh T) → Prop where
  | sync_state (i : ι) (env : SyncEnv T) :
      Step int s (.sync_state i env) (((s i).sync_state env).2.2.map fun o => (i, o))
        (Function.update s i ((s i).sync_state env).1)
  | change (i : ι) (l : PeerRegistry.Label T) (peers : PeerRegistry T)
      (os : List (PeerRegistry.Obs T))
      (hs : (PeerRegistry.machine int).step (s i).peers l = some (peers, os)) :
      Step int s (.change i l) [] (Function.update s i { s i with peers })

theorem step_sound {int : Json T → Option Int} {s s' : ι → VirtualMesh T} {l : Label ι T}
    {os : List (ι × Obs T)} (hs : (machine int).step s l = some (s', os)) :
    Step int s l os s' := by
  cases l with
  | sync_state i env =>
    cases hs
    exact .sync_state i env
  | change i l =>
    simp only [machine, Option.map_eq_some_iff] at hs
    obtain ⟨r, hr, heq⟩ := hs
    cases heq
    exact .change i l r.1 r.2 hr

end steps

end VirtualMesh
