import Aioscpu.Services.CommandChannel
import Aioscpu.Vnet.Coordinator

/-! # Partial Updates of a Peer

  A peer that is known is updated through `merge_from_cc` or through an announcement. What the
  object omits is filled with a default by the caller, and `add_or_update` keeps the old value
  of a field only where the default is falsy, or null.
-/

namespace PeerRegistry

variable {T : Type}

/-- The fields that the object omits are the same in both records. -/
structure KeepsOmitted (r : PeerEntry T) (peer peer' : PeerRecord T) : Prop where
  «alias» : r.alias = none → peer'.alias = peer.alias
  host : r.host = none → peer'.host = peer.host
  port : r.port = none → peer'.port = peer.port
  capabilities : r.capabilities = none → peer'.capabilities = peer.capabilities
  version : r.version = none → peer'.version = peer.version

/-- The update keeps what it should of the peer, and all of the other peers. -/
def KeepsRest (r : PeerEntry T) (n : String) (s s' : PeerRegistry T) : Prop :=
  (∃ peer peer', s.peers.get n = some peer ∧ s'.peers.get n = some peer' ∧
    KeepsOmitted r peer peer') ∧
  ∀ id, id ≠ n → s'.peers.get id = s.peers.get id

/-- The peer has the defaults of the fields that are omitted and not kept. -/
structure Defaulted (r : PeerEntry T) (peer : PeerRecord T) : Prop where
  «alias» : r.alias = none → peer.alias = .str "unknown"
  capabilities : r.capabilities = none → peer.capabilities = .arr []

theorem keepsRest_refl (r : PeerEntry T) {n : String} {s : PeerRegistry T} {peer : PeerRecord T}
    (hpeer : s.peers.get n = some peer) : KeepsRest r n s s :=
  ⟨⟨peer, peer, hpeer, hpeer,
    ⟨fun _ => rfl, fun _ => rfl, fun _ => rfl, fun _ => rfl, fun _ => rfl⟩⟩, fun _ _ => rfl⟩

variable [Clock T] {parse : Json T → Option Int}

omit [Clock T] in
/-- An omitted port is zero. -/
theorem args_port_omitted {r : PeerEntry T} {args : PeerArgs T}
    (hargs : r.args (Json.toInt parse) = some args) (homitted : r.port = none) :
    args.port = .int 0 := by
  unfold PeerEntry.args at hargs
  rw [homitted] at hargs
  cases hargs
  rfl

/-- Which omitted fields a record keeps. -/
theorem update_keeps_iff {r : PeerEntry T} {args : PeerArgs T}
    (hargs : r.args (Json.toInt parse) = some args) (peer : PeerRecord T) (now : T) :
    KeepsOmitted r peer (update peer args now) ↔ Defaulted r peer := by
  have hport := args_port_omitted hargs
  obtain ⟨port, -, rfl⟩ := Option.map_eq_some_iff.mp hargs
  constructor
  · intro h
    refine ⟨fun homitted => ?_, fun homitted => ?_⟩
    · have hkept := h.alias homitted
      rw [← hkept]
      show Json.or (r.alias.getD (.str "unknown")) peer.alias = _
      rw [homitted]
      rfl
    · have hkept := h.capabilities homitted
      rw [← hkept]
      show Json.ifNone (r.capabilities.getD (.arr [])) peer.capabilities = _
      rw [homitted]
      rfl
  · intro h
    refine ⟨fun homitted => ?_, fun homitted => ?_, fun homitted => ?_, fun homitted => ?_,
      fun homitted => ?_⟩
    · show Json.or (r.alias.getD (.str "unknown")) peer.alias = _
      rw [homitted, h.alias homitted]
      rfl
    · show Json.or (r.host.getD (.str "")) peer.host = _
      rw [homitted]
      rfl
    · have hzero : Json.int port = .int 0 := hport homitted
      show Json.or (.int port) peer.port = _
      rw [hzero]
      rfl
    · show Json.ifNone (r.capabilities.getD (.arr [])) peer.capabilities = _
      rw [homitted, h.capabilities homitted]
      rfl
    · show Json.or (r.version.getD (.str "")) peer.version = _
      rw [homitted]
      rfl

/-- One update. -/
theorem add_or_update_keeps_iff {r : PeerEntry T} {args : PeerArgs T} {n : String}
    {s : PeerRegistry T} {peer : PeerRecord T} (hpeer : s.peers.get n = some peer)
    (hargs : r.args (Json.toInt parse) = some args) (now : Readings T) :
    KeepsRest r n s (s.add_or_update n args now) ↔ Defaulted r peer := by
  have hrecord : s.refreshed n args now = update peer args now.last_seen := by
    unfold refreshed
    rw [hpeer]
  have hget : ∀ id, (s.add_or_update n args now).peers.get id =
      if id = n then some (update peer args now.last_seen) else s.peers.get id := by
    intro id
    rw [add_or_update_get, hrecord]
  rw [← update_keeps_iff hargs peer now.last_seen]
  constructor
  · rintro ⟨⟨old, peer', hold, hnew, hkeeps⟩, -⟩
    rw [hpeer] at hold
    rw [hget, if_pos rfl] at hnew
    cases hold
    cases hnew
    exact hkeeps
  · intro hkeeps
    refine ⟨⟨peer, _, hpeer, ?_, hkeeps⟩, fun id hne => ?_⟩
    · rw [hget, if_pos rfl]
    · rw [hget, if_neg hne]

/-- Each round of a merge is a merge of one entry. -/
theorem merge_from_cc_cons (int : Json T → Option Int) (clock : Nat → Readings T)
    (s : PeerRegistry T) (count : Nat) (p : Option (PeerEntry T))
    (peer_list : List (Option (PeerEntry T))) :
    s.merge_from_cc int clock count (p :: peer_list) =
      match s.merge_from_cc int clock count [p] with
      | (s', .ok count') => s'.merge_from_cc int clock count' peer_list
      | (s', .error merged) => (s', .error merged) := by
  cases p with
  | none => rfl
  | some r =>
    rw [merge_from_cc, merge_from_cc]
    cases r.node_id with
    | none => rfl
    | some node_id =>
      by_cases hempty : node_id = ""
      · simp only [hempty, if_true]
        rfl
      · simp only [hempty, if_false]
        cases r.args int with
        | none => rfl
        | some args => rfl

end PeerRegistry

namespace CommandChannel

open PeerRegistry

variable {T : Type}

/-- How a peer is updated. -/
inductive EntryPoint (T : Type) where
  /-- An entry of a list that is merged, after `count` others. -/
  | merge_from_cc (count : Nat) (clock : Nat → Readings T)
  | announce (headers : List (String × String)) (env : Env T)

def announceRequest (headers : List (String × String)) (items : List (String × Json T)) :
    Request T := ⟨"/api/node/announce", headers, .obj items⟩

section entrypoints

variable [Clock T]

/-- The node after the update. What raises changes nothing. -/
def EntryPoint.update (int : Json T → Option Int) (node : Node T)
    (items : List (String × Json T)) : EntryPoint T → Node T
  | .merge_from_cc count clock =>
    { node with
      mesh := { node.mesh with
        peers := (node.mesh.peers.merge_from_cc int clock count
          [some (PeerEntry.ofObject items)]).1 } }
  | .announce headers env =>
    ((do_POST int node env (announceRequest headers items)).map Prod.fst).getD node

/-- The request for the update has a wrong key. -/
def EntryPoint.Refused (node : Node T) (items : List (String × Json T)) : EntryPoint T → Prop
  | .merge_from_cc _ _ => False
  | .announce headers _ => check_auth node (announceRequest headers items) = false

/-- The update does not reach the registry. -/
def EntryPoint.Ineffective (int : Json T → Option Int) (node : Node T)
    (items : List (String × Json T)) (n : String) (via : EntryPoint T) : Prop :=
  n = "" ∨ (PeerEntry.ofObject items).args int = none ∨ via.Refused node items

variable {int : Json T → Option Int} {node : Node T} {items : List (String × Json T)}
  {n : String} {peer : PeerRecord T}

/-- What an update through a merge does. -/
theorem merge_update (hn : (PeerEntry.ofObject items).node_id = some n) (count : Nat)
    (clock : Nat → Readings T) :
    ((EntryPoint.merge_from_cc count clock).update int node items).mesh.peers =
      if n = "" then node.mesh.peers
      else
        match (PeerEntry.ofObject items).args int with
        | none => node.mesh.peers
        | some args => node.mesh.peers.add_or_update n args (clock count) := by
  show (node.mesh.peers.merge_from_cc int clock count [some (PeerEntry.ofObject items)]).1 = _
  rw [PeerRegistry.merge_from_cc]
  simp only [hn]
  split
  · rfl
  · cases (PeerEntry.ofObject items).args int with
    | none => rfl
    | some args => rfl

/-- What an announcement of a known peer does. -/
theorem announce_update (hn : (PeerEntry.ofObject items).node_id = some n)
    (hpeer : node.mesh.peers.peers.get n = some peer) (headers : List (String × String))
    (env : Env T) :
    ((EntryPoint.announce headers env).update int node items).mesh.peers =
      if check_auth node (announceRequest headers items) then
        if n = "" then node.mesh.peers
        else
          match (PeerEntry.ofObject items).args int with
          | none => node.mesh.peers
          | some args => node.mesh.peers.add_or_update n args env.announced
      else node.mesh.peers := by
  have hregistry : has_registry node = true := by
    by_contra h
    rw [get_of_not_has_registry h] at hpeer
    cases hpeer
  have hroute : postRoutes.lookup (route (announceRequest headers items).path) =
      some .handle_announce := by
    show postRoutes.lookup (route "/api/node/announce") = _
    decide
  show (((do_POST int node env (announceRequest headers items)).map Prod.fst).getD node).mesh.peers
    = _
  unfold do_POST dispatch
  split
  · rw [hroute]
    show (((handle_announce int node env (.obj items)).map Prod.fst).getD node).mesh.peers = _
    unfold handle_announce
    simp only [hn, hregistry, if_true]
    split
    · rfl
    · split
      · next hargs =>
        rw [hargs]
        rfl
      · next args hargs =>
        rw [hargs]
        rfl
  · rfl

/-- An update does nothing, or it is one of the registry. -/
theorem EntryPoint.update_cases (via : EntryPoint T)
    (hpeer : node.mesh.peers.peers.get n = some peer)
    (hn : (PeerEntry.ofObject items).node_id = some n) :
    (via.Ineffective int node items n ∧
      (via.update int node items).mesh.peers = node.mesh.peers) ∨
    (¬ via.Ineffective int node items n ∧
      ∃ args now, (PeerEntry.ofObject items).args int = some args ∧
        (via.update int node items).mesh.peers = node.mesh.peers.add_or_update n args now) := by
  by_cases hempty : n = ""
  · left
    refine ⟨Or.inl hempty, ?_⟩
    cases via with
    | merge_from_cc count clock => rw [merge_update hn, if_pos hempty]
    | announce headers env => rw [announce_update hn hpeer, if_pos hempty, ite_self]
  · cases hargs : (PeerEntry.ofObject items).args int with
    | none =>
      left
      refine ⟨Or.inr (Or.inl hargs), ?_⟩
      cases via with
      | merge_from_cc count clock => rw [merge_update hn, if_neg hempty, hargs]
      | announce headers env => rw [announce_update hn hpeer, if_neg hempty, hargs, ite_self]
    | some args =>
      have hnone : ¬ (PeerEntry.ofObject items).args int = none := by
        rw [hargs]
        exact Option.some_ne_none args
      unfold Ineffective
      rw [or_iff_right hempty, or_iff_right hnone]
      cases via with
      | merge_from_cc count clock =>
        right
        refine ⟨id, args, clock count, rfl, ?_⟩
        rw [merge_update hn, if_neg hempty, hargs]
      | announce headers env =>
        by_cases hauth : check_auth node (announceRequest headers items) = true
        · right
          refine ⟨fun hrefused => Bool.noConfusion (hauth.symm.trans hrefused), args,
            env.announced, rfl, ?_⟩
          rw [announce_update hn hpeer, if_pos hauth, if_neg hempty, hargs]
        · left
          refine ⟨Bool.eq_false_of_not_eq_true hauth, ?_⟩
          rw [announce_update hn hpeer, if_neg hauth]

/-- **Partial updates**: an update of a known peer keeps what it omits, and the other peers, if
    and only if it does not reach the registry, or the peer has the defaults of the alias and of
    the capabilities where they are omitted. -/
theorem keeps_rest_iff_defaulted (parse : Json T → Option Int) (via : EntryPoint T)
    (node : Node T) (items : List (String × Json T)) (n : String) (peer : PeerRecord T)
    (hpeer : node.mesh.peers.peers.get n = some peer)
    (hn : items.lookup "node_id" = some (.str n)) :
    KeepsRest (PeerEntry.ofObject items) n node.mesh.peers
        (via.update (Json.toInt parse) node items).mesh.peers ↔
      via.Ineffective (Json.toInt parse) node items n ∨
        Defaulted (PeerEntry.ofObject items) peer := by
  have hid : (PeerEntry.ofObject items).node_id = some n := by
    unfold PeerEntry.ofObject
    rw [hn]
  rcases @EntryPoint.update_cases T _ (Json.toInt parse) node items n peer via hpeer hid with
    ⟨hineffective, hsame⟩ | ⟨heffective, args, now, hargs, hupdated⟩
  · rw [hsame]
    exact iff_of_true (keepsRest_refl _ hpeer) (Or.inl hineffective)
  · rw [hupdated, add_or_update_keeps_iff hpeer hargs, or_iff_right heffective]

end entrypoints

/-- A node that knows the peer `n`, with an alias and a capability. -/
def aliased : Node ℚ :=
  ⟨VirtualMesh.knowing (VirtualMesh.identityOf "a" NodeIdentity.a_ne_empty) "n"
    { «alias» := .str "pi", capabilities := .arr [.str "gpu"] }, ⟨"a-host", "Linux", "x86", "3.12"⟩,
    ""⟩

/-- The record that it has of the peer. -/
def pi : PeerRecord ℚ :=
  { node_id := "n", «alias» := .str "pi", host := .str "", port := .int 0,
    capabilities := .arr [.str "gpu"], status := .str "unknown", first_seen := 0, last_seen := 0,
    version := .str "" }

/-- An object with an alias and with capabilities, and no more. -/
def named : List (String × Json ℚ) :=
  [("node_id", .str "n"), ("alias", .str "rho"), ("capabilities", .arr [])]

theorem keeps_rest_iff_defaulted_named :
    KeepsRest (PeerEntry.ofObject named) "n" aliased.mesh.peers
        ((EntryPoint.merge_from_cc 0 fun _ => ⟨9, 9⟩).update (Json.toInt fun _ => none) aliased
          named).mesh.peers ↔
      (EntryPoint.merge_from_cc 0 fun _ => ⟨9, 9⟩).Ineffective (Json.toInt fun _ => none) aliased
          named "n" ∨ Defaulted (PeerEntry.ofObject named) pi :=
  keeps_rest_iff_defaulted _ _ _ _ _ _ rfl rfl

/-- What an announcement finds. -/
def laterEnv : Env ℚ := ⟨1, 1, none, ⟨9, 9⟩, fun _ => none⟩

/-- An object with the id alone takes the alias away, through both entry points. -/
theorem alias_lost :
    ¬ KeepsRest (PeerEntry.ofObject [("node_id", .str "n")]) "n" aliased.mesh.peers
        ((EntryPoint.merge_from_cc 0 fun _ => ⟨9, 9⟩).update (Json.toInt fun _ => none) aliased
          [("node_id", .str "n")]).mesh.peers ∧
      ¬ KeepsRest (PeerEntry.ofObject [("node_id", .str "n")]) "n" aliased.mesh.peers
        ((EntryPoint.announce [] laterEnv).update (Json.toInt fun _ => none) aliased
          [("node_id", .str "n")]).mesh.peers := by
  constructor
  · rintro ⟨⟨peer, peer', hold, hnew, hkeeps⟩, -⟩
    cases hold
    cases hnew
    have halias : "unknown" = "pi" := Json.str.inj (hkeeps.alias rfl)
    exact absurd halias (by decide)
  · rintro ⟨⟨peer, peer', hold, hnew, hkeeps⟩, -⟩
    cases hold
    cases hnew
    have halias : "unknown" = "pi" := Json.str.inj (hkeeps.alias rfl)
    exact absurd halias (by decide)

end CommandChannel
