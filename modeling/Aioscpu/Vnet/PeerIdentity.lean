import Aioscpu.Vnet.Coordinator

/-! # Identity of the Peers

  A synchronisation asks an address, and puts what it answers into the record
  of the peer that had the address. Here is when that is the peer itself.
-/

namespace VirtualMesh

variable {ι T : Type}

/-- The node that a response names. -/
def named (info : List (String × Json T)) (id : String) : Prop :=
  info.lookup "node_id" = some (.str id)

/-- Every refreshed record is one of the node that the response names. -/
def Genuine (tr : List (ι × Obs T)) : Prop :=
  ∀ i id info, (i, .refreshed id info) ∈ tr → named info id

/-- The node gets no response that names the peer, and its registry changes by
    synchronisations only. -/
def Replaced (ls : List (Label ι T)) (i : ι) (id : String) : Prop :=
  (∀ env, .sync_state i env ∈ ls → ∀ peer info, env.fetch peer = some (.obj info) →
    ¬ named info id) ∧
  ∀ l, .change i l ∉ ls

theorem genuine_append (tr os : List (ι × Obs T)) :
    Genuine (tr ++ os) ↔ Genuine tr ∧ Genuine os := by
  unfold Genuine
  simp only [List.mem_append, or_imp, forall_and]

variable [Clock T]

/-- Every active peer that answers names itself. -/
def Honest (s : ι → VirtualMesh T) : Label ι T → Prop
  | .sync_state i env => ∀ peer ∈ (s i).peers.active env.polled, ∀ info,
      Answers env peer info → named info peer.node_id
  | .change _ _ => True

theorem sync_genuine_iff (self : VirtualMesh T) (env : SyncEnv T) (i : ι) :
    Genuine ((self.sync_state env).2.2.map fun o => (i, o)) ↔
      ∀ peer ∈ self.peers.active env.polled, ∀ info, Answers env peer info →
        named info peer.node_id := by
  have hmem : ∀ j id info, (j, Obs.refreshed id info) ∈
      ((self.sync_state env).2.2.map fun o => (i, o)) ↔
        j = i ∧ .refreshed id info ∈ (self.sync_peers env).trace := by
    intro j id info
    simp [sync_state, eq_comm, and_comm]
  unfold Genuine
  simp only [hmem, mem_sync_peers_trace_iff]
  constructor
  · intro h peer hpeer info hanswer
    exact h i peer.node_id info ⟨rfl, peer, hpeer, info, hanswer, rfl⟩
  · rintro h j id info ⟨rfl, peer, hpeer, info', hanswer, heq⟩
    obtain ⟨rfl, rfl⟩ := Obs.refreshed.inj heq
    exact h peer hpeer info hanswer

variable [DecidableEq ι]

theorem step_genuine_iff {int : Json T → Option Int} {s s' : ι → VirtualMesh T}
    {l : Label ι T} {os : List (ι × Obs T)} (hs : Step int s l os s') :
    Honest s l ↔ Genuine os := by
  cases hs with
  | sync_state i env => exact (sync_genuine_iff (s i) env i).symm
  | change i l peers os' hs' => exact iff_of_true trivial fun _ _ _ hmem => (nomatch hmem)

/-! ### Peers that are gone -/

/-- The record of a peer that is gone stays. -/
theorem step_replaced {int : Json T → Option Int} {s s' : ι → VirtualMesh T} {l : Label ι T}
    {os : List (ι × Obs T)} {i : ι} {id : String} (hl : Replaced [l] i id)
    (hhonest : Honest s l) (hs : Step int s l os s') :
    (s' i).peers.peers.get id = (s i).peers.peers.get id ∧ (s' i).identity = (s i).identity := by
  cases hs with
  | sync_state j env =>
    by_cases hij : i = j
    · subst hij
      rw [Function.update_self]
      refine ⟨(s i).sync_peers_get env fun info hmem => ?_, rfl⟩
      obtain ⟨peer, hpeer, info', hanswer, heq⟩ := (mem_sync_peers_trace_iff ..).mp hmem
      obtain ⟨rfl, rfl⟩ := Obs.refreshed.inj heq
      exact hl.1 env (List.mem_singleton.mpr rfl) peer info hanswer.fetched
        (hhonest peer hpeer info hanswer)
    · rw [Function.update_of_ne hij]
      exact ⟨rfl, rfl⟩
  | change j l peers os' hs' =>
    have hij : i ≠ j := by
      rintro rfl
      exact hl.2 l (List.mem_singleton.mpr rfl)
    rw [Function.update_of_ne hij]
    exact ⟨rfl, rfl⟩

theorem run_replaced {int : Json T → Option Int} {s₀ s : ι → VirtualMesh T}
    {ls : List (Label ι T)} {tr : List (ι × Obs T)} {i : ι} {id : String}
    (hl : Replaced ls i id) (halong : (machine int).Along Honest s₀ ls)
    (hrun : (machine int).run s₀ ls = some (s, tr)) :
    (s i).peers.peers.get id = (s₀ i).peers.peers.get id ∧
      (s i).identity = (s₀ i).identity := by
  refine (machine int).run_induction_along
    (P := fun ls s _ => Replaced ls i id → (s i).peers.peers.get id = (s₀ i).peers.peers.get id ∧
      (s i).identity = (s₀ i).identity) (fun _ => ⟨rfl, rfl⟩) ?_ halong hrun hl
  intro ls s tr l s' os _ h hhonest hs hreplaced
  have hbefore := h ⟨fun env hmem => hreplaced.1 env (List.mem_append_left _ hmem),
    fun l hmem => hreplaced.2 l (List.mem_append_left _ hmem)⟩
  have hlast : Replaced [l] i id :=
    ⟨fun env hmem => hreplaced.1 env (List.mem_append_right _ hmem),
      fun l hmem => hreplaced.2 l (List.mem_append_right _ hmem)⟩
  obtain ⟨hget, hidentity⟩ := step_replaced hlast hhonest (step_sound hs)
  exact ⟨hget.trans hbefore.1, hidentity.trans hbefore.2⟩

/-- A peer that is stale is no candidate. -/
theorem stale_not_candidate (self : VirtualMesh T) {id : String} {now : String → T}
    (hid : id ≠ self.identity.node_id) {peer : PeerRecord T}
    (hpeer : self.peers.peers.get id = some peer) (hstale : peer.is_stale (now id) = true) :
    id ∉ self.candidates now := by
  intro hmem
  rcases List.mem_cons.mp hmem with heq | hmem
  · exact hid heq
  · obtain ⟨peer', hactive, rfl⟩ := List.mem_map.mp hmem
    obtain ⟨hget, hfresh⟩ := (PeerRegistry.mem_active_iff ..).mp hactive
    obtain rfl := Option.some.inj (hget.symm.trans hpeer)
    exact Bool.noConfusion (hfresh.symm.trans hstale)

/-! ### Runs -/

/-- **Peer identity in sync**: the records are refreshed only from responses of
    their own nodes if and only if every active peer that answers names
    itself. Then a peer whose address another node has taken over is not
    refreshed, and is no candidate any more when it is stale. -/
theorem genuine_iff_honest {int : Json T → Option Int} {s₀ s : ι → VirtualMesh T}
    {ls : List (Label ι T)} {tr : List (ι × Obs T)}
    (hrun : (machine int).run s₀ ls = some (s, tr)) :
    (Genuine tr ↔ (machine int).Along Honest s₀ ls) ∧
    ((machine int).Along Honest s₀ ls → ∀ i id, Replaced ls i id →
      id ≠ (s₀ i).identity.node_id → ∀ peer, (s₀ i).peers.peers.get id = some peer →
        (s i).peers.peers.get id = some peer ∧
        ∀ now : String → T, Clock.ofSeconds 300 < now id - peer.last_seen →
          id ∉ (s i).candidates now) := by
  constructor
  · refine ((machine int).along_iff_trace (I := fun _ => True) ?_ genuine_append ?_ trivial
      hrun).symm
    · exact fun _ _ _ hmem => (nomatch hmem)
    · exact fun s l s' os _ hs => ⟨trivial, step_genuine_iff (step_sound hs)⟩
  · intro halong i id hreplaced hid peer hpeer
    obtain ⟨hget, hidentity⟩ := run_replaced hreplaced halong hrun
    refine ⟨hget.trans hpeer, fun now hstale => ?_⟩
    exact stale_not_candidate (s i) (hidentity ▸ hid) (hget.trans hpeer) (decide_eq_true hstale)

theorem genuine_iff_honest_pair :
    ∃ s tr, (machine fun _ => none).run pair [.sync_state false deaf] = some (s, tr) ∧
      (Genuine tr ↔ (machine fun _ => none).Along Honest pair [.sync_state false deaf]) ∧
      ((machine fun _ => none).Along Honest pair [.sync_state false deaf] → ∀ i id,
        Replaced [.sync_state false deaf] i id → id ≠ (pair i).identity.node_id →
          ∀ peer, (pair i).peers.peers.get id = some peer →
            (s i).peers.peers.get id = some peer ∧
            ∀ now : String → ℚ, Clock.ofSeconds 300 < now id - peer.last_seen →
              id ∉ (s i).candidates now) :=
  ⟨_, _, rfl, genuine_iff_honest rfl⟩

/-- A node that knows the peer `a` under an address. -/
def knowingAddress : Unit → VirtualMesh ℚ := fun _ =>
  knowing (identityOf "z" (by decide)) "a" { host := .str "10.0.0.7", port := .int 7332 }

/-- Another node, `c`, answers at that address. -/
def takenOver : SyncEnv ℚ :=
  ⟨fun _ => 250, fun _ => some (.obj [("node_id", .str "c"), ("status", .str "running")]),
    fun _ => ⟨250, 250⟩, fun _ => 251, 251⟩

/-- The record of a node that is gone is refreshed by the one that has its
    address, and the node that is gone is elected. -/
theorem replaced_peer_elected :
    ∃ s tr, (machine fun _ => none).run knowingAddress [.sync_state () takenOver] =
        some (s, tr) ∧
      ¬ Genuine tr ∧ ((s ()).peers.peers.get "a").map PeerRecord.last_seen = some 250 ∧
      (s ()).coordinator = some "a" := by
  refine ⟨_, _, rfl, ?_, by decide +kernel, by decide +kernel⟩
  rw [genuine_append]
  rintro ⟨h, -⟩
  rw [sync_genuine_iff] at h
  obtain ⟨peer, hget, hid, hfresh, hhost, hport⟩ : ∃ peer,
      (knowingAddress ()).peers.peers.get "a" = some peer ∧ peer.node_id = "a" ∧
      peer.is_stale 250 = false ∧ peer.host.truthy = true ∧ peer.port.truthy = true :=
    ⟨_, rfl, rfl, by decide +kernel, by decide +kernel, by decide +kernel⟩
  have hactive : peer ∈ (knowingAddress ()).peers.active takenOver.polled :=
    (PeerRegistry.mem_active_iff ..).mpr ⟨hid ▸ hget, hfresh⟩
  have hnamed := h peer hactive _ ⟨hhost, hport, rfl, List.cons_ne_nil _ _⟩
  rw [hid] at hnamed
  exact absurd (Json.str.inj (Option.some.inj hnamed)) (by decide)

end VirtualMesh
