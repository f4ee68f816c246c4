import Aioscpu.Vnet.Mesh
import Mathlib.Order.Bounds.Basic

/-! # Coordinator Agreement

  The nodes whose last elections had the same candidates have the same
  coordinator, whatever the peers answered and in whatever order the nodes
  synchronised.
-/

namespace VirtualMesh

/-! ### The least candidate -/

theorem head_of_pairwise {α : Type} [LinearOrder α] {a : α} {l : List α}
    (h : (a :: l).Pairwise (· ≤ ·)) : IsLeast {x | x ∈ a :: l} a := by
  refine ⟨List.mem_cons_self, ?_⟩
  intro x hx
  rcases List.mem_cons.mp hx with rfl | hx
  · exact le_refl x
  · exact (List.pairwise_cons.mp h).1 x hx

/-- The first of the sorted candidates is the least one. -/
theorem elect_isLeast {candidates : List String} (hne : candidates ≠ []) :
    ∃ c, elect candidates = some c ∧ IsLeast {x | x ∈ candidates} c := by
  have hperm := List.perm_insertionSort (· ≤ ·) candidates
  have hsorted := List.pairwise_insertionSort (· ≤ ·) candidates
  unfold elect
  cases hlist : candidates.insertionSort (· ≤ ·) with
  | nil =>
    rw [hlist] at hperm
    exact absurd hperm.symm.eq_nil hne
  | cons c rest =>
    refine ⟨c, rfl, ?_⟩
    rw [hlist] at hperm hsorted
    have hset : {x | x ∈ candidates} = {x | x ∈ c :: rest} := Set.ext fun x => hperm.mem_iff.symm
    rw [hset]
    exact head_of_pairwise hsorted

variable {ι T : Type} [DecidableEq ι]

/-! ### Elections -/

/-- The candidates of the last election of a node. -/
def lastElection (tr : List (ι × Obs T)) (i : ι) : Option (List String) :=
  tr.foldl (fun last o =>
    match o with
    | (j, .elected candidates) => if j = i then some candidates else last
    | _ => last) none

theorem lastElection_append_elected (tr : List (ι × Obs T)) (i j : ι)
    (candidates : List String) :
    lastElection (tr ++ [(j, .elected candidates)]) i =
      if j = i then some candidates else lastElection tr i := by
  unfold lastElection
  rw [List.foldl_append]
  rfl

variable [Clock T]

/-- A synchronisation emits no election but the one at its end. -/
theorem sync_peers_lastElection (self : VirtualMesh T) (env : SyncEnv T)
    (tr : List (ι × Obs T)) (i j : ι) :
    lastElection (tr ++ (self.sync_peers env).trace.map fun o => (j, o)) i =
      lastElection tr i := by
  refine self.sync_peers_induction env
    (P := fun acc => lastElection (tr ++ acc.trace.map fun o => (j, o)) i = lastElection tr i)
    ?_ ?_
  · simp
  · intro acc peer _ hacc
    rcases sync_peer_cases env acc peer with ⟨info, -, -, -, htrace⟩ | ⟨-, -, -, htrace⟩
    · rw [htrace, List.map_append, ← List.append_assoc]
      unfold lastElection at hacc ⊢
      rw [List.foldl_append, hacc]
      rfl
    · rw [htrace]
      exact hacc

/-- What an election has decided is what the node reports. -/
structure Elected (s₀ s : ι → VirtualMesh T) (tr : List (ι × Obs T)) (i : ι) : Prop where
  identity : (s i).identity = (s₀ i).identity
  elected : ∀ candidates, lastElection tr i = some candidates →
    candidates ≠ [] ∧ (s i).coordinator = elect candidates

theorem step_elected {int : Json T → Option Int} {s₀ s s' : ι → VirtualMesh T}
    {tr os : List (ι × Obs T)} {l : Label ι T} {i : ι} (h : Elected s₀ s tr i)
    (hs : Step int s l os s') : Elected s₀ s' (tr ++ os) i := by
  cases hs with
  | sync_state j env =>
    have hlast : lastElection (tr ++ ((s j).sync_state env).2.2.map fun o => (j, o)) i =
        if j = i then
          some ({ s j with peers := ((s j).sync_peers env).peers }.candidates env.elected)
        else lastElection tr i := by
      simp only [sync_state, List.map_append, List.map_cons, List.map_nil]
      rw [← List.append_assoc, lastElection_append_elected, sync_peers_lastElection]
    by_cases hij : i = j
    · subst hij
      rw [if_pos rfl] at hlast
      refine ⟨?_, ?_⟩
      · rw [Function.update_self]
        exact h.identity
      · intro candidates hcandidates
        rw [hlast] at hcandidates
        obtain rfl := Option.some.inj hcandidates
        rw [Function.update_self]
        exact ⟨List.cons_ne_nil _ _, rfl⟩
    · rw [if_neg (Ne.symm hij)] at hlast
      constructor
      · rw [Function.update_of_ne hij]
        exact h.identity
      · rw [hlast, Function.update_of_ne hij]
        exact h.elected
  | change j l peers os' hs' =>
    rw [List.append_nil]
    by_cases hij : i = j
    · subst hij
      exact ⟨by rw [Function.update_self]; exact h.identity,
        by rw [Function.update_self]; exact h.elected⟩
    · exact ⟨by rw [Function.update_of_ne hij]; exact h.identity,
        by rw [Function.update_of_ne hij]; exact h.elected⟩

theorem run_elected {int : Json T → Option Int} {s₀ s : ι → VirtualMesh T}
    {ls : List (Label ι T)} {tr : List (ι × Obs T)}
    (hrun : (machine int).run s₀ ls = some (s, tr)) (i : ι) : Elected s₀ s tr i := by
  refine (machine int).run_induction (P := fun _ s tr => Elected s₀ s tr i) ?_ ?_ hrun
  · exact ⟨rfl, fun _ hnone => (nomatch hnone)⟩
  · intro _ s tr l s' os _ h hs
    exact step_elected h (step_sound hs)

/-- The synchronisation of a node leaves the others alone. -/
theorem sync_state_other {int : Json T → Option Int} {s s' : ι → VirtualMesh T} {j : ι}
    {env : SyncEnv T} {os : List (ι × Obs T)}
    (hs : (machine int).step s (.sync_state j env) = some (s', os)) {i : ι} (hij : i ≠ j) :
    s' i = s i := by
  cases hs
  exact Function.update_of_ne hij _ _

/-! ### Agreement -/

/-- **Coordinator agreement**: nodes with distinct ids whose last elections all
    had the ids of `S` as candidates, all ids of nodes, report the least one of
    them. Exactly one of them is the coordinator, and no node's coordinator
    changes while another one synchronises. -/
theorem coordinator_agreement [Nonempty ι] {int : Json T → Option Int}
    {s₀ s : ι → VirtualMesh T}
    (hdistinct : Function.Injective fun i => (s₀ i).identity.node_id)
    {ls : List (Label ι T)} {tr : List (ι × Obs T)}
    (hrun : (machine int).run s₀ ls = some (s, tr)) {S : Set String}
    (hnodes : ∀ id ∈ S, ∃ i, (s₀ i).identity.node_id = id)
    (hlast : ∀ i, ∃ candidates, lastElection tr i = some candidates ∧
      ∀ id, id ∈ candidates ↔ id ∈ S) :
    (∃ c, IsLeast S c ∧ ∀ i, (s i).coordinator = some c) ∧
    (∃! i, (s i).am_coordinator = true) ∧
    ∀ pre j env t tr' t' os, pre ++ [.sync_state j env] <+: ls →
      (machine int).run s₀ pre = some (t, tr') →
      (machine int).step t (.sync_state j env) = some (t', os) →
      ∀ i, i ≠ j → (t' i).coordinator = (t i).coordinator := by
  -- each node reports the least id of `S`
  have hleast : ∀ i, ∃ c, (s i).coordinator = some c ∧ IsLeast S c := by
    intro i
    obtain ⟨candidates, helection, hS⟩ := hlast i
    obtain ⟨hne, hcoordinator⟩ := (run_elected hrun i).elected candidates helection
    obtain ⟨c, helect, hc⟩ := elect_isLeast hne
    have hset : {x | x ∈ candidates} = S := Set.ext hS
    exact ⟨c, hcoordinator.trans helect, hset ▸ hc⟩
  obtain ⟨c, -, hc⟩ := hleast (Classical.arbitrary ι)
  have hall : ∀ i, (s i).coordinator = some c := by
    intro i
    obtain ⟨c', hcoordinator, hc'⟩ := hleast i
    rw [hcoordinator, hc'.unique hc]
  have ham : ∀ i, (s i).am_coordinator = true ↔ (s₀ i).identity.node_id = c := by
    intro i
    unfold am_coordinator
    rw [decide_eq_true_iff, hall i, (run_elected hrun i).identity, Option.some.injEq]
    exact eq_comm
  refine ⟨⟨c, hc, hall⟩, ?_, ?_⟩
  · obtain ⟨i, hi⟩ := hnodes c hc.1
    refine ⟨i, (ham i).mpr hi, ?_⟩
    intro j hj
    exact hdistinct (((ham j).mp hj).trans hi.symm)
  · intro pre j env t tr' t' os _ _ hs i hij
    rw [sync_state_other hs hij]

/-- A node with this id. -/
def identityOf (id : String) (h : id ≠ "") : NodeIdentity ℚ :=
  ⟨id, "node", "0.1.0", 0, .empty, h⟩

/-- A node that knows one peer. -/
def knowing (identity : NodeIdentity ℚ) (id : String) (args : PeerArgs ℚ) : VirtualMesh ℚ :=
  init identity ((PeerRegistry.init none fun _ => ⟨0, 0⟩).add_or_update id args ⟨0, 0⟩)

/-- Two nodes that know each other. -/
def pair : Bool → VirtualMesh ℚ
  | false => knowing (identityOf "a" NodeIdentity.a_ne_empty) "b" {}
  | true => knowing (identityOf "b" NodeIdentity.b_ne_empty) "a" {}

/-- A synchronisation that takes one second and reaches nobody. -/
def deaf : SyncEnv ℚ := ⟨fun _ => 1, fun _ => none, fun _ => ⟨1, 1⟩, fun _ => 2, 2⟩

theorem coordinator_agreement_pair :
    ∃ s tr, (machine fun _ => none).run pair [.sync_state false deaf, .sync_state true deaf] =
        some (s, tr) ∧
      (∃ c, IsLeast {"a", "b"} c ∧ ∀ i, (s i).coordinator = some c) ∧
      (∃! i, (s i).am_coordinator = true) ∧
      ∀ pre j env t tr' t' os,
        pre ++ [.sync_state j env] <+: [.sync_state false deaf, .sync_state true deaf] →
        (machine fun _ => none).run pair pre = some (t, tr') →
        (machine fun _ => none).step t (.sync_state j env) = some (t', os) →
        ∀ i, i ≠ j → (t' i).coordinator = (t i).coordinator := by
  refine ⟨_, _, rfl, coordinator_agreement (S := {"a", "b"}) ?_ rfl ?_ ?_⟩
  · intro i j heq
    cases i <;> cases j <;> first | rfl | exact absurd heq (by decide)
  · rintro id (rfl | rfl)
    · exact ⟨false, rfl⟩
    · exact ⟨true, rfl⟩
  · intro i
    cases i with
    | false => exact ⟨["a", "b"], by decide +kernel, by simp⟩
    | true => exact ⟨["b", "a"], by decide +kernel, by simp [or_comm]⟩

end VirtualMesh
