import Aioscpu.Vnet.PeerRegistry
import Mathlib.Logic.Function.Basic

/-! # Persistence of the Peer Registry

  What a registry that is made on the directory of another one finds there.
  All mutations write the file but `touch`, so the file has the records as
  they are but for the times of the touches since the last write.
-/

namespace PeerRegistry

variable {T : Type}

/-! ### Reading the file back -/

/-- The file is absent, or a registry has written it. -/
def Written (file : Option (List (Option (PeerEntry T)))) : Prop :=
  file = none ∨ ∃ peers : Peers T, file = some (peers.to_list.map some)

theorem load_records_items (peers : Peers T) (clock : Nat → Readings T)
    (items : List (String × PeerRecord T)) (hnamed : ∀ item ∈ items, item.2.node_id = item.1)
    (n : Nat) :
    (load_records peers (((items.map fun item => some item.2.to_dict).zipIdx n).map
      fun r => (r.1, clock r.2))).records =
      items.foldl (fun d item => d.set item.1 item.2) peers.records := by
  induction items generalizing peers n with
  | nil => rfl
  | cons item items ih =>
    have hid : item.2.node_id = item.1 := hnamed item List.mem_cons_self
    have hrest := fun item' hmem => hnamed item' (List.mem_cons_of_mem item hmem)
    simp only [List.map_cons, List.zipIdx_cons, load_records, PeerRecord.to_dict]
    rw [List.foldl_cons, ← hid]
    exact ih (peers.put item.2) hrest (n + 1)

/-- The records that are saved are the records that are loaded. -/
theorem load_saved (peers : Peers T) (clock : Nat → Readings T) :
    load (some (peers.to_list.map some)) clock = peers := by
  have hlist : peers.to_list.map some =
      peers.records.items.map fun item => some item.2.to_dict := by
    simp [Peers.to_list, Dict.values]
  have hnamed : ∀ item ∈ peers.records.items, item.2.node_id = item.1 := by
    intro item hmem
    exact peers.named _ _ (Dict.get_of_mem hmem)
  have hrecords : (load (some (peers.to_list.map some)) clock).records = peers.records := by
    unfold load
    rw [hlist, load_records_items _ _ _ hnamed]
    exact peers.records.foldl_set_items
  obtain ⟨records, named⟩ := peers
  generalize load _ clock = loaded at hrecords
  obtain ⟨records', named'⟩ := loaded
  obtain rfl : records' = records := hrecords
  rfl

/-! ### Touches that are not saved -/

/-- What is not saved of a peer, after an observation: its `last_seen` in the
    file, and the one of its last touch. -/
def unsavedAfter (unsaved : String → Option (T × T)) : Obs T → String → Option (T × T)
  | .saved => fun _ => none
  | .touched node_id old now =>
    Function.update unsaved node_id (some (((unsaved node_id).map Prod.fst).getD old, now))

def unsaved (tr : List (Obs T)) : String → Option (T × T) :=
  tr.foldl unsavedAfter fun _ => none

/-- No peer was touched since the last write, unless at the time that was
    written. -/
def Flushed (tr : List (Obs T)) : Prop :=
  ∀ node_id old now, unsaved tr node_id = some (old, now) → old = now

/-- The file has the records but for the touches that are not saved. -/
structure Behind (s : PeerRegistry T) (unsaved : String → Option (T × T)) (saved : Peers T) :
    Prop where
  loads : ∀ clock, load s.file clock = saved
  keys : saved.records.keys = s.peers.records.keys
  same : ∀ id peer, s.peers.get id = some peer → unsaved id = none → saved.get id = some peer
  late : ∀ id peer old now, s.peers.get id = some peer → unsaved id = some (old, now) →
    now = peer.last_seen ∧ saved.get id = some (peer.touch old)
  known : ∀ id old now, unsaved id = some (old, now) → (s.peers.get id).isSome

theorem behind_saved (s : PeerRegistry T) : Behind s.save (fun _ => none) s.peers :=
  ⟨load_saved s.peers, rfl, fun _ _ h _ => h, fun _ _ _ _ _ h => (nomatch h),
    fun _ _ _ h => (nomatch h)⟩

theorem init_behind {file : Option (List (Option (PeerEntry T)))} (hfile : Written file)
    (clock : Nat → Readings T) :
    ∃ saved, Behind (init file clock) (fun _ => none) saved := by
  rcases hfile with rfl | ⟨peers, rfl⟩
  · exact ⟨.empty, fun _ => rfl, rfl, fun _ _ h _ => h, fun _ _ _ _ _ h => (nomatch h),
      fun _ _ _ h => (nomatch h)⟩
  · have hinit : init (some (peers.to_list.map some)) clock =
        (⟨peers, none⟩ : PeerRegistry T).save := by
      unfold init
      rw [load_saved]
      rfl
    rw [hinit]
    exact ⟨_, behind_saved _⟩

/-- What is saved is what is known if and only if no touch is missing. -/
theorem Behind.saved_iff {s : PeerRegistry T} {tr : List (Obs T)} {saved : Peers T}
    (h : Behind s (unsaved tr) saved) : saved = s.peers ↔ Flushed tr := by
  constructor
  · rintro rfl id old now hunsaved
    obtain ⟨peer, hpeer⟩ := Option.isSome_iff_exists.mp (h.known id old now hunsaved)
    obtain ⟨rfl, hsaved⟩ := h.late id peer old now hpeer hunsaved
    exact congrArg PeerRecord.last_seen (Option.some.inj (hsaved.symm.trans hpeer))
  · intro hflushed
    refine Peers.eq_of_get h.keys fun id => ?_
    cases hpeer : s.peers.get id with
    | none =>
      -- the saved records have the same ids
      by_contra hsome
      obtain ⟨peer, hsaved⟩ := Option.ne_none_iff_exists'.mp hsome
      have hmem := (saved.records.mem_keys_iff id).mpr ⟨peer, hsaved⟩
      rw [h.keys, Dict.mem_keys_iff] at hmem
      obtain ⟨peer', hpeer'⟩ := hmem
      cases hpeer.symm.trans hpeer'
    | some peer =>
      cases hunsaved : unsaved tr id with
      | none => exact h.same id peer hpeer hunsaved
      | some r =>
        obtain ⟨old, now⟩ := r
        obtain ⟨hnow, hsaved⟩ := h.late id peer old now hpeer hunsaved
        obtain rfl : old = peer.last_seen := (hflushed id old now hunsaved).trans hnow
        exact hsaved

/-! ### Steps -/

/-- A touch is missing in the file. -/
theorem Behind.touch {s : PeerRegistry T} {unsaved : String → Option (T × T)}
    {saved : Peers T} (h : Behind s unsaved saved) {node_id : String} {peer : PeerRecord T}
    (hpeer : s.peers.get node_id = some peer) (now : T) :
    Behind { s with peers := s.peers.put (peer.touch now) }
      (unsavedAfter unsaved (.touched node_id peer.last_seen now)) saved := by
  have hid : peer.node_id = node_id := s.peers.named _ _ hpeer
  have hget : ∀ id, (s.peers.put (peer.touch now)).get id =
      if id = node_id then some (peer.touch now) else s.peers.get id := by
    intro id
    rw [Peers.get_put, ← hid]
    rfl
  refine ⟨h.loads, ?_, ?_, ?_, ?_⟩
  · rw [h.keys]
    have hput : (s.peers.put (peer.touch now)).records.keys = s.peers.records.keys :=
      Peers.put_keys hpeer hid
    exact hput.symm
  · intro id peer' hpeer' hnone
    by_cases heq : id = node_id
    · subst heq
      simp [unsavedAfter] at hnone
    · rw [hget, if_neg heq] at hpeer'
      simp only [unsavedAfter, Function.update_of_ne heq] at hnone
      exact h.same id peer' hpeer' hnone
  · intro id peer' old now' hpeer' hsome
    by_cases heq : id = node_id
    · subst heq
      rw [hget, if_pos rfl] at hpeer'
      obtain rfl := Option.some.inj hpeer'
      simp only [unsavedAfter, Function.update_self, Option.some.injEq, Prod.mk.injEq] at hsome
      obtain ⟨hold, rfl⟩ := hsome
      refine ⟨rfl, ?_⟩
      -- an earlier touch knows what is saved, else it is what stood here
      cases hunsaved : unsaved id with
      | none =>
        obtain rfl : peer.last_seen = old := by simpa [hunsaved] using hold
        exact h.same id peer hpeer hunsaved
      | some r =>
        obtain ⟨old', now''⟩ := r
        obtain rfl : old' = old := by simpa [hunsaved] using hold
        exact (h.late id peer old' now'' hpeer hunsaved).2
    · rw [hget, if_neg heq] at hpeer'
      simp only [unsavedAfter, Function.update_of_ne heq] at hsome
      exact h.late id peer' old now' hpeer' hsome
  · intro id old now' hsome
    rw [hget]
    by_cases heq : id = node_id
    · rw [if_pos heq]
      rfl
    · rw [if_neg heq]
      simp only [unsavedAfter, Function.update_of_ne heq] at hsome
      exact h.known id old now' hsome

variable [Clock T]

/-- A merge has written the file, unless it has merged nobody. -/
theorem merge_from_cc_cases (int : Json T → Option Int) (clock : Nat → Readings T)
    (s : PeerRegistry T) (n : Nat) (peer_list : List (Option (PeerEntry T))) :
    (s.merge_from_cc int clock n peer_list).1 = s ∧
        merged (s.merge_from_cc int clock n peer_list).2 = n ∨
      n < merged (s.merge_from_cc int clock n peer_list).2 ∧
        ∃ t : PeerRegistry T, (s.merge_from_cc int clock n peer_list).1 = t.save := by
  induction peer_list generalizing s n with
  | nil => exact Or.inl ⟨rfl, rfl⟩
  | cons p peer_list ih =>
    cases p with
    | none => exact ih s n
    | some p =>
      unfold merge_from_cc
      split
      · exact ih s n
      · next id hid =>
        split
        · exact ih s n
        · split
          · exact Or.inl ⟨rfl, rfl⟩
          · next args hargs =>
            right
            rcases ih (s.add_or_update id args (clock n)) (n + 1) with ⟨hsame, hn⟩ | ⟨hlt, hsaved⟩
            · exact ⟨by rw [hn]; exact Nat.lt_succ_self n, _, hsame⟩
            · exact ⟨Nat.lt_of_succ_lt hlt, hsaved⟩

theorem step_behind {int : Json T → Option Int} {s s' : PeerRegistry T} {l : Label T}
    {os : List (Obs T)} {unsaved : String → Option (T × T)} {saved : Peers T}
    (h : Behind s unsaved saved) (hs : (machine int).step s l = some (s', os)) :
    ∃ saved', Behind s' (os.foldl unsavedAfter unsaved) saved' := by
  cases l with
  | add_or_update node_id args now =>
    cases hs
    exact ⟨_, behind_saved _⟩
  | remove node_id =>
    cases hs
    unfold remove
    cases hpeer : s.peers.get node_id with
    | none => exact ⟨saved, h⟩
    | some peer => exact ⟨_, behind_saved _⟩
  | touch node_id now =>
    cases hs
    unfold PeerRegistry.touch
    cases hpeer : s.peers.get node_id with
    | none => exact ⟨saved, h⟩
    | some peer => exact ⟨saved, h.touch hpeer now⟩
  | merge_from_cc peer_list clock =>
    cases hs
    rcases s.merge_from_cc_cases int clock 0 peer_list with ⟨hsame, hn⟩ | ⟨hlt, t, hsaved⟩
    · rw [hsame, hn]
      exact ⟨saved, h⟩
    · rw [hsaved]
      obtain ⟨n, hn⟩ := Nat.exists_eq_succ_of_ne_zero (Nat.ne_of_gt hlt)
      rw [hn, List.replicate_succ']
      simp only [List.foldl_append, List.foldl_cons, List.foldl_nil, unsavedAfter]
      exact ⟨_, behind_saved t⟩

/-! ### Runs -/

theorem run_behind {int : Json T → Option Int} {file : Option (List (Option (PeerEntry T)))}
    (hfile : Written file) {clock : Nat → Readings T} {ls : List (Label T)}
    {s : PeerRegistry T} {tr : List (Obs T)}
    (hrun : (machine int).run (init file clock) ls = some (s, tr)) :
    ∃ saved, Behind s (unsaved tr) saved := by
  refine (machine int).run_induction (P := fun _ s tr => ∃ saved, Behind s (unsaved tr) saved)
    (init_behind hfile clock) ?_ hrun
  rintro _ s tr l s' os - ⟨saved, h⟩ hs
  unfold unsaved
  rw [List.foldl_append]
  exact step_behind h hs

/-- **Persistence of the peers**: a registry that is made on the same directory
    has the same records in the same order if and only if no peer was touched
    since the last write. -/
theorem reloaded_iff_flushed {int : Json T → Option Int}
    {file : Option (List (Option (PeerEntry T)))} (hfile : Written file)
    {clock : Nat → Readings T} {ls : List (Label T)} {s : PeerRegistry T} {tr : List (Obs T)}
    (hrun : (machine int).run (init file clock) ls = some (s, tr)) :
    (∀ clock', (init s.file clock').peers = s.peers) ↔ Flushed tr := by
  obtain ⟨saved, h⟩ := run_behind hfile hrun
  rw [← h.saved_iff]
  constructor
  · intro hsame
    have hloads := h.loads fun _ => ⟨Clock.ofSeconds 0, Clock.ofSeconds 0⟩
    exact hloads.symm.trans (hsame fun _ => ⟨Clock.ofSeconds 0, Clock.ofSeconds 0⟩)
  · rintro rfl clock'
    exact h.loads clock'

/-- A peer is touched, and then removed. -/
theorem reloaded_iff_flushed_removed :
    ∃ (s : PeerRegistry ℚ) (tr : List (Obs ℚ)),
      (machine fun _ => some 0).run (init none fun _ => ⟨0, 0⟩)
        [.add_or_update "a" {} ⟨1, 1⟩, .touch "a" 2, .remove "a"] = some (s, tr) ∧
      ((∀ clock', (init s.file clock').peers = s.peers) ↔ Flushed tr) := by
  obtain ⟨s, tr, hrun⟩ := (machine (T := ℚ) fun _ => some 0).run_total
    (fun _ l => by cases l <;> exact ⟨_, _, rfl⟩) (init none fun _ => ⟨0, 0⟩)
    [.add_or_update "a" {} ⟨1, 1⟩, .touch "a" 2, .remove "a"]
  exact ⟨s, tr, hrun, reloaded_iff_flushed (Or.inl rfl) hrun⟩

/-- A peer is touched, and the registry is made again. -/
theorem touch_lost :
    ∃ (s : PeerRegistry ℚ) (tr : List (Obs ℚ)),
      (machine fun _ => some 0).run (init none fun _ => ⟨0, 0⟩)
        [.add_or_update "a" {} ⟨1, 1⟩, .touch "a" 2] = some (s, tr) ∧
      ((s.peers.get "a").map PeerRecord.last_seen = some 2) ∧
      ∀ clock', ((init s.file clock').peers.get "a").map PeerRecord.last_seen = some 1 :=
  ⟨_, _, rfl, rfl, fun _ => rfl⟩

end PeerRegistry
