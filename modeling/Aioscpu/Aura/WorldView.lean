import Aioscpu.Framework.Dict
import Aioscpu.Framework.PyStr
import Aioscpu.Kernel.EventViews

/-! # The World View of AURA

  The snapshot of `aura/__init__.py`: AURA subscribes to sixteen types of events and records the
  payload of each event under a key of its type, and every tick of the kernel pulses it with
  readings of the kernel and of the host. A reading that raises is left out, and the one before
  stays.

  Main result (`world_view_current`): at any time the snapshot has for every type the payload of
  the newest event, and for every other key its newest reading, however events and pulses come.
-/

namespace Aura

open EventBus

variable {P C R : Type}

/-! ### Events -/

def WATCHED_EVENTS : List String :=
  ["SERVICE_REGISTERED", "SERVICE_STARTED", "SERVICE_STOPPED", "SERVICE_RESTARTING",
    "MODE_ACTIVATED", "PERMISSION_REQUEST", "PERMISSION_RESPONSE", "SHUTDOWN", "BUILD_COMPLETE",
    "HEALTH_CHECK", "INTEGRITY_ALERT", "NETWORK_STATUS", "STORAGE_EVENT", "JOB_QUEUED",
    "JOB_COMPLETE", "HEALTH_REPORT"]

/-- `f"last_{event.event_type.lower()}"`. -/
def last_key (event_type : String) : String := "last_" ++ PyStr.lower event_type

/-- `_on_system_event`. Payloads are on the left, readings on the right. -/
def on_system_event (snapshot : Dict String (P ⊕ R)) (event : Event P) : Dict String (P ⊕ R) :=
  snapshot.set (last_key event.event_type) (.inl event.payload)

/-! ### Pulses -/

/-- The keys of `KernelLoop._update_system_state`. -/
def SYSTEM_STATE : List String := ["tick", "task_queue_depth", "job_queue_depth", "service_count"]

/-- The keys of `SystemIntrospector.snapshot`. -/
def HOST_KEYS : List String := ["uptime_s", "platform", "arch", "python", "pid", "timestamp"]

/-- The keys of `SystemIntrospector._kernel_snapshot`. -/
def KERNEL_KEYS : List String :=
  ["mode", "tick", "service_count", "services", "task_queue_depth", "job_queue_depth",
    "active_model", "models_available", "network_status", "storage_status"]

/-- The readings of a pulse. -/
structure Pulse (R : Type) where
  system_state : String → R
  host : String → R
  /-- `none` where `_safe` catches an exception, or before `attach_kernel`. -/
  kernel : String → Option R

/-- `SystemIntrospector.snapshot`. -/
def introspector_snapshot (p : Pulse R) : List (String × R) :=
  HOST_KEYS.map (fun k => (k, p.host k)) ++
    KERNEL_KEYS.filterMap fun k => (p.kernel k).map fun r => (k, r)

/-- What `pulse` writes, in order. -/
def Pulse.items (p : Pulse R) : List (String × R) :=
  SYSTEM_STATE.map (fun k => (k, p.system_state k)) ++ [("last_pulse", p.system_state "tick")] ++
    introspector_snapshot p

/-- `pulse`. -/
def pulse (snapshot : Dict String (P ⊕ R)) (p : Pulse R) : Dict String (P ⊕ R) :=
  snapshot.update (p.items.map fun item => (item.1, .inr item.2))

/-- What a pulse tells for a key. -/
def Pulse.told (p : Pulse R) (k : String) : Option R := p.items.reverse.lookup k

/-- The snapshot, as a view of the bus. -/
def snapshot_view [DecidableEq C] (callback : C) :
    EventView P C (Dict String (P ⊕ R)) (Pulse R) :=
  .ofCallback callback on_system_event pulse

/-! ### Keys -/

theorem last_key_injective : ∀ t ∈ WATCHED_EVENTS, ∀ t' ∈ WATCHED_EVENTS,
    last_key t = last_key t' → t = t' := by
  decide +kernel

/-- No pulse writes the key of an event. -/
theorem told_last_key (p : Pulse R) {t : String} (ht : t ∈ WATCHED_EVENTS) :
    p.told (last_key t) = none := by
  have hkeys : ∀ t ∈ WATCHED_EVENTS,
      last_key t ∉ SYSTEM_STATE ++ ["last_pulse"] ++ (HOST_KEYS ++ KERNEL_KEYS) := by
    decide +kernel
  have hnot : last_key t ∉ p.items.reverse.map Prod.fst := by
    rw [List.map_reverse, List.mem_reverse]
    intro hmem
    -- every key of a pulse is in one of the three lists
    refine hkeys t ht ?_
    obtain ⟨item, hitem, hkey⟩ := List.mem_map.mp hmem
    unfold Pulse.items introspector_snapshot at hitem
    simp only [List.mem_append, List.mem_map, List.mem_filterMap, List.mem_singleton] at hitem ⊢
    rcases hitem with (⟨k, hk, rfl⟩ | rfl) | ⟨k, hk, rfl⟩ | ⟨k, hk, hr⟩
    · exact Or.inl (Or.inl (hkey ▸ hk))
    · exact Or.inl (Or.inr hkey.symm)
    · exact Or.inr (Or.inl (hkey ▸ hk))
    · obtain ⟨r, -, rfl⟩ := Option.map_eq_some_iff.mp hr
      exact Or.inr (Or.inr (hkey ▸ hk))
  exact Dict.lookup_of_notMem hnot

theorem get_pulse (snapshot : Dict String (P ⊕ R)) (p : Pulse R) (k : String) :
    (pulse snapshot p).get k = ((p.told k).map .inr).or (snapshot.get k) := by
  unfold pulse Pulse.told
  rw [Dict.get_update, ← List.map_reverse]
  congr 1
  induction p.items.reverse with
  | nil => rfl
  | cons item items ih =>
    rw [List.map_cons, Dict.lookup_item, Dict.lookup_item, ih]
    split <;> rfl

/-! ### Runs -/

/-- The snapshot has for each key what came last. -/
structure Current (got : List (Event P)) (pulses : List (Pulse R))
    (snapshot : Dict String (P ⊕ R)) : Prop where
  events : ∀ t ∈ WATCHED_EVENTS, snapshot.get (last_key t) =
    (got.reverse.find? fun e => e.event_type = t).map fun e => .inl e.payload
  readings : ∀ k, k ∉ WATCHED_EVENTS.map last_key →
    snapshot.get k = (pulses.reverse.findSome? (Pulse.told · k)).map .inr

theorem current_event {got : List (Event P)} {pulses : List (Pulse R)}
    {snapshot : Dict String (P ⊕ R)} (h : Current got pulses snapshot) {event : Event P}
    (hwatched : event.event_type ∈ WATCHED_EVENTS) :
    Current (got ++ [event]) pulses (on_system_event snapshot event) where
  events := by
    intro t ht
    unfold on_system_event
    rw [List.reverse_append, List.reverse_singleton, List.singleton_append, List.find?_cons]
    -- each type has a key of its own
    by_cases htype : event.event_type = t
    · simp [htype]
    · have hkey : last_key t ≠ last_key event.event_type := fun heq =>
        htype (last_key_injective t ht _ hwatched heq).symm
      rw [Dict.get_set_of_ne hkey, h.events t ht]
      simp [htype]
  readings := by
    intro k hk
    have hkey : k ≠ last_key event.event_type := fun heq =>
      hk (List.mem_map.mpr ⟨_, hwatched, heq.symm⟩)
    exact (Dict.get_set_of_ne hkey _).trans (h.readings k hk)

theorem current_pulse {got : List (Event P)} {pulses : List (Pulse R)}
    {snapshot : Dict String (P ⊕ R)} (h : Current got pulses snapshot) (p : Pulse R) :
    Current got (pulses ++ [p]) (pulse snapshot p) where
  events := by
    intro t ht
    rw [get_pulse, told_last_key p ht]
    exact h.events t ht
  readings := by
    intro k hk
    rw [get_pulse, h.readings k hk, List.reverse_append, List.reverse_singleton,
      List.singleton_append, List.findSome?_cons]
    cases p.told k <;> rfl

/-- **The world view is current**: in every run of the bus, with pulses and callbacks of all kinds
    in any order, the snapshot has under the key of each type the payload of the newest event
    that AURA was called with, and under every other key what the newest pulse tells that has
    something to tell. AURA is called with all events of its types, but for those that are still
    pending and the one that is just being delivered. -/
theorem world_view_current [DecidableEq C] {callback : C} {bus : EventBus P C}
    (hnew : ∀ t, callback ∉ bus.subscribers t) {ls : List (Label P C ⊕ Pulse R)}
    (hspares : ∀ l ∈ EventView.onBus ls, l.Spares callback) {s : EventBus.State P C}
    {snapshot : Dict String (P ⊕ R)} {tr : List (Obs P C ⊕ Pulse R)}
    (hrun : (snapshot_view callback).machine.run
      (⟨bus.subscribeAll WATCHED_EVENTS callback, .idle⟩, Dict.empty) ls =
        some ((s, snapshot), tr)) :
    ∃ got, Current got (EventView.acts tr) snapshot ∧
      got ++ s.control.due callback = delivered WATCHED_EVENTS (EventView.onBus tr) ∧
      (got ++ s.control.due callback ++ pending WATCHED_EVENTS s.bus).Perm
        (pending WATCHED_EVENTS bus ++
          (published (EventView.onBus ls)).filter fun e => e.event_type ∈ WATCHED_EVENTS) := by
  obtain ⟨hview, hwatched, hlaw, hperm⟩ := EventView.subscribed_run (by decide) hnew hspares hrun
  refine ⟨received callback (EventView.onBus tr), ?_, hlaw, hperm⟩
  rw [hview]
  revert hwatched
  -- the induction is on what AURA has seen: an event that it got, or a pulse
  refine EventView.ofCallback_induction (Q := fun got pulses (snapshot : Dict String (P ⊕ R)) =>
    (∀ e ∈ got, e.event_type ∈ WATCHED_EVENTS) → Current got pulses snapshot) ?_ ?_ ?_ tr
  · exact fun _ => ⟨fun _ _ => rfl, fun _ _ => rfl⟩
  · intro got pulses snapshot event ih hwatched
    exact current_event (ih fun e he => hwatched e (List.mem_append_left _ he))
      (hwatched event (List.mem_append_right _ List.mem_cons_self))
  · exact fun got pulses snapshot p ih hwatched => current_pulse (ih hwatched) p

/-- A pulse before the attachment, with a reading for each key. -/
def detached (r : Nat) : Pulse Nat := ⟨fun _ => r, fun _ => r, fun _ => none⟩

/-- Two builds complete in a tick, of which the second is delivered first, and then AURA is
    pulsed. -/
theorem world_view_current_two_builds :
    ∃ s snapshot tr,
      (snapshot_view 0).machine.run (⟨(init : EventBus String Nat).subscribeAll WATCHED_EVENTS 0,
        .idle⟩, (Dict.empty : Dict String (String ⊕ Nat)))
        [.inl (.publish ⟨"BUILD_COMPLETE", "low", 3, "", 1⟩),
          .inl (.publish ⟨"BUILD_COMPLETE", "high", 1, "", 2⟩), .inr (detached 7), .inl .drain,
          .inl .advance, .inl .advance, .inl (.done false), .inl .advance, .inl .advance,
          .inl .advance] = some ((s, snapshot), tr) ∧
      snapshot.get "last_build_complete" = some (.inl "low") ∧
      ∃ got, Current got (EventView.acts tr) snapshot ∧
        got.map Event.payload = ["high", "low"] := by
  obtain ⟨⟨s, snapshot⟩, tr, hrun, htest⟩ := (snapshot_view 0).machine.exists_run
    (⟨(init : EventBus String Nat).subscribeAll WATCHED_EVENTS 0, .idle⟩,
      (Dict.empty : Dict String (String ⊕ Nat)))
    [.inl (.publish ⟨"BUILD_COMPLETE", "low", 3, "", 1⟩),
      .inl (.publish ⟨"BUILD_COMPLETE", "high", 1, "", 2⟩), .inr (detached 7), .inl .drain,
      .inl .advance, .inl .advance, .inl (.done false), .inl .advance, .inl .advance,
      .inl .advance]
    (fun s tr => decide (s.2.get "last_build_complete" = some (.inl "low") ∧
      s.1.control.due 0 = [] ∧ (delivered WATCHED_EVENTS (EventView.onBus tr)).map Event.payload =
        ["high", "low"])) (by decide +kernel)
  obtain ⟨hget, hdue, hdelivered⟩ := of_decide_eq_true htest
  obtain ⟨got, hcurrent, hlaw, -⟩ := world_view_current (by intro t h; cases h) (by decide) hrun
  refine ⟨s, snapshot, tr, hrun, hget, got, hcurrent, ?_⟩
  rw [hdue, List.append_nil] at hlaw
  rw [hlaw]
  exact hdelivered

end Aura
