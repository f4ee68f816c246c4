import Aioscpu.Kernel.EventDelivery

/-! # Views of the Event Bus

  A view is a state that callbacks of the bus change when they are called, and that its owner
  changes in between. What it is at any time is a fold over what its callbacks were called with
  and what its owner did.

  - `received_law`: a callback that is registered once for some types is called with exactly the
    events of these types, each once and in the order in which they leave the heap.
  - `view_run`: the runs of a view are the runs of the bus, with the fold.
-/

universe u v w x

namespace EventBus

variable {P : Type u} {C : Type v}

/-! ### What a callback is called with -/

/-- The events that a callback is called with, in order. -/
def received [DecidableEq C] (c : C) (tr : List (Obs P C)) : List (Event P) :=
  tr.filterMap fun
    | .invoked c' e => if c' = c then some e else none
    | _ => none

/-- What a callback is still to be called with, of the event that is delivered. -/
def Control.due [DecidableEq C] (c : C) : Control P C → List (Event P)
  | .idle | .looping _ => []
  | .delivering _ e rest | .calling _ e rest => List.replicate (rest.count c) e

/-- The callback is registered for these types, and once for each. -/
def Registered [DecidableEq C] (c : C) (types : List String) (bus : EventBus P C) : Prop :=
  ∀ t, (bus.subscribers t).count c = if t ∈ types then 1 else 0

/-- The label does not register the callback again. -/
def Label.Spares (c : C) : Label P C → Prop
  | .subscribe _ c' => c' ≠ c
  | _ => True

instance [DecidableEq C] (c : C) : ∀ l : Label P C, Decidable (l.Spares c)
  | .subscribe _ c' => inferInstanceAs (Decidable (c' ≠ c))
  | .publish _ | .drain | .advance | .done _ => inferInstanceAs (Decidable True)

/-- The events of these types that have left the heap. -/
def delivered (types : List String) (tr : List (Obs P C)) : List (Event P) :=
  (dequeuedEvents tr).filter fun e => e.event_type ∈ types

theorem delivered_append (types : List String) (tr os : List (Obs P C)) :
    delivered types (tr ++ os) = delivered types tr ++ delivered types os := by
  unfold delivered dequeuedEvents
  rw [List.filterMap_append, List.filter_append]

section Receiving

variable [DecidableEq C] {c : C} {types : List String}

theorem received_append (c : C) (tr os : List (Obs P C)) :
    received c (tr ++ os) = received c tr ++ received c os :=
  List.filterMap_append

theorem step_registered {s s' : State P C} {l : Label P C} {os : List (Obs P C)}
    (h : Step s l os s') (hreg : Registered c types s.bus) (hspares : l.Spares c) :
    Registered c types s'.bus := by
  intro t
  rw [step_subscribers h, List.count_append, hreg t]
  have hnone : (subscriptions t [l]).count c = 0 := by
    rw [List.count_eq_zero]
    intro hmem
    obtain ⟨l', hl', hsome⟩ := List.mem_filterMap.mp hmem
    obtain rfl := List.mem_singleton.mp hl'
    cases l' with
    | subscribe t' c' =>
      dsimp only at hsome
      split at hsome
      · exact hspares (Option.some.inj hsome)
      · cases hsome
    | _ => cases hsome
  rw [hnone, Nat.add_zero]

/-- **One step**: what a callback was called with and is due to be called with are the events of
    its types. -/
theorem step_received {s s' : State P C} {l : Label P C} {os : List (Obs P C)}
    (h : Step s l os s') (hreg : Registered c types s.bus) :
    received c os ++ s'.control.due c = s.control.due c ++ delivered types os := by
  cases h with
  | subscribe t c' hopen => simp [received, delivered, dequeuedEvents]
  | publish e hopen => simp [received, delivered, dequeuedEvents]
  | drain hidle => simp [received, delivered, dequeuedEvents, hidle, Control.due]
  | returns n hloop hnil => simp [received, delivered, dequeuedEvents, hloop, Control.due]
  | dequeue n e q hloop hpop =>
    -- the callback is due once if the event is of one of its types, and else never
    have hdue : List.replicate ((s.bus.subscribers e.event_type).count c) e =
        delivered types [.dequeued e s.bus.queue (s.bus.subscribers e.event_type)] := by
      rw [hreg]
      by_cases htype : e.event_type ∈ types <;> simp [delivered, dequeuedEvents, htype]
    rw [← hdue]
    simp [received, hloop, Control.due]
  | next n e hdel => simp [received, delivered, dequeuedEvents, hdel, Control.due]
  | invoke n e c' rest hdel =>
    by_cases hc : c' = c
    · simp [received, delivered, dequeuedEvents, hdel, Control.due, hc, List.replicate_succ]
    · simp [received, delivered, dequeuedEvents, hdel, Control.due, hc]
  | done b n e rest hcall => simp [received, delivered, dequeuedEvents, hcall, Control.due]

/-- **Exactly once and in order**: what a callback was called with, and is due to be called with
    for the event that is delivered just now, are the events of its types that left the heap. -/
theorem received_law {s₀ s : State P C} {ls : List (Label P C)} {tr : List (Obs P C)}
    (hidle : s₀.control = .idle) (hreg : Registered c types s₀.bus)
    (hspares : ∀ l ∈ ls, l.Spares c) (hrun : (machine P C).run s₀ ls = some (s, tr)) :
    received c tr ++ s.control.due c = delivered types tr := by
  have halong := (machine P C).along_of_mem (C := fun _ l => l.Spares c)
    (fun l hl _ => hspares l hl) s₀
  have hinv := (machine P C).run_induction_along
    (P := fun _ s tr => Registered c types s.bus ∧
      received c tr ++ s.control.due c = delivered types tr) ?_ ?_ halong hrun
  · exact hinv.2
  · refine ⟨hreg, ?_⟩
    rw [hidle]
    rfl
  · rintro ls s tr l s' os - ⟨hreg, hlaw⟩ hspares hs
    have hstep := step_sound hs
    refine ⟨step_registered hstep hreg hspares, ?_⟩
    rw [received_append, List.append_assoc, step_received hstep hreg, ← List.append_assoc, hlaw,
      delivered_append]

/-- The pending events of these types. -/
def pending (types : List String) (bus : EventBus P C) : List (Event P) :=
  bus.queue.filter fun e => e.event_type ∈ types

/-- **None lost, none doubled, none made up**: what the callback was called with, is due to be
    called with and may still expect is what was published of its types. -/
theorem received_published {s₀ s : State P C} {ls : List (Label P C)} {tr : List (Obs P C)}
    (hidle : s₀.control = .idle) (hreg : Registered c types s₀.bus)
    (hspares : ∀ l ∈ ls, l.Spares c) (hrun : (machine P C).run s₀ ls = some (s, tr)) :
    (received c tr ++ s.control.due c ++ pending types s.bus).Perm
      (pending types s₀.bus ++ (published ls).filter fun e => e.event_type ∈ types) := by
  rw [received_law hidle hreg hspares hrun]
  unfold delivered pending
  rw [← List.filter_append, ← List.filter_append]
  exact (run_pending hrun).filter _

end Receiving

/-! ### Registration -/

/-- `subscribe`, for each of the types. -/
def subscribeAll (types : List String) (c : C) (bus : EventBus P C) : EventBus P C :=
  types.foldl (fun bus t => bus.subscribe t c) bus

theorem subscribeAll_queue (types : List String) (c : C) (bus : EventBus P C) :
    (bus.subscribeAll types c).queue = bus.queue := by
  unfold subscribeAll
  induction types generalizing bus with
  | nil => rfl
  | cons t types ih =>
    rw [List.foldl_cons, ih]
    rfl

theorem subscribeAll_count [DecidableEq C] {types : List String} (hnodup : types.Nodup) (c c' : C)
    (bus : EventBus P C) (t : String) :
    ((bus.subscribeAll types c).subscribers t).count c' =
      (bus.subscribers t).count c' + if t ∈ types ∧ c = c' then 1 else 0 := by
  unfold subscribeAll
  induction types generalizing bus with
  | nil => simp
  | cons t' types ih =>
    obtain ⟨hnot, hnodup⟩ := List.nodup_cons.mp hnodup
    rw [List.foldl_cons, ih hnodup]
    unfold subscribe
    by_cases ht : t = t'
    · subst ht
      by_cases hc : c = c' <;> simp [hnot, hc]
    · simp [ht]

/-- A new callback is registered once for each of its types. -/
theorem registered_subscribeAll [DecidableEq C] {types : List String} (hnodup : types.Nodup) {c : C}
    {bus : EventBus P C} (hnew : ∀ t, c ∉ bus.subscribers t) :
    Registered c types (bus.subscribeAll types c) := by
  intro t
  rw [subscribeAll_count hnodup, List.count_eq_zero.mpr (hnew t)]
  simp

/-! ### Views -/

end EventBus

/-- A view of type `V`: what a call of a callback does to it, and what its owner does. -/
structure EventView (P : Type u) (C : Type v) (V : Type w) (A : Type x) where
  handle : C → V → Event P → V
  act : V → A → V

namespace EventView

open EventBus

variable {P : Type u} {C : Type v} {V : Type w} {A : Type x} (view : EventView P C V A)

/-- What an observation of the bus, or an act of the owner, does to the view. -/
def note (v : V) : Obs P C ⊕ A → V
  | .inl (.invoked c e) => view.handle c v e
  | .inl _ => v
  | .inr a => view.act v a

/-- The bus with the view. -/
def machine : Machine (EventBus.State P C × V) (Label P C ⊕ A) (Obs P C ⊕ A) where
  step := fun (s, v) l =>
    match l with
    | .inl l =>
      ((EventBus.machine P C).step s l).map fun (s', os) =>
        ((s', (os.map .inl).foldl view.note v), os.map .inl)
    | .inr a => some ((s, view.act v a), [.inr a])

/-- The part of a run, or of a trace, that is of the bus. -/
def onBus {α : Type*} {β : Type*} (l : List (α ⊕ β)) : List α := l.filterMap Sum.getLeft?

theorem onBus_append {α : Type*} {β : Type*} (l l' : List (α ⊕ β)) :
    onBus (l ++ l') = onBus l ++ onBus l' :=
  List.filterMap_append

theorem onBus_map_inl {α : Type*} {β : Type*} (l : List α) :
    onBus (l.map (.inl : α → α ⊕ β)) = l := by
  unfold onBus
  rw [List.filterMap_map]
  exact List.filterMap_some

/-- **The runs of a view** are runs of the bus, and the view is the fold over the trace. -/
theorem view_run {s₀ s : EventBus.State P C × V} {ls : List (Label P C ⊕ A)}
    {tr : List (Obs P C ⊕ A)} (hrun : view.machine.run s₀ ls = some (s, tr)) :
    (EventBus.machine P C).run s₀.1 (onBus ls) = some (s.1, onBus tr) ∧
      s.2 = tr.foldl view.note s₀.2 := by
  refine view.machine.run_induction
    (P := fun ls s tr => (EventBus.machine P C).run s₀.1 (onBus ls) = some (s.1, onBus tr) ∧
      s.2 = tr.foldl view.note s₀.2) ⟨rfl, rfl⟩ ?_ hrun
  rintro ls ⟨s, v⟩ tr l ⟨s', v'⟩ os - ⟨hbus, hview⟩ hs
  rw [List.foldl_append, ← hview, onBus_append, onBus_append]
  cases l with
  | inl l =>
    obtain ⟨⟨t, os'⟩, hstep, heq⟩ := Option.map_eq_some_iff.mp hs
    cases heq
    rw [onBus_map_inl]
    exact ⟨(EventBus.machine P C).run_snoc_iff.mpr ⟨s, _, os', hbus, hstep, rfl⟩, rfl⟩
  | inr a =>
    cases hs
    refine ⟨?_, rfl⟩
    show _ = some (s, onBus tr ++ [])
    rw [List.append_nil, ← hbus]
    exact congrArg _ (List.append_nil _)

/-- The part of a trace that is of the owner. -/
def acts {α : Type*} (tr : List (α ⊕ A)) : List A := tr.filterMap Sum.getRight?

/-- A view that is changed by one callback only, and by its owner. -/
def ofCallback [DecidableEq C] (callback : C) (f : V → Event P → V) (act : V → A → V) :
    EventView P C V A where
  handle := fun c v event => if c = callback then f v event else v
  act := act

/-- **Induction over what such a view was called with**, and what its owner did, in any order. -/
theorem ofCallback_induction [DecidableEq C] {callback : C} {f : V → Event P → V}
    {act : V → A → V} {v₀ : V} {Q : List (Event P) → List A → V → Prop} (hnil : Q [] [] v₀)
    (hcall : ∀ got done v event, Q got done v → Q (got ++ [event]) done (f v event))
    (hact : ∀ got done v a, Q got done v → Q got (done ++ [a]) (act v a))
    (tr : List (Obs P C ⊕ A)) :
    Q (received callback (onBus tr)) (acts tr) (tr.foldl (ofCallback callback f act).note v₀) := by
  induction tr using List.reverseRecOn with
  | nil => exact hnil
  | append_singleton tr o ih =>
    have hacts : acts (tr ++ [o]) = acts tr ++ acts [o] := List.filterMap_append
    rw [List.foldl_append, List.foldl_cons, List.foldl_nil, onBus_append, received_append, hacts]
    cases o with
    | inl o =>
      have hnone : acts [(.inl o : Obs P C ⊕ A)] = [] := rfl
      rw [hnone, List.append_nil]
      cases o with
      | invoked c event =>
        by_cases hc : c = callback
        · have hgot : received callback (onBus [(.inl (.invoked c event) : Obs P C ⊕ A)]) =
              [event] := by simp [onBus, received, hc]
          have hnote : ∀ v, (ofCallback callback f act).note v (.inl (.invoked c event)) =
              f v event := fun v => if_pos hc
          rw [hgot, hnote]
          exact hcall _ _ _ event ih
        · have hgot : received callback (onBus [(.inl (.invoked c event) : Obs P C ⊕ A)]) =
              [] := by simp [onBus, received, hc]
          have hnote : ∀ v, (ofCallback callback f act).note v (.inl (.invoked c event)) = v :=
            fun v => if_neg hc
          rw [hgot, List.append_nil, hnote]
          exact ih
      | dequeued event queue registered => exact (List.append_nil (received callback _)).symm ▸ ih
      | returned count queue => exact (List.append_nil (received callback _)).symm ▸ ih
    | inr a => exact (List.append_nil (received callback _)).symm ▸ hact _ _ _ a ih

/-- **A view whose callback is registered once** for its types, from then on: the fold over the
    trace, with the laws of what the callback was called with. -/
theorem subscribed_run [DecidableEq C] {callback : C} {f : V → Event P → V} {act : V → A → V}
    {types : List String} (hnodup : types.Nodup) {bus : EventBus P C}
    (hnew : ∀ t, callback ∉ bus.subscribers t) {ls : List (Label P C ⊕ A)}
    (hspares : ∀ l ∈ onBus ls, l.Spares callback) {s : EventBus.State P C} {v₀ v : V}
    {tr : List (Obs P C ⊕ A)}
    (hrun : (ofCallback callback f act).machine.run (⟨bus.subscribeAll types callback, .idle⟩, v₀)
      ls = some ((s, v), tr)) :
    v = tr.foldl (ofCallback callback f act).note v₀ ∧
      (∀ e ∈ received callback (onBus tr), e.event_type ∈ types) ∧
      received callback (onBus tr) ++ s.control.due callback = delivered types (onBus tr) ∧
      (received callback (onBus tr) ++ s.control.due callback ++ pending types s.bus).Perm
        (pending types bus ++ (published (onBus ls)).filter fun e => e.event_type ∈ types) := by
  obtain ⟨hbus, hview⟩ := view_run _ hrun
  have hreg := registered_subscribeAll hnodup hnew
  have hlaw := received_law rfl hreg hspares hbus
  have hpending : pending types (bus.subscribeAll types callback) = pending types bus := by
    unfold pending
    rw [subscribeAll_queue]
  refine ⟨hview, fun e he => ?_, hlaw, ?_⟩
  · have hmem : e ∈ delivered types (onBus tr) := hlaw ▸ List.mem_append_left _ he
    exact of_decide_eq_true (List.mem_filter.mp hmem).2
  · rw [← hpending]
    exact received_published rfl hreg hspares hbus

end EventView
