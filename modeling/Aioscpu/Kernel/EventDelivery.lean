import Aioscpu.Kernel.EventBus
import Aioscpu.Framework.Precedes

/-! # Delivery Laws of the Event Bus

  Two laws about runs of the drain machine, with callbacks that subscribe,
  publish and raise as they like:

  - every dequeued event goes exactly once to each callback registered for
    its type at that moment, in subscription order, and a call of `drain`
    returns the number of events it dequeued with the heap empty;
  - events of equal priority leave the heap in the order of their creation,
    which need not be the order in which they were published.
-/

universe u v

namespace EventBus

variable {P : Type u} {C : Type v}

/-! ### What a call of `drain` should leave in the trace -/

/-- One event taken from the heap, with what was pending and registered. -/
structure Dequeue (P : Type u) (C : Type v) where
  event : Event P
  pending : List (Event P)
  registered : List C

namespace Dequeue

/-- The event was pending, and nothing pending is more urgent. -/
def Least (d : Dequeue P C) : Prop :=
  d.event ∈ d.pending ∧ ∀ e ∈ d.pending, d.event.key ≤ e.key

/-- The part of the trace up to the first `k` callbacks. -/
def traceUpTo (d : Dequeue P C) (ran : List C) : List (Obs P C) :=
  .dequeued d.event d.pending d.registered :: ran.map (.invoked · d.event)

/-- The whole delivery: every registered callback once, in order. -/
def trace (d : Dequeue P C) : List (Obs P C) := d.traceUpTo d.registered

end Dequeue

/-- The trace of a call of `drain` that dequeued `ds` and returned. -/
def drainTrace (ds : List (Dequeue P C)) : List (Obs P C) :=
  ds.flatMap Dequeue.trace ++ [.returned ds.length []]

/-- The trace `tr` consists of complete calls of `drain` and, as far as the
    control says, of a part of one more. -/
def Delivered (control : Control P C) (tr : List (Obs P C)) : Prop :=
  ∃ (calls : List (List (Dequeue P C))) (current : List (Dequeue P C)),
    (∀ ds ∈ calls, ∀ d ∈ ds, d.Least) ∧ (∀ d ∈ current, d.Least) ∧
    match control with
    | .idle => tr = calls.flatMap drainTrace
    | .looping n =>
      n = current.length ∧
      tr = calls.flatMap drainTrace ++ current.flatMap Dequeue.trace
    | .delivering n e rest | .calling n e rest =>
      n = current.length + 1 ∧
      ∃ (d : Dequeue P C) (ran : List C),
        d.Least ∧ d.event = e ∧ d.registered = ran ++ rest ∧
        tr = calls.flatMap drainTrace ++ current.flatMap Dequeue.trace ++ d.traceUpTo ran

/-! ### Histories -/

/-- The callbacks subscribed to a type by a run, in order. -/
def subscriptions (event_type : String) (ls : List (Label P C)) : List C :=
  ls.filterMap fun
    | .subscribe t c => if t = event_type then some c else none
    | _ => none

/-- The events published by a run, in order. -/
def published (ls : List (Label P C)) : List (Event P) :=
  ls.filterMap fun
    | .publish e => some e
    | _ => none

/-- The events that left the heap, in order. -/
def dequeuedEvents (tr : List (Obs P C)) : List (Event P) :=
  tr.filterMap fun
    | .dequeued e _ _ => some e
    | _ => none

/-! ### Exactly once -/

theorem step_delivered {s s' : State P C} {l : Label P C} {os : List (Obs P C)}
    (h : Step s l os s') (ho : Ordered s) {tr : List (Obs P C)}
    (hd : Delivered s.control tr) : Delivered s'.control (tr ++ os) := by
  cases h with
  -- code outside the loops leaves the trace alone
  | subscribe => simpa using hd
  | publish => simpa using hd
  -- a new call of `drain` begins with no dequeue of its own
  | drain hidle =>
    obtain ⟨calls, current, hcalls, -, htr⟩ := hd
    simp only [hidle] at htr
    exact ⟨calls, [], hcalls, by simp, by simp [htr]⟩
  -- the current call joins the complete ones
  | returns n hloop hnil =>
    obtain ⟨calls, current, hcalls, hcur, htr⟩ := hd
    simp only [hloop] at htr
    obtain ⟨rfl, rfl⟩ := htr
    refine ⟨calls ++ [current], [], ?_, by simp, by simp [drainTrace]⟩
    intro ds hds
    rcases List.mem_append.mp hds with hds | hds
    · exact hcalls ds hds
    · exact List.mem_singleton.mp hds ▸ hcur
  -- the heap order makes the root least among the pending events
  | dequeue n e q hloop hpop =>
    obtain ⟨calls, current, hcalls, hcur, htr⟩ := hd
    simp only [hloop] at htr
    obtain ⟨rfl, rfl⟩ := htr
    have hmem : e ∈ s.bus.queue :=
      (Heapq.pop_eq_some Event.lt hpop).2.mem_iff.mp List.mem_cons_self
    have hleast := (Heapq.pop_heap Event.lt_eq ho hpop).2
    exact ⟨calls, current, hcalls, hcur, rfl,
      ⟨e, s.bus.queue, s.bus.subscribers e.event_type⟩, [], ⟨hmem, hleast⟩, rfl, rfl, rfl⟩
  -- no callback is left, so the delivery is complete
  | next n e hdel =>
    obtain ⟨calls, current, hcalls, hcur, htr⟩ := hd
    simp only [hdel] at htr
    obtain ⟨rfl, d, ran, hleast, rfl, hreg, rfl⟩ := htr
    refine ⟨calls, current ++ [d], hcalls, ?_, by simp, ?_⟩
    · intro d' hd'
      rcases List.mem_append.mp hd' with hd' | hd'
      · exact hcur d' hd'
      · exact List.mem_singleton.mp hd' ▸ hleast
    · have hran : ran = d.registered := by simp [hreg]
      simp [Dequeue.trace, hran]
  -- one more of the registered callbacks has been called
  | invoke n e c rest hdel =>
    obtain ⟨calls, current, hcalls, hcur, htr⟩ := hd
    simp only [hdel] at htr
    obtain ⟨rfl, d, ran, hleast, rfl, hreg, rfl⟩ := htr
    exact ⟨calls, current, hcalls, hcur, rfl, d, ran ++ [c], hleast, rfl, by simp [hreg],
      by simp [Dequeue.traceUpTo]⟩
  | done b n e rest hcall =>
    obtain ⟨calls, current, hcalls, hcur, htr⟩ := hd
    simp only [hcall] at htr
    exact ⟨calls, current, hcalls, hcur, by simpa using htr⟩

/-- One step of the histories: registrations follow the `subscribe` labels. -/
theorem step_subscribers {s s' : State P C} {l : Label P C}
    {os : List (Obs P C)} (h : Step s l os s') (t : String) :
    s'.bus.subscribers t = s.bus.subscribers t ++ subscriptions t [l] := by
  cases h with
  | subscribe t' c =>
    by_cases ht : t = t'
    · subst ht; simp [EventBus.subscribe, subscriptions]
    · simp [EventBus.subscribe, subscriptions, ht, Ne.symm ht]
  | _ => simp [subscriptions]

/-- The registered callbacks are the subscribed ones. -/
theorem run_subscribers {s : State P C} {ls : List (Label P C)} {tr : List (Obs P C)}
    (hrun : (machine P C).run ⟨init, .idle⟩ ls = some (s, tr)) (t : String) :
    s.bus.subscribers t = subscriptions t ls := by
  refine (machine P C).run_induction
    (P := fun ls s _ => s.bus.subscribers t = subscriptions t ls) rfl ?_ hrun
  intro ls s _ l s' os _ ih hs
  rw [step_subscribers (step_sound hs) t, ih]
  simp [subscriptions]

/-- One step of the histories: what is published is dequeued or pending. -/
theorem step_pending {s s' : State P C} {l : Label P C} {os : List (Obs P C)}
    (h : Step s l os s') :
    (dequeuedEvents os ++ s'.bus.queue).Perm (s.bus.queue ++ published [l]) := by
  cases h with
  | publish e =>
    exact (publish_queue_perm s.bus e).trans (List.perm_append_singleton e _).symm
  | dequeue n e q _ hpop =>
    simpa [dequeuedEvents, published] using (Heapq.pop_eq_some Event.lt hpop).2
  | _ => simp [dequeuedEvents, published]

/-- The pending events and the dequeued ones are the published ones. -/
theorem run_pending {s₀ s : State P C} {ls : List (Label P C)} {tr : List (Obs P C)}
    (hrun : (machine P C).run s₀ ls = some (s, tr)) :
    (dequeuedEvents tr ++ s.bus.queue).Perm (s₀.bus.queue ++ published ls) := by
  refine (machine P C).run_induction
    (P := fun ls s tr =>
      (dequeuedEvents tr ++ s.bus.queue).Perm (s₀.bus.queue ++ published ls)) ?_ ?_ hrun
  · simp [dequeuedEvents, published]
  · intro ls s tr l s' os _ ih hs
    have hstep := step_pending (step_sound hs)
    calc (dequeuedEvents (tr ++ os) ++ s'.bus.queue)
        = dequeuedEvents tr ++ (dequeuedEvents os ++ s'.bus.queue) := by
          simp [dequeuedEvents]
      _ |>.Perm (dequeuedEvents tr ++ (s.bus.queue ++ published [l])) := hstep.append_left _
      _ |>.Perm (s₀.bus.queue ++ published (ls ++ [l])) := by
          simpa [published] using ih.append_right (published [l])

/-- **Exactly-once delivery**: in every run of `subscribe`, `publish` and
    `drain`, with callbacks that subscribe, publish and raise, the trace is
    made of deliveries of least pending events to exactly the registered
    callbacks, in order, and of returns with the right count and no event
    pending. What a dequeue records is what is pending and subscribed then,
    and no published event is lost or duplicated. -/
theorem delivered_exactly_once {s : State P C} {ls : List (Label P C)} {tr : List (Obs P C)}
    (hrun : (machine P C).run ⟨init, .idle⟩ ls = some (s, tr)) :
    Delivered s.control tr ∧
    (∀ s' e pending registered,
      (machine P C).step s .advance = some (s', [.dequeued e pending registered]) →
        pending = s.bus.queue ∧ registered = subscriptions e.event_type ls) ∧
    (dequeuedEvents tr ++ s.bus.queue).Perm (published ls) := by
  have h₀ : Ordered (⟨init, .idle⟩ : State P C) := Heapq.isHeap_nil
  refine ⟨?_, ?_, ?_⟩
  · refine (machine P C).run_induction (P := fun _ s tr => Delivered s.control tr) ?_ ?_ hrun
    · exact ⟨[], [], by simp, by simp, rfl⟩
    · intro ls s tr l s' os hpre ih hs
      exact step_delivered (step_sound hs) (run_ordered h₀ hpre) ih
  · intro s' e pending registered hs
    cases step_sound hs with
    | dequeue n e q _ _ => exact ⟨rfl, run_subscribers hrun _⟩
  · simpa [init] using run_pending hrun

/-- A callback that publishes a more urgent event and then raises. -/
theorem delivered_exactly_once_nested :
    ∃ s tr, (machine Unit Nat).run ⟨init, .idle⟩
        [.subscribe "A" 7, .publish ⟨"A", (), 2, "", 1⟩, .publish ⟨"A", (), 3, "", 2⟩, .drain,
          .advance, .advance, .publish ⟨"A", (), 0, "", 3⟩, .done true, .advance,
          .advance, .advance, .done false, .advance] = some (s, tr) ∧
      Delivered s.control tr ∧ dequeuedEvents tr =
        [⟨"A", (), 2, "", 1⟩, ⟨"A", (), 0, "", 3⟩] := by
  have hrun : (machine Unit Nat).run ⟨init, .idle⟩
      [.subscribe "A" 7, .publish ⟨"A", (), 2, "", 1⟩, .publish ⟨"A", (), 3, "", 2⟩, .drain,
        .advance, .advance, .publish ⟨"A", (), 0, "", 3⟩, .done true, .advance,
        .advance, .advance, .done false, .advance] = some (_, _) := rfl
  exact ⟨_, _, hrun, (delivered_exactly_once hrun).1, by decide⟩

/-! ### Order of delivery -/

/-- The events created one after another from the arguments in `specs`. -/
def createAll (counter : Nat) : List (String × P × Int × String) → List (Event P)
  | [] => []
  | (event_type, payload, priority, source) :: specs =>
    let (e, counter') := Event.create counter event_type payload priority source
    e :: createAll counter' specs

/-- Later created events have larger sequence numbers. -/
theorem createAll_pairwise (counter : Nat) (specs : List (String × P × Int × String)) :
    (createAll counter specs).Pairwise (fun a b => a.seq < b.seq) ∧
      ∀ e ∈ createAll counter specs, counter < e.seq := by
  induction specs generalizing counter with
  | nil => exact ⟨List.Pairwise.nil, by simp [createAll]⟩
  | cons spec specs ih =>
    obtain ⟨t, p, pr, src⟩ := spec
    obtain ⟨hpair, hlt⟩ := ih (counter + 1)
    simp only [createAll, Event.create, List.pairwise_cons, List.mem_cons]
    refine ⟨⟨fun e he => hlt e he, hpair⟩, ?_⟩
    rintro e (rfl | he)
    · exact Nat.lt_succ_self counter
    · exact Nat.lt_of_succ_lt (hlt e he)

/-- `order` delivers more urgent events first, and events of equal priority
    in the order in which `ps` was published. -/
def Fifo (ps order : List (Event P)) : Prop :=
  ∀ e ∈ ps, ∀ e' ∈ ps,
    (e.priority < e'.priority ∨ (e.priority = e'.priority ∧ Precedes ps e e')) →
      Precedes order e e'

/-- What is known of the order while the events `ps` are being drained: no
    dequeued event is less urgent than an event of `ps` that came out later or
    is still pending. -/
structure Draining (ps : List (Event P)) (s : State P C) (order : List (Event P)) : Prop where
  heap : Ordered s
  out : order.Pairwise (fun x y => y ∈ ps → x.key ≤ y.key)
  pending : ∀ x ∈ order, ∀ y ∈ s.bus.queue, y ∈ ps → x.key ≤ y.key
  idle : s.control = .idle → ∀ y ∈ s.bus.queue, y ∉ ps

/-- The environment neither calls `drain` again nor publishes an event of
    `ps` a second time. -/
def Fresh (ps : List (Event P)) (l : Label P C) : Prop :=
  l ≠ .drain ∧ ∀ e, l = .publish e → e ∉ ps

theorem step_draining {ps : List (Event P)} {s s' : State P C} {l : Label P C}
    {os : List (Obs P C)} (h : Step s l os s') (hfresh : Fresh ps l)
    {order : List (Event P)} (hd : Draining ps s order) :
    Draining ps s' (order ++ dequeuedEvents os) := by
  have hheap := step_ordered h hd.heap
  cases h with
  | subscribe t c => simpa [dequeuedEvents] using ⟨hheap, hd.out, hd.pending, hd.idle⟩
  | publish e hopen =>
    have hnew := hfresh.2 e rfl
    -- the new event is not in `ps`, so nothing is asked of it
    have hold : ∀ y ∈ (s.bus.publish e).queue, y ∈ ps → y ∈ s.bus.queue := by
      intro y hy hps
      rcases List.mem_cons.mp ((publish_queue_perm s.bus e).mem_iff.mp hy) with rfl | hy
      · exact absurd hps hnew
      · exact hy
    simp only [dequeuedEvents, List.filterMap_nil, List.append_nil]
    refine ⟨hheap, hd.out, ?_, ?_⟩
    · intro x hx y hy hps
      exact hd.pending x hx y (hold y hy hps) hps
    · intro hidle y hy hps
      exact hd.idle hidle y (hold y hy hps) hps
  | drain => exact absurd rfl hfresh.1
  | returns n _ hnil =>
    simp only [dequeuedEvents, List.filterMap_cons, List.filterMap_nil, List.append_nil]
    exact ⟨hheap, hd.out, hd.pending, fun _ y hy => by simp [hnil] at hy⟩
  | dequeue n e q hloop hpop =>
    have hperm := (Heapq.pop_eq_some Event.lt hpop).2
    have hleast := (Heapq.pop_heap Event.lt_eq hd.heap hpop).2
    have hmem : ∀ y ∈ q, y ∈ s.bus.queue := fun y hy =>
      hperm.mem_iff.mp (List.mem_cons_of_mem e hy)
    simp only [dequeuedEvents, List.filterMap_cons, List.filterMap_nil]
    refine ⟨hheap, ?_, ?_, by simp⟩
    -- what came out before `e` was not less urgent than `e` while it was pending
    · rw [List.pairwise_append]
      refine ⟨hd.out, List.pairwise_singleton _ _, ?_⟩
      intro x hx y hy hps
      obtain rfl := List.mem_singleton.mp hy
      exact hd.pending x hx y (hperm.mem_iff.mp List.mem_cons_self) hps
    -- and `e` was least of what stays pending
    · intro x hx y hy hps
      rcases List.mem_append.mp hx with hx | hx
      · exact hd.pending x hx y (hmem y hy) hps
      · obtain rfl := List.mem_singleton.mp hx
        exact hleast y (hmem y hy)
  | next n e hdel =>
    simp only [dequeuedEvents, List.filterMap_nil, List.append_nil]
    exact ⟨hheap, hd.out, hd.pending, by simp⟩
  | invoke n e c rest hdel =>
    simp only [dequeuedEvents, List.filterMap_cons, List.filterMap_nil, List.append_nil]
    exact ⟨hheap, hd.out, hd.pending, by simp⟩
  | done b n e rest hcall =>
    simp only [dequeuedEvents, List.filterMap_nil, List.append_nil]
    exact ⟨hheap, hd.out, hd.pending, by simp⟩

theorem run_draining {ps : List (Event P)} {s₀ s : State P C} {ls : List (Label P C)}
    {tr : List (Obs P C)} (hs₀ : Draining ps s₀ []) (hfresh : ∀ l ∈ ls, Fresh ps l)
    (hrun : (machine P C).run s₀ ls = some (s, tr)) :
    Draining ps s (dequeuedEvents tr) := by
  refine (machine P C).run_induction_along (C := fun _ l => Fresh ps l)
    (P := fun _ s tr => Draining ps s (dequeuedEvents tr)) hs₀ ?_
    ((machine P C).along_of_mem (fun l hl _ => hfresh l hl) s₀) hrun
  intro ls s tr l s' os _ ih hC hs
  simpa [dequeuedEvents] using step_draining (step_sound hs) hC ih

/-- Publishing a list of events only puts them on the heap. -/
theorem run_publishes {s₀ s : State P C} {ps : List (Event P)} {tr : List (Obs P C)}
    (h₀ : Ordered s₀)
    (hrun : (machine P C).run s₀ (ps.map .publish) = some (s, tr)) :
    Ordered s ∧ tr = [] := by
  refine ⟨run_ordered h₀ hrun, ?_⟩
  induction ps generalizing s₀ tr with
  | nil =>
    simp only [List.map_nil, Machine.run_nil, Option.some.injEq, Prod.mk.injEq] at hrun
    exact hrun.2.symm
  | cons e ps ih =>
    obtain ⟨t, os, tr', h₁, h₂, rfl⟩ := (machine P C).run_cons_iff.mp hrun
    have hs := step_sound h₁
    have hord := step_ordered hs h₀
    cases hs with
    | publish _ _ => exact ih hord h₂

/-- The order of one complete drain of the events `ps`. -/
theorem drain_order {subs : String → List C} {ps : List (Event P)}
    {body : List (Label P C)} {s : State P C} {tr : List (Obs P C)}
    (hrun : (machine P C).run ⟨⟨subs, []⟩, .idle⟩ (ps.map .publish ++ .drain :: body) =
      some (s, tr))
    (hidle : s.control = .idle) (hfresh : ∀ l ∈ body, Fresh ps l) :
    (dequeuedEvents tr).Pairwise (fun x y => y ∈ ps → x.key ≤ y.key) ∧
      ∀ e ∈ ps, e ∈ dequeuedEvents tr := by
  have hpending := run_pending hrun
  obtain ⟨s₁, tr₁, tr₂, h₁, h₂, rfl⟩ := (machine P C).run_append_iff.mp hrun
  obtain ⟨s₂, os, tr₄, h₃, h₄, rfl⟩ := (machine P C).run_cons_iff.mp h₂
  have h₀ : Ordered (⟨⟨subs, []⟩, .idle⟩ : State P C) := Heapq.isHeap_nil
  obtain ⟨hord, rfl⟩ := run_publishes h₀ h₁
  have hdrain := step_sound h₃
  have hord₂ := step_ordered hdrain hord
  cases hdrain with
  | drain _ =>
    have hd : Draining ps s (dequeuedEvents tr₄) :=
      run_draining ⟨hord₂, List.Pairwise.nil, by simp, by simp⟩ hfresh h₄
    simp only [List.nil_append] at hpending ⊢
    refine ⟨hd.out, ?_⟩
    intro e he
    have hpub : e ∈ published (ps.map Label.publish ++ Label.drain :: body : List (Label P C)) := by
      simp only [published, List.filterMap_append, List.mem_append, List.mem_filterMap]
      exact Or.inl ⟨.publish e, List.mem_map_of_mem he, rfl⟩
    have hmem := hpending.mem_iff.mpr (by simpa using hpub)
    rcases List.mem_append.mp hmem with hout | hq
    · exact hout
    · exact absurd he (hd.idle hidle e hq)

/-- **FIFO exactly by creation order**: the drain of a set of events delivers
    them by priority and, within a priority, in publish order if and only if
    any two events of equal priority were published in the order in which
    they were created. -/
theorem fifo_iff_created_in_order (counter : Nat) (specs : List (String × P × Int × String))
    {ps : List (Event P)} (hps : ps.Perm (createAll counter specs))
    {subs : String → List C} {body : List (Label P C)} {s : State P C} {tr : List (Obs P C)}
    (hrun : (machine P C).run ⟨⟨subs, []⟩, .idle⟩ (ps.map .publish ++ .drain :: body) =
      some (s, tr))
    (hidle : s.control = .idle) (hfresh : ∀ l ∈ body, Fresh ps l) :
    Fifo ps (dequeuedEvents tr) ↔
      ∀ e e', Precedes ps e e' → e.priority = e'.priority →
        Precedes (createAll counter specs) e e' := by
  obtain ⟨hout, hall⟩ := drain_order hrun hidle hfresh
  have hseq := (createAll_pairwise counter specs).1
  have hnodup : ps.Nodup :=
    hps.nodup_iff.mpr (hseq.imp (by rintro a b hlt rfl; exact Nat.lt_irrefl _ hlt))
  have hcreated : ∀ {e e'}, e ∈ ps → e' ∈ ps → e ≠ e' →
      (Precedes (createAll counter specs) e e' ↔ e.seq < e'.seq) := by
    intro e e' he he' hne
    exact Precedes.iff_rel hseq (hps.mem_iff.mp he) (hps.mem_iff.mp he') hne Nat.lt_asymm
  -- two events of the set come out in the order of their keys
  have horder : ∀ {e e'}, e ∈ ps → e' ∈ ps → e ≠ e' →
      (Precedes (dequeuedEvents tr) e e' ↔ e.key < e'.key) := by
    intro e e' he he' hne
    have hkey : e.key ≠ e'.key := by
      intro heq
      have hs : e.seq = e'.seq := congrArg (fun k => (ofLex k).2) heq
      rcases Precedes.total (hps.mem_iff.mp he) (hps.mem_iff.mp he') hne with h | h
      · exact absurd (Precedes.rel hseq h) (by omega)
      · exact absurd (Precedes.rel hseq h) (by omega)
    have hiff := Precedes.iff_rel hout (hall e he) (hall e' he') hne
      fun h h' => hkey (le_antisymm (h he') (h' he))
    exact hiff.trans ⟨fun h => lt_of_le_of_ne (h he') hkey, fun hlt _ => hlt.le⟩
  constructor
  · intro hfifo e e' hprec hpri
    have he := hprec.mem_left
    have he' := hprec.mem_right
    have hne : e ≠ e' := Precedes.rel hnodup hprec
    have hlt := (horder he he' hne).mp (hfifo e he e' he' (Or.inr ⟨hpri, hprec⟩))
    rcases (Event.key_lt_iff e e').mp hlt with h | ⟨-, h⟩
    · exact absurd h (by omega)
    · exact (hcreated he he' hne).mpr h
  · intro hcond e he e' he' h
    rcases h with hlt | ⟨hpri, hprec⟩
    · have hne : e ≠ e' := by rintro rfl; exact lt_irrefl _ hlt
      exact (horder he he' hne).mpr ((Event.key_lt_iff e e').mpr (Or.inl hlt))
    · have hne : e ≠ e' := Precedes.rel hnodup hprec
      have hs := (hcreated he he' hne).mp (hcond e e' hprec hpri)
      exact (horder he he' hne).mpr ((Event.key_lt_iff e e').mpr (Or.inr ⟨hpri, hs⟩))

/-- Three events published in the order of their creation. -/
theorem fifo_iff_created_in_order_three :
    Fifo [⟨"A", 1, 2, "", 1⟩, ⟨"B", 2, 0, "", 2⟩, ⟨"A", 3, 2, "", 3⟩]
        [(⟨"B", 2, 0, "", 2⟩ : Event Nat), ⟨"A", 1, 2, "", 1⟩, ⟨"A", 3, 2, "", 3⟩] ↔
      ∀ e e', Precedes [⟨"A", 1, 2, "", 1⟩, ⟨"B", 2, 0, "", 2⟩, ⟨"A", 3, 2, "", 3⟩] e e' →
        e.priority = e'.priority →
        Precedes (createAll 0 [("A", 1, 2, ""), ("B", 2, 0, ""), ("A", 3, 2, "")]) e e' := by
  have hrun : (machine Nat Unit).run ⟨⟨fun _ => [()], []⟩, .idle⟩
      ([⟨"A", 1, 2, "", 1⟩, ⟨"B", 2, 0, "", 2⟩, ⟨"A", 3, 2, "", 3⟩].map .publish ++
        .drain :: [.advance, .advance, .done false, .advance, .advance, .advance, .done true,
          .advance, .advance, .advance, .done false, .advance, .advance]) = some (_, _) := rfl
  exact fifo_iff_created_in_order 0 [("A", 1, 2, ""), ("B", 2, 0, ""), ("A", 3, 2, "")]
    (List.Perm.refl _) hrun rfl (by simp [Fresh])

/-- Two events of one priority, published in the reverse of the order in which
    they were created, are not delivered in the order of publication. -/
theorem fifo_fails_reversed :
    ∃ s tr, (machine Nat Unit).run ⟨init, .idle⟩
        [.publish (createAll 0 [("A", 1, 2, ""), ("A", 2, 2, "")])[1],
          .publish (createAll 0 [("A", 1, 2, ""), ("A", 2, 2, "")])[0],
          .drain, .advance, .advance, .advance, .advance, .advance] = some (s, tr) ∧
      s.control matches .idle ∧
      ¬ Fifo [(createAll 0 [("A", 1, 2, ""), ("A", 2, 2, "")])[1],
          (createAll 0 [("A", 1, 2, ""), ("A", 2, 2, "")])[0]] (dequeuedEvents tr) := by
  refine ⟨_, _, rfl, rfl, ?_⟩
  intro h
  have hprec := h ⟨"A", 2, 2, "", 2⟩ (by decide) ⟨"A", 1, 2, "", 1⟩ (by decide)
    (Or.inr (by decide))
  revert hprec
  decide

end EventBus
