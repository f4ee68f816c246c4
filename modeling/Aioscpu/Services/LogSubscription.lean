import Aioscpu.Services.LoggingService

/-! # The Logging Service on the Event Bus

  `start` subscribes `_on_event` to the captured event types. The bus offers no
  removal, and `stop` only lowers `_running`, which `_on_event` does not read.

  The service and the bus are one machine. `_on_event` runs in the step in
  which the bus calls it, as it calls nothing back. What the other callbacks do
  is up to the environment.
-/

namespace LoggingService.OnBus

variable {T C : Type}

/-! ### The service and the bus -/

inductive Callback (C : Type) where
  /-- `LoggingService._on_event`. -/
  | on_event
  | other (c : C)
deriving DecidableEq, Repr

/-- The callback is that of the service. -/
def Callback.ours : Callback C → Bool
  | .on_event => true
  | .other _ => false

structure State (T C : Type) where
  service : LoggingService T
  bus : EventBus.State (Json T) (Callback C)

inductive Label (T C : Type) where
  /-- `start`; with whether its `os.makedirs` succeeds, if it gets there. -/
  | start (makedirs : Bool)
  | stop
  /-- A step of the bus, with the clock reading of an `_on_event` in it. -/
  | bus (l : EventBus.Label (Json T) (Callback C)) (now : T)

inductive Obs (T : Type) where
  /-- `start` takes effect, and subscribes unless `os.makedirs` raises. -/
  | started (subscribed : Bool)
  | stopped
  /-- An event leaves the heap; with the state of the service then. -/
  | drained (event : Event (Json T)) (running : Bool)
  /-- `_on_event` adds an entry for the event. -/
  | recorded (event : Event (Json T)) (entry : LogEntry T)

/-- The loop of `start` over the event types. -/
def subscribe (bus : EventBus (Json T) (Callback C)) (types : List String) :
    EventBus (Json T) (Callback C) :=
  types.foldl (fun bus event_type => bus.subscribe event_type .on_event) bus

/-- `LoggingService.start`, up to the launch of the flush thread. -/
def start (s : State T C) (makedirs : Bool) : State T C × List (Obs T) :=
  if s.service.running then (s, [])
  else
    let s := { s with service := { s.service with running := true } }
    if makedirs then
      ({ s with bus := { s.bus with bus := subscribe s.bus.bus captured } }, [.started true])
    else (s, [.started false])

/-- `LoggingService.stop`, apart from its flush. -/
def stop (s : State T C) : State T C × List (Obs T) :=
  if s.service.running then
    ({ s with service := { s.service with running := false } }, [.stopped])
  else (s, [])

/-- What the service does in a step of the bus. -/
def observe [Clock T] (fmt : Format T) (service : LoggingService T) (now : T) :
    List (EventBus.Obs (Json T) (Callback C)) → LoggingService T × List (Obs T)
  | [.dequeued event _ _] => (service, [.drained event service.running])
  | [.invoked .on_event event] =>
    let entry := service.captures fmt event now
    (service.append entry, [.recorded event entry])
  | _ => (service, [])

/-- The service and the bus. The calls of `start` and `stop` come from outside
    `drain` or from within another callback. -/
def machine [Clock T] (fmt : Format T) (C : Type) : Machine (State T C) (Label T C) (Obs T) where
  step := fun s l =>
    match l with
    | .start makedirs => if s.bus.control.open then some (start s makedirs) else none
    | .stop => if s.bus.control.open then some (stop s) else none
    | .bus (.subscribe _ .on_event) _ => none
    | .bus l now =>
      ((EventBus.machine (Json T) (Callback C)).step s.bus l).map fun r =>
        let o := observe fmt s.service now r.2
        (⟨o.1, r.1⟩, o.2)

/-- A new service and a new bus. -/
def State.init (buffer_size : Nat) : State T C := ⟨.init buffer_size, ⟨.init, .idle⟩⟩

/-! ### The law -/

/-- An event that has been drained. -/
structure Delivery (T : Type) where
  event : Event (Json T)
  /-- The service was running then. -/
  running : Bool
  /-- How often a `start` had subscribed by then. -/
  subscribed : Nat
  /-- How many entries `_on_event` has added for it. -/
  recorded : Nat

/-- What a trace says about subscriptions and deliveries, the last one first. -/
structure History (T : Type) where
  subscribed : Nat
  deliveries : List (Delivery T)

def History.note (h : History T) : Obs T → History T
  | .started true => { h with subscribed := h.subscribed + 1 }
  | .drained event running =>
    { h with deliveries := ⟨event, running, h.subscribed, 0⟩ :: h.deliveries }
  | .recorded _ _ =>
    match h.deliveries with
    | [] => h
    | d :: ds => { h with deliveries := { d with recorded := d.recorded + 1 } :: ds }
  | _ => h

def history (tr : List (Obs T)) : History T := tr.foldl History.note ⟨0, []⟩

/-- The entries that a captured event should add. -/
def Delivery.due (d : Delivery T) : Nat := if d.running then 1 else 0

/-- Each captured event that was drained while the service was running has added
    one entry, each one drained while it was not running none. -/
def OneEach (tr : List (Obs T)) : Prop :=
  ∀ d ∈ (history tr).deliveries, d.event.event_type ∈ captured → d.recorded = d.due

/-- When a captured event is drained, one `start` has subscribed so far if the
    service is running, and none if it is not. -/
def SubscribedOnce (tr : List (Obs T)) : Prop :=
  ∀ d ∈ (history tr).deliveries, d.event.event_type ∈ captured → d.subscribed = d.due

instance (tr : List (Obs T)) : Decidable (OneEach tr) :=
  inferInstanceAs (Decidable (∀ d ∈ (history tr).deliveries, _ → _))

instance (tr : List (Obs T)) : Decidable (SubscribedOnce tr) :=
  inferInstanceAs (Decidable (∀ d ∈ (history tr).deliveries, _ → _))

theorem history_append (tr os : List (Obs T)) :
    history (tr ++ os) = os.foldl History.note (history tr) :=
  List.foldl_append

/-! ### The invariant -/

/-- How often the service is subscribed to the event type. -/
def subscriptions (s : State T C) (event_type : String) : Nat :=
  (s.bus.bus.subscribers event_type).countP Callback.ours

/-- The delivery has `left` calls of `_on_event` to come. -/
def Delivery.Lacks (d : Delivery T) (left : Nat) : Prop :=
  d.event.event_type ∈ captured → d.recorded + left = d.subscribed

/-- The delivery that is under way lacks the calls that are to come, all others
    are complete. -/
def Delivering (ds : List (Delivery T)) : EventBus.Control (Json T) (Callback C) → Prop
  | .delivering _ event rest | .calling _ event rest =>
    ∃ d before, ds = d :: before ∧ d.event = event ∧ d.Lacks (rest.countP Callback.ours) ∧
      ∀ d ∈ before, d.Lacks 0
  | _ => ∀ d ∈ ds, d.Lacks 0

structure Inv (s : State T C) (h : History T) : Prop where
  subscribed : ∀ t ∈ captured, subscriptions s t = h.subscribed
  delivering : Delivering h.deliveries s.bus.control

theorem init_inv (buffer_size : Nat) :
    Inv (State.init buffer_size : State T C) (history []) where
  subscribed _ _ := rfl
  delivering _ hd := (List.not_mem_nil hd).elim

/-- A subscription adds the callback to its event type. -/
theorem subscribe_subscribers (bus : EventBus (Json T) (Callback C)) (types : List String)
    (hnodup : types.Nodup) (t : String) :
    ((subscribe bus types).subscribers t).countP Callback.ours =
      (bus.subscribers t).countP Callback.ours + if t ∈ types then 1 else 0 := by
  induction types generalizing bus with
  | nil => rfl
  | cons t' types ih =>
    obtain ⟨hnot, hnodup⟩ := List.nodup_cons.mp hnodup
    have htail := ih (bus.subscribe t' .on_event) hnodup
    have hhead : ((bus.subscribe t' .on_event).subscribers t).countP Callback.ours =
        (bus.subscribers t).countP Callback.ours + if t = t' then 1 else 0 := by
      unfold EventBus.subscribe
      dsimp only
      split
      · exact List.countP_append
      · rfl
    show ((subscribe (bus.subscribe t' .on_event) types).subscribers t).countP _ = _
    rw [htail, hhead]
    by_cases heq : t = t'
    · subst heq
      simp [hnot]
    · simp [heq]

theorem captured_nodup : captured.Nodup := by decide

/-- A subscription of another callback is none of the service. -/
theorem subscriptions_other (bus : EventBus (Json T) (Callback C)) (t t' : String) (c : C) :
    ((bus.subscribe t (.other c)).subscribers t').countP Callback.ours =
      (bus.subscribers t').countP Callback.ours := by
  unfold EventBus.subscribe
  dsimp only
  split
  · exact List.countP_append
  · rfl

theorem start_inv {s : State T C} {h : History T} (hinv : Inv s h) (makedirs : Bool) :
    Inv (start s makedirs).1 ((start s makedirs).2.foldl History.note h) := by
  unfold start
  split
  · exact hinv
  cases makedirs with
  | false => exact ⟨hinv.subscribed, hinv.delivering⟩
  | true =>
    refine ⟨fun t ht => ?_, hinv.delivering⟩
    -- one subscription more to every captured type, and one more in the history
    show ((subscribe s.bus.bus captured).subscribers t).countP _ = h.subscribed + 1
    rw [subscribe_subscribers _ _ captured_nodup, if_pos ht]
    exact congrArg (· + 1) (hinv.subscribed t ht)

theorem stop_inv {s : State T C} {h : History T} (hinv : Inv s h) :
    Inv (stop s).1 ((stop s).2.foldl History.note h) := by
  unfold stop
  split
  · exact ⟨hinv.subscribed, hinv.delivering⟩
  · exact hinv

/-- A step of the bus delivers each event to the callbacks that were subscribed
    when the event was drained. -/
theorem bus_inv [Clock T] {fmt : Format T} {s : State T C} {h : History T} (hinv : Inv s h)
    {l : EventBus.Label (Json T) (Callback C)} {os : List (EventBus.Obs (Json T) (Callback C))}
    {bus : EventBus.State (Json T) (Callback C)} (hstep : EventBus.Step s.bus l os bus) (now : T)
    (hours : ∀ t, l ≠ .subscribe t .on_event) :
    Inv ⟨(observe fmt s.service now os).1, bus⟩
      ((observe fmt s.service now os).2.foldl History.note h) := by
  have hdel := hinv.delivering
  cases hstep with
  | subscribe t c hopen =>
    cases c with
    | on_event => exact absurd rfl (hours t)
    | other c =>
      refine ⟨fun t' ht' => ?_, hdel⟩
      exact (subscriptions_other s.bus.bus t t' c).trans (hinv.subscribed t' ht')
  | publish e hopen => exact ⟨hinv.subscribed, hdel⟩
  | drain hidle =>
    rw [hidle] at hdel
    exact ⟨hinv.subscribed, hdel⟩
  | returns n hloop hnil =>
    rw [hloop] at hdel
    exact ⟨hinv.subscribed, hdel⟩
  | dequeue n e q hloop hpop =>
    rw [hloop] at hdel
    -- all calls of the new delivery are still to come
    refine ⟨hinv.subscribed, _, _, rfl, rfl, fun hcaptured => ?_, hdel⟩
    exact (Nat.zero_add _).trans (hinv.subscribed _ hcaptured)
  | next n e hnext =>
    rw [hnext] at hdel
    obtain ⟨d, before, hds, -, hlast, hbefore⟩ := hdel
    refine ⟨hinv.subscribed, fun d' hd' => ?_⟩
    change d' ∈ h.deliveries at hd'
    rw [hds] at hd'
    rcases List.mem_cons.mp hd' with rfl | hd'
    -- no callback is left, so the last delivery is complete
    · exact hlast
    · exact hbefore d' hd'
  | invoke n e c rest hcall =>
    rw [hcall] at hdel
    obtain ⟨d, before, hds, hevent, hlast, hbefore⟩ := hdel
    cases c with
    | on_event =>
      -- one of the calls to come has added its entry
      have hnote : History.note h (.recorded e (s.service.captures fmt e now)) =
          { h with deliveries := { d with recorded := d.recorded + 1 } :: before } := by
        unfold History.note
        rw [hds]
      show Inv _ (History.note h (.recorded e (s.service.captures fmt e now)))
      rw [hnote]
      refine ⟨hinv.subscribed, _, _, rfl, hevent, fun hcaptured => ?_, hbefore⟩
      have hleft := hlast hcaptured
      rw [List.countP_cons_of_pos rfl] at hleft
      dsimp only
      omega
    | other c =>
      -- the callback of another component adds nothing
      refine ⟨hinv.subscribed, d, before, hds, hevent, fun hcaptured => ?_, hbefore⟩
      have hleft := hlast hcaptured
      rwa [List.countP_cons_of_neg (by simp [Callback.ours])] at hleft
  | done b n e rest hcall =>
    rw [hcall] at hdel
    exact ⟨hinv.subscribed, hdel⟩

theorem step_inv [Clock T] {fmt : Format T} {s s' : State T C} {l : Label T C}
    {os : List (Obs T)} {h : History T} (hstep : (machine fmt C).step s l = some (s', os))
    (hinv : Inv s h) : Inv s' (os.foldl History.note h) := by
  unfold machine at hstep
  dsimp only at hstep
  split at hstep
  · split at hstep
    · have heq := Option.some.inj hstep
      obtain rfl := congrArg Prod.fst heq
      obtain rfl := congrArg Prod.snd heq
      exact start_inv hinv _
    · cases hstep
  · split at hstep
    · have heq := Option.some.inj hstep
      obtain rfl := congrArg Prod.fst heq
      obtain rfl := congrArg Prod.snd heq
      exact stop_inv hinv
    · cases hstep
  · cases hstep
  · next l now hours =>
    obtain ⟨⟨bus, os'⟩, hbus, heq⟩ := Option.map_eq_some_iff.mp hstep
    cases heq
    exact bus_inv hinv (EventBus.step_sound hbus) now (fun t heq => hours t heq)

/-- Each delivery adds an entry for every subscription there was. -/
theorem run_inv [Clock T] {fmt : Format T} {buffer_size : Nat} {s : State T C}
    {ls : List (Label T C)} {tr : List (Obs T)}
    (hrun : (machine fmt C).run (.init buffer_size) ls = some (s, tr)) : Inv s (history tr) := by
  refine (machine fmt C).run_induction (P := fun _ s tr => Inv s (history tr))
    (init_inv buffer_size) ?_ hrun
  intro ls s tr l s' os _ hinv hstep
  rw [history_append]
  exact step_inv hstep hinv

/-- Between two drains, each captured event has added its entry (or none) if and
    only if the service was subscribed as often as that. -/
theorem oneEach_iff [Clock T] {fmt : Format T} {buffer_size : Nat} {s : State T C}
    {ls : List (Label T C)} {tr : List (Obs T)}
    (hrun : (machine fmt C).run (.init buffer_size) ls = some (s, tr))
    (hidle : s.bus.control = .idle) : OneEach tr ↔ SubscribedOnce tr := by
  have hdel := (run_inv hrun).delivering
  rw [hidle] at hdel
  have hlacks : ∀ d ∈ (history tr).deliveries, d.event.event_type ∈ captured →
      d.recorded = d.subscribed := hdel
  constructor
  · intro heach d hd hcaptured
    rw [← hlacks d hd hcaptured]
    exact heach d hd hcaptured
  · intro honce d hd hcaptured
    rw [hlacks d hd hcaptured]
    exact honce d hd hcaptured

end LoggingService.OnBus
