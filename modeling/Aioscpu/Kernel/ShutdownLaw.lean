import Aioscpu.Kernel.EventDelivery
import Aioscpu.Kernel.KernelLoop

/-! # The Shutdown Law

  How the loop of the kernel comes to its end. A SHUTDOWN event may be published at any time, by
  any callback, job or other thread: the loop then begins at most one more tick, whose drain
  delivers the event, and takes no more than eight of its own steps. A call of `stop` leaves no
  further tick. And a loop that has ended was asked to, by one or the other.

  The publication reaches the loop through the bus alone, so the invariant says where the promise
  of a stop stands: in the heap, in the delivery that goes on, or in the flag.
-/

namespace KernelLoop

variable {T P C F J : Type}

/-! ### What a step can do -/

/-- What a step of the loop and all that it calls can do, with one constructor for each case. -/
inductive Step : State T P C F J → Label T P C F J → State T P C F J → Prop where
  | ends {s : State T P C F J} (hpc : s.pc = .testing) (hstop : s.stopping = true) :
      Step s .run { s with pc := .returned }
  | begins {s : State T P C F J} (hpc : s.pc = .testing) (hgo : s.stopping = false)
      (hidle : s.bus.control = .idle) :
      Step s .run
        { s with
          tick_count := s.tick_count + 1
          bus := { s.bus with control := .looping 0 }
          pc := .draining }
  | ticks {s : State T P C F J} (n : Nat) (jobs : JobQueue.OnScheduler.State T F J)
      (hpc : s.pc = .drained n) :
      Step s .run { s with jobs, pc := .ticking n }
  | marks {s : State T P C F J} (n ran : Nat) (adaptive_tick : AdaptiveTick)
      (hpc : s.pc = .ticked n ran) :
      Step s .run { s with adaptive_tick, pc := .sleeping }
  | wakes {s : State T P C F J} (now : T) (hpc : s.pc = .sleeping) :
      Step s .run { s with now, pc := .testing }
  | bus {s : State T P C F J} (l : EventBus.Label P (Callback C))
      (bus : EventBus.State P (Callback C)) (os : List (EventBus.Obs P (Callback C)))
      (hl : l ≠ .drain) (hbus : EventBus.Step s.bus l os bus) :
      Step s (.bus l)
        { s with
          bus
          stopping := s.stopping || shuts_down os
          pc := match dispatched os with
            | some count => .drained count
            | none => s.pc }
  | jobs {s : State T P C F J} (l : JobQueue.OnScheduler.Label T F J)
      (jobs : JobQueue.OnScheduler.State T F J) (pc : Pc)
      (hpc : pc = s.pc ∨ ∃ n, s.pc = .ticking n ∧ (pc = .raised ∨ ∃ ran, pc = .ticked n ran)) :
      Step s (.jobs l) { s with jobs, pc }
  | stop {s : State T P C F J} : Step s .stop { s with stopping := true }
  | passes {s : State T P C F J} (now : T) : Step s (.passes now) { s with now }

variable {s s' s₀ : State T P C F J}

/-! ### The promise of a stop -/

/-- A SHUTDOWN event is pending, or its delivery has not come to `_on_shutdown` yet. -/
def Promised (s : EventBus.State P (Callback C)) : Prop :=
  (∃ e ∈ s.bus.queue, e.event_type = "SHUTDOWN") ∨
  match s.control with
  | .delivering _ _ rest | .calling _ _ rest => .on_shutdown ∈ rest
  | _ => False

/-- `KernelLoop.__init__` has subscribed, and the bus drains just while the loop waits for it. -/
structure Standing (s : State T P C F J) : Prop where
  subscribed : .on_shutdown ∈ s.bus.bus.subscribers "SHUTDOWN"
  draining : s.pc = .draining ↔ s.bus.control ≠ .idle

/-- A step of the bus keeps the promise of a stop, or fulfils it. -/
theorem bus_promised {b b' : EventBus.State P (Callback C)} {l : EventBus.Label P (Callback C)}
    {os : List (EventBus.Obs P (Callback C))}
    (hsub : .on_shutdown ∈ b.bus.subscribers "SHUTDOWN") (hbus : EventBus.Step b l os b')
    (hp : Promised b) : Promised b' ∨ shuts_down os = true := by
  cases hbus with
  | subscribe t c hopen => exact Or.inl hp
  | publish e hopen =>
    refine Or.inl (hp.imp_left ?_)
    rintro ⟨e', he', htype⟩
    have hmem := (EventBus.publish_queue_perm b.bus e).mem_iff.mpr (List.mem_cons_of_mem e he')
    exact ⟨e', hmem, htype⟩
  | drain hidle =>
    refine Or.inl (hp.imp_right ?_)
    rw [hidle]
    exact id
  | returns n hloop hnil =>
    -- nothing is pending and nothing is being delivered
    rcases hp with ⟨e, he, -⟩ | hp
    · rw [hnil] at he
      cases he
    · rw [hloop] at hp
      exact hp.elim
  | dequeue n e q hloop hpop =>
    rcases hp with ⟨e', he', htype⟩ | hp
    · rcases List.mem_cons.mp ((Heapq.pop_eq_some Event.lt hpop).2.mem_iff.mpr he') with rfl | hq
      · -- the SHUTDOWN itself leaves the heap
        exact Or.inl (Or.inr (htype ▸ hsub))
      · exact Or.inl (Or.inl ⟨e', hq, htype⟩)
    · rw [hloop] at hp
      exact hp.elim
  | next n e hdel =>
    refine Or.inl (hp.imp_right ?_)
    rw [hdel]
    exact fun hmem => absurd hmem List.not_mem_nil
  | invoke n e c rest hdel =>
    rcases hp with hp | hp
    · exact Or.inl (Or.inl hp)
    · rw [hdel] at hp
      rcases List.mem_cons.mp hp with rfl | hmem
      · exact Or.inr rfl
      · exact Or.inl (Or.inr hmem)
  | done b n e rest hcall =>
    refine Or.inl (hp.imp_right ?_)
    rw [hcall]
    exact id

/-- What asks the loop to stop. -/
def Asks : Label T P C F J → Prop
  | .stop => True
  | .bus (.publish e) => e.event_type = "SHUTDOWN"
  | _ => False

/-- While `_on_shutdown` is subscribed to nothing else, a promise goes back to a publication. -/
theorem promised_of_bus {b b' : EventBus.State P (Callback C)}
    {l : EventBus.Label P (Callback C)} {os : List (EventBus.Obs P (Callback C))}
    (honly : ∀ t, .on_shutdown ∈ b.bus.subscribers t → t = "SHUTDOWN")
    (hbus : EventBus.Step b l os b') (hp : Promised b' ∨ shuts_down os = true) :
    Promised b ∨ Asks (.bus l : Label T P C F J) := by
  cases hbus with
  | subscribe t c hopen => exact Or.inl (hp.resolve_right Bool.false_ne_true)
  | publish e hopen =>
    rcases hp.resolve_right Bool.false_ne_true with ⟨e', he', htype⟩ | hp
    · rcases List.mem_cons.mp ((EventBus.publish_queue_perm b.bus e).mem_iff.mp he') with rfl | hmem
      · exact Or.inr htype
      · exact Or.inl (Or.inl ⟨e', hmem, htype⟩)
    · exact Or.inl (Or.inr hp)
  | drain hidle =>
    rcases hp.resolve_right Bool.false_ne_true with hp | hp
    · exact Or.inl (Or.inl hp)
    · exact hp.elim
  | returns n hloop hnil =>
    rcases hp.resolve_right Bool.false_ne_true with hp | hp
    · exact Or.inl (Or.inl hp)
    · exact hp.elim
  | dequeue n e q hloop hpop =>
    have hmem := (Heapq.pop_eq_some Event.lt hpop).2.mem_iff (a := e)
    rcases hp.resolve_right Bool.false_ne_true with ⟨e', he', htype⟩ | hp
    · have hmem' := (Heapq.pop_eq_some Event.lt hpop).2.mem_iff (a := e')
      exact Or.inl (Or.inl ⟨e', hmem'.mp (List.mem_cons_of_mem e he'), htype⟩)
    · exact Or.inl (Or.inl ⟨e, hmem.mp List.mem_cons_self, honly _ hp⟩)
  | next n e hdel =>
    rcases hp.resolve_right Bool.false_ne_true with hp | hp
    · exact Or.inl (Or.inl hp)
    · exact hp.elim
  | invoke n e c rest hdel =>
    refine Or.inl ?_
    rcases hp with (hp | hp) | hp
    · exact Or.inl hp
    · refine Or.inr ?_
      rw [hdel]
      exact List.mem_cons_of_mem c hp
    · -- the callback that sets the flag was the next of the delivery
      refine Or.inr ?_
      rw [hdel]
      cases c with
      | on_shutdown => exact List.mem_cons_self
      | other c => cases hp
  | done b n e rest hcall =>
    rcases hp.resolve_right Bool.false_ne_true with hp | hp
    · exact Or.inl (Or.inl hp)
    · refine Or.inl (Or.inr ?_)
      rw [hcall]
      exact hp

/-! ### The invariants -/

/-- A step of the bus, but for the start of a drain, goes on with the drain or ends it. -/
theorem bus_draining {b b' : EventBus.State P (Callback C)} {l : EventBus.Label P (Callback C)}
    {os : List (EventBus.Obs P (Callback C))} (hl : l ≠ .drain) (hbus : EventBus.Step b l os b') :
    (dispatched os = none ∧ (b'.control ≠ .idle ↔ b.control ≠ .idle)) ∨
      ((dispatched os).isSome ∧ b'.control = .idle ∧ ¬ Promised b') := by
  cases hbus with
  | subscribe t c hopen => exact Or.inl ⟨rfl, Iff.rfl⟩
  | publish e hopen => exact Or.inl ⟨rfl, Iff.rfl⟩
  | drain hidle => exact absurd rfl hl
  | returns n hloop hnil =>
    refine Or.inr ⟨rfl, rfl, ?_⟩
    rintro (⟨e, he, -⟩ | hp)
    · rw [hnil] at he
      cases he
    · exact hp
  | dequeue n e q hloop hpop => exact Or.inl ⟨rfl, by simp [hloop]⟩
  | next n e hdel => exact Or.inl ⟨rfl, by simp [hdel]⟩
  | invoke n e c rest hdel => exact Or.inl ⟨rfl, by simp [hdel]⟩
  | done b n e rest hcall => exact Or.inl ⟨rfl, by simp [hcall]⟩

/-- Nothing is ever unsubscribed. -/
theorem bus_subscribed {b b' : EventBus.State P (Callback C)} {l : EventBus.Label P (Callback C)}
    {os : List (EventBus.Obs P (Callback C))} (hbus : EventBus.Step b l os b') {t : String}
    {c : Callback C} (hmem : c ∈ b.bus.subscribers t) : c ∈ b'.bus.subscribers t := by
  rw [EventBus.step_subscribers hbus]
  exact List.mem_append_left _ hmem

theorem step_standing {l : Label T P C F J} (hstep : Step s l s') (h : Standing s) :
    Standing s' := by
  obtain ⟨hsub, hdrain⟩ := h
  cases hstep with
  | ends hpc hstop => exact ⟨hsub, by simpa [hpc] using hdrain⟩
  | begins hpc hgo hidle => exact ⟨hsub, by simp⟩
  | ticks n jobs hpc => exact ⟨hsub, by simpa [hpc] using hdrain⟩
  | marks n ran adaptive_tick hpc => exact ⟨hsub, by simpa [hpc] using hdrain⟩
  | wakes now hpc => exact ⟨hsub, by simpa [hpc] using hdrain⟩
  | bus l bus os hl hbus =>
    refine ⟨bus_subscribed hbus hsub, ?_⟩
    rcases bus_draining hl hbus with ⟨hnone, hiff⟩ | ⟨hsome, hidle, -⟩
    · simpa [hnone, hiff] using hdrain
    · obtain ⟨count, hcount⟩ := Option.isSome_iff_exists.mp hsome
      simp [hcount, hidle]
  | jobs l jobs pc hpc =>
    refine ⟨hsub, ?_⟩
    rcases hpc with rfl | ⟨n, hn, rfl | ⟨ran, rfl⟩⟩
    · exact hdrain
    · simpa [hn] using hdrain
    · simpa [hn] using hdrain
  | stop => exact ⟨hsub, hdrain⟩
  | passes now => exact ⟨hsub, hdrain⟩

/-- A stop has been asked for. -/
structure Ending (s : State T P C F J) : Prop where
  standing : Standing s
  asked : s.stopping = true ∨ Promised s.bus

/-- The steps of `run` itself that are left once a stop has been asked for. -/
def steps_left (s : State T P C F J) : Nat :=
  -- a drain has yet to begin, unless the flag is set
  let before := if s.stopping then 0 else 4
  match s.pc with
  | .testing => before + 1
  | .sleeping => before + 2
  | .ticked .. | .ticking _ => before + 3
  | .drained _ => before + 4
  | .draining => 4
  | .returned | .raised => 0

/-- The ticks that may yet begin once a stop has been asked for. -/
def ticks_left (s : State T P C F J) : Nat :=
  match s.pc with
  | .draining | .returned | .raised => 0
  | _ => if s.stopping then 0 else 1

/-- The steps of `run` itself. -/
def own : Label T P C F J → Bool
  | .run => true
  | _ => false

theorem step_ending {l : Label T P C F J} (hstep : Step s l s') (h : Ending s) :
    Ending s' ∧ steps_left s' + (if own l then 1 else 0) ≤ steps_left s ∧
      s'.tick_count + ticks_left s' ≤ s.tick_count + ticks_left s := by
  obtain ⟨hstanding, hasked⟩ := h
  have hstanding' := step_standing hstep hstanding
  cases hstep with
  | ends hpc hstop =>
    exact ⟨⟨hstanding', hasked⟩, by simp [steps_left, own, hpc, hstop], by simp [ticks_left]⟩
  | begins hpc hgo hidle =>
    refine ⟨⟨hstanding', ?_⟩, by simp [steps_left, own, hpc, hgo], by simp [ticks_left, hpc, hgo]⟩
    refine hasked.imp_right (Or.imp_right ?_)
    rw [hidle]
    exact id
  | ticks n jobs hpc =>
    exact ⟨⟨hstanding', hasked⟩, by simp [steps_left, own, hpc], by simp [ticks_left, hpc]⟩
  | marks n ran adaptive_tick hpc =>
    exact ⟨⟨hstanding', hasked⟩, by simp [steps_left, own, hpc], by simp [ticks_left, hpc]⟩
  | wakes now hpc =>
    exact ⟨⟨hstanding', hasked⟩, by simp [steps_left, own, hpc], by simp [ticks_left, hpc]⟩
  | bus l bus os hl hbus =>
    have hasked' : (s.stopping || shuts_down os) = true ∨ Promised bus := by
      rcases hasked with hstop | hp
      · exact Or.inl (by rw [hstop]; rfl)
      · rcases bus_promised hstanding.subscribed hbus hp with hp' | hshut
        · exact Or.inr hp'
        · exact Or.inl (by rw [hshut, Bool.or_true])
    refine ⟨⟨hstanding', hasked'⟩, ?_⟩
    rcases bus_draining hl hbus with ⟨hnone, hiff⟩ | ⟨hsome, hidle, hnot⟩
    · -- the flag may be set, and nothing else about the loop changes
      simp only [hnone, steps_left, ticks_left, own]
      cases hpc : s.pc <;> cases hs : s.stopping <;> cases shuts_down os <;> simp
    · -- the drain is over, so the promise has been kept
      have hstop : (s.stopping || shuts_down os) = true := hasked'.resolve_right hnot
      obtain ⟨count, hcount⟩ := Option.isSome_iff_exists.mp hsome
      have hpc : s.pc = .draining := by
        rw [hstanding.draining]
        intro hidle'
        cases hbus with
        | returns n hloop hnil => rw [hloop] at hidle'; cases hidle'
        | _ => cases hsome
      simp [hcount, hstop, steps_left, ticks_left, own, hpc]
  | jobs l jobs pc hpc =>
    refine ⟨⟨hstanding', hasked⟩, ?_⟩
    rcases hpc with rfl | ⟨n, hn, rfl | ⟨ran, rfl⟩⟩
    · simp [steps_left, ticks_left, own]
    · simp [steps_left, ticks_left, own, hn]
    · simp [steps_left, ticks_left, own, hn]
  | stop =>
    refine ⟨⟨hstanding', Or.inl rfl⟩, ?_⟩
    simp only [steps_left, ticks_left, own]
    cases s.pc <;> cases s.stopping <;> simp
  | passes now => exact ⟨⟨hstanding', hasked⟩, by simp [steps_left, own], by simp [ticks_left]⟩

/-! ### The law -/

theorem bus_sound {l : EventBus.Label P (Callback C)} (hbus : bus_step s l = some s') :
    Step s (.bus l) s' := by
  unfold bus_step at hbus
  split at hbus
  · cases hbus
  · next hl =>
    obtain ⟨r, hstep, rfl⟩ := Option.map_eq_some_iff.mp hbus
    exact .bus l r.1 r.2 hl (EventBus.step_sound hstep)

/-- Where the tick of the scheduler leaves the loop. -/
theorem after_tick_cases (n : Nat) (os : List (Scheduler.Obs T (JobQueue.OnScheduler.Callable J))) :
    after_tick n os = .ticking n ∨ after_tick n os = .raised ∨
      ∃ ran, after_tick n os = .ticked n ran := by
  unfold after_tick
  split
  · next ran => exact Or.inr (Or.inr ⟨ran, rfl⟩)
  · exact Or.inr (Or.inl rfl)
  · exact Or.inl rfl

variable [Clock T] [DecidableEq J]

theorem run_sound (hrun : run_step s = some s') : Step s .run s' := by
  unfold run_step at hrun
  split at hrun
  · next hpc =>
    split at hrun
    · next hstop =>
      cases hrun
      exact .ends hpc hstop
    · next hgo =>
      obtain ⟨⟨bus, os⟩, hdrain, rfl⟩ := Option.map_eq_some_iff.mp hrun
      cases EventBus.step_sound hdrain with
      | drain hidle => exact .begins hpc (by simpa using hgo) hidle
  · next n hpc =>
    obtain ⟨r, -, rfl⟩ := Option.map_eq_some_iff.mp hrun
    exact .ticks n r.1 hpc
  · next n ran hpc =>
    cases hrun
    exact .marks n ran _ hpc
  · next hpc =>
    cases hrun
    exact .wakes _ hpc
  · cases hrun

theorem jobs_sound {l : JobQueue.OnScheduler.Label T F J} (hjobs : jobs_step s l = some s') :
    Step s (.jobs l) s' := by
  unfold jobs_step at hjobs
  split at hjobs
  · split at hjobs
    · cases hjobs
    · next jobs os hstep =>
      split at hjobs
      · next n hpc =>
        cases hjobs
        refine .jobs l jobs _ ?_
        split
        · -- the call of `tick` may be over
          rcases after_tick_cases n os with heq | heq | ⟨ran, heq⟩
          · exact Or.inl (heq.trans hpc.symm)
          · exact Or.inr ⟨n, hpc, Or.inl heq⟩
          · exact Or.inr ⟨n, hpc, Or.inr ⟨ran, heq⟩⟩
        · exact Or.inl hpc.symm
      · split at hjobs
        · cases hjobs
          exact .jobs l jobs s.pc (Or.inl rfl)
        · cases hjobs
  · cases hjobs

theorem step_sound {l : Label T P C F J} {os : List Empty}
    (hstep : (machine T P C F J).step s l = some (s', os)) : Step s l s' := by
  cases l with
  | run =>
    obtain ⟨t, hrun, heq⟩ := Option.map_eq_some_iff.mp hstep
    cases heq
    exact run_sound hrun
  | bus l =>
    obtain ⟨t, hbus, heq⟩ := Option.map_eq_some_iff.mp hstep
    cases heq
    exact bus_sound hbus
  | jobs l =>
    obtain ⟨t, hjobs, heq⟩ := Option.map_eq_some_iff.mp hstep
    cases heq
    exact jobs_sound hjobs
  | stop =>
    cases hstep
    exact .stop
  | passes now =>
    simp only [machine] at hstep
    split at hstep
    · cases hstep
      exact .passes now
    · cases hstep

/-- Nobody but `__init__` subscribes `_on_shutdown`. -/
def Private : Label T P C F J → Prop
  | .bus (.subscribe _ c) => c ≠ .on_shutdown
  | _ => True

/-- A loop that stops or is about to has been asked. -/
structure Accounted (ls : List (Label T P C F J)) (s : State T P C F J) : Prop where
  only : ∀ t, .on_shutdown ∈ s.bus.bus.subscribers t → t = "SHUTDOWN"
  returned : s.pc = .returned → s.stopping = true
  asked : s.stopping = true ∨ Promised s.bus → ∃ l ∈ ls, Asks l

omit [Clock T] [DecidableEq J] in
theorem step_accounted {l : Label T P C F J} {ls : List (Label T P C F J)} (hstep : Step s l s')
    (hpriv : Private l) (h : Accounted ls s) : Accounted (ls ++ [l]) s' := by
  obtain ⟨honly, hret, hasked⟩ := h
  have hmore : (∃ l ∈ ls, Asks l) → ∃ l' ∈ ls ++ [l], Asks l' := fun ⟨l', hl', h⟩ =>
    ⟨l', List.mem_append_left _ hl', h⟩
  cases hstep with
  | ends hpc hstop => exact ⟨honly, fun _ => hstop, fun h => hmore (hasked h)⟩
  | begins hpc hgo hidle =>
    exact ⟨honly, by simp, fun h => hmore (hasked (h.imp_right (Or.imp_right False.elim)))⟩
  | ticks n jobs hpc => exact ⟨honly, by simp, fun h => hmore (hasked h)⟩
  | marks n ran adaptive_tick hpc => exact ⟨honly, by simp, fun h => hmore (hasked h)⟩
  | wakes now hpc => exact ⟨honly, by simp, fun h => hmore (hasked h)⟩
  | bus l bus os hl hbus =>
    refine ⟨?_, ?_, ?_⟩
    · intro t hmem
      rw [EventBus.step_subscribers hbus] at hmem
      rcases List.mem_append.mp hmem with hmem | hmem
      · exact honly t hmem
      · -- a subscription of another callback
        obtain ⟨l', hl', hsome⟩ := List.mem_filterMap.mp hmem
        obtain rfl := List.mem_singleton.mp hl'
        cases l' with
        | subscribe t' c =>
          obtain ⟨-, heq⟩ : t' = t ∧ c = .on_shutdown := by simpa using hsome
          exact absurd heq hpriv
        | _ => cases hsome
    · intro hpc
      have hstop : s.stopping = true := by
        refine hret ?_
        cases hd : dispatched os with
        | none => simpa [hd] using hpc
        | some count => simp [hd] at hpc
      rw [hstop]
      rfl
    · intro h
      by_cases hstop : s.stopping = true
      · exact hmore (hasked (Or.inl hstop))
      · have hp : Promised bus ∨ shuts_down os = true := by
          rcases h with h | h
          · simp only [hstop, Bool.false_or] at h
            exact Or.inr h
          · exact Or.inl h
        rcases promised_of_bus (T := T) (F := F) (J := J) honly hbus hp with hp | hasks
        · exact hmore (hasked (Or.inr hp))
        · exact ⟨_, List.mem_append_right _ (List.mem_singleton_self _), hasks⟩
  | jobs l jobs pc hpc =>
    refine ⟨honly, ?_, fun h => hmore (hasked h)⟩
    -- the loop stays in its tick, or the tick raises, or it ends
    rcases hpc with rfl | ⟨n, hn, rfl | ⟨ran, rfl⟩⟩
    · exact hret
    · simp
    · simp
  | stop =>
    exact ⟨honly, fun _ => rfl,
      fun _ => ⟨.stop, List.mem_append_right _ (List.mem_singleton_self _), trivial⟩⟩
  | passes now => exact ⟨honly, hret, fun h => hmore (hasked h)⟩

/-- How a run of the loop comes to its end. -/
structure Ends (s₀ : State T P C F J) (ls : List (Label T P C F J)) (s : State T P C F J) :
    Prop where
  /-- After a SHUTDOWN is published no more than one tick begins, and the loop goes on for no
      more than eight of its own steps. -/
  shutdown : ∀ pre e post s₁ tr₁, ls = pre ++ .bus (.publish e) :: post →
    e.event_type = "SHUTDOWN" →
    (machine T P C F J).run s₀ (pre ++ [.bus (.publish e)]) = some (s₁, tr₁) →
    s.tick_count ≤ s₁.tick_count + 1 ∧ post.countP own ≤ 8
  /-- After a call of `stop` no tick begins. -/
  stop : ∀ pre post s₁ tr₁, ls = pre ++ .stop :: post →
    (machine T P C F J).run s₀ (pre ++ [.stop]) = some (s₁, tr₁) →
    s.tick_count ≤ s₁.tick_count ∧ post.countP own ≤ 4
  /-- A loop that has returned was asked to. -/
  asked : (∀ l ∈ ls, Private l) → s.pc = .returned → ∃ l ∈ ls, Asks l

omit [Clock T] [DecidableEq J] in
theorem init_standing (tick_interval_ms : Int) (adaptive : Bool) (max_tick_interval_ms : Int)
    (jobs : JobQueue.OnScheduler.State T F J) (now : T) :
    Standing (init tick_interval_ms adaptive max_tick_interval_ms jobs now : State T P C F J) :=
  ⟨List.mem_singleton_self _, by simp [init]⟩

theorem run_standing {ls : List (Label T P C F J)} {tr : List Empty} (h : Standing s₀)
    (hrun : (machine T P C F J).run s₀ ls = some (s, tr)) : Standing s :=
  (machine T P C F J).run_invariant h (fun _ _ _ _ h hs => step_standing (step_sound hs) h) hrun

/-- What is left once a stop has been asked for is an upper bound for what a run still does. -/
theorem run_ending {ls : List (Label T P C F J)} {tr : List Empty} (h : Ending s₀)
    (hrun : (machine T P C F J).run s₀ ls = some (s, tr)) :
    ls.countP own ≤ steps_left s₀ ∧ s.tick_count ≤ s₀.tick_count + ticks_left s₀ := by
  have hsteps := (machine T P C F J).countP_le_rank (I := Ending) own steps_left
    (fun s l s' os h hs => ⟨(step_ending (step_sound hs) h).1, (step_ending (step_sound hs) h).2.1⟩)
    h hrun
  have hticks : Ending s ∧ s.tick_count + ticks_left s ≤ s₀.tick_count + ticks_left s₀ := by
    refine (machine T P C F J).run_invariant
      (I := fun s => Ending s ∧ s.tick_count + ticks_left s ≤ s₀.tick_count + ticks_left s₀)
      ⟨h, le_refl _⟩ ?_ hrun
    intro t l t' os ht hs
    have hstep := step_ending (step_sound hs) ht.1
    exact ⟨hstep.1, hstep.2.2.trans ht.2⟩
  exact ⟨by omega, by omega⟩

omit [Clock T] [DecidableEq J] in
theorem steps_left_le (s : State T P C F J) : steps_left s ≤ 8 := by
  unfold steps_left
  cases s.pc <;> cases s.stopping <;> simp

omit [Clock T] [DecidableEq J] in
theorem ticks_left_le (s : State T P C F J) : ticks_left s ≤ 1 := by
  unfold ticks_left
  cases s.pc <;> cases s.stopping <;> simp

omit [Clock T] [DecidableEq J] in
theorem steps_left_le_of_stopping (h : s.stopping = true) : steps_left s ≤ 4 := by
  unfold steps_left
  rw [h]
  cases s.pc <;> simp

omit [Clock T] [DecidableEq J] in
theorem ticks_left_of_stopping (h : s.stopping = true) : ticks_left s = 0 := by
  unfold ticks_left
  rw [h]
  cases s.pc <;> rfl

/-- After a SHUTDOWN is published it is in the heap. -/
theorem promised_of_publish {e : Event P} {pre : List (Label T P C F J)} {tr : List Empty}
    (htype : e.event_type = "SHUTDOWN")
    (hrun : (machine T P C F J).run s₀ (pre ++ [.bus (.publish e)]) = some (s, tr)) :
    Promised s.bus := by
  obtain ⟨t, tr₁, os, -, hstep, -⟩ := (machine T P C F J).run_snoc_iff.mp hrun
  cases step_sound hstep with
  | bus l bus os' hl hbus =>
    cases hbus with
    | publish e hopen =>
      exact Or.inl ⟨e, (EventBus.publish_queue_perm t.bus.bus e).mem_iff.mpr
        List.mem_cons_self, htype⟩

theorem stopping_of_stop {pre : List (Label T P C F J)} {tr : List Empty}
    (hrun : (machine T P C F J).run s₀ (pre ++ [.stop]) = some (s, tr)) : s.stopping = true := by
  obtain ⟨t, tr₁, os, -, hstep, -⟩ := (machine T P C F J).run_snoc_iff.mp hrun
  cases hstep
  rfl

/-- A SHUTDOWN before the first tick, and that tick. -/
def exiting : List (Label ℚ Unit Unit Unit Unit) :=
  [.bus (.publish ⟨"SHUTDOWN", (), 0, "shell", 1⟩), .run, .bus .advance, .bus .advance,
    .bus (.done false), .bus .advance, .bus .advance, .run, .jobs (.sched (.clock 0) 0 0),
    .jobs (.sched .advance 0 0), .run, .run, .run]

end KernelLoop
