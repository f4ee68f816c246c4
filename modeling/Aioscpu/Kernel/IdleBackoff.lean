import Aioscpu.Kernel.IntervalLaw
import Mathlib.Algebra.Order.Archimedean.Basic
import Mathlib.Algebra.Order.Floor.Div
import Mathlib.Data.Nat.Log

/-! # Back-off of an Idle Kernel

  An idle loop doubles its interval up to the maximum. The job queue has its
  `_drain_one` called every 100 ms, and the scheduler counts each call as
  something it ran, also when the queue is empty, so the loop is not idle then.
-/

namespace KernelLoop

variable {P C F J : Type} [DecidableEq J]

/-! ### The idle kernel -/

/-- The queue and the scheduler after `JobQueue.start`. -/
def started (event_bus : Bool) (start : ℚ) : JobQueue.OnScheduler.State ℚ F J :=
  let r := (JobQueue.init event_bus true : JobQueue ℚ F).start
  ⟨⟨r.1, none⟩, ⟨JobQueue.OnScheduler.register .init start r.2, []⟩⟩

theorem started_run (event_bus : Bool) (start : ℚ) :
    (JobQueue.OnScheduler.machine ℚ F J).run (.init event_bus true) [.start start] =
      some (started event_bus start, []) := rfl

/-- The loop and what it calls go on, and no other code does anything. No time
    passes but in the sleep of the loop. -/
def Idle : Label ℚ P C F J → Prop
  | .run => True
  | .bus .advance => True
  | .jobs (.sched (.clock _) _ _) => True
  | .jobs (.sched .advance _ _) => True
  | .jobs (.sched (.done _) _ _) => True
  | _ => False

/-- The number of doublings that lead from `b` to `m`: `ceil(log2(m / b))`. -/
def doublings (b m : Nat) : Nat := Nat.clog 2 (m ⌈/⌉ b)

theorem doublings_le_iff {b m : Nat} (hb : 1 ≤ b) (k : Nat) :
    doublings b m ≤ k ↔ m ≤ b * 2 ^ k := by
  unfold doublings
  rw [Nat.clog_le_iff_le_pow Nat.one_lt_two, ceilDiv_le_iff_le_mul hb]

/-- A loop with base `b` and maximum `m`, before its first tick at `first`, over a
    queue that was started at `start`. -/
def assembled (b m : Nat) (event_bus : Bool) (start first : ℚ) : State ℚ P C F J :=
  init b true m (started event_bus start) first

/-- From tick number `4 + ceil(log2(m / b))` on the interval is `m`. -/
def SlowsDown (b m : Nat) (s₀ : State ℚ P C F J) : Prop :=
  ∀ ls s tr, (machine ℚ P C F J).run s₀ ls = some (s, tr) → (∀ l ∈ ls, Idle l) →
    s.pc = .sleeping → 4 + doublings b m ≤ s.tick_count → s.adaptive_tick.interval_ms = m

/-! ### One tick -/

/-- Before a tick, with `_drain_one` due at `next` and nothing else to do. -/
def resting (adaptive_tick : AdaptiveTick) (tick_count : Nat)
    (subscribers : String → List (Callback C)) (jq : JobQueue ℚ F) (task_counter : Nat)
    (next now : ℚ) : State ℚ P C F J where
  adaptive_tick := adaptive_tick
  stopping := false
  tick_count := tick_count
  pc := .testing
  bus := ⟨⟨subscribers, []⟩, .idle⟩
  jobs := ⟨⟨jq, none⟩, ⟨⟨[], [⟨next, 100, .drain_one⟩], task_counter⟩, []⟩⟩
  now := now

/-- Inside the `tick` of the scheduler, at the test of its loop. -/
def looping (adaptive_tick : AdaptiveTick) (tick_count : Nat)
    (subscribers : String → List (Callback C)) (jq : JobQueue ℚ F) (task_counter : Nat)
    (next now : ℚ) (ran : Nat) : State ℚ P C F J where
  adaptive_tick := adaptive_tick
  stopping := false
  tick_count := tick_count
  pc := .ticking 0
  bus := ⟨⟨subscribers, []⟩, .idle⟩
  jobs := ⟨⟨jq, none⟩, ⟨⟨[], [⟨next, 100, .drain_one⟩], task_counter⟩, [.at_loop ran now]⟩⟩
  now := now

variable {adaptive_tick : AdaptiveTick} {tick_count task_counter : Nat}
  {subscribers : String → List (Callback C)} {jq : JobQueue ℚ F} {next now : ℚ} {ran : Nat}

/-- A tick finds no event and no task. -/
theorem tick_begins :
    (machine ℚ P C F J).run (resting adaptive_tick tick_count subscribers jq task_counter next now)
      [.run, .bus .advance, .run, .jobs (.sched (.clock now) now now)] =
      some (looping adaptive_tick (tick_count + 1) subscribers jq task_counter next now 0, []) := by
  simp [machine, Machine.run, run_step, resting, looping, EventBus.machine, bus_step,
    EventBus.advance, jobs_step, JobQueue.OnScheduler.machine, Scheduler.machine, Scheduler.tick,
    dispatched, readings, JobQueue.OnScheduler.foreign, Scheduler.State.open, shuts_down,
    JobQueue.OnScheduler.begin_drain, after_tick]

/-- The tick ends when `_drain_one` is not due. -/
theorem tick_ends (hnext : now < next) :
    (machine ℚ P C F J).run
        (looping adaptive_tick tick_count subscribers jq task_counter next now ran)
      [.jobs (.sched .advance now now), .run] =
      some ({ (resting (if ran ≠ 0 then adaptive_tick.mark_busy else adaptive_tick.mark_idle)
        tick_count subscribers jq task_counter next now : State ℚ P C F J) with
          pc := .sleeping }, []) := by
  have hdue : ¬ next ≤ now := not_le.mpr hnext
  simp [machine, Machine.run, run_step, resting, looping, jobs_step, JobQueue.OnScheduler.machine,
    Scheduler.machine, readings, JobQueue.OnScheduler.foreign, Scheduler.advance, hdue,
    JobQueue.OnScheduler.begin_drain, after_tick]

/-- `_drain_one` is taken from the heap. -/
theorem advance_due (hnext : next ≤ now) :
    Scheduler.advance (⟨[], [⟨next, 100, .drain_one⟩], task_counter⟩ :
        Scheduler ℚ (JobQueue.OnScheduler.Callable J)) [] ran now =
      (⟨⟨[], [], task_counter⟩, [.in_job ran now ⟨next, 100, .drain_one⟩]⟩,
        [.job_started ⟨next, 100, .drain_one⟩ now]) := by
  unfold Scheduler.advance
  simp only [hnext, if_true]
  rfl

/-- The empty queue has nothing to drain, and that counts as something that ran. -/
theorem drain_runs (hnext : next ≤ now) (hrunning : jq.running = true) (hqueue : jq.queue = []) :
    (machine ℚ P C F J).run
        (looping adaptive_tick tick_count subscribers jq task_counter next now ran)
      [.jobs (.sched .advance now now), .jobs (.sched (.done false) now now)] =
      some (looping adaptive_tick tick_count subscribers jq task_counter
        (now + Clock.ofMillis 100) now (ran + 1), []) := by
  have hdrain : jq.drain_one now now = (⟨jq, none⟩, []) := by
    simp [JobQueue.drain_one, hrunning, hqueue]
  have hpush : Scheduler.job_done (⟨[], [], task_counter⟩ :
      Scheduler ℚ (JobQueue.OnScheduler.Callable J)) [] ran now ⟨next, 100, .drain_one⟩ false =
      (⟨⟨[], [⟨now + Clock.ofMillis 100, 100, .drain_one⟩], task_counter⟩,
        [.at_loop (ran + 1) now]⟩, []) := rfl
  simp [machine, Machine.run, looping, jobs_step, JobQueue.OnScheduler.machine,
    Scheduler.machine, readings, JobQueue.OnScheduler.foreign, advance_due hnext, hdrain, hpush,
    JobQueue.OnScheduler.begin_drain, after_tick, JobQueue.machine,
    JobQueue.OnScheduler.draining]

/-! ### Many ticks -/

/-- The idle kernel gets from one state to the other. -/
def Reaches (s t : State ℚ P C F J) : Prop :=
  ∃ ls tr, (machine ℚ P C F J).run s ls = some (t, tr) ∧ ∀ l ∈ ls, Idle l

theorem Reaches.trans {s t u : State ℚ P C F J} (h : Reaches s t) (h' : Reaches t u) :
    Reaches s u := by
  obtain ⟨ls, tr, hrun, hidle⟩ := h
  obtain ⟨ls', tr', hrun', hidle'⟩ := h'
  refine ⟨ls ++ ls', tr ++ tr', ?_, fun l hl => ?_⟩
  · exact (machine ℚ P C F J).run_append_iff.mpr ⟨t, tr, tr', hrun, hrun', rfl⟩
  · exact (List.mem_append.mp hl).elim (hidle l) (hidle' l)

/-- After a tick, in the sleep of the loop. -/
def rested (adaptive_tick : AdaptiveTick) (tick_count : Nat)
    (subscribers : String → List (Callback C)) (jq : JobQueue ℚ F) (task_counter : Nat)
    (next now : ℚ) : State ℚ P C F J :=
  { (resting adaptive_tick tick_count subscribers jq task_counter next now : State ℚ P C F J) with
    pc := .sleeping }

theorem rested_reaches :
    Reaches (rested adaptive_tick tick_count subscribers jq task_counter next now :
        State ℚ P C F J)
      (resting adaptive_tick tick_count subscribers jq task_counter next
        (now + Clock.ofMillis adaptive_tick.interval_ms)) :=
  ⟨[.run], [], rfl, by simp [Idle]⟩

/-- A tick without `_drain_one` is idle. -/
theorem reaches_idle (hnext : now < next) :
    Reaches (resting adaptive_tick tick_count subscribers jq task_counter next now :
        State ℚ P C F J)
      (rested adaptive_tick.mark_idle (tick_count + 1) subscribers jq task_counter next now) := by
  have hbegins : Reaches (resting adaptive_tick tick_count subscribers jq task_counter next now :
      State ℚ P C F J) _ := ⟨_, _, tick_begins, by simp [Idle]⟩
  exact hbegins.trans ⟨_, _, tick_ends hnext, by simp [Idle]⟩

/-- A tick with `_drain_one` is busy. -/
theorem reaches_busy (hnext : next ≤ now) (hrunning : jq.running = true)
    (hqueue : jq.queue = []) :
    Reaches (resting adaptive_tick tick_count subscribers jq task_counter next now :
        State ℚ P C F J)
      (rested adaptive_tick.mark_busy (tick_count + 1) subscribers jq task_counter
        (now + Clock.ofMillis 100) now) := by
  have hlater : now < now + Clock.ofMillis 100 := by
    show now < now + 100 / 1000
    norm_num
  have hbegins : Reaches (resting adaptive_tick tick_count subscribers jq task_counter next now :
      State ℚ P C F J) _ := ⟨_, _, tick_begins, by simp [Idle]⟩
  have hdrains := hbegins.trans ⟨_, _, drain_runs hnext hrunning hqueue, by simp [Idle]⟩
  exact hdrains.trans ⟨_, _, tick_ends hlater, by simp [Idle]⟩

/-- The interval stays between the base and the maximum. -/
structure Between (b m : Nat) (a : AdaptiveTick) : Prop where
  base : a.base = b
  max : a.max = m
  factor : a.factor = 2
  lower : b ≤ a.current
  upper : a.current ≤ m

theorem Between.mark_busy {b m : Nat} {a : AdaptiveTick}
    (h : Between b m a) (hbm : b ≤ m) : Between b m a.mark_busy where
  base := h.base
  max := h.max
  factor := h.factor
  lower := h.base.ge
  upper := by
    show a.base ≤ m
    rw [h.base]
    exact_mod_cast hbm

theorem Between.mark_idle {b m : Nat} {a : AdaptiveTick}
    (h : Between b m a) (hbm : b ≤ m) : Between b m a.mark_idle where
  base := h.base
  max := h.max
  factor := h.factor
  lower := by
    have := h.lower
    show (b : Int) ≤ if _ then min (a.current * a.factor) a.max else a.current
    rw [h.factor, h.max]
    split
    · exact le_min (by omega) (Int.ofNat_le.mpr hbm)
    · exact this
  upper := by
    have := h.upper
    show (if _ then min (a.current * a.factor) a.max else a.current) ≤ (m : Int)
    rw [h.max]
    split
    · exact min_le_right _ _
    · exact this

variable (tick_count task_counter subscribers) in
/-- However long it takes, `_drain_one` comes, and the interval is the base again. -/
theorem reaches_base {b m : Nat} (hb : 1 ≤ b) (hbm : b ≤ m) (hrunning : jq.running = true)
    (hqueue : jq.queue = []) (k : Nat) (hdue : next ≤ now + k / 1000)
    (hbetween : Between b m adaptive_tick) :
    ∃ (a : AdaptiveTick) (n : Nat) (next' now' : ℚ), tick_count < n ∧ a.current = (b : Int) ∧
      Between b m a ∧
      Reaches (resting adaptive_tick tick_count subscribers jq task_counter next now :
        State ℚ P C F J) (rested a n subscribers jq task_counter next' now') := by
  induction k generalizing adaptive_tick tick_count now with
  | zero =>
    have hnext : next ≤ now := by simpa using hdue
    exact ⟨_, _, _, _, Nat.lt_succ_self _, hbetween.base, hbetween.mark_busy hbm,
      reaches_busy hnext hrunning hqueue⟩
  | succ k ih =>
    by_cases hnext : next ≤ now
    · exact ⟨_, _, _, _, Nat.lt_succ_self _, hbetween.base, hbetween.mark_busy hbm,
        reaches_busy hnext hrunning hqueue⟩
    · have hidle := hbetween.mark_idle hbm
      -- the sleep takes a millisecond at least
      have hsleep : (1 : ℚ) ≤ (adaptive_tick.mark_idle.interval_ms : ℚ) := by
        have hlower := hidle.lower
        have : (1 : Int) ≤ adaptive_tick.mark_idle.current := by omega
        exact_mod_cast this
      have hdue' : next ≤ now + Clock.ofMillis adaptive_tick.mark_idle.interval_ms + k / 1000 := by
        show next ≤ now + (adaptive_tick.mark_idle.interval_ms : ℚ) / 1000 + k / 1000
        push_cast at hdue
        linarith
      obtain ⟨a, n, next', now', hn, hbase, hbetween', hreaches⟩ := ih _ hdue' hidle
      exact ⟨a, n, next', now', (Nat.lt_succ_self _).trans hn, hbase, hbetween',
        ((reaches_idle (not_le.mp hnext)).trans rested_reaches).trans hreaches⟩

/-- A step keeps the interval, or ends a tick. -/
theorem step_between {b m : Nat} (hbm : b ≤ m) {s s' : State ℚ P C F J} {l : Label ℚ P C F J}
    {os : List Empty} (hbetween : Between b m s.adaptive_tick)
    (hstep : (machine ℚ P C F J).step s l = some (s', os)) : Between b m s'.adaptive_tick := by
  rw [step_adaptive_tick hstep]
  cases tick? s l with
  | none => exact hbetween
  | some t =>
    cases t with
    | busy => exact hbetween.mark_busy hbm
    | idle => exact hbetween.mark_idle hbm

/-! ### When the idle kernel slows down -/

theorem init_between {b m : Nat} (hbm : b ≤ m) :
    Between b m (.init b m AdaptiveTick.IDLE_BACKOFF_FACTOR) :=
  ⟨rfl, rfl, rfl, le_refl _, Int.ofNat_le.mpr hbm⟩

/-- The idle kernel comes to the base interval after any number of ticks. -/
theorem reaches_base_late {b m : Nat} (hb : 1 ≤ b) (hbm : b ≤ m) (event_bus : Bool)
    (start first : ℚ) (N : Nat) :
    ∃ s : State ℚ P C F J, Reaches (assembled b m event_bus start first) s ∧ s.pc = .sleeping ∧
      N ≤ s.tick_count ∧ s.adaptive_tick.interval_ms = b := by
  -- the job is due after finitely many milliseconds
  have hms : ∀ next now : ℚ, ∃ k : Nat, next ≤ now + k / 1000 := by
    intro next now
    obtain ⟨k, hk⟩ := exists_nat_ge ((next - now) * 1000)
    exact ⟨k, by linarith⟩
  let jq : JobQueue ℚ F := (JobQueue.init event_bus true).start.1
  have hrunning : jq.running = true := rfl
  have hqueue : jq.queue = [] := rfl
  let subscribers : String → List (Callback C) :=
    (EventBus.init.subscribe "SHUTDOWN" .on_shutdown : EventBus P (Callback C)).subscribers
  -- after each fall to the base the kernel comes to the next one
  suffices h : ∃ (a : AdaptiveTick) (n : Nat) (next now : ℚ), N ≤ n ∧ a.current = (b : Int) ∧
      Between b m a ∧ Reaches (assembled b m event_bus start first : State ℚ P C F J)
        (rested a n subscribers jq 0 next now) by
    obtain ⟨a, n, next, now, hn, hbase, -, hreaches⟩ := h
    exact ⟨_, hreaches, rfl, hn, hbase⟩
  induction N with
  | zero =>
    obtain ⟨k, hk⟩ := hms (start + Clock.ofMillis 100) first
    obtain ⟨a, n, next, now, -, hbase, hbetween, hreaches⟩ :=
      reaches_base (P := P) (J := J) 0 0 subscribers hb hbm hrunning hqueue k hk (init_between hbm)
    exact ⟨a, n, next, now, Nat.zero_le n, hbase, hbetween, hreaches⟩
  | succ N ih =>
    obtain ⟨a, n, next, now, hn, -, hbetween, hreaches⟩ := ih
    obtain ⟨k, hk⟩ := hms next (now + Clock.ofMillis a.interval_ms)
    obtain ⟨a', n', next', now', hn', hbase, hbetween', hreaches'⟩ :=
      reaches_base (P := P) (J := J) n 0 subscribers hb hbm hrunning hqueue k hk hbetween
    exact ⟨a', n', next', now', by omega, hbase, hbetween',
      (hreaches.trans rested_reaches).trans hreaches'⟩

/-- **The idle kernel slows down to its maximum interval if and only if** that is
    its base interval: `_drain_one` makes it busy again and again. -/
theorem slows_down_iff {b m : Nat} (hb : 1 ≤ b) (hbm : b ≤ m) (event_bus : Bool)
    (start first : ℚ) :
    SlowsDown b m (assembled b m event_bus start first : State ℚ P C F J) ↔ b = m := by
  constructor
  · intro hslows
    obtain ⟨s, ⟨ls, tr, hrun, hidle⟩, hpc, hcount, hbase⟩ :=
      reaches_base_late (P := P) (C := C) (F := F) (J := J) hb hbm event_bus start first
        (4 + doublings b m)
    have hmax := hslows ls s tr hrun hidle hpc hcount
    exact Int.ofNat_inj.mp (hbase.symm.trans hmax)
  · rintro rfl ls s tr hrun - - -
    have hbetween : Between b b s.adaptive_tick :=
      (machine ℚ P C F J).run_invariant (I := fun s => Between b b s.adaptive_tick)
        (init_between hbm) (fun s l s' os h hstep => step_between hbm h hstep) hrun
    exact le_antisymm hbetween.upper hbetween.lower

/-- With the maximum as its base the interval never changes. -/
theorem slows_down_iff_constant :
    SlowsDown 100 100 (assembled 100 100 true 0 0 : State ℚ Unit Unit Unit Unit) :=
  (slows_down_iff (by decide) (by decide) true 0 0).mpr rfl

/-- The intervals of the desktop: 16 ms, and one second when idle. -/
theorem stays_awake :
    ¬ SlowsDown 16 1000 (assembled 16 1000 true 0 0 : State ℚ Unit Unit Unit Unit) := by
  intro hslows
  obtain ⟨s, ⟨ls, tr, hrun, hidle⟩, hpc, hcount, hbase⟩ :=
    reaches_base_late (P := Unit) (C := Unit) (F := Unit) (J := Unit) (b := 16) (m := 1000)
      (by decide) (by decide) true 0 0 (4 + doublings 16 1000)
  have hmax := hslows ls s tr hrun hidle hpc hcount
  rw [hbase] at hmax
  cases hmax

/-! ### Without the job queue -/

/-- The adaptive tick after `k` idle ticks. -/
def idle_after (b m k : Nat) : AdaptiveTick :=
  AdaptiveTick.mark_idle^[k] (.init b m AdaptiveTick.IDLE_BACKOFF_FACTOR)

theorem idle_after_succ (b m k : Nat) : idle_after b m (k + 1) = (idle_after b m k).mark_idle :=
  Function.iterate_succ_apply' _ _ _

/-- The interval is kept for three ticks, and doubles up to the maximum from then on. -/
theorem idle_after_eq {b m : Nat} (hbm : b ≤ m) (k : Nat) :
    idle_after b m k =
      { base := b, max := m, factor := 2, current := (min (b * 2 ^ (k - 3)) m : Nat),
        idle_ticks := k } := by
  induction k with
  | zero => simp [idle_after, AdaptiveTick.init, AdaptiveTick.IDLE_BACKOFF_FACTOR, hbm]
  | succ k ih =>
    rw [idle_after_succ, ih]
    unfold AdaptiveTick.mark_idle
    dsimp only
    congr 1
    split
    · next hgrace =>
      have hk : k + 1 - 3 = (k - 3) + 1 := by omega
      -- the minimum is taken after every doubling, or once at the end
      have hmin : min (min (b * 2 ^ (k - 3)) m * 2) m = min (b * 2 ^ (k - 3) * 2) m := by
        generalize b * 2 ^ (k - 3) = x
        rcases Nat.le_total x m with h | h
        · rw [Nat.min_eq_left h]
        · rw [Nat.min_eq_right h, Nat.min_eq_right (by omega), Nat.min_eq_right (by omega)]
      rw [hk, Nat.pow_succ, ← Nat.mul_assoc]
      exact_mod_cast hmin
    · next hgrace =>
      have hk : k + 1 - 3 = k - 3 := by omega
      rw [hk]

/-- Where the ticks of an idle kernel stand if the job heap is empty. -/
def Unemployed (b m : Nat) (s : State ℚ P C F J) : Prop :=
  s.bus.bus.queue = [] ∧ s.jobs.sched.sched.task_queue = [] ∧ s.jobs.sched.sched.job_queue = [] ∧
  match s.pc with
  | .testing | .sleeping | .returned =>
    s.bus.control = .idle ∧ s.jobs.sched.frames = [] ∧
      s.adaptive_tick = idle_after b m s.tick_count
  | .draining =>
    s.bus.control = .looping 0 ∧ s.jobs.sched.frames = [] ∧
      ∃ k, s.tick_count = k + 1 ∧ s.adaptive_tick = idle_after b m k
  | .drained n =>
    n = 0 ∧ s.bus.control = .idle ∧ s.jobs.sched.frames = [] ∧
      ∃ k, s.tick_count = k + 1 ∧ s.adaptive_tick = idle_after b m k
  | .ticking n =>
    n = 0 ∧ s.bus.control = .idle ∧
      (s.jobs.sched.frames = [.at_clock 0] ∨ ∃ t, s.jobs.sched.frames = [.at_loop 0 t]) ∧
      ∃ k, s.tick_count = k + 1 ∧ s.adaptive_tick = idle_after b m k
  | .ticked n ran =>
    n = 0 ∧ ran = 0 ∧ s.bus.control = .idle ∧ s.jobs.sched.frames = [] ∧
      ∃ k, s.tick_count = k + 1 ∧ s.adaptive_tick = idle_after b m k
  | .raised => False

theorem run_unemployed {b m : Nat} {s s' : State ℚ P C F J} (hinv : Unemployed b m s)
    (hstep : run_step s = some s') : Unemployed b m s' := by
  obtain ⟨adaptive, stopping, count, pc, ⟨⟨subs, queue⟩, control⟩, ⟨jq, ⟨⟨tasks, jobs, c⟩, frames⟩⟩,
    now⟩ := s
  obtain ⟨rfl, rfl, rfl, hpc⟩ := hinv
  cases pc with
  | testing =>
    obtain ⟨rfl, rfl, hadaptive⟩ := hpc
    unfold run_step at hstep
    dsimp only at hstep
    split at hstep
    · cases hstep
      exact ⟨rfl, rfl, rfl, rfl, rfl, hadaptive⟩
    · cases hstep
      exact ⟨rfl, rfl, rfl, rfl, rfl, count, rfl, hadaptive⟩
  | drained n =>
    obtain ⟨rfl, rfl, rfl, hk⟩ := hpc
    cases hstep
    exact ⟨rfl, rfl, rfl, rfl, rfl, Or.inl rfl, hk⟩
  | ticked n ran =>
    obtain ⟨rfl, rfl, rfl, rfl, k, hcount, hadaptive⟩ := hpc
    cases hstep
    refine ⟨rfl, rfl, rfl, rfl, rfl, ?_⟩
    show adaptive.mark_idle = idle_after b m count
    rw [show adaptive = _ from hadaptive, show count = _ from hcount, idle_after_succ]
  | sleeping =>
    obtain ⟨rfl, rfl, hadaptive⟩ := hpc
    cases hstep
    exact ⟨rfl, rfl, rfl, rfl, rfl, hadaptive⟩
  | draining => cases hstep
  | ticking n => cases hstep
  | returned => cases hstep
  | raised => cases hstep

omit [DecidableEq J] in
theorem bus_unemployed {b m : Nat} {s s' : State ℚ P C F J} (hinv : Unemployed b m s)
    (hstep : bus_step s .advance = some s') : Unemployed b m s' := by
  obtain ⟨adaptive, stopping, count, pc, ⟨⟨subs, queue⟩, control⟩, ⟨jq, ⟨⟨tasks, jobs, c⟩, frames⟩⟩,
    now⟩ := s
  obtain ⟨rfl, rfl, rfl, hpc⟩ := hinv
  cases pc with
  | draining =>
    obtain ⟨rfl, rfl, hk⟩ := hpc
    cases hstep
    exact ⟨rfl, rfl, rfl, rfl, rfl, rfl, hk⟩
  | testing => obtain ⟨rfl, -⟩ := hpc; cases hstep
  | drained n => obtain ⟨-, rfl, -⟩ := hpc; cases hstep
  | ticking n => obtain ⟨-, rfl, -⟩ := hpc; cases hstep
  | ticked n ran => obtain ⟨-, -, rfl, -⟩ := hpc; cases hstep
  | sleeping => obtain ⟨rfl, -⟩ := hpc; cases hstep
  | returned => obtain ⟨rfl, -⟩ := hpc; cases hstep
  | raised => exact hpc.elim

/-- The loop does nothing that the queue and the scheduler do not do. -/
theorem jobs_step_of_none {s : State ℚ P C F J} {l : JobQueue.OnScheduler.Label ℚ F J}
    (hnone : (JobQueue.OnScheduler.machine ℚ F J).step s.jobs l = none) :
    jobs_step s l = none := by
  unfold jobs_step
  rw [hnone]
  exact ite_self none

/-- Outside its tick the scheduler stands still. -/
theorem jobs_standing {s : State ℚ P C F J} {l : JobQueue.OnScheduler.Label ℚ F J}
    (hframes : s.jobs.sched.frames = []) (hidle : Idle (.jobs l : Label ℚ P C F J)) :
    jobs_step s l = none := by
  refine jobs_step_of_none ?_
  obtain ⟨adaptive, stopping, count, pc, bus, ⟨jq, ⟨sched, frames⟩⟩, now⟩ := s
  obtain rfl : frames = [] := hframes
  cases l with
  | sched l t t0 =>
    cases l with
    | clock now => rfl
    | advance => rfl
    | done raised => rfl
    | _ => exact hidle.elim
  | _ => exact hidle.elim

/-- A tick of the scheduler finds nothing to run. -/
theorem jobs_unemployed {b m : Nat} {s s' : State ℚ P C F J}
    {l : JobQueue.OnScheduler.Label ℚ F J} (hinv : Unemployed b m s)
    (hidle : Idle (.jobs l : Label ℚ P C F J)) (hstep : jobs_step s l = some s') :
    Unemployed b m s' := by
  -- a step of the scheduler is one of its tick
  have hstanding : s.jobs.sched.frames ≠ [] := by
    intro hframes
    rw [jobs_standing hframes hidle] at hstep
    cases hstep
  obtain ⟨adaptive, stopping, count, pc, ⟨⟨subs, queue⟩, control⟩, ⟨jq, ⟨⟨tasks, jobs, c⟩, frames⟩⟩,
    now⟩ := s
  obtain ⟨rfl, rfl, rfl, hpc⟩ := hinv
  cases pc with
  | ticking n =>
    obtain ⟨rfl, rfl, hframes, hk⟩ := hpc
    cases l with
    | sched l t t0 =>
      rcases hframes with rfl | ⟨now', rfl⟩
      · cases l with
        | clock now' =>
          simp [jobs_step, JobQueue.OnScheduler.machine, Scheduler.machine, readings,
            JobQueue.OnScheduler.foreign, JobQueue.OnScheduler.begin_drain] at hstep
          obtain ⟨-, rfl⟩ := hstep
          exact ⟨rfl, rfl, rfl, rfl, rfl, Or.inr ⟨_, rfl⟩, hk⟩
        | advance => rw [jobs_step_of_none rfl] at hstep; cases hstep
        | done raised => rw [jobs_step_of_none rfl] at hstep; cases hstep
        | _ => exact hidle.elim
      · cases l with
        | clock now' => rw [jobs_step_of_none rfl] at hstep; cases hstep
        | advance =>
          simp [jobs_step, JobQueue.OnScheduler.machine, Scheduler.machine, readings,
            Scheduler.advance, JobQueue.OnScheduler.foreign, JobQueue.OnScheduler.begin_drain,
            after_tick] at hstep
          obtain ⟨-, rfl⟩ := hstep
          exact ⟨rfl, rfl, rfl, rfl, rfl, rfl, rfl, hk⟩
        | done raised => rw [jobs_step_of_none rfl] at hstep; cases hstep
        | _ => exact hidle.elim
    | _ => exact hidle.elim
  | testing => exact absurd hpc.2.1 hstanding
  | draining => exact absurd hpc.2.1 hstanding
  | drained n => exact absurd hpc.2.2.1 hstanding
  | ticked n ran => exact absurd hpc.2.2.2.1 hstanding
  | sleeping => exact absurd hpc.2.1 hstanding
  | returned => exact absurd hpc.2.1 hstanding
  | raised => exact hpc.elim

theorem step_unemployed {b m : Nat} {s s' : State ℚ P C F J} {l : Label ℚ P C F J}
    {os : List Empty} (hinv : Unemployed b m s) (hidle : Idle l)
    (hstep : (machine ℚ P C F J).step s l = some (s', os)) : Unemployed b m s' := by
  cases l with
  | run =>
    obtain ⟨t, hrun, heq⟩ := Option.map_eq_some_iff.mp hstep
    cases heq
    exact run_unemployed hinv hrun
  | bus l =>
    cases l with
    | advance =>
      obtain ⟨t, hbus, heq⟩ := Option.map_eq_some_iff.mp hstep
      cases heq
      exact bus_unemployed hinv hbus
    | _ => exact hidle.elim
  | jobs l =>
    obtain ⟨t, hjobs, heq⟩ := Option.map_eq_some_iff.mp hstep
    cases heq
    exact jobs_unemployed hinv hidle hjobs
  | stop => exact hidle.elim
  | passes now => exact hidle.elim

/-- **Without a job on the scheduler the idle kernel slows down** as it should. -/
theorem slows_down_without_jobs {b m : Nat} (hb : 1 ≤ b) (hbm : b ≤ m) (event_bus : Bool)
    (first : ℚ) :
    SlowsDown b m (init b true m (.init event_bus true) first : State ℚ P C F J) := by
  intro ls s tr hrun hidle hpc hcount
  have hinit : Unemployed b m
      (init b true m (.init event_bus true) first : State ℚ P C F J) :=
    ⟨rfl, rfl, rfl, rfl, rfl, rfl⟩
  have hinv : Unemployed b m s := by
    refine (machine ℚ P C F J).run_induction_along (C := fun _ l => Idle l)
      (P := fun _ s _ => Unemployed b m s) hinit ?_
      ((machine ℚ P C F J).along_of_mem (fun l hl _ => hidle l hl) _) hrun
    intro _ s _ l s' os _ hinv hl hstep
    exact step_unemployed hinv hl hstep
  have hadaptive : s.adaptive_tick = idle_after b m s.tick_count := by
    have := hinv.2.2.2
    rw [hpc] at this
    exact this.2.2
  have hdoubled : m ≤ b * 2 ^ (s.tick_count - 3) := (doublings_le_iff hb _).mp (by omega)
  show s.adaptive_tick.current = m
  rw [hadaptive, idle_after_eq hbm, Nat.min_eq_right hdoubled]

end KernelLoop
