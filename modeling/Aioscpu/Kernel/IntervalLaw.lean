import Aioscpu.Kernel.KernelLoop
import Mathlib.Data.List.DropRight
import Mathlib.Tactic.Linarith

/-! # The Law of the Interval

  The interval of the adaptive tick after any sequence of busy and idle ticks. It doubles from
  the fourth idle tick on, and is clamped to the maximum; nothing orders the maximum and the base,
  so the clamp can bring it below the base.
-/

namespace AdaptiveTick

inductive Tick where
  | busy
  | idle
deriving DecidableEq, Repr

/-- What the end of a tick calls. -/
def mark (self : AdaptiveTick) : Tick → AdaptiveTick
  | .busy => self.mark_busy
  | .idle => self.mark_idle

/-- After these ticks. -/
def after (self : AdaptiveTick) (ticks : List Tick) : AdaptiveTick := ticks.foldl mark self

theorem after_concat (self : AdaptiveTick) (ticks : List Tick) (t : Tick) :
    self.after (ticks ++ [t]) = (self.after ticks).mark t :=
  List.foldl_concat ..

/-- The number of idle ticks since the last busy one. -/
def trailing (ticks : List Tick) : Nat := (ticks.rtakeWhile (· = .idle)).length

@[simp] theorem trailing_nil : trailing [] = 0 := rfl

@[simp] theorem trailing_busy (ticks : List Tick) : trailing (ticks ++ [.busy]) = 0 := by
  unfold trailing
  rw [List.rtakeWhile_concat_neg _ _ _ (by decide)]
  rfl

@[simp] theorem trailing_idle (ticks : List Tick) :
    trailing (ticks ++ [.idle]) = trailing ticks + 1 := by
  unfold trailing
  rw [List.rtakeWhile_concat_pos _ _ _ (by decide), List.length_append]
  rfl

/-- What the interval is to be like while these ticks come, one after the other. -/
structure Lawful (base max : Int) (a : AdaptiveTick) (ticks : List Tick) : Prop where
  base_le : ∀ ts, ts <+: ticks → base ≤ (a.after ts).interval_ms
  idle : ∀ ts, ts ++ [.idle] <+: ticks →
    (a.after ts).interval_ms ≤ (a.after (ts ++ [.idle])).interval_ms
  busy : ∀ ts, ts ++ [.busy] <+: ticks → (a.after (ts ++ [.busy])).interval_ms = base
  interval : ∀ ts, ts <+: ticks → (a.after ts).interval_ms =
    Max.max base (min (base * 2 ^ (trailing ts - 3)) max)

/-! ### The interval -/

/-- The interval is the base for the three ticks of grace, and doubles up to the maximum from the
    fourth one on. -/
theorem init_after {base max : Int} (hmax : 1 ≤ max) (ticks : List Tick) :
    (init base max IDLE_BACKOFF_FACTOR).after ticks =
      { base, max, factor := 2, idle_ticks := trailing ticks,
        current := if trailing ticks ≤ 3 then base
          else min (base * 2 ^ (trailing ticks - 3)) max } := by
  induction ticks using List.reverseRecOn with
  | nil => rfl
  | append_singleton ticks t ih =>
    rw [after_concat, ih]
    cases t with
    | busy =>
      rw [trailing_busy]
      rfl
    | idle =>
      rw [trailing_idle]
      generalize trailing ticks = k
      unfold mark mark_idle
      dsimp only
      congr 1
      rcases Nat.lt_trichotomy k 3 with hlt | rfl | hgt
      · rw [if_neg (by omega), if_pos (by omega), if_pos (by omega)]
      · -- the fourth idle tick doubles the base
        rfl
      · rw [if_pos (by omega), if_neg (by omega), if_neg (by omega)]
        -- the minimum is taken after every doubling, or once at the end
        have hk : k + 1 - 3 = (k - 3) + 1 := by omega
        rw [hk, pow_succ, ← mul_assoc]
        generalize base * 2 ^ (k - 3) = x
        omega

theorem init_interval {base max : Int} (hmax : 1 ≤ max) (ticks : List Tick) :
    ((init base max IDLE_BACKOFF_FACTOR).after ticks).interval_ms =
      if trailing ticks ≤ 3 then base else min (base * 2 ^ (trailing ticks - 3)) max := by
  rw [init_after hmax]
  rfl

/-- Doubling does not shorten the interval. -/
theorem le_doubled {base : Int} (hbase : 1 ≤ base) (n : Nat) : base ≤ base * 2 ^ n :=
  le_mul_of_one_le_right (by omega) (one_le_pow₀ (by omega))

/-- The clamp is above the base as long as the maximum is, and in the ticks of grace. -/
theorem init_interval_eq {base max : Int} (hbase : 1 ≤ base) (hmax : 1 ≤ max) {ticks : List Tick}
    (h : base ≤ max ∨ trailing ticks ≤ 3) :
    ((init base max IDLE_BACKOFF_FACTOR).after ticks).interval_ms =
      Max.max base (min (base * 2 ^ (trailing ticks - 3)) max) := by
  have hdoubled := le_doubled hbase (trailing ticks - 3)
  rw [init_interval hmax]
  split
  · next hgrace =>
    rw [Nat.sub_eq_zero_of_le hgrace]
    omega
  · next hgrace =>
    have hle : base ≤ max := h.resolve_right hgrace
    omega

/-- The last `n` ticks are idle. -/
theorem le_trailing_iff (n : Nat) (ticks : List Tick) :
    n ≤ trailing ticks ↔ List.replicate n Tick.idle <:+ ticks := by
  induction ticks using List.reverseRecOn generalizing n with
  | nil =>
    rw [trailing_nil, Nat.le_zero, List.suffix_nil, List.replicate_eq_nil_iff]
  | append_singleton ticks t ih =>
    cases n with
    | zero => simp
    | succ n =>
      rw [List.replicate_succ', List.suffix_concat_iff]
      cases t with
      | busy =>
        rw [trailing_busy]
        simp
      | idle =>
        rw [trailing_idle, Nat.succ_le_succ_iff, ih]
        simp

/-- **The law of the interval** holds of a sequence of ticks if and only if the base is no more
    than the maximum or no four idle ticks follow each other. -/
theorem lawful_iff {base max : Int} (hbase : 1 ≤ base) (hmax : 1 ≤ max) (ticks : List Tick) :
    Lawful base max (init base max IDLE_BACKOFF_FACTOR) ticks ↔
      base ≤ max ∨ ¬ List.replicate 4 Tick.idle <:+: ticks := by
  constructor
  · intro hlawful
    by_contra hnot
    push Not at hnot
    obtain ⟨hlt, hinfix⟩ := hnot
    obtain ⟨ts, hsuffix, hprefix⟩ := List.infix_iff_suffix_prefix.mp hinfix
    have hfour : 4 ≤ trailing ts := (le_trailing_iff 4 ts).mpr hsuffix
    -- the clamp has brought the interval below the base
    have hle := hlawful.base_le ts hprefix
    rw [init_interval hmax, if_neg (by omega)] at hle
    omega
  · intro hcond
    have hinterval : ∀ ts, ts <+: ticks →
        ((init base max IDLE_BACKOFF_FACTOR).after ts).interval_ms =
          Max.max base (min (base * 2 ^ (trailing ts - 3)) max) := by
      intro ts hprefix
      refine init_interval_eq hbase hmax (hcond.imp_right fun hnone => ?_)
      by_contra hfour
      have hsuffix := (le_trailing_iff 4 ts).mp (by omega)
      exact hnone (List.infix_iff_suffix_prefix.mpr ⟨ts, hsuffix, hprefix⟩)
    refine ⟨fun ts hprefix => ?_, fun ts hprefix => ?_, fun ts hprefix => ?_, hinterval⟩
    · rw [hinterval ts hprefix]
      exact le_max_left _ _
    · -- one doubling more, under the same clamp
      have hmono : base * 2 ^ (trailing ts - 3) ≤ base * 2 ^ (trailing ts + 1 - 3) :=
        mul_le_mul_of_nonneg_left (pow_le_pow_right₀ (by omega) (by omega)) (by omega)
      rw [hinterval ts ((List.prefix_append _ _).trans hprefix), hinterval _ hprefix, trailing_idle]
      omega
    · rw [hinterval _ hprefix, trailing_busy, Nat.zero_sub, pow_zero, mul_one]
      omega

end AdaptiveTick

/-! ### The ticks of the loop -/

namespace KernelLoop

open AdaptiveTick (Tick)

variable {T P C F J : Type} [Clock T] [DecidableEq J] {s s' s₀ : State T P C F J}

/-- The tick that ends with this step. -/
def tick? (s : State T P C F J) (l : Label T P C F J) : Option Tick :=
  match l, s.pc with
  | .run, .ticked events_dispatched tasks_ran =>
    some (if events_dispatched ≠ 0 ∨ tasks_ran ≠ 0 then .busy else .idle)
  | _, _ => none

/-- The ticks that end in the course of a run. -/
def ticks (s : State T P C F J) : List (Label T P C F J) → List Tick
  | [] => []
  | l :: ls =>
    match (machine T P C F J).step s l with
    | none => []
    | some (s', _) => (tick? s l).toList ++ ticks s' ls

/-- Only the end of a tick changes the adaptive tick. -/
theorem step_adaptive_tick {l : Label T P C F J} {os : List Empty}
    (hstep : (machine T P C F J).step s l = some (s', os)) :
    s'.adaptive_tick = s.adaptive_tick.after (tick? s l).toList := by
  cases l with
  | run =>
    obtain ⟨t, hrun, heq⟩ := Option.map_eq_some_iff.mp hstep
    cases heq
    unfold run_step at hrun
    cases hpc : s.pc with
    | testing =>
      -- the loop ends, or drains the bus
      rw [hpc] at hrun
      dsimp only at hrun
      split at hrun
      · cases hrun
        simp [tick?, hpc, AdaptiveTick.after]
      · obtain ⟨r, -, heq⟩ := Option.map_eq_some_iff.mp hrun
        cases heq
        simp [tick?, hpc, AdaptiveTick.after]
    | drained events_dispatched =>
      rw [hpc] at hrun
      obtain ⟨r, -, heq⟩ := Option.map_eq_some_iff.mp hrun
      cases heq
      simp [tick?, hpc, AdaptiveTick.after]
    | ticked events_dispatched tasks_ran =>
      rw [hpc] at hrun
      cases hrun
      simp only [tick?, hpc, Option.toList_some, AdaptiveTick.after, List.foldl_cons,
        List.foldl_nil]
      split
      · rfl
      · rfl
    | sleeping =>
      rw [hpc] at hrun
      cases hrun
      simp [tick?, hpc, AdaptiveTick.after]
    | _ =>
      rw [hpc] at hrun
      cases hrun
  | bus l =>
    obtain ⟨t, hbus, heq⟩ := Option.map_eq_some_iff.mp hstep
    cases heq
    show s'.adaptive_tick = s.adaptive_tick
    unfold bus_step at hbus
    split at hbus
    · cases hbus
    · obtain ⟨r, -, heq⟩ := Option.map_eq_some_iff.mp hbus
      cases heq
      rfl
  | jobs l =>
    obtain ⟨t, hjobs, heq⟩ := Option.map_eq_some_iff.mp hstep
    cases heq
    show s'.adaptive_tick = s.adaptive_tick
    unfold jobs_step at hjobs
    split at hjobs
    · split at hjobs
      · cases hjobs
      · split at hjobs
        · cases hjobs; rfl
        · split at hjobs
          · cases hjobs; rfl
          · cases hjobs
    · cases hjobs
  | stop => cases hstep; rfl
  | passes now =>
    simp only [machine] at hstep
    split at hstep
    · cases hstep; rfl
    · cases hstep

/-- The interval is the one after the ticks of the run. -/
theorem run_adaptive_tick {ls : List (Label T P C F J)} {tr : List Empty}
    (hrun : (machine T P C F J).run s ls = some (s', tr)) :
    s'.adaptive_tick = s.adaptive_tick.after (ticks s ls) := by
  induction ls generalizing s tr with
  | nil =>
    cases hrun
    rfl
  | cons l ls ih =>
    obtain ⟨t, os, tr', hstep, hrest, -⟩ := (machine T P C F J).run_cons_iff.mp hrun
    have hticks : ticks s (l :: ls) = (tick? s l).toList ++ ticks t ls := by
      rw [ticks, hstep]
    rw [ih hrest, step_adaptive_tick hstep, hticks]
    exact (List.foldl_append ..).symm

/-- The maximum that the adaptive tick of the loop is given. -/
def maximum (tick_interval_ms : Int) (adaptive : Bool) (max_tick_interval_ms : Int) : Int :=
  if adaptive then max_tick_interval_ms else tick_interval_ms

/-- **When the interval of a loop obeys its law**: a sequence of ticks is lawful if and only if
    the base is no more than the maximum or no four idle ticks follow each other; and the interval
    in a run of the loop is the one after the ticks of the run. -/
theorem interval_law_iff {tick_interval_ms max_tick_interval_ms : Int}
    (hbase : 1 ≤ tick_interval_ms) (hmax : 1 ≤ max_tick_interval_ms) (adaptive : Bool)
    (jobs : JobQueue.OnScheduler.State T F J) (now : T)
    (hinit : s₀ = init tick_interval_ms adaptive max_tick_interval_ms jobs now) :
    (∀ ts, AdaptiveTick.Lawful tick_interval_ms
        (maximum tick_interval_ms adaptive max_tick_interval_ms) s₀.adaptive_tick ts ↔
      tick_interval_ms ≤ maximum tick_interval_ms adaptive max_tick_interval_ms ∨
        ¬ List.replicate 4 Tick.idle <:+: ts) ∧
    ∀ ls s tr, (machine T P C F J).run s₀ ls = some (s, tr) →
      s.adaptive_tick = s₀.adaptive_tick.after (ticks s₀ ls) := by
  subst hinit
  refine ⟨fun ts => ?_, fun ls s tr hrun => run_adaptive_tick hrun⟩
  apply AdaptiveTick.lawful_iff hbase
  unfold maximum
  split
  · exact hmax
  · exact hbase

/-- The intervals of the desktop. -/
theorem interval_law_iff_desktop : AdaptiveTick.Lawful 16 1000
    (init 16 true 1000 (.init true true) 0 : State ℚ Unit Unit Unit Unit).adaptive_tick
    [.idle, .idle, .idle, .idle, .idle, .busy, .idle] := by
  have hbase : (1 : Int) ≤ 16 := by decide
  have hmax : (1 : Int) ≤ 1000 := by decide
  have hlaw := interval_law_iff (P := Unit) (C := Unit) hbase hmax true
    (.init true true : JobQueue.OnScheduler.State ℚ Unit Unit) 0 rfl
  exact (hlaw.1 _).mpr (Or.inl (by decide))

/-- An interval of two seconds is shortened to the maximum of one by the fourth idle tick. -/
theorem idle_shortens : ¬ AdaptiveTick.Lawful 2000 1000
    (init 2000 true 1000 (.init true true) 0 : State ℚ Unit Unit Unit Unit).adaptive_tick
    [.idle, .idle, .idle, .idle] := fun hlawful =>
  absurd (hlawful.idle [.idle, .idle, .idle] (List.prefix_refl _)) (by decide)

end KernelLoop
