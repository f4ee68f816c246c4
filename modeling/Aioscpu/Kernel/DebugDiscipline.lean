import Aioscpu.Kernel.Debugger

/-! # Attaching and Detaching the Debugger

  What the debugger sees of the events and the ticks of a kernel. `detach` leaves the
  wrappers where they are: each later `attach` puts on another pair, an event is then
  recorded once for each of them, and a tick is timed though the debugger is detached.
  A payload that cannot be shown is not published, as the wrapper raises first.
-/

universe u v

namespace KernelDebugger

variable {T : Type} {P : Type u} {C : Type v} {repr : P → Option String}

/-! ### Calls of `publish` -/

theorem record_some (tracer : EventTracer T) {event : Event P} {text : String}
    (h : repr event.payload = some text) (timestamp : T) :
    ∃ entry tracer', tracer.record repr event timestamp = some tracer' ∧
      entry.seq = event.seq ∧ tracer'.buf = tracer.buf.append entry ∧
      tracer'.total = tracer.total + 1 := by
  unfold EventTracer.record
  rw [h]
  exact ⟨_, _, rfl, rfl, rfl, rfl⟩

/-- Each wrapper records the event. -/
theorem call_shown (m : PublishMethod) {event : Event P} {text : String}
    (h : repr event.payload = some text) (timestamp : T) (tracer : EventTracer T)
    (bus : EventBus P C) :
    (m.call repr event timestamp tracer bus).2.1 = bus.publish event ∧
      (m.call repr event timestamp tracer bus).1.total = tracer.total + m.wrappers := by
  induction m generalizing tracer with
  | original => exact ⟨rfl, rfl⟩
  | traced m ih =>
    obtain ⟨entry, tracer', hrecord, -, -, htotal⟩ := record_some tracer h timestamp
    unfold PublishMethod.call PublishMethod.wrappers
    rw [hrecord]
    obtain ⟨hbus, hrest⟩ := ih tracer'
    refine ⟨hbus, ?_⟩
    dsimp only
    rw [hrest, htotal]
    omega

/-- A wrapper that cannot record the event does not publish it. -/
theorem call_not_shown {m : PublishMethod} (hm : 0 < m.wrappers) {event : Event P}
    (h : repr event.payload = none) (timestamp : T) (tracer : EventTracer T)
    (bus : EventBus P C) : m.call repr event timestamp tracer bus = (tracer, bus, false) := by
  cases m with
  | original => exact absurd hm (Nat.lt_irrefl 0)
  | traced m =>
    unfold PublishMethod.call EventTracer.record
    rw [h]
    rfl

theorem publish_ne (bus : EventBus P C) (event : Event P) : bus.publish event ≠ bus := by
  intro h
  have hlength := (bus.publish_queue_perm event).length_eq
  rw [h, List.length_cons] at hlength
  omega

/-! ### Ticks -/

/-- The wrappers only start the clock. -/
theorem enter_spec (m : TickMethod) (clock : Nat → T) (profiler : TickProfiler T) :
    (m.enter clock profiler).samples = profiler.samples ∧
      (m.enter clock profiler).total_ticks = profiler.total_ticks ∧
      ((m.enter clock profiler).tick_start.isSome = true ↔
        0 < m.wrappers ∨ profiler.tick_start.isSome = true) := by
  induction m generalizing profiler with
  | original => exact ⟨rfl, rfl, by simp [TickMethod.enter, TickMethod.wrappers]⟩
  | profiled m ih =>
    obtain ⟨hsamples, htotal, hstart⟩ := ih (profiler.begin_tick (clock m.wrappers))
    refine ⟨hsamples, htotal, ?_⟩
    rw [TickMethod.enter, hstart]
    simp [TickMethod.wrappers, TickProfiler.begin_tick]

variable [Timer T]

/-- The profiler takes one sample. -/
def Sampled (profiler profiler' : TickProfiler T) : Prop :=
  ∃ duration_ms, profiler'.samples = profiler.samples.append duration_ms ∧
    profiler'.total_ticks = profiler.total_ticks + 1

theorem end_tick_of_none {profiler : TickProfiler T} (h : profiler.tick_start = none) (now : T) :
    profiler.end_tick now = profiler := by
  unfold TickProfiler.end_tick
  rw [h]

theorem leave_of_none (m : TickMethod) (clock : Nat → T) {profiler : TickProfiler T}
    (h : profiler.tick_start = none) : m.leave clock profiler = profiler := by
  induction m with
  | original => rfl
  | profiled m ih =>
    rw [TickMethod.leave, ih]
    exact end_tick_of_none h _

/-- The innermost wrapper takes the sample, and stops the clock for the others. -/
theorem leave_sampled {m : TickMethod} (hm : 0 < m.wrappers) (clock : Nat → T)
    {profiler : TickProfiler T} (h : profiler.tick_start.isSome = true) :
    Sampled profiler (m.leave clock profiler) ∧ (m.leave clock profiler).tick_start = none := by
  obtain ⟨start, hstart⟩ := Option.isSome_iff_exists.mp h
  induction m with
  | original => exact absurd hm (Nat.lt_irrefl 0)
  | profiled m ih =>
    rw [TickMethod.leave]
    cases m with
    | original =>
      unfold TickMethod.leave TickProfiler.end_tick
      rw [hstart]
      exact ⟨⟨_, rfl, rfl⟩, rfl⟩
    | profiled m' =>
      obtain ⟨hsampled, hnone⟩ := ih (Nat.succ_pos _)
      rw [end_tick_of_none hnone]
      exact ⟨hsampled, hnone⟩

/-! ### The discipline -/

/-- What the debugger should do in a step. An event is enqueued once, and recorded once
    while the debugger is attached; a tick runs once, and is timed once if the debugger
    was attached when it began, and not if it was detached. -/
def Disciplined (s : State P C T) (l : Label P T) (s' : State P C T) (os : List Obs) : Prop :=
  match l with
  | .publish event _ =>
    s'.event_bus = s.event_bus.publish event ∧
      (s.debugger.attached = true → ∃ entry, entry.seq = event.seq ∧
        s'.debugger.tracer.buf = s.debugger.tracer.buf.append entry ∧
        s'.debugger.tracer.total = s.debugger.tracer.total + 1)
  | .tick_begins _ =>
    os.count .ticked = 1 ∧ s'.tick_count = s.tick_count + 1 ∧
      s'.debugger.profiler.samples = s.debugger.profiler.samples ∧
      s'.debugger.profiler.total_ticks = s.debugger.profiler.total_ticks
  | .tick_ends _ _ =>
    os.count .ticked = 0 ∧ s'.tick_count = s.tick_count ∧
      ∀ ticking, s.ticking = some ticking →
        if ticking.attached then Sampled s.debugger.profiler s'.debugger.profiler
        else s'.debugger.profiler = s.debugger.profiler
  | _ => True

/-- An event whose payload can be shown is published through one wrapper while the
    debugger is attached, and a tick that begins while it is detached is not wrapped. -/
def Careful (repr : P → Option String) (s : State P C T) : Label P T → Prop
  | .publish event _ =>
    (s.debugger.attached = true → s.publish.wrappers = 1) ∧
      (0 < s.publish.wrappers → (repr event.payload).isSome = true)
  | .tick_ends _ _ =>
    ∀ ticking, s.ticking = some ticking → ticking.attached = false →
      ticking.method.wrappers = 0
  | _ => True

/-- The wrappers come in pairs, and there is one while the debugger is attached; the
    clock of the profiler runs in wrapped ticks. -/
structure Inv (s : State P C T) : Prop where
  paired : s.tick.wrappers = s.publish.wrappers
  attached : s.debugger.attached = true → 0 < s.publish.wrappers
  idle : s.ticking = none → s.debugger.profiler.tick_start = none
  began : ∀ ticking, s.ticking = some ticking → ticking.attached = true →
    0 < ticking.method.wrappers
  timed : ∀ ticking, s.ticking = some ticking →
    (s.debugger.profiler.tick_start.isSome = true ↔ 0 < ticking.method.wrappers)

omit [Timer T] in
theorem start_inv (trace_depth profile_size : Nat) (bus : EventBus P C) (tick_count : Nat) :
    Inv (start (.init trace_depth profile_size : KernelDebugger T) bus tick_count) where
  paired := rfl
  attached := fun h => by cases h
  idle := fun _ => rfl
  began := fun _ h => by cases h
  timed := fun _ h => by cases h

theorem step_inv {s s' : State P C T} {l : Label P T} {os : List Obs} (h : Inv s)
    (hs : (machine repr).step s l = some (s', os)) : Inv s' := by
  cases l with
  | attach =>
    cases hs
    unfold attach
    split
    · exact h
    · exact ⟨congrArg (· + 1) h.paired, fun _ => Nat.succ_pos _, h.idle, h.began, h.timed⟩
  | detach =>
    cases hs
    exact ⟨h.paired, fun hattached => (by cases hattached), h.idle, h.began, h.timed⟩
  | publish event timestamp =>
    cases hs
    exact ⟨h.paired, h.attached, h.idle, h.began, h.timed⟩
  | tick_begins clock =>
    simp only [machine] at hs
    split at hs
    · cases hs
    · next hidle =>
      cases hs
      have hstart := (enter_spec s.tick clock s.debugger.profiler).2.2
      refine ⟨h.paired, h.attached, fun hnone => (by cases hnone), ?_, ?_⟩
      · rintro _ ⟨⟩ hattached
        show 0 < s.tick.wrappers
        rw [h.paired]
        exact h.attached hattached
      · rintro _ ⟨⟩
        rw [hstart, h.idle hidle]
        simp
  | drain =>
    simp only [machine] at hs
    split at hs
    · cases hs
      exact ⟨h.paired, h.attached, h.idle, h.began, h.timed⟩
    · cases hs
  | tick_ends raised clock =>
    simp only [machine] at hs
    split at hs
    · cases hs
    · next ticking hticking =>
      cases hs
      refine ⟨h.paired, h.attached, fun _ => ?_, fun _ hnone => (by cases hnone),
        fun _ hnone => (by cases hnone)⟩
      show (ticking.method.leave clock s.debugger.profiler).tick_start = none
      cases hstart : s.debugger.profiler.tick_start with
      | none =>
        rw [leave_of_none _ _ hstart]
        exact hstart
      | some start =>
        have hsome : s.debugger.profiler.tick_start.isSome = true := by
          rw [hstart]
          rfl
        exact (leave_sampled ((h.timed ticking hticking).mp hsome) clock hsome).2

/-- An event is dealt with as it should be if and only if it is published with care. -/
theorem publish_disciplined_iff {s s' : State P C T} {event : Event P} {timestamp : T}
    {os : List Obs} (h : Inv s)
    (hs : (machine repr).step s (.publish event timestamp) = some (s', os)) :
    Careful repr s (.publish event timestamp) ↔
      Disciplined s (.publish event timestamp) s' os := by
  cases hs
  unfold Careful Disciplined
  dsimp only
  cases hshown : repr event.payload with
  | none =>
    by_cases hwrapped : 0 < s.publish.wrappers
    · -- the wrapper raises
      rw [call_not_shown hwrapped hshown]
      refine iff_of_false (fun hcareful => ?_) fun hlaw => ?_
      · cases hcareful.2 hwrapped
      · exact publish_ne _ _ hlaw.1.symm
    · have hnone : s.publish = .original := by
        cases hm : s.publish with
        | original => rfl
        | traced m => rw [hm] at hwrapped; exact absurd (Nat.succ_pos _) hwrapped
      have hdetached : s.debugger.attached ≠ true := fun hattached =>
        hwrapped (h.attached hattached)
      rw [hnone]
      refine iff_of_true ⟨fun hattached => absurd hattached hdetached, ?_⟩
        ⟨rfl, fun hattached => absurd hattached hdetached⟩
      exact fun hlt => absurd hlt (Nat.lt_irrefl 0)
  | some text =>
    obtain ⟨hbus, htotal⟩ :=
      call_shown s.publish hshown timestamp s.debugger.tracer s.event_bus
    have hlaw : (s.debugger.attached = true → s.publish.wrappers = 1) ↔
        (s.debugger.attached = true → ∃ entry : TraceEntry T, entry.seq = event.seq ∧
          (s.publish.call repr event timestamp s.debugger.tracer s.event_bus).1.buf =
            s.debugger.tracer.buf.append entry ∧
          (s.publish.call repr event timestamp s.debugger.tracer s.event_bus).1.total =
            s.debugger.tracer.total + 1) := by
      refine imp_congr_right fun _ => ⟨fun hone => ?_, ?_⟩
      · obtain ⟨entry, tracer', hrecord, hseq, hbuf, hone'⟩ :=
          record_some s.debugger.tracer hshown timestamp
        have hm : s.publish = .traced .original := by
          cases hm : s.publish with
          | original => rw [hm] at hone; cases hone
          | traced m =>
            cases m with
            | original => rfl
            | traced m' => rw [hm] at hone; cases hone
        refine ⟨entry, hseq, ?_, by rw [htotal, hone]⟩
        rw [hm]
        unfold PublishMethod.call
        rw [hrecord]
        exact hbuf
      · rintro ⟨entry, -, -, hone⟩
        rw [htotal] at hone
        omega
    rw [hlaw, hbus]
    exact ⟨fun hcareful => ⟨rfl, hcareful.1⟩, fun hdone => ⟨hdone.2, fun _ => rfl⟩⟩

/-- A tick is timed as it should be if and only if it is not wrapped when it begins
    without the debugger. -/
theorem tick_ends_disciplined_iff {s s' : State P C T} {raised : Bool} {clock : Nat → T}
    {os : List Obs} (h : Inv s)
    (hs : (machine repr).step s (.tick_ends raised clock) = some (s', os)) :
    Careful repr s (.tick_ends raised clock) ↔
      Disciplined s (.tick_ends raised clock) s' os := by
  simp only [machine] at hs
  split at hs
  · cases hs
  · next ticking hticking =>
    cases hs
    have hcount : (if raised then [Obs.tick_raised] else []).count .ticked = 0 := by
      cases raised <;> rfl
    unfold Careful Disciplined
    simp only [hticking, Option.some.injEq, hcount, true_and, forall_eq']
    have htimed := h.timed ticking hticking
    by_cases hattached : ticking.attached = true
    · have hwrapped := h.began ticking hticking hattached
      simp only [hattached, reduceCtorEq, false_implies, if_true, true_iff]
      exact (leave_sampled hwrapped clock (htimed.mpr hwrapped)).1
    · rw [Bool.not_eq_true] at hattached
      simp only [hattached, true_implies, Bool.false_eq_true, if_false]
      constructor
      · intro hzero
        have hnone : s.debugger.profiler.tick_start = none := by
          rw [← Option.not_isSome_iff_eq_none, htimed, hzero]
          exact Nat.lt_irrefl 0
        exact leave_of_none _ _ hnone
      · intro hsame
        by_contra hne
        have hwrapped := Nat.pos_of_ne_zero hne
        obtain ⟨⟨duration_ms, -, htotal⟩, -⟩ :=
          leave_sampled hwrapped clock (htimed.mpr hwrapped)
        rw [hsame] at htotal
        omega

theorem step_disciplined_iff {s s' : State P C T} {l : Label P T} {os : List Obs} (h : Inv s)
    (hs : (machine repr).step s l = some (s', os)) :
    Careful repr s l ↔ Disciplined s l s' os := by
  cases l with
  | attach => exact Iff.rfl
  | detach => exact Iff.rfl
  | publish event timestamp => exact publish_disciplined_iff h hs
  | tick_begins clock =>
    simp only [machine] at hs
    split at hs
    · cases hs
    · cases hs
      obtain ⟨hsamples, htotal, -⟩ := enter_spec s.tick clock s.debugger.profiler
      exact iff_of_true trivial ⟨rfl, rfl, hsamples, htotal⟩
  | drain => exact Iff.rfl
  | tick_ends raised clock => exact tick_ends_disciplined_iff h hs

/-! ### Runs -/

/-- How often the debugger put its wrappers on. -/
def wraps (tr : List Obs) : Nat := tr.count .wrapped

/-- There are as many wrappers as attachments that were not in force already. -/
theorem run_wraps {trace_depth profile_size : Nat} {bus : EventBus P C} {tick_count : Nat}
    {ls : List (Label P T)} {s : State P C T} {tr : List Obs}
    (hrun : (machine repr).run (start (.init trace_depth profile_size) bus tick_count) ls =
      some (s, tr)) : s.publish.wrappers = wraps tr := by
  refine (machine repr).run_induction (P := fun _ s tr => s.publish.wrappers = wraps tr) rfl ?_
    hrun
  intro ls s tr l s' os _ hwraps hs
  unfold wraps at hwraps ⊢
  rw [List.count_append, ← hwraps]
  cases l with
  | attach =>
    cases hs
    unfold attach
    split
    · rfl
    · rfl
  | detach => cases hs; rfl
  | publish event timestamp =>
    cases hs
    split <;> rfl
  | tick_begins clock =>
    simp only [machine] at hs
    split at hs
    · cases hs
    · cases hs; rfl
  | drain =>
    simp only [machine] at hs
    split at hs
    · cases hs; rfl
    · cases hs
  | tick_ends raised clock =>
    simp only [machine] at hs
    split at hs
    · cases hs
    · cases hs
      cases raised <;> rfl

theorem run_inv {trace_depth profile_size : Nat} {bus : EventBus P C} {tick_count : Nat}
    {ls : List (Label P T)} {s : State P C T} {tr : List Obs}
    (hrun : (machine repr).run (start (.init trace_depth profile_size) bus tick_count) ls =
      some (s, tr)) : Inv s :=
  (machine repr).run_invariant (start_inv trace_depth profile_size bus tick_count)
    (fun _ _ _ _ h hs => step_inv h hs) hrun

/-- **Attaching and detaching**: in each step of a run the debugger sees what it should
    if and only if all steps of the run are careful. -/
theorem disciplined_iff_careful {trace_depth profile_size : Nat} {bus : EventBus P C}
    {tick_count : Nat} {ls : List (Label P T)} {s : State P C T} {tr : List Obs}
    (hrun : (machine repr).run (start (.init trace_depth profile_size) bus tick_count) ls =
      some (s, tr)) :
    (∀ pre l t tr' t' os, pre ++ [l] <+: ls →
        (machine repr).run (start (.init trace_depth profile_size) bus tick_count) pre =
          some (t, tr') →
        (machine repr).step t l = some (t', os) → Disciplined t l t' os) ↔
      (machine repr).Along (Careful repr) (start (.init trace_depth profile_size) bus tick_count)
        ls := by
  rw [Machine.along_iff_forall]
  constructor
  · intro hlaw pre l t tr' hpre hbefore
    -- the run goes on with the label
    obtain ⟨rest, rfl⟩ := hpre
    obtain ⟨u, tr₁, tr₂, hsnoc, -, -⟩ := (machine repr).run_append_iff.mp hrun
    obtain ⟨t₁, tr₁', os, hbefore', hs, -⟩ := (machine repr).run_snoc_iff.mp hsnoc
    obtain ⟨rfl, rfl⟩ := Prod.mk.inj (Option.some.inj (hbefore.symm.trans hbefore'))
    exact (step_disciplined_iff (run_inv hbefore) hs).mpr
      (hlaw pre l t tr' u os (List.prefix_append _ _) hbefore hs)
  · intro hcareful pre l t tr' t' os hpre hbefore hs
    exact (step_disciplined_iff (run_inv hbefore) hs).mp (hcareful pre l t tr' hpre hbefore)

/-- The debugger is attached twice in a row, and detached in a tick. -/
theorem disciplined_iff_careful_twice :
    let event : Event String := ⟨"BOOT", "ok", 2, "kernel", 1⟩
    let ls : List (Label String ℚ) := [.tick_begins fun _ => 0, .tick_ends false fun _ => 1,
      .attach, .attach, .publish event 2, .tick_begins fun _ => 3, .drain, .detach,
      .tick_ends true fun _ => 4]
    let begin : State String String ℚ := start (.init 200 1000) .init 0
    ∃ (s : State String String ℚ) (tr : List Obs),
      (machine some).run begin ls = some (s, tr) ∧
      ((∀ pre l t tr' t' os, pre ++ [l] <+: ls → (machine some).run begin pre = some (t, tr') →
          (machine some).step t l = some (t', os) → Disciplined t l t' os) ↔
        (machine some).Along (Careful some) begin ls) := by
  intro event ls begin
  obtain ⟨s, tr, hrun, -⟩ := (machine some).exists_run begin ls (fun _ _ => true) rfl
  exact ⟨s, tr, hrun, disciplined_iff_careful hrun⟩

/-- After it is attached again, an event is recorded twice. -/
theorem recorded_twice :
    let event : Event String := ⟨"BOOT", "ok", 2, "kernel", 1⟩
    let ls : List (Label String ℚ) := [.attach, .detach, .attach]
    let begin : State String String ℚ := start (.init 200 1000) .init 0
    ∃ (t t' : State String String ℚ) (tr os : List Obs),
      (machine some).run begin ls = some (t, tr) ∧
      (machine some).step t (.publish event 0) = some (t', os) ∧
      t.debugger.attached = true ∧ t'.debugger.tracer.total = t.debugger.tracer.total + 2 ∧
      ¬ Disciplined t (.publish event 0) t' os := by
  intro event ls begin
  refine ⟨_, _, _, _, rfl, rfl, rfl, rfl, ?_⟩
  rintro ⟨-, hlaw⟩
  obtain ⟨entry, -, -, htotal⟩ := hlaw rfl
  cases htotal

end KernelDebugger
