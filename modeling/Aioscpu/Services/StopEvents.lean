import Aioscpu.Services.SingleWorker
import Mathlib.Data.List.Count

/-! # Stop Events

  The worker of a service publishes `SERVICE_STOPPED` when it leaves, and a
  call of `stop` publishes it once more. So there is one event for each start
  that was accepted, and one for each call of `stop` that wrote `STOPPED`.
-/

namespace ServiceManager

/-! ### Counting observations -/

/-- The workers of the service that were started. -/
def started (name : String) (tr : List Obs) : List Nat :=
  tr.filterMap fun
    | .launched _ t name' => if name' = name then some t else none
    | _ => none

/-- Who published `SERVICE_STOPPED` for the service. -/
def stopEvents (name : String) (tr : List Obs) : List Source :=
  tr.filterMap fun
    | .published event_type name' source =>
      if event_type = "SERVICE_STOPPED" ∧ name' = name then some source else none
    | _ => none

/-- The calls of `stop` that wrote `STOPPED`. -/
def stopWrites (name : String) (tr : List Obs) : List Nat :=
  tr.filterMap fun
    | .wrote (.call n) name' _ _ .STOPPED => if name' = name then some n else none
    | _ => none

theorem count_one {α : Type} [DecidableEq α] (a b : α) : [b].count a = if a = b then 1 else 0 := by
  by_cases h : a = b
  · simp [h]
  · rw [if_neg h, List.count_eq_zero, List.mem_singleton]
    exact h

/-- The worker has been started. -/
def startedOf (name : String) : Option Worker → Nat
  | none => 0
  | some w => if w.name = name ∧ w.pc ≠ .created then 1 else 0

/-- The worker has left. -/
def goneOf (name : String) : Option Worker → Nat
  | none => 0
  | some w => if w.name = name ∧ w.pc = .gone then 1 else 0

/-- The call has written `STOPPED`, and not yet published. -/
def pendingOf (name : String) : Option Call → Nat
  | none => 0
  | some c => if c.name = name ∧ c.pc = .stop_publish then 1 else 0

/-- What the observations so far say about workers and calls. -/
structure Counted (s : State) (tr : List Obs) : Prop where
  started : ∀ name t, (started name tr).count t = startedOf name (s.workers.get t)
  gone : ∀ name t, (stopEvents name tr).count (.worker t) = goneOf name (s.workers.get t)
  pending : ∀ name n, (stopWrites name tr).count n =
    (stopEvents name tr).count (.call n) + pendingOf name (s.calls.get n)

/-- What the observations of a step say. -/
structure StepCounted (s s' : State) (os : List Obs) : Prop where
  started : ∀ name t, startedOf name (s'.workers.get t) =
    startedOf name (s.workers.get t) + (ServiceManager.started name os).count t
  gone : ∀ name t, goneOf name (s'.workers.get t) =
    goneOf name (s.workers.get t) + (stopEvents name os).count (.worker t)
  pending : ∀ name n, (stopEvents name os).count (.call n) + pendingOf name (s'.calls.get n) =
    pendingOf name (s.calls.get n) + (stopWrites name os).count n

theorem Counted.step {s s' : State} {tr os : List Obs} (h : Counted s tr)
    (hs : StepCounted s s' os) : Counted s' (tr ++ os) := by
  constructor
  · intro name t
    unfold ServiceManager.started
    rw [List.filterMap_append, List.count_append]
    exact (congrArg (· + _) (h.started name t)).trans (hs.started name t).symm
  · intro name t
    unfold stopEvents
    rw [List.filterMap_append, List.count_append]
    exact (congrArg (· + _) (h.gone name t)).trans (hs.gone name t).symm
  · intro name n
    have h₀ := h.pending name n
    have h₁ := hs.pending name n
    unfold stopEvents stopWrites at *
    simp only [List.filterMap_append, List.count_append]
    omega

/-- A step that changes no worker, and of the calls one at most. -/
theorem stepCounted_goto {s s₁ : State} {n : Nat} {c : Call} {pc : Pc} {os : List Obs}
    (hc : s.calls.get n = some c) (hcalls : s₁.calls = s.calls)
    (hstarted : ∀ name t, startedOf name (s₁.workers.get t) =
      startedOf name (s.workers.get t) + (started name os).count t)
    (hgone : ∀ name t, goneOf name (s₁.workers.get t) =
      goneOf name (s.workers.get t) + (stopEvents name os).count (.worker t))
    (hpending : ∀ name m, (stopEvents name os).count (.call m) +
        (if m = n then pendingOf name (some { c with pc }) else 0) =
      (if m = n then pendingOf name (some c) else 0) + (stopWrites name os).count m) :
    StepCounted s (goto s₁ n c pc) os := by
  refine ⟨hstarted, hgone, ?_⟩
  intro name m
  have h := hpending name m
  rw [goto_get (hcalls ▸ hc), hcalls]
  split
  · next hm =>
    subst hm
    rw [hc]
    simpa using h
  · next hm =>
    simp only [hm, if_false] at h
    omega

/-- A step that changes no call, and of the workers one at most. -/
theorem stepCounted_advance {s s₁ : State} {t : Nat} {w : Worker} {pc : WorkerPc}
    {os : List Obs} (hw : s.workers.get t = some w) (hworkers : s₁.workers = s.workers)
    (hcalls : s₁.calls = s.calls)
    (hstarted : ∀ name u, (if u = t then startedOf name (some { w with pc }) else 0) =
      (if u = t then startedOf name (some w) else 0) + (started name os).count u)
    (hgone : ∀ name u, (if u = t then goneOf name (some { w with pc }) else 0) =
      (if u = t then goneOf name (some w) else 0) + (stopEvents name os).count (.worker u))
    (hpending : ∀ name n,
      (stopEvents name os).count (.call n) = (stopWrites name os).count n) :
    StepCounted s (advance s₁ t w pc) os := by
  constructor
  · intro name u
    have h := hstarted name u
    rw [advance_get (hworkers ▸ hw), hworkers]
    split
    · next hu =>
      subst hu
      rw [hw]
      simpa using h
    · next hu =>
      simp only [hu, if_false] at h
      omega
  · intro name u
    have h := hgone name u
    rw [advance_get (hworkers ▸ hw), hworkers]
    split
    · next hu =>
      subst hu
      rw [hw]
      simpa using h
    · next hu =>
      simp only [hu, if_false] at h
      omega
  · intro name n
    rw [hpending, advance_calls, hcalls, Nat.add_comm]

/-- A frame that is created counts for nothing. -/
theorem pendingOf_create (s : State) {c : Call} (hc : c.pc ≠ .stop_publish) (name : String)
    (n : Nat) : pendingOf name ((s.calls.create c).get n) = pendingOf name (s.calls.get n) := by
  rw [Objects.get_create]
  split
  · next hn => simp [hn, pendingOf, hc]
  · rfl

theorem Begins.not_publish {s : State} {l : Label} {c : Call} (h : Begins s l c) :
    c.pc ≠ .stop_publish := by
  cases h <;> simp

/-! ### Steps -/

theorem goes_counted {s : State} {n : Nat} {c : Call} {timed_out : Bool} {pc : Pc}
    {os : List Obs} (hc : s.calls.get n = some c) (hgo : Goes s n c timed_out pc os) :
    StepCounted s (goto s n c pc) os := by
  have hnone : os = [] → c.pc ≠ .stop_publish → pc ≠ .stop_publish →
      StepCounted s (goto s n c pc) os := by
    rintro rfl hpc hpc'
    exact stepCounted_goto hc rfl (fun _ _ => rfl) (fun _ _ => rfl)
      fun name m => by simp [pendingOf, stopEvents, stopWrites, hpc, hpc']
  cases hgo with
  | registered h =>
    exact stepCounted_goto hc rfl (fun _ _ => rfl) (fun name t => by simp [stopEvents])
      fun name m => by simp [pendingOf, stopEvents, stopWrites, h]
  | start_accepted r record h => exact hnone rfl (by simp [h]) (by simp)
  | start_refused r record h => exact hnone rfl (by simp [h]) (by simp)
  | start_raises r e h => exact hnone rfl (by rcases h with h | h <;> simp [h]) (by simp)
  | stop_accepted r record h => exact hnone rfl (by simp [h]) (by simp)
  | stop_refused r h => exact hnone rfl (by simp [h]) (by simp)
  | stop_alive r h => exact hnone rfl (by simp [h]) (by simp)
  | stop_wait r t h => exact hnone rfl (by simp [h]) (by simp)
  | stop_raises r e h => exact hnone rfl (by rcases h with h | h <;> simp [h]) (by simp)
  | stop_joined r h => exact hnone rfl (by rcases h with h | ⟨t, h⟩ <;> simp [h]) (by simp)
  | stop_published h =>
    refine stepCounted_goto hc rfl (fun _ _ => rfl) (fun name t => ?_) fun name m => ?_
    · by_cases hname : c.name = name <;> simp [stopEvents, hname]
    · by_cases hname : c.name = name
      · simp [pendingOf, stopEvents, stopWrites, h, hname, count_one]
      · simp [pendingOf, stopEvents, stopWrites, hname]

theorem moves_counted {s : State} {t : Nat} {w : Worker} {pc : WorkerPc} {os : List Obs}
    (hw : s.workers.get t = some w) (hgo : WorkerGoes t w pc os) :
    StepCounted s (advance s t w pc) os := by
  cases hgo with
  | announces h =>
    exact stepCounted_advance hw rfl rfl (fun name u => by simp [startedOf, started, h])
      (fun name u => by simp [goneOf, stopEvents, h]) fun name n => by simp [stopEvents, stopWrites]
  | spawns h =>
    exact stepCounted_advance hw rfl rfl (fun name u => by simp [startedOf, started, h])
      (fun name u => by simp [goneOf, stopEvents, h]) fun name n => by simp [stopEvents, stopWrites]
  | ends h =>
    have hpc : w.pc ≠ .created ∧ w.pc ≠ .gone := by rcases h with h | h <;> simp [h]
    exact stepCounted_advance hw rfl rfl (fun name u => by simp [startedOf, started, hpc])
      (fun name u => by simp [goneOf, stopEvents, hpc]) fun name n => rfl
  | leaves h =>
    refine stepCounted_advance hw rfl rfl (fun name u => by simp [startedOf, started, h])
      (fun name u => ?_) fun name n => ?_
    · by_cases hname : w.name = name
      · simp [goneOf, stopEvents, h, hname, count_one]
      · simp [goneOf, stopEvents, hname]
    · by_cases hname : w.name = name
      · simp [stopEvents, stopWrites, hname]
      · simp [stopEvents, stopWrites, hname]

theorem step_counted {s s' : State} {l : Label} {os : List Obs} (hwf : WellFormed s)
    (hs : Step s l os s') : StepCounted s s' os := by
  cases hs with
  | register name unit =>
    exact ⟨fun _ _ => rfl, fun _ _ => rfl, fun name n => by
      rw [pendingOf_create s (by simp)]; simp [stopEvents, stopWrites]⟩
  | begins c hbegin =>
    exact ⟨fun _ _ => rfl, fun _ _ => rfl, fun name n => by
      rw [pendingOf_create s hbegin.not_publish]; simp [stopEvents, stopWrites]⟩
  | goes n timed_out c pc os hc hgo => exact goes_counted hc hgo
  | start_write n timed_out c r record hc hpc =>
    exact stepCounted_goto hc rfl (fun _ _ => rfl) (fun _ _ => rfl)
      fun name m => by simp [pendingOf, stopEvents, stopWrites, hpc]
  | start_thread n timed_out c r record hc hpc =>
    -- the new worker has neither started nor left
    refine stepCounted_goto hc rfl (fun name t => ?_) (fun name t => ?_)
      fun name m => by simp [pendingOf, stopEvents, stopWrites, hpc]
    · rw [Objects.get_create]
      split
      · next ht => simp [ht, startedOf, started]
      · rfl
    · rw [Objects.get_create]
      split
      · next ht => simp [ht, goneOf, stopEvents]
      · rfl
  | launch n timed_out c r record t w hc hpc hr ht hw hcreated =>
    -- the thread of the record is a worker of the same service
    have hname : w.name = c.name := by
      obtain rfl := hwf.thread_record hr ht hw
      have hworker := (hwf.workers t w hw).eq hr
      have hcall := (hwf.calls n c w.record hc (by rw [hpc]; rfl)).eq hr
      exact hworker.symm.trans hcall
    refine stepCounted_goto hc rfl (fun name u => ?_) (fun name u => ?_)
      fun name m => by simp [pendingOf, stopEvents, stopWrites, hpc]
    · rw [advance_get hw]
      split
      · next hu =>
        subst hu
        rw [hw]
        by_cases h : c.name = name
        · simp [startedOf, started, hcreated, hname, h]
        · simp [startedOf, started, hname, h]
      · next hu =>
        by_cases h : c.name = name
        · simp [started, h, count_one, hu]
        · simp [started, h]
    · rw [advance_get hw]
      split
      · next hu =>
        subst hu
        rw [hw]
        simp [goneOf, stopEvents, hcreated]
      · rfl
  | stop_write n timed_out c r record hc hpc =>
    exact stepCounted_goto hc rfl (fun _ _ => rfl) (fun _ _ => rfl)
      fun name m => by simp [pendingOf, stopEvents, stopWrites, hpc]
  | stop_finish n timed_out c r record hc hpc hr =>
    have hname := (hwf.calls n c r hc (by rw [hpc]; rfl)).eq hr
    refine stepCounted_goto hc rfl (fun _ _ => rfl) (fun _ _ => rfl) fun name m => ?_
    by_cases h : c.name = name
    · simp [pendingOf, stopEvents, stopWrites, hpc, hname, h, count_one]
    · simp [pendingOf, stopEvents, stopWrites, hname, h]
  | moves t isfile raises w pc os hw hgo => exact moves_counted hw hgo
  | runs t isfile raises w record hw hpc =>
    exact stepCounted_advance hw rfl rfl (fun name u => by simp [startedOf, started, hpc])
      (fun name u => by simp [goneOf, stopEvents, hpc])
      fun name n => by simp [stopEvents, stopWrites]
  | stops t isfile raises w record hw hpc =>
    exact stepCounted_advance hw rfl rfl (fun name u => by simp [startedOf, started, hpc])
      (fun name u => by simp [goneOf, stopEvents, hpc])
      fun name n => by simp [stopEvents, stopWrites]

/-! ### Runs -/

theorem run_counted {ls : List Label} {s : State} {tr : List Obs}
    (hrun : machine.run init ls = some (s, tr)) : Counted s tr := by
  refine machine.run_induction (P := fun _ s tr => Counted s tr) ?_ ?_ hrun
  · exact ⟨fun _ _ => rfl, fun _ _ => rfl, fun _ _ => rfl⟩
  · intro ls s tr l s' os hrun' h hs
    exact h.step (step_counted (run_wellFormed hrun') (step_sound hs))

/-- The call is one of `stop` that has not returned. -/
def Pc.stopping : Pc → Bool
  | .stop_check _ => true
  | .stop_refused _ => true
  | .stop_write _ => true
  | .stop_alive _ => true
  | .stop_join _ => true
  | .stop_wait _ _ => true
  | .stop_finish _ => true
  | .stop_publish => true
  | _ => false

/-- All workers that were started have ended, and all calls of `stop` have
    returned. -/
structure Quiescent (s : State) : Prop where
  workers : ∀ t w, s.workers.get t = some w → w.pc = .created ∨ w.pc = .gone
  stops : ∀ n c, s.calls.get n = some c → c.pc.stopping = false

/-- At rest, the events are those of the workers that were started and those of
    the calls of `stop` that wrote `STOPPED`. -/
theorem stopEvents_perm {s : State} {tr : List Obs} (h : Counted s tr) (hquiet : Quiescent s)
    (name : String) :
    (stopEvents name tr).Perm
      ((started name tr).map Source.worker ++ (stopWrites name tr).map Source.call) := by
  have hworker : Function.Injective Source.worker := fun _ _ => Source.worker.inj
  have hcall : Function.Injective Source.call := fun _ _ => Source.call.inj
  rw [List.perm_iff_count]
  intro a
  rw [List.count_append]
  cases a with
  | worker t =>
    have hnone : (List.map Source.call (stopWrites name tr)).count (.worker t) = 0 := by
      rw [List.count_eq_zero]
      simp
    rw [List.count_map_of_injective _ _ hworker, hnone, h.gone, h.started, Nat.add_zero]
    cases hw : s.workers.get t with
    | none => rfl
    | some w => rcases hquiet.workers t w hw with hpc | hpc <;> simp [goneOf, startedOf, hpc]
  | call n =>
    have hnone : (List.map Source.worker (started name tr)).count (.call n) = 0 := by
      rw [List.count_eq_zero]
      simp
    rw [List.count_map_of_injective _ _ hcall, hnone, h.pending, Nat.zero_add]
    cases hc : s.calls.get n with
    | none => rfl
    | some c =>
      have hpc : c.pc ≠ .stop_publish := by
        intro hpc
        have hstops := hquiet.stops n c hc
        rw [hpc] at hstops
        cases hstops
      simp [pendingOf, hpc]

/-- The step is not one at which a call of `stop` writes `STOPPED`. -/
def NoStopWrite (s : State) : Label → Prop
  | .call n _ => ∀ c ∈ s.calls.get n, ∀ r, c.pc ≠ .stop_finish r
  | _ => True

/-- The write of `STOPPED` is not among the moves that write nothing. -/
theorem Goes.not_finish {s : State} {n : Nat} {c : Call} {timed_out : Bool} {pc : Pc}
    {os : List Obs} (hgo : Goes s n c timed_out pc os) (r : Nat) : c.pc ≠ .stop_finish r := by
  intro hpc
  have hother : ∀ {pc' : Pc}, c.pc = pc' → pc' ≠ .stop_finish r → False := fun h hne =>
    hne (h.symm.trans hpc)
  cases hgo with
  | registered h => exact hother h (by simp)
  | start_accepted q record h => exact hother h (by simp)
  | start_refused q record h => exact hother h (by simp)
  | start_raises q e h => exact h.elim (fun h => hother h (by simp)) fun h => hother h (by simp)
  | stop_accepted q record h => exact hother h (by simp)
  | stop_refused q h => exact hother h (by simp)
  | stop_alive q h => exact hother h (by simp)
  | stop_wait q t h => exact hother h (by simp)
  | stop_raises q e h => exact h.elim (fun h => hother h (by simp)) fun h => hother h (by simp)
  | stop_joined q h =>
    exact h.elim (fun h => hother h (by simp)) fun ⟨t, h⟩ => hother h (by simp)
  | stop_published h => exact hother h (by simp)

theorem step_noStopWrite_iff {s s' : State} {l : Label} {os : List Obs} (hs : Step s l os s') :
    NoStopWrite s l ↔ ∀ name, stopWrites name os = [] := by
  have hcall : ∀ {n : Nat} {c : Call}, s.calls.get n = some c → ∀ b,
      (NoStopWrite s (.call n b) ↔ ∀ r, c.pc ≠ .stop_finish r) := by
    intro n c hc b
    simp [NoStopWrite, hc]
  cases hs with
  | register => exact iff_of_true trivial fun _ => rfl
  | begins c hbegin =>
    refine iff_of_true ?_ fun _ => rfl
    cases hbegin <;> trivial
  | goes n timed_out c pc os hc hgo =>
    rw [hcall hc]
    refine iff_of_true hgo.not_finish ?_
    intro name
    cases hgo <;> rfl
  | start_write n timed_out c r record hc hpc =>
    exact (hcall hc timed_out).trans (iff_of_true (by simp [hpc]) fun _ => rfl)
  | start_thread n timed_out c r record hc hpc =>
    exact (hcall hc timed_out).trans (iff_of_true (by simp [hpc]) fun _ => rfl)
  | launch n timed_out c r record t w hc hpc =>
    exact (hcall hc timed_out).trans (iff_of_true (by simp [hpc]) fun _ => rfl)
  | stop_write n timed_out c r record hc hpc =>
    exact (hcall hc timed_out).trans (iff_of_true (by simp [hpc]) fun _ => rfl)
  | stop_finish n timed_out c r record hc hpc =>
    refine (hcall hc timed_out).trans (iff_of_false (fun h => h r hpc) fun h => ?_)
    have hname := h record.name
    simp [stopWrites] at hname
  | moves t isfile raises w pc os hw hgo =>
    refine iff_of_true trivial fun name => ?_
    cases hgo <;> rfl
  | runs => exact iff_of_true trivial fun _ => rfl
  | stops => exact iff_of_true trivial fun _ => rfl

/-- **One stop event per start**: at rest, there is one `SERVICE_STOPPED` event
    for each start of each service if and only if no call of `stop` has written
    `STOPPED`. -/
theorem one_stop_event_iff_no_stop {ls : List Label} {s : State} {tr : List Obs}
    (hrun : machine.run init ls = some (s, tr)) (hquiet : Quiescent s) :
    (∀ name, (stopEvents name tr).length = (started name tr).length) ↔
      machine.Along NoStopWrite init ls := by
  have hcounted := run_counted hrun
  have hlength : ∀ name, (stopEvents name tr).length =
      (started name tr).length + (stopWrites name tr).length := by
    intro name
    rw [(stopEvents_perm hcounted hquiet name).length_eq, List.length_append, List.length_map,
      List.length_map]
  have halong : machine.Along NoStopWrite init ls ↔ ∀ name, stopWrites name tr = [] := by
    refine machine.along_iff_trace (I := fun _ => True)
      (Q := fun tr => ∀ name, stopWrites name tr = []) (fun _ => rfl) ?_ ?_ trivial hrun
    · intro os os'
      unfold stopWrites
      simp only [List.filterMap_append, List.append_eq_nil_iff]
      exact forall_and
    · intro s l s' os _ hs
      exact ⟨trivial, step_noStopWrite_iff (step_sound hs)⟩
  rw [halong]
  -- for each service, the events outnumber the starts by the writes
  refine forall_congr' fun name => ?_
  rw [hlength, ← List.length_eq_zero_iff]
  omega

instance (s : State) : Decidable (Quiescent s) :=
  decidable_of_iff
    ((∀ w ∈ s.workers.list, w.pc = .created ∨ w.pc = .gone) ∧
      ∀ c ∈ s.calls.list, c.pc.stopping = false) <| by
    rw [← Objects.forall_get_iff, ← Objects.forall_get_iff]
    exact ⟨fun h => ⟨h.1, h.2⟩, fun h => ⟨h.1, h.2⟩⟩

/-- The entrypoint of the service ends by itself, and the worker leaves. -/
def endingRun : List Label :=
  [.worker 0 true true, .worker 0 true false, .worker 0 true false]

/-- A call of `stop` comes too late. -/
theorem one_stop_event_iff_no_stop_late :
    ∃ s tr, machine.run init (executingRun ++ endingRun ++ [.stop "a", .call 2 false,
        .call 2 false]) = some (s, tr) ∧
      ((∀ name, (stopEvents name tr).length = (started name tr).length) ↔
        machine.Along NoStopWrite init (executingRun ++ endingRun ++ [.stop "a", .call 2 false,
          .call 2 false])) ∧
      started "a" tr = [0] := by
  obtain ⟨s, tr, hrun, htest⟩ := machine.exists_run init
    (executingRun ++ endingRun ++ [.stop "a", .call 2 false, .call 2 false])
    (fun s tr => Quiescent s ∧ started "a" tr = [0]) (by decide +kernel)
  obtain ⟨hquiet, hstarted⟩ := of_decide_eq_true htest
  exact ⟨s, tr, hrun, one_stop_event_iff_no_stop hrun hquiet, hstarted⟩

/-- The service is started once, and its end is announced twice. -/
theorem two_stop_events_for_one_start :
    ∃ (ls : List Label) (s : State) (tr : List Obs), machine.run init ls = some (s, tr) ∧
      Quiescent s ∧ started "a" tr = [0] ∧ stopEvents "a" tr = [.worker 0, .call 2] := by
  obtain ⟨s, tr, hrun, htest⟩ := machine.exists_run init
    (executingRun ++ timedOutStop.take 5 ++ endingRun ++
      [.call 2 false, .call 2 false, .call 2 false])
    (fun s tr => Quiescent s ∧ started "a" tr = [0] ∧ stopEvents "a" tr = [.worker 0, .call 2])
    (by decide +kernel)
  obtain ⟨hquiet, hstarted, hevents⟩ := of_decide_eq_true htest
  exact ⟨_, s, tr, hrun, hquiet, hstarted, hevents⟩

end ServiceManager
