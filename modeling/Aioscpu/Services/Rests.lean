import Aioscpu.Services.ManagerFrames

/-! # Rests

  A service comes to rest when its state is set to `stopped`. Each call of
  `start` or `stop` brings it to rest once at most: a call of `start` by the
  worker that it creates, a call of `stop` by itself.
-/

namespace ServiceManager

/-- The writes of `STOPPED` to records of the service. -/
def stoppedWrites (name : String) (os : List Obs) : List Source :=
  os.filterMap fun
    | .wrote source name' _ _ .STOPPED => if name' = name then some source else none
    | _ => none

/-- The call may yet write `STOPPED`, or create the worker that does. -/
def Pc.due : Pc → Bool
  | .start_check _ => true
  | .start_write _ => true
  | .start_thread _ => true
  | .stop_check _ => true
  | .stop_write _ => true
  | .stop_alive _ => true
  | .stop_join _ => true
  | .stop_wait _ _ => true
  | .stop_finish _ => true
  | _ => false

def callDue (name : String) (c : Call) : Nat := if c.name = name ∧ c.pc.due then 1 else 0

/-- The worker has not written `STOPPED`. -/
def workerDue (name : String) (w : Worker) : Nat :=
  if w.name = name ∧ w.pc ≠ .stopped ∧ w.pc ≠ .gone then 1 else 0

/-- The rests that may yet come of what was called so far. -/
def outstanding (s : State) (name : String) : Nat :=
  s.calls.weight (callDue name) + s.workers.weight (workerDue name)

/-- A call of `start` or `stop` for the service begins. -/
def callsService (name : String) : Label → Bool
  | .start name' => name' = name
  | .stop name' => name' = name
  | _ => false

/-! ### Steps -/

theorem goto_due {s q : State} {n : Nat} {c : Call} (hc : s.calls.get n = some c)
    (hcalls : q.calls = s.calls) (pc : Pc) (name : String) :
    (goto q n c pc).calls.weight (callDue name) + callDue name c =
      s.calls.weight (callDue name) + callDue name { c with pc } := by
  unfold goto
  rw [hcalls]
  exact Objects.weight_set hc _ _

theorem advance_due {s q : State} {t : Nat} {w : Worker} (hw : s.workers.get t = some w)
    (hworkers : q.workers = s.workers) (pc : WorkerPc) (name : String) :
    (advance q t w pc).workers.weight (workerDue name) + workerDue name w =
      s.workers.weight (workerDue name) + workerDue name { w with pc } := by
  unfold advance
  rw [hworkers]
  exact Objects.weight_set hw _ _

/-- A call that goes on is due only if it was due before, and writes nothing. -/
theorem Goes.due {s : State} {n : Nat} {c : Call} {timed_out : Bool} {pc : Pc} {os : List Obs}
    (hgo : Goes s n c timed_out pc os) (name : String) :
    callDue name { c with pc } ≤ callDue name c ∧ stoppedWrites name os = [] := by
  have hle : ∀ pc' : Pc, (pc'.due = true → c.pc.due = true) →
      callDue name { c with pc := pc' } ≤ callDue name c := by
    intro pc' himp
    unfold callDue
    split
    · next h => rw [if_pos ⟨h.1, himp h.2⟩]
    · exact Nat.zero_le _
  cases hgo with
  | registered h => exact ⟨hle _ (by simp [Pc.due]), rfl⟩
  | start_accepted r record h => exact ⟨hle _ (by simp [h, Pc.due]), rfl⟩
  | start_refused r record h => exact ⟨hle _ (by simp [Pc.due]), rfl⟩
  | start_raises r e h => exact ⟨hle _ (by simp [Pc.due]), rfl⟩
  | stop_accepted r record h => exact ⟨hle _ (by simp [h, Pc.due]), rfl⟩
  | stop_refused r h => exact ⟨hle _ (by simp [Pc.due]), rfl⟩
  | stop_alive r h => exact ⟨hle _ (by simp [h, Pc.due]), rfl⟩
  | stop_wait r t h => exact ⟨hle _ (by simp [h, Pc.due]), rfl⟩
  | stop_raises r e h => exact ⟨hle _ (by simp [Pc.due]), rfl⟩
  | stop_joined r h =>
    refine ⟨hle _ ?_, rfl⟩
    rcases h with h | ⟨t, h⟩
    · simp [h, Pc.due]
    · simp [h, Pc.due]
  | stop_published h => exact ⟨hle _ (by simp [Pc.due]), rfl⟩

theorem WorkerGoes.due {t : Nat} {w : Worker} {pc : WorkerPc} {os : List Obs}
    (hgo : WorkerGoes t w pc os) (name : String) :
    workerDue name { w with pc } = workerDue name w ∧ stoppedWrites name os = [] := by
  cases hgo with
  | announces h => exact ⟨by simp [workerDue, h], rfl⟩
  | spawns h => exact ⟨by simp [workerDue, h], rfl⟩
  | ends h =>
    refine ⟨?_, rfl⟩
    rcases h with h | h
    · simp [workerDue, h]
    · simp [workerDue, h]
  | leaves h => exact ⟨by simp [workerDue, h], rfl⟩

/-- The frame that a call begins with is due only if the call is one of `start`
    or `stop`. -/
theorem Begins.due {s : State} {l : Label} {c : Call} (h : Begins s l c) (name : String) :
    callDue name c ≤ if callsService name l then 1 else 0 := by
  cases h with
  | missing_keys => simp [callDue, Pc.due]
  | start_unknown => simp [callDue, Pc.due]
  | start name' r => simp [callDue, callsService, Pc.due]
  | stop_unknown => simp [callDue, Pc.due]
  | stop name' r => simp [callDue, callsService, Pc.due]

/-- A call that writes a state other than `STOPPED` stays due. -/
theorem write_due {s s₁ : State} {n : Nat} {c : Call} {pc : Pc} {os : List Obs}
    (hc : s.calls.get n = some c) (hcalls : s₁.calls = s.calls) (hworkers : s₁.workers = s.workers)
    {name : String} (hdue : c.pc.due = true) (hpc : pc.due = true)
    (hos : stoppedWrites name os = []) :
    outstanding (goto s₁ n c pc) name + (stoppedWrites name os).length = outstanding s name := by
  have hweight := goto_due hc hcalls pc name
  have hsame : callDue name { c with pc } = callDue name c := by simp [callDue, hdue, hpc]
  unfold outstanding
  rw [hos, goto_workers, hworkers, List.length_nil]
  omega

theorem wrote_stopped (name : String) (source : Source) (r : Nat) (old : ServiceState)
    (name' : String) :
    (stoppedWrites name [.wrote source name' r old .STOPPED]).length =
      if name' = name then 1 else 0 := by
  unfold stoppedWrites
  by_cases h : name' = name <;> simp [h]

/-- **Each call brings the service to rest once at most.** -/
theorem step_outstanding {s s' : State} {l : Label} {os : List Obs} (hs : Step s l os s')
    (hwf : WellFormed s) (name : String) :
    outstanding s' name + (stoppedWrites name os).length ≤
      outstanding s name + if callsService name l then 1 else 0 := by
  cases hs with
  | register name' unit => simp [outstanding, callDue, Pc.due, stoppedWrites]
  | begins c hbegin =>
    have hdue := hbegin.due name
    simp only [outstanding, Objects.weight_create, stoppedWrites, List.filterMap_nil,
      List.length_nil]
    omega
  | goes n b c pc os hc hgo =>
    have hweight := goto_due hc rfl pc name
    obtain ⟨hle, hnone⟩ := hgo.due name
    unfold outstanding
    rw [hnone, goto_workers, List.length_nil]
    omega
  | start_write n b c r record hc hpc hr =>
    exact (write_due hc rfl rfl (by rw [hpc]; rfl) rfl rfl).le.trans (Nat.le_add_right _ _)
  | start_thread n b c r record hc hpc hr =>
    -- the worker is due in place of the call
    have hweight := goto_due hc rfl (.start_launch r) name
    have hcall : callDue name c = if c.name = name then 1 else 0 := by
      simp [callDue, hpc, Pc.due]
    have hcall' : callDue name { c with pc := .start_launch r } = 0 := by simp [callDue, Pc.due]
    have hworker : workerDue name ⟨c.name, r, record.unit.entrypoint, .created⟩ =
        if c.name = name then 1 else 0 := by simp [workerDue]
    show (goto s n c (.start_launch r)).calls.weight (callDue name) +
      (s.workers.create _).weight (workerDue name) + 0 ≤ outstanding s name + _
    rw [Objects.weight_create, hworker]
    unfold outstanding
    omega
  | launch n b c r record t w hc hpc hr ht hw hcreated =>
    have hweight := goto_due (q := advance s t w .launched) hc rfl .returned name
    have hweight' := advance_due hw rfl .launched name
    have hcall : callDue name { c with pc := .returned } = callDue name c := by
      simp [callDue, hpc, Pc.due]
    have hworker : workerDue name { w with pc := .launched } = workerDue name w := by
      simp [workerDue, hcreated]
    simp only [outstanding, goto_workers, stoppedWrites, List.filterMap_cons, List.filterMap_nil,
      List.length_nil]
    omega
  | stop_write n b c r record hc hpc hr =>
    exact (write_due hc rfl rfl (by rw [hpc]; rfl) rfl rfl).le.trans (Nat.le_add_right _ _)
  | stop_finish n b c r record hc hpc hr =>
    -- the call is no longer due, and the rest has come
    have hname := (hwf.calls n c r hc (by rw [hpc]; rfl)).eq hr
    have hweight := goto_due (q := setState s r record .STOPPED) hc rfl .stop_publish name
    have hcall : callDue name c = if c.name = name then 1 else 0 := by
      simp [callDue, hpc, Pc.due]
    have hcall' : callDue name { c with pc := .stop_publish } = 0 := by simp [callDue, Pc.due]
    rw [wrote_stopped, hname]
    simp only [outstanding, goto_workers, setState_workers]
    omega
  | moves t _ _ w pc os hw hgo =>
    have hweight := advance_due hw rfl pc name
    obtain ⟨hsame, hnone⟩ := hgo.due name
    unfold outstanding
    rw [hnone, advance_calls, List.length_nil]
    omega
  | runs t _ _ w record hw hpc hr =>
    have hweight := advance_due (q := setState s w.record record .RUNNING) hw rfl .running name
    have hworker : workerDue name { w with pc := .running } = workerDue name w := by
      simp [workerDue, hpc]
    simp only [outstanding, advance_calls, setState_calls, stoppedWrites, List.filterMap_cons,
      List.filterMap_nil, List.length_nil]
    omega
  | stops t _ _ w record hw hpc hr =>
    have hname := (hwf.workers t w hw).eq hr
    have hweight := advance_due (q := setState s w.record record .STOPPED) hw rfl .stopped name
    have hworker : workerDue name w = if w.name = name then 1 else 0 := by simp [workerDue, hpc]
    have hworker' : workerDue name { w with pc := .stopped } = 0 := by simp [workerDue]
    rw [wrote_stopped, hname]
    simp only [outstanding, advance_calls, setState_calls]
    omega

end ServiceManager
