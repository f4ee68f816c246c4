import Aioscpu.Services.Manager

/-! # Frames of the Service Manager

  What a step does to the calls, the workers, the records and the registry,
  and the states in which what they refer to exists.
-/

namespace ServiceManager

/-! ### Frames after a step -/

@[simp] theorem goto_registry (s : State) (n : Nat) (c : Call) (pc : Pc) :
    (goto s n c pc).registry = s.registry := rfl

@[simp] theorem goto_records (s : State) (n : Nat) (c : Call) (pc : Pc) :
    (goto s n c pc).records = s.records := rfl

@[simp] theorem goto_workers (s : State) (n : Nat) (c : Call) (pc : Pc) :
    (goto s n c pc).workers = s.workers := rfl

@[simp] theorem advance_registry (s : State) (t : Nat) (w : Worker) (pc : WorkerPc) :
    (advance s t w pc).registry = s.registry := rfl

@[simp] theorem advance_records (s : State) (t : Nat) (w : Worker) (pc : WorkerPc) :
    (advance s t w pc).records = s.records := rfl

@[simp] theorem advance_calls (s : State) (t : Nat) (w : Worker) (pc : WorkerPc) :
    (advance s t w pc).calls = s.calls := rfl

@[simp] theorem setState_registry (s : State) (r : Nat) (record : ServiceRecord)
    (state : ServiceState) : (setState s r record state).registry = s.registry := rfl

@[simp] theorem setState_calls (s : State) (r : Nat) (record : ServiceRecord)
    (state : ServiceState) : (setState s r record state).calls = s.calls := rfl

@[simp] theorem setState_workers (s : State) (r : Nat) (record : ServiceRecord)
    (state : ServiceState) : (setState s r record state).workers = s.workers := rfl

@[simp] theorem lookup_registry (s : State) (name : String) (pc : Nat → Pc) :
    (lookup s name pc).registry = s.registry := by
  unfold lookup
  split <;> rfl

@[simp] theorem lookup_records (s : State) (name : String) (pc : Nat → Pc) :
    (lookup s name pc).records = s.records := by
  unfold lookup
  split <;> rfl

theorem goto_get {s : State} {n : Nat} {c₀ : Call} (h : s.calls.get n = some c₀) (c : Call)
    (pc : Pc) (m : Nat) :
    (goto s n c pc).calls.get m = if m = n then some { c with pc } else s.calls.get m :=
  Objects.get_set h _ m

theorem advance_get {s : State} {t : Nat} {w₀ : Worker} (h : s.workers.get t = some w₀)
    (w : Worker) (pc : WorkerPc) (u : Nat) :
    (advance s t w pc).workers.get u = if u = t then some { w with pc } else s.workers.get u :=
  Objects.get_set h _ u

theorem setState_get {s : State} {r : Nat} {record₀ : ServiceRecord}
    (h : s.records.get r = some record₀) (record : ServiceRecord) (state : ServiceState)
    (q : Nat) :
    (setState s r record state).records.get q =
      if q = r then some { record with state } else s.records.get q :=
  Objects.get_set h _ q

/-- The record exists, and is one of the service. -/
def Named (s : State) (r : Nat) (name : String) : Prop :=
  ∃ record, s.records.get r = some record ∧ record.name = name

theorem Named.eq {s : State} {r : Nat} {name : String} (h : Named s r name)
    {record : ServiceRecord} (hr : s.records.get r = some record) : record.name = name := by
  obtain ⟨record₀, hr₀, hname⟩ := h
  obtain rfl := Option.some.inj (hr.symm.trans hr₀)
  exact hname

theorem Goes.record {s : State} {n : Nat} {c : Call} {timed_out : Bool} {pc : Pc}
    {os : List Obs} (hgo : Goes s n c timed_out pc os) {r : Nat} (hr : pc.record = some r) :
    c.pc.record = some r := by
  cases hgo with
  | registered => cases hr
  | start_accepted r' record h => rw [h]; exact hr
  | start_refused r' record h => rw [h]; exact hr
  | start_raises => cases hr
  | stop_accepted r' record h => rw [h]; exact hr
  | stop_refused r' h => rw [h]; exact hr
  | stop_alive r' h => rw [h]; exact hr
  | stop_wait r' t h => rw [h]; exact hr
  | stop_raises => cases hr
  | stop_joined r' h =>
    rcases h with h | ⟨t, h⟩
    · rw [h]; exact hr
    · rw [h]; exact hr
  | stop_published => cases hr

theorem Begins.record {s : State} {l : Label} {c : Call} (h : Begins s l c) {r : Nat}
    (hr : c.pc.record = some r) : s.registry.get c.name = some r := by
  cases h with
  | missing_keys => cases hr
  | start_unknown => cases hr
  | start name r' h => exact Option.some.inj hr ▸ h
  | stop_unknown => cases hr
  | stop name r' h => exact Option.some.inj hr ▸ h

/-- A call that stands elsewhere accesses the same record. -/
theorem goto_call_record {s s₁ : State} {n : Nat} {c : Call} (hc : s.calls.get n = some c)
    {pc : Pc} {m r : Nat} {c' : Call} (hc' : (goto s₁ n c pc).calls.get m = some c')
    (hr : c'.pc.record = some r) (hcalls : s₁.calls = s.calls)
    (hpc : pc.record = some r → c.pc.record = some r) :
    ∃ c₀, s.calls.get m = some c₀ ∧ c₀.name = c'.name ∧ c₀.pc.record = some r := by
  rw [goto_get (hcalls ▸ hc)] at hc'
  split at hc'
  · next hm =>
    obtain rfl := Option.some.inj hc'
    exact ⟨c, hm ▸ hc, rfl, hpc hr⟩
  · exact ⟨c', hcalls ▸ hc', rfl, hr⟩

/-- A call accesses the record that it accessed before, or has just looked up. -/
theorem step_call_record {s s' : State} {l : Label} {os : List Obs} (hs : Step s l os s')
    {m r : Nat} {c' : Call} (hc' : s'.calls.get m = some c') (hr : c'.pc.record = some r) :
    (∃ c, s.calls.get m = some c ∧ c.name = c'.name ∧ c.pc.record = some r) ∨
      s.registry.get c'.name = some r := by
  cases hs with
  | register name unit =>
    rw [Objects.get_create] at hc'
    split at hc'
    · obtain rfl := Option.some.inj hc'
      cases hr
    · exact Or.inl ⟨c', hc', rfl, hr⟩
  | begins c hbegin =>
    rw [Objects.get_create] at hc'
    split at hc'
    · obtain rfl := Option.some.inj hc'
      exact Or.inr (hbegin.record hr)
    · exact Or.inl ⟨c', hc', rfl, hr⟩
  | goes n b c pc os hc hgo => exact Or.inl (goto_call_record hc hc' hr rfl hgo.record)
  | start_write n b c q record hc hpc =>
    exact Or.inl (goto_call_record hc hc' hr rfl fun h => hpc ▸ h)
  | start_thread n b c q record hc hpc =>
    exact Or.inl (goto_call_record hc hc' hr rfl fun h => hpc ▸ h)
  | launch n b c q record t w hc =>
    exact Or.inl (goto_call_record hc hc' hr rfl fun h => by cases h)
  | stop_write n b c q record hc hpc =>
    exact Or.inl (goto_call_record hc hc' hr rfl fun h => hpc ▸ h)
  | stop_finish n b c q record hc =>
    exact Or.inl (goto_call_record hc hc' hr rfl fun h => by cases h)
  | moves => exact Or.inl ⟨c', hc', rfl, hr⟩
  | runs => exact Or.inl ⟨c', hc', rfl, hr⟩
  | stops => exact Or.inl ⟨c', hc', rfl, hr⟩

/-- A worker that stands elsewhere is on the same record. -/
theorem advance_worker {s s₁ : State} {t : Nat} {w : Worker} (hw : s.workers.get t = some w)
    {pc : WorkerPc} {u : Nat} {w' : Worker} (hw' : (advance s₁ t w pc).workers.get u = some w')
    (hworkers : s₁.workers = s.workers) :
    ∃ w₀, s.workers.get u = some w₀ ∧ w₀.name = w'.name ∧ w₀.record = w'.record := by
  rw [advance_get (hworkers ▸ hw)] at hw'
  split at hw'
  · next hu =>
    obtain rfl := Option.some.inj hw'
    exact ⟨w, hu ▸ hw, rfl, rfl⟩
  · exact ⟨w', hworkers ▸ hw', rfl, rfl⟩

/-- A worker was there before, or a call of `start` has just created it. -/
theorem step_worker {s s' : State} {l : Label} {os : List Obs} (hs : Step s l os s')
    {u : Nat} {w' : Worker} (hw' : s'.workers.get u = some w') :
    (∃ w, s.workers.get u = some w ∧ w.name = w'.name ∧ w.record = w'.record) ∨
      ∃ n c, s.calls.get n = some c ∧ c.pc = .start_thread w'.record ∧ c.name = w'.name := by
  cases hs with
  | register => exact Or.inl ⟨w', hw', rfl, rfl⟩
  | begins => exact Or.inl ⟨w', hw', rfl, rfl⟩
  | goes => exact Or.inl ⟨w', hw', rfl, rfl⟩
  | start_write => exact Or.inl ⟨w', hw', rfl, rfl⟩
  | start_thread n b c r record hc hpc =>
    simp only [goto_workers, Objects.get_create] at hw'
    split at hw'
    · obtain rfl := Option.some.inj hw'
      exact Or.inr ⟨n, c, hc, hpc, rfl⟩
    · exact Or.inl ⟨w', hw', rfl, rfl⟩
  | launch n b c r record t w hc hpc hr ht hw => exact Or.inl (advance_worker hw hw' rfl)
  | stop_write => exact Or.inl ⟨w', hw', rfl, rfl⟩
  | stop_finish => exact Or.inl ⟨w', hw', rfl, rfl⟩
  | moves t _ _ w pc os hw => exact Or.inl (advance_worker hw hw' rfl)
  | runs t _ _ w record hw => exact Or.inl (advance_worker hw hw' rfl)
  | stops t _ _ w record hw => exact Or.inl (advance_worker hw hw' rfl)

/-- What happens to a record: it stays, its state is written, it gets a thread. -/
theorem step_record {s s' : State} {l : Label} {os : List Obs} (hs : Step s l os s')
    {r : Nat} {record : ServiceRecord} (hr : s.records.get r = some record) :
    ∃ record', s'.records.get r = some record' ∧ record'.name = record.name ∧
      (record'.thread = record.thread ∨
        ∃ t w, record'.thread = some t ∧ s'.workers.get t = some w ∧ w.record = r) := by
  have hwrite : ∀ {q : Nat} {record₀ : ServiceRecord} (state : ServiceState),
      s.records.get q = some record₀ →
      ∃ record', (setState s q record₀ state).records.get r = some record' ∧
        record'.name = record.name ∧ record'.thread = record.thread := by
    intro q record₀ state hq
    rw [setState_get hq]
    by_cases h : r = q
    · obtain rfl : record = record₀ := Option.some.inj (hr.symm.trans (h ▸ hq))
      exact ⟨_, if_pos h, rfl, rfl⟩
    · exact ⟨record, by rw [if_neg h, hr], rfl, rfl⟩
  cases hs with
  | register => exact ⟨record, Objects.get_create_of_get hr _, rfl, Or.inl rfl⟩
  | begins => exact ⟨record, hr, rfl, Or.inl rfl⟩
  | goes => exact ⟨record, hr, rfl, Or.inl rfl⟩
  | start_write n b c q record₀ hc hpc hq =>
    obtain ⟨record', hget, hname, hthread⟩ := hwrite .STARTING hq
    exact ⟨record', hget, hname, Or.inl hthread⟩
  | start_thread n b c q record₀ hc hpc hq =>
    by_cases h : r = q
    · obtain rfl : record = record₀ := Option.some.inj (hr.symm.trans (h ▸ hq))
      refine ⟨{ record with thread := some s.workers.next }, ?_, rfl,
        Or.inr ⟨s.workers.next, _, rfl, Objects.get_create_self .., h.symm⟩⟩
      exact (Objects.get_set hq _ r).trans (if_pos h)
    · exact ⟨record, (Objects.get_set hq _ r).trans ((if_neg h).trans hr), rfl, Or.inl rfl⟩
  | launch => exact ⟨record, hr, rfl, Or.inl rfl⟩
  | stop_write n b c q record₀ hc hpc hq =>
    obtain ⟨record', hget, hname, hthread⟩ := hwrite .STOPPING hq
    exact ⟨record', hget, hname, Or.inl hthread⟩
  | stop_finish n b c q record₀ hc hpc hq =>
    obtain ⟨record', hget, hname, hthread⟩ := hwrite .STOPPED hq
    exact ⟨record', hget, hname, Or.inl hthread⟩
  | moves => exact ⟨record, hr, rfl, Or.inl rfl⟩
  | runs t _ _ w record₀ hw hpc hq =>
    obtain ⟨record', hget, hname, hthread⟩ := hwrite .RUNNING hq
    exact ⟨record', hget, hname, Or.inl hthread⟩
  | stops t _ _ w record₀ hw hpc hq =>
    obtain ⟨record', hget, hname, hthread⟩ := hwrite .STOPPED hq
    exact ⟨record', hget, hname, Or.inl hthread⟩

theorem advance_stays {s s₁ : State} {t : Nat} {w : Worker} (hw : s.workers.get t = some w)
    {u : Nat} {w' : Worker} (hw' : s.workers.get u = some w') (pc : WorkerPc)
    (hworkers : s₁.workers = s.workers) :
    ∃ w₁, (advance s₁ t w pc).workers.get u = some w₁ ∧ w₁.record = w'.record := by
  rw [advance_get (hworkers ▸ hw)]
  by_cases h : u = t
  · obtain rfl : w' = w := Option.some.inj (hw'.symm.trans (h ▸ hw))
    exact ⟨_, if_pos h, rfl⟩
  · exact ⟨w', by rw [if_neg h, hworkers, hw'], rfl⟩

/-- A worker stays on its record. -/
theorem step_worker_stays {s s' : State} {l : Label} {os : List Obs} (hs : Step s l os s')
    {u : Nat} {w : Worker} (hw : s.workers.get u = some w) :
    ∃ w', s'.workers.get u = some w' ∧ w'.record = w.record := by
  cases hs with
  | register => exact ⟨w, hw, rfl⟩
  | begins => exact ⟨w, hw, rfl⟩
  | goes => exact ⟨w, hw, rfl⟩
  | start_write => exact ⟨w, hw, rfl⟩
  | start_thread => exact ⟨w, Objects.get_create_of_get hw _, rfl⟩
  | launch n b c r record t w₀ hc hpc hr ht hw₀ => exact advance_stays hw₀ hw _ rfl
  | stop_write => exact ⟨w, hw, rfl⟩
  | stop_finish => exact ⟨w, hw, rfl⟩
  | moves t _ _ w₀ pc os hw₀ => exact advance_stays hw₀ hw _ rfl
  | runs t _ _ w₀ record hw₀ => exact advance_stays hw₀ hw _ rfl
  | stops t _ _ w₀ record hw₀ => exact advance_stays hw₀ hw _ rfl

/-- A record was there before, or has just been registered. -/
theorem step_record_new {s s' : State} {l : Label} {os : List Obs} (hs : Step s l os s')
    {r : Nat} {record' : ServiceRecord} (hr : s'.records.get r = some record') :
    (∃ record, s.records.get r = some record) ∨ record'.thread = none := by
  have hset : ∀ {q : Nat} {record₀ record₁ : ServiceRecord}, s.records.get q = some record₀ →
      (s.records.set q record₁).get r = some record' → ∃ record, s.records.get r = some record := by
    intro q record₀ record₁ hq hget
    rw [Objects.get_set hq] at hget
    split at hget
    · next h => exact ⟨record₀, h ▸ hq⟩
    · exact ⟨record', hget⟩
  cases hs with
  | register =>
    rw [Objects.get_create] at hr
    split at hr
    · exact Or.inr (Option.some.inj hr ▸ rfl)
    · exact Or.inl ⟨record', hr⟩
  | begins => exact Or.inl ⟨record', hr⟩
  | goes => exact Or.inl ⟨record', hr⟩
  | start_write n b c q record₀ hc hpc hq => exact Or.inl (hset hq hr)
  | start_thread n b c q record₀ hc hpc hq => exact Or.inl (hset hq hr)
  | launch => exact Or.inl ⟨record', hr⟩
  | stop_write n b c q record₀ hc hpc hq => exact Or.inl (hset hq hr)
  | stop_finish n b c q record₀ hc hpc hq => exact Or.inl (hset hq hr)
  | moves => exact Or.inl ⟨record', hr⟩
  | runs t _ _ w record₀ hw hpc hq => exact Or.inl (hset hq hr)
  | stops t _ _ w record₀ hw hpc hq => exact Or.inl (hset hq hr)

/-- A name stays with its record, or gets the one that is registered. -/
theorem step_registry {s s' : State} {l : Label} {os : List Obs} (hs : Step s l os s')
    {name : String} {r : Nat} (hr : s'.registry.get name = some r) :
    s.registry.get name = some r ∨
      (∃ unit, l = .register name unit) ∧ r = s.records.next ∧ Named s' r name := by
  cases hs with
  | register name' unit h =>
    rw [Dict.get_set] at hr
    split at hr
    · next heq =>
      obtain rfl := Option.some.inj hr
      exact Or.inr ⟨⟨unit, heq ▸ rfl⟩, rfl, _, Objects.get_create_self .., heq.symm⟩
    · exact Or.inl hr
  | _ => exact Or.inl hr

/-- A name that is registered stays registered. -/
theorem step_registered {s s' : State} {l : Label} {os : List Obs} (hs : Step s l os s')
    {name : String} (h : (s.registry.get name).isSome) : (s'.registry.get name).isSome := by
  cases hs with
  | register name' unit =>
    rw [Dict.get_set]
    split
    · rfl
    · exact h
  | _ => exact h

/-- The state of a record stays, or is written, or the record is new. -/
theorem step_state {s s' : State} {l : Label} {os : List Obs} (hs : Step s l os s')
    {r : Nat} {record' : ServiceRecord} (hr : s'.records.get r = some record') :
    (∃ record, s.records.get r = some record ∧ record.state = record'.state) ∨
      (∃ source old, os = [.wrote source record'.name r old record'.state] ∧
        record'.state ≠ .REGISTERED) ∨
      record'.state = .REGISTERED ∧ r = s.records.next := by
  have hwrite : ∀ {q : Nat} {record : ServiceRecord} {state : ServiceState} {source : Source},
      s.records.get q = some record → state ≠ .REGISTERED →
      (setState s q record state).records.get r = some record' →
      (∃ record, s.records.get r = some record ∧ record.state = record'.state) ∨
        ∃ src old, [Obs.wrote source record.name q record.state state] =
          [.wrote src record'.name r old record'.state] ∧ record'.state ≠ .REGISTERED := by
    intro q record state source hq hstate hget
    rw [setState_get hq] at hget
    split at hget
    · next heq =>
      obtain rfl := Option.some.inj hget
      exact Or.inr ⟨source, record.state, by rw [heq], hstate⟩
    · exact Or.inl ⟨record', hget, rfl⟩
  cases hs with
  | register =>
    rw [Objects.get_create] at hr
    split at hr
    · next heq => exact Or.inr (Or.inr ⟨Option.some.inj hr ▸ rfl, heq⟩)
    · exact Or.inl ⟨record', hr, rfl⟩
  | begins => exact Or.inl ⟨record', hr, rfl⟩
  | goes => exact Or.inl ⟨record', hr, rfl⟩
  | start_write n b c q record hc hpc hq => exact (hwrite hq (by simp) hr).imp_right Or.inl
  | start_thread n b c q record hc hpc hq =>
    rw [goto_records] at hr
    rcases (Objects.get_set hq _ r).symm.trans hr with hget
    split at hget
    · next heq =>
      obtain rfl := Option.some.inj hget
      exact Or.inl ⟨record, heq ▸ hq, rfl⟩
    · exact Or.inl ⟨record', hget, rfl⟩
  | launch => exact Or.inl ⟨record', hr, rfl⟩
  | stop_write n b c q record hc hpc hq => exact (hwrite hq (by simp) hr).imp_right Or.inl
  | stop_finish n b c q record hc hpc hq => exact (hwrite hq (by simp) hr).imp_right Or.inl
  | moves => exact Or.inl ⟨record', hr, rfl⟩
  | runs t _ _ w record hw hpc hq => exact (hwrite hq (by simp) hr).imp_right Or.inl
  | stops t _ _ w record hw hpc hq => exact (hwrite hq (by simp) hr).imp_right Or.inl

/-- A call stays where it is, or a step of it goes on. -/
theorem step_call {s s' : State} {l : Label} {os : List Obs} (hs : Step s l os s') {m : Nat}
    {c : Call} (hc : s.calls.get m = some c) :
    ∃ c', s'.calls.get m = some c' ∧ c'.name = c.name ∧
      (c'.pc = c.pc ∨ ∃ timed_out, l = .call m timed_out) := by
  have hgoto : ∀ {s₁ : State} {n : Nat} {b : Bool} {c₀ : Call} (pc : Pc),
      s.calls.get n = some c₀ → s₁.calls = s.calls →
      ∃ c', (goto s₁ n c₀ pc).calls.get m = some c' ∧ c'.name = c.name ∧
        (c'.pc = c.pc ∨ ∃ timed_out, Label.call n b = .call m timed_out) := by
    intro s₁ n b c₀ pc hn hcalls
    rw [goto_get (hcalls ▸ hn), hcalls]
    by_cases h : m = n
    · obtain rfl : c = c₀ := Option.some.inj (hc.symm.trans (h ▸ hn))
      exact ⟨_, if_pos h, rfl, Or.inr ⟨b, by rw [h]⟩⟩
    · exact ⟨c, by rw [if_neg h, hc], rfl, Or.inl rfl⟩
  cases hs with
  | register => exact ⟨c, Objects.get_create_of_get hc _, rfl, Or.inl rfl⟩
  | begins => exact ⟨c, Objects.get_create_of_get hc _, rfl, Or.inl rfl⟩
  | goes n b c₀ pc os hn => exact hgoto pc hn rfl
  | start_write n b c₀ r record hn => exact hgoto _ hn rfl
  | start_thread n b c₀ r record hn => exact hgoto _ hn rfl
  | launch n b c₀ r record t w hn => exact hgoto _ hn rfl
  | stop_write n b c₀ r record hn => exact hgoto _ hn rfl
  | stop_finish n b c₀ r record hn => exact hgoto _ hn rfl
  | moves => exact ⟨c, hc, rfl, Or.inl rfl⟩
  | runs => exact ⟨c, hc, rfl, Or.inl rfl⟩
  | stops => exact ⟨c, hc, rfl, Or.inl rfl⟩

/-- The record whose state a call of `start` is about to test, or has tested
    last. -/
def Pc.checking : Pc → Option Nat
  | .start_check r => some r
  | .start_write r => some r
  | _ => none

/-- A call of `start` stays on the record that it tests, until it has written
    `STARTING` or has found that it cannot start it. -/
structure Checked (s' : State) (pc pc' : Pc) : Prop where
  same : ∀ r, pc'.checking = some r → pc.checking = some r
  settled : ∀ r, pc.checking = some r → pc'.checking = none →
    ∃ record, s'.records.get r = some record ∧ record.state ≠ .REGISTERED ∧
      record.state ≠ .STOPPED

theorem Checked.of_none {s' : State} {pc pc' : Pc} (h : pc.checking = none)
    (h' : pc'.checking = none) : Checked s' pc pc' := by
  constructor
  · intro r hr
    rw [h'] at hr
    cases hr
  · intro r hr
    rw [h] at hr
    cases hr

theorem Goes.checked {s : State} {n : Nat} {c : Call} {timed_out : Bool} {pc : Pc}
    {os : List Obs} (hgo : Goes s n c timed_out pc os) : Checked s c.pc pc := by
  cases hgo with
  | registered h => exact .of_none (by rw [h]; rfl) rfl
  | start_accepted r record h =>
    rw [h]
    exact ⟨fun _ hq => hq, fun _ _ hnone => by cases hnone⟩
  | start_refused r record h hr hstate =>
    rw [h]
    constructor
    · intro q hq
      cases hq
    · intro q hq _
      cases hq
      exact ⟨record, hr, not_or.mp hstate⟩
  | start_raises r e h => exact .of_none (by rcases h with h | h <;> rw [h] <;> rfl) rfl
  | stop_accepted r record h => exact .of_none (by rw [h]; rfl) rfl
  | stop_refused r h => exact .of_none (by rw [h]; rfl) rfl
  | stop_alive r h => exact .of_none (by rw [h]; rfl) rfl
  | stop_wait r t h => exact .of_none (by rw [h]; rfl) rfl
  | stop_raises r e h => exact .of_none (by rcases h with h | h <;> rw [h] <;> rfl) rfl
  | stop_joined r h => exact .of_none (by rcases h with h | ⟨t, h⟩ <;> rw [h] <;> rfl) rfl
  | stop_published h => exact .of_none (by rw [h]; rfl) rfl

theorem step_checked {s s' : State} {l : Label} {os : List Obs} (hs : Step s l os s') {m : Nat}
    {c c' : Call} (hc : s.calls.get m = some c) (hc' : s'.calls.get m = some c') :
    Checked s' c.pc c'.pc := by
  obtain ⟨c₁, hc₁, -, hpc⟩ := step_call hs hc
  obtain rfl := Option.some.inj (hc₁.symm.trans hc')
  rcases hpc with hpc | ⟨b, rfl⟩
  · rw [hpc]
    exact ⟨fun _ hr => hr, fun r hr hnone => absurd (hr.symm.trans hnone) (by simp)⟩
  · -- the call goes on
    have hmoved : ∀ {s₁ : State} {c₀ : Call} {pc : Pc}, s.calls.get m = some c₀ →
        s₁.calls = s.calls → (goto s₁ m c₀ pc).calls.get m = some c₁ → c₀ = c ∧ c₁.pc = pc := by
      intro s₁ c₀ pc hm hcalls hget
      rw [goto_get (hcalls ▸ hm), if_pos rfl] at hget
      exact ⟨Option.some.inj (hm.symm.trans hc), Option.some.inj hget ▸ rfl⟩
    cases hs with
    | begins c hbegin => cases hbegin
    | goes _ _ c₀ pc os hm hgo =>
      obtain ⟨rfl, hpc⟩ := hmoved hm rfl hc₁
      rw [hpc]
      exact ⟨hgo.checked.same, hgo.checked.settled⟩
    | start_write _ _ c₀ r record hm hpc hr =>
      obtain ⟨rfl, hpc'⟩ := hmoved hm rfl hc₁
      rw [hpc, hpc']
      constructor
      · intro q hq
        cases hq
      · intro q hq _
        cases hq
        exact ⟨_, (setState_get hr _ _ r).trans (if_pos rfl), by simp⟩
    | start_thread _ _ c₀ r record hm hpc =>
      obtain ⟨rfl, hpc'⟩ := hmoved hm rfl hc₁
      exact .of_none (by rw [hpc]; rfl) (by rw [hpc']; rfl)
    | launch _ _ c₀ r record t w hm hpc =>
      obtain ⟨rfl, hpc'⟩ := hmoved hm rfl hc₁
      exact .of_none (by rw [hpc]; rfl) (by rw [hpc']; rfl)
    | stop_write _ _ c₀ r record hm hpc =>
      obtain ⟨rfl, hpc'⟩ := hmoved hm rfl hc₁
      exact .of_none (by rw [hpc]; rfl) (by rw [hpc']; rfl)
    | stop_finish _ _ c₀ r record hm hpc =>
      obtain ⟨rfl, hpc'⟩ := hmoved hm rfl hc₁
      exact .of_none (by rw [hpc]; rfl) (by rw [hpc']; rfl)

/-- A call that is about to publish its registration was so before, or has just
    registered. -/
theorem step_registering {s s' : State} {l : Label} {os : List Obs} (hs : Step s l os s')
    {m : Nat} {c' : Call} (hc' : s'.calls.get m = some c') (hpc : c'.pc = .register_publish) :
    s.calls.get m = some c' ∨ (s'.registry.get c'.name).isSome := by
  have hgoto : ∀ {s₁ : State} {n : Nat} {c₀ : Call} {pc : Pc}, s.calls.get n = some c₀ →
      s₁.calls = s.calls → (goto s₁ n c₀ pc).calls.get m = some c' → pc ≠ .register_publish →
      s.calls.get m = some c' := by
    intro s₁ n c₀ pc hn hcalls hget hne
    rw [goto_get (hcalls ▸ hn), hcalls] at hget
    split at hget
    · obtain rfl := Option.some.inj hget
      exact absurd hpc hne
    · exact hget
  cases hs with
  | register name unit =>
    rw [Objects.get_create] at hc'
    split at hc'
    · obtain rfl := Option.some.inj hc'
      exact Or.inr (by simp)
    · exact Or.inl hc'
  | begins c hbegin =>
    rw [Objects.get_create] at hc'
    split at hc'
    · obtain rfl := Option.some.inj hc'
      cases hbegin <;> cases hpc
    · exact Or.inl hc'
  | goes n b c₀ pc os hn hgo => exact Or.inl (hgoto hn rfl hc' (by cases hgo <;> simp))
  | start_write n b c₀ r record hn => exact Or.inl (hgoto hn rfl hc' (by simp))
  | start_thread n b c₀ r record hn => exact Or.inl (hgoto hn rfl hc' (by simp))
  | launch n b c₀ r record t w hn => exact Or.inl (hgoto hn rfl hc' (by simp))
  | stop_write n b c₀ r record hn => exact Or.inl (hgoto hn rfl hc' (by simp))
  | stop_finish n b c₀ r record hn => exact Or.inl (hgoto hn rfl hc' (by simp))
  | moves => exact Or.inl hc'
  | runs => exact Or.inl hc'
  | stops => exact Or.inl hc'

/-! ### Well-formed states -/

/-- What is referred to exists, and is of the same service. -/
structure WellFormed (s : State) : Prop where
  registry : ∀ name r, s.registry.get name = some r → Named s r name
  calls : ∀ n c r, s.calls.get n = some c → c.pc.record = some r → Named s r c.name
  workers : ∀ t w, s.workers.get t = some w → Named s w.record w.name
  threads : ∀ r record t, s.records.get r = some record → record.thread = some t →
    ∃ w, s.workers.get t = some w ∧ w.record = r

/-- The thread of a record is a worker on the record. -/
theorem WellFormed.thread_record {s : State} (h : WellFormed s) {r t : Nat}
    {record : ServiceRecord} (hr : s.records.get r = some record) (ht : record.thread = some t)
    {w : Worker} (hw : s.workers.get t = some w) : w.record = r := by
  obtain ⟨w₀, hw₀, hrecord⟩ := h.threads r record t hr ht
  obtain rfl := Option.some.inj (hw.symm.trans hw₀)
  exact hrecord

theorem init_wellFormed : WellFormed init := by
  constructor
  · intro name r h
    cases h
  · intro n c r h
    cases h
  · intro t w h
    cases h
  · intro r record t h
    cases h

theorem step_named {s s' : State} {l : Label} {os : List Obs} (hs : Step s l os s') {r : Nat}
    {name : String} (h : Named s r name) : Named s' r name := by
  obtain ⟨record, hr, hname⟩ := h
  obtain ⟨record', hr', hname', -⟩ := step_record hs hr
  exact ⟨record', hr', hname'.trans hname⟩

theorem step_wellFormed {s s' : State} {l : Label} {os : List Obs} (hs : Step s l os s')
    (h : WellFormed s) : WellFormed s' := by
  constructor
  · intro name r hr
    rcases step_registry hs hr with hr | ⟨-, -, hnamed⟩
    · exact step_named hs (h.registry name r hr)
    · exact hnamed
  · intro n c' r hc' hr
    -- what a call has looked up stays of its service, registered or not
    rcases step_call_record hs hc' hr with ⟨c, hc, hname, hrecord⟩ | hregistry
    · exact hname ▸ step_named hs (h.calls n c r hc hrecord)
    · exact step_named hs (h.registry c'.name r hregistry)
  · intro t w' hw'
    rcases step_worker hs hw' with ⟨w, hw, hname, hrecord⟩ | ⟨n, c, hc, hpc, hname⟩
    · rw [← hname, ← hrecord]
      exact step_named hs (h.workers t w hw)
    · rw [← hname]
      exact step_named hs (h.calls n c w'.record hc (by rw [hpc]; rfl))
  · intro r record' t hr' ht
    rcases step_record_new hs hr' with ⟨record, hr⟩ | hnone
    · -- the thread was there before, or has just been created for the record
      obtain ⟨record₁, hr₁, -, hthread⟩ := step_record hs hr
      obtain rfl := Option.some.inj (hr'.symm.trans hr₁)
      rcases hthread with hsame | ⟨t', w, ht', hw, hrecord⟩
      · obtain ⟨w, hw, hrecord⟩ := h.threads r record t hr (hsame ▸ ht)
        obtain ⟨w', hw', hrecord'⟩ := step_worker_stays hs hw
        exact ⟨w', hw', hrecord'.trans hrecord⟩
      · obtain rfl := Option.some.inj (ht.symm.trans ht')
        exact ⟨w, hw, hrecord⟩
    · rw [hnone] at ht
      cases ht

theorem run_wellFormed {ls : List Label} {s : State} {tr : List Obs}
    (hrun : machine.run init ls = some (s, tr)) : WellFormed s :=
  machine.run_invariant init_wellFormed (fun _ _ _ _ h hs => step_wellFormed (step_sound hs) h)
    hrun

end ServiceManager
