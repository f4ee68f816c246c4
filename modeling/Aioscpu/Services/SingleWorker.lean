import Aioscpu.Services.ManagerFrames

/-! # Single Worker

  A record is occupied from the moment a call of `start` writes `STARTING`
  until its worker writes `STOPPED`. As long as

  - no call of `stop` writes `STOPPED` over an occupied record,
  - no service is registered again whose worker may yet execute, and
  - no call of `start` goes on when what it has tested does not hold any more,

  every record has one occupant at most, and a service whose worker executes
  its entrypoint is shown as running or stopping.
-/

namespace ServiceManager

/-! ### Occupied records -/

/-- The worker has not yet written `STOPPED`. -/
def Worker.busy (w : Worker) : Prop :=
  w.pc ∈ [.launched, .running, .announced, .executing, .ended]

/-- The worker has written `RUNNING`, and its entrypoint has not ended. -/
def Worker.showing (w : Worker) : Prop := w.pc ∈ [.running, .announced, .executing]

instance (w : Worker) : Decidable w.busy := inferInstanceAs (Decidable (_ ∈ _))

instance (w : Worker) : Decidable w.showing := inferInstanceAs (Decidable (_ ∈ _))

/-- The call is between the write of `STARTING` and the start of the thread. -/
def Pc.starting (r : Nat) (pc : Pc) : Prop := pc = .start_thread r ∨ pc = .start_launch r

/-- A call or a worker that occupies the record. -/
inductive Occupies (s : State) (r : Nat) : Source → Prop where
  | call {n : Nat} {c : Call} (hc : s.calls.get n = some c) (hpc : c.pc.starting r) :
      Occupies s r (.call n)
  | worker {t : Nat} {w : Worker} (hw : s.workers.get t = some w) (hr : w.record = r)
      (hbusy : w.busy) : Occupies s r (.worker t)

/-- A worker whose entrypoint has ended. -/
def Ended (s : State) (a : Source) : Prop :=
  ∃ t w, a = .worker t ∧ s.workers.get t = some w ∧ w.pc = .ended

/-- The worker is inside the entrypoint of the service. -/
def Executing (s : State) (name : String) (t : Nat) : Prop :=
  ∃ w, s.workers.get t = some w ∧ w.name = name ∧ w.pc = .executing

theorem occupies_goto {s : State} {n : Nat} {c : Call} {pc : Pc} {r : Nat} {a : Source}
    (h : Occupies (goto s n c pc) r a) {c₀ : Call} (hc : s.calls.get n = some c₀) :
    (a = .call n ∧ pc.starting r) ∨ (a ≠ .call n ∧ Occupies s r a) := by
  cases h with
  | call hc' hpc =>
    rw [goto_get hc] at hc'
    split at hc'
    · next heq =>
      obtain rfl := Option.some.inj hc'
      exact Or.inl ⟨heq ▸ rfl, hpc⟩
    · next hne => exact Or.inr ⟨fun heq => hne (Source.call.inj heq), .call hc' hpc⟩
  | worker hw hr hbusy => exact Or.inr ⟨Source.noConfusion, .worker hw hr hbusy⟩

theorem occupies_advance {s : State} {t : Nat} {w : Worker} {pc : WorkerPc} {r : Nat}
    {a : Source} (h : Occupies (advance s t w pc) r a) {w₀ : Worker}
    (hw : s.workers.get t = some w₀) :
    (a = .worker t ∧ w.record = r ∧ Worker.busy { w with pc }) ∨
      (a ≠ .worker t ∧ Occupies s r a) := by
  cases h with
  | call hc hpc => exact Or.inr ⟨Source.noConfusion, .call hc hpc⟩
  | worker hw' hr hbusy =>
    rw [advance_get hw] at hw'
    split at hw'
    · next heq =>
      obtain rfl := Option.some.inj hw'
      exact Or.inl ⟨heq ▸ rfl, hr, hbusy⟩
    · next hne => exact Or.inr ⟨fun heq => hne (Source.worker.inj heq), .worker hw' hr hbusy⟩

theorem occupies_setState {s : State} {q : Nat} {record : ServiceRecord} {state : ServiceState}
    {r : Nat} {a : Source} (h : Occupies (setState s q record state) r a) : Occupies s r a := by
  cases h with
  | call hc hpc => exact .call hc hpc
  | worker hw hr hbusy => exact .worker hw hr hbusy

/-! ### The invariant -/

structure Single (s : State) : Prop where
  unique : ∀ r a b, Occupies s r a → Occupies s r b → a = b
  /-- A worker that may yet execute is on the record that is registered. -/
  current : ∀ r a name, Occupies s r a → ¬ Ended s a → Named s r name →
    s.registry.get name = some r
  /-- An occupied record that is registered cannot be started. -/
  locked : ∀ r a name record, Occupies s r a → s.registry.get name = some r →
    s.records.get r = some record → record.state ≠ .REGISTERED ∧ record.state ≠ .STOPPED
  shown : ∀ t w record, s.workers.get t = some w → w.showing →
    s.records.get w.record = some record → record.state = .RUNNING ∨ record.state = .STOPPING

/-- Nothing on the record may yet execute. -/
def Finished (s : State) (r : Nat) : Prop := ∀ a, Occupies s r a → Ended s a

/-- The conditions on a step of a call. -/
def CarefulCall (s : State) (c : Call) : Prop :=
  match c.pc with
  | .start_write r => s.registry.get c.name = some r ∧
      ∀ record ∈ s.records.get r, record.state = .REGISTERED ∨ record.state = .STOPPED
  | .stop_finish r => s.registry.get c.name = some r → ∀ a, ¬ Occupies s r a
  | _ => True

/-- The conditions on a step. -/
def Careful (s : State) : Label → Prop
  | .register name unit => missing unit = ∅ → ∀ r ∈ s.registry.get name, Finished s r
  | .call n _ => ∀ c ∈ s.calls.get n, CarefulCall s c
  | _ => True

/-- A showing worker occupies its record, and has not ended. -/
theorem showing_occupies {s : State} {t : Nat} {w : Worker} (hw : s.workers.get t = some w)
    (hshowing : w.showing) : Occupies s w.record (.worker t) ∧ ¬ Ended s (.worker t) := by
  constructor
  · refine .worker hw rfl ?_
    revert hshowing
    unfold Worker.showing Worker.busy
    cases w.pc <;> simp
  · rintro ⟨t', w', heq, hw', hended⟩
    obtain rfl := Source.worker.inj heq
    obtain rfl := Option.some.inj (hw.symm.trans hw')
    simp [Worker.showing, hended] at hshowing

/-- The state may stand in the record as far as its occupants go. -/
structure Allowed (s : State) (r : Nat) (state : ServiceState) : Prop where
  locked : ∀ a name, Occupies s r a → s.registry.get name = some r →
    state ≠ .REGISTERED ∧ state ≠ .STOPPED
  shown : ∀ t w, s.workers.get t = some w → w.record = r → w.showing →
    state = .RUNNING ∨ state = .STOPPING

/-- What was allowed before is allowed, if no occupant is new. -/
theorem Single.allowed {s s' : State} (h : Single s) {r : Nat} {record : ServiceRecord}
    (hr : s.records.get r = some record) (hregistry : s'.registry = s.registry)
    (hocc : ∀ a, Occupies s' r a → ∃ b, Occupies s r b)
    (hshow : ∀ t w', s'.workers.get t = some w' → w'.record = r → w'.showing →
      ∃ u w, s.workers.get u = some w ∧ w.record = r ∧ w.showing) :
    Allowed s' r record.state := by
  constructor
  · intro a name hoccupied hname
    obtain ⟨b, hb⟩ := hocc a hoccupied
    exact h.locked r b name record hb (hregistry ▸ hname) hr
  · intro t w' hw' hrecord hshowing
    obtain ⟨u, w, hw, rfl, hshowing⟩ := hshow t w' hw' hrecord hshowing
    exact h.shown u w record hw hshowing hr

/-- The rule for the steps that leave the registry alone. -/
theorem Single.of_step {s s' : State} (h : Single s) (hregistry : s'.registry = s.registry)
    (hunique : ∀ r a b, Occupies s' r a → Occupies s' r b → a = b)
    (hcurrent : ∀ r a, Occupies s' r a → ¬ Ended s' a →
      (∃ b, Occupies s r b ∧ ¬ Ended s b) ∨ ∀ name, Named s r name → s.registry.get name = some r)
    (hrecords : ∀ r record', s'.records.get r = some record' →
      Allowed s' r record'.state ∧ Named s r record'.name) : Single s' := by
  refine ⟨hunique, ?_, ?_, ?_⟩
  · rintro r a name hocc hended ⟨record', hr', rfl⟩
    rw [hregistry]
    have hnamed := (hrecords r record' hr').2
    rcases hcurrent r a hocc hended with ⟨b, hb, hbended⟩ | hname
    · exact h.current r b _ hb hbended hnamed
    · exact hname _ hnamed
  · intro r a name record' hocc hname hr'
    exact (hrecords r record' hr').1.locked a name hocc hname
  · intro t w record' hw hshowing hr'
    exact (hrecords w.record record' hr').1.shown t w hw rfl hshowing

/-- The rule for the steps that write no state and bring no occupant. -/
theorem Single.quiet {s s' : State} (h : Single s) (hregistry : s'.registry = s.registry)
    (hocc : ∀ r a, Occupies s' r a → Occupies s r a ∧ (Ended s a → Ended s' a))
    (hrecords : ∀ r record', s'.records.get r = some record' →
      ∃ record, s.records.get r = some record ∧ record.name = record'.name ∧
        record.state = record'.state)
    (hshow : ∀ t w', s'.workers.get t = some w' → w'.showing →
      ∃ w, s.workers.get t = some w ∧ w.record = w'.record ∧ w.showing) : Single s' := by
  refine h.of_step hregistry ?_ ?_ ?_
  · intro r a b ha hb
    exact h.unique r a b (hocc r a ha).1 (hocc r b hb).1
  · intro r a ha hended
    exact Or.inl ⟨a, (hocc r a ha).1, fun hend => hended ((hocc r a ha).2 hend)⟩
  · intro r record' hr'
    obtain ⟨record, hr, hname, hstate⟩ := hrecords r record' hr'
    refine ⟨?_, record, hr, hname⟩
    rw [← hstate]
    refine h.allowed hr hregistry (fun a ha => ⟨a, (hocc r a ha).1⟩) ?_
    intro t w' hw' hrecord hshowing
    obtain ⟨w, hw, hsame, hshowing⟩ := hshow t w' hw' hshowing
    exact ⟨t, w, hw, hsame.trans hrecord, hshowing⟩

/-- The rule for the steps that write the state of a record. -/
theorem Single.write {s s' : State} (h : Single s) {q : Nat} {record : ServiceRecord}
    {state : ServiceState} (hq : s.records.get q = some record)
    (hregistry : s'.registry = s.registry)
    (hrecords : s'.records = (setState s q record state).records)
    (hunique : ∀ a b, Occupies s' q a → Occupies s' q b → a = b)
    (hcurrent : ∀ a, Occupies s' q a → ¬ Ended s' a →
      (∃ b, Occupies s q b ∧ ¬ Ended s b) ∨ ∀ name, Named s q name → s.registry.get name = some q)
    (hocc : ∀ r a, r ≠ q → Occupies s' r a → Occupies s r a ∧ (Ended s a → Ended s' a))
    (hshow : ∀ t w', s'.workers.get t = some w' → w'.record ≠ q → w'.showing →
      ∃ w, s.workers.get t = some w ∧ w.record = w'.record ∧ w.showing)
    (hallowed : Allowed s' q state) : Single s' := by
  refine h.of_step hregistry ?_ ?_ ?_
  · intro r a b ha hb
    by_cases hr : r = q
    · subst hr
      exact hunique a b ha hb
    · exact h.unique r a b (hocc r a hr ha).1 (hocc r b hr hb).1
  · intro r a ha hended
    by_cases hr : r = q
    · subst hr
      exact hcurrent a ha hended
    · exact Or.inl ⟨a, (hocc r a hr ha).1, fun hend => hended ((hocc r a hr ha).2 hend)⟩
  · intro r record' hr'
    rw [hrecords, setState_get hq] at hr'
    split at hr'
    · next hr =>
      obtain rfl := Option.some.inj hr'
      subst hr
      exact ⟨hallowed, record, hq, rfl⟩
    · next hr =>
      refine ⟨?_, record', hr', rfl⟩
      refine h.allowed hr' hregistry (fun a ha => ⟨a, (hocc r a hr ha).1⟩) ?_
      intro t w' hw' hrecord hshowing
      obtain ⟨w, hw, hsame, hshowing⟩ := hshow t w' hw' (hrecord ▸ hr) hshowing
      exact ⟨t, w, hw, hsame.trans hrecord, hshowing⟩

/-! ### Steps -/

theorem Goes.not_starting {s : State} {n : Nat} {c : Call} {timed_out : Bool} {pc : Pc}
    {os : List Obs} (hgo : Goes s n c timed_out pc os) (r : Nat) : ¬ pc.starting r := by
  cases hgo <;> simp [Pc.starting]

/-- A frame that is created occupies nothing. -/
theorem occupies_create {s : State} {c : Call} (hc : ∀ r, ¬ c.pc.starting r) {r : Nat}
    {a : Source} (h : Occupies { s with calls := s.calls.create c } r a) : Occupies s r a := by
  cases h with
  | call hc' hpc =>
    rw [Objects.get_create] at hc'
    split at hc'
    · obtain rfl := Option.some.inj hc'
      exact absurd hpc (hc r)
    · exact .call hc' hpc
  | worker hw hr hbusy => exact .worker hw hr hbusy

theorem Begins.not_starting {s : State} {l : Label} {c : Call} (h : Begins s l c) (r : Nat) :
    ¬ c.pc.starting r := by
  cases h <;> simp [Pc.starting]

theorem occupies_exists {s : State} (hwf : WellFormed s) {r : Nat} {a : Source}
    (h : Occupies s r a) : ∃ name, Named s r name := by
  cases h with
  | call hc hpc =>
    refine ⟨_, hwf.calls _ _ r hc ?_⟩
    rcases hpc with hpc | hpc
    · rw [hpc]; rfl
    · rw [hpc]; rfl
  | worker hw hr _ => exact ⟨_, hr ▸ hwf.workers _ _ hw⟩

/-- A service is registered whose record is finished. -/
theorem register_single {s : State} (hwf : WellFormed s) (h : Single s) (name : String)
    {record : ServiceRecord} {c : Call} (hc : ∀ r, ¬ c.pc.starting r)
    (hfinished : ∀ r ∈ s.registry.get name, Finished s r) :
    Single { s with
      registry := s.registry.set name s.records.next
      records := s.records.create record
      calls := s.calls.create c } := by
  have hocc : ∀ {r : Nat} {a : Source}, Occupies { s with
      registry := s.registry.set name s.records.next
      records := s.records.create record
      calls := s.calls.create c } r a → Occupies s r a ∧ r ≠ s.records.next := by
    intro r a hocc
    have hold : Occupies s r a := by
      cases hocc with
      | call hc' hpc => exact occupies_create hc (.call hc' hpc)
      | worker hw hr hbusy => exact .worker hw hr hbusy
    -- the new record has no occupant, since occupied records exist
    obtain ⟨_, record', hr, -⟩ := occupies_exists hwf hold
    exact ⟨hold, Objects.ne_next hr⟩
  constructor
  · intro r a b ha hb
    exact h.unique r a b (hocc ha).1 (hocc hb).1
  · rintro r a _ ha hended ⟨record', hr', rfl⟩
    obtain ⟨hold, hne⟩ := hocc ha
    rw [Objects.get_create, if_neg hne] at hr'
    have hregistry := h.current r a record'.name hold hended ⟨record', hr', rfl⟩
    rw [Dict.get_set]
    split
    · next heq => exact absurd (hfinished r (heq ▸ hregistry) a hold) hended
    · exact hregistry
  · intro r a name' record' ha hregistry hr'
    obtain ⟨hold, hne⟩ := hocc ha
    rw [Objects.get_create, if_neg hne] at hr'
    rw [Dict.get_set] at hregistry
    split at hregistry
    · exact absurd (Option.some.inj hregistry).symm hne
    · exact h.locked r a name' record' hold hregistry hr'
  · intro t w record' hw hshowing hr'
    obtain ⟨record₀, hr₀, -⟩ := hwf.workers t w hw
    rw [Objects.get_create, if_neg (Objects.ne_next hr₀)] at hr'
    exact h.shown t w record' hw hshowing hr'

theorem not_ended_call (s : State) (n : Nat) : ¬ Ended s (.call n) := by
  rintro ⟨t, w, heq, -⟩
  cases heq

/-- A call of `start` writes `STARTING`, and what it tested still holds. -/
theorem start_write_single {s : State} (hwf : WellFormed s) (h : Single s) {n : Nat} {c : Call}
    {r : Nat} {record : ServiceRecord} (hc : s.calls.get n = some c)
    (hr : s.records.get r = some record) (hregistry : s.registry.get c.name = some r)
    (hstate : record.state = .REGISTERED ∨ record.state = .STOPPED) :
    Single (goto (setState s r record .STARTING) n c (.start_thread r)) := by
  -- what was tested still holds, so nothing occupies the record
  have hfree : ∀ a, ¬ Occupies s r a := by
    intro a hocc
    obtain ⟨hno, hno'⟩ := h.locked r a c.name record hocc hregistry hr
    exact hstate.elim hno hno'
  have hocc : ∀ {q : Nat} {a : Source},
      Occupies (goto (setState s r record .STARTING) n c (.start_thread r)) q a →
      (a = .call n ∧ q = r) ∨ Occupies s q a := by
    intro q a ha
    rcases occupies_goto ha hc with ⟨rfl, hstarting⟩ | ⟨-, hold⟩
    · refine Or.inl ⟨rfl, ?_⟩
      simpa [Pc.starting, eq_comm] using hstarting
    · exact Or.inr (occupies_setState hold)
  have honly : ∀ {a : Source},
      Occupies (goto (setState s r record .STARTING) n c (.start_thread r)) r a →
      a = .call n := by
    intro a ha
    exact (hocc ha).elim (fun hn => hn.1) fun hold => absurd hold (hfree a)
  refine h.write hr rfl rfl ?_ ?_ ?_ ?_ ?_
  · intro a b ha hb
    rw [honly ha, honly hb]
  · intro a _ _
    right
    rintro name ⟨record', hr', rfl⟩
    rw [(hwf.registry c.name r hregistry).eq hr']
    exact hregistry
  · intro q a hne ha
    refine ⟨(hocc ha).resolve_left fun hn => hne hn.2, fun hended => hended⟩
  · intro t w hw _ hshowing
    exact ⟨w, hw, rfl, hshowing⟩
  · constructor
    · intro a name _ _
      exact ⟨by simp, by simp⟩
    · intro t w hw hrecord hshowing
      exact Source.noConfusion (honly (hrecord ▸ (showing_occupies hw hshowing).1))

/-- A call of `start` creates its thread. -/
theorem start_thread_single {s : State} (h : Single s) {n : Nat} {c : Call} {r : Nat}
    {record : ServiceRecord} (hc : s.calls.get n = some c) (hpc : c.pc = .start_thread r)
    (hr : s.records.get r = some record) :
    Single (goto { setRecord s r { record with thread := some s.workers.next } with
      workers := s.workers.create ⟨c.name, r, record.unit.entrypoint, .created⟩ } n c
      (.start_launch r)) := by
  -- the new worker is not started, so it occupies nothing yet
  have hworker : ∀ {t : Nat} {w : Worker},
      (s.workers.create ⟨c.name, r, record.unit.entrypoint, .created⟩).get t = some w →
      w.pc ≠ .created → s.workers.get t = some w := by
    intro t w hw hcreated
    rw [Objects.get_create] at hw
    split at hw
    · exact absurd (Option.some.inj hw ▸ rfl) hcreated
    · exact hw
  refine h.quiet rfl ?_ ?_ ?_
  · intro q a ha
    rcases occupies_goto ha hc with ⟨rfl, hstarting⟩ | ⟨-, hold⟩
    · have hq : r = q := by simpa [Pc.starting] using hstarting
      exact ⟨hq ▸ .call hc (Or.inl hpc), fun hended => absurd hended (not_ended_call s n)⟩
    · constructor
      · cases hold with
        | call hc' hpc' => exact .call hc' hpc'
        | worker hw hrecord hbusy =>
          refine .worker (hworker hw ?_) hrecord hbusy
          intro hcreated
          simp [Worker.busy, hcreated] at hbusy
      · rintro ⟨t, w, rfl, hw, hended⟩
        exact ⟨t, w, rfl, Objects.get_create_of_get hw _, hended⟩
  · intro q record' hr'
    rw [goto_records] at hr'
    rw [show (setRecord s r _).records = s.records.set r _ from rfl, Objects.get_set hr] at hr'
    split at hr'
    · next hq =>
      obtain rfl := Option.some.inj hr'
      exact ⟨record, hq ▸ hr, rfl, rfl⟩
    · exact ⟨record', hr', rfl, rfl⟩
  · intro t w hw hshowing
    refine ⟨w, hworker hw ?_, rfl, hshowing⟩
    intro hcreated
    simp [Worker.showing, hcreated] at hshowing

/-- A call of `start` hands its record over to its worker. -/
theorem launch_single {s : State} (h : Single s) {n : Nat} {c : Call} {r t : Nat} {w : Worker}
    (hc : s.calls.get n = some c) (hpc : c.pc = .start_launch r)
    (hw : s.workers.get t = some w) (hrecord : w.record = r) :
    Single (goto (advance s t w .launched) n c .returned) := by
  have hcall : Occupies s r (.call n) := .call hc (Or.inr hpc)
  -- the worker is in the place of the call, the only occupant
  have hocc : ∀ {q : Nat} {a : Source},
      Occupies (goto (advance s t w .launched) n c .returned) q a →
      (a = .worker t ∧ q = r) ∨ (a ≠ .worker t ∧ q ≠ r ∧ Occupies s q a) := by
    intro q a ha
    rcases occupies_goto ha hc with ⟨-, hstarting⟩ | ⟨hne, hold⟩
    · simp [Pc.starting] at hstarting
    · rcases occupies_advance hold hw with ⟨rfl, hq, -⟩ | ⟨hne', hold⟩
      · exact Or.inl ⟨rfl, hq.symm.trans hrecord⟩
      · refine Or.inr ⟨hne', ?_, hold⟩
        rintro rfl
        exact hne (h.unique _ a (.call n) hold hcall)
  have hshow : ∀ {u : Nat} {w' : Worker},
      (goto (advance s t w .launched) n c .returned).workers.get u = some w' → w'.showing →
      s.workers.get u = some w' := by
    intro u w' hw' hshowing
    rw [goto_workers, advance_get hw] at hw'
    split at hw'
    · obtain rfl := Option.some.inj hw'
      simp [Worker.showing] at hshowing
    · exact hw'
  refine h.of_step rfl ?_ ?_ ?_
  · intro q a b ha hb
    rcases hocc ha with ⟨rfl, hq⟩ | ⟨-, hq, ha⟩
    · exact (hocc hb).elim (fun hb => hb.1.symm) fun hb => absurd hq hb.2.1
    · exact (hocc hb).elim (fun hb => absurd hb.2 hq) fun hb => h.unique q a b ha hb.2.2
  · intro q a ha hended
    left
    rcases hocc ha with ⟨-, rfl⟩ | ⟨hne, -, ha⟩
    · exact ⟨.call n, hcall, not_ended_call s n⟩
    · refine ⟨a, ha, ?_⟩
      rintro ⟨u, w', rfl, hw', hend⟩
      have hu : u ≠ t := fun heq => hne (heq ▸ rfl)
      exact hended ⟨u, w', rfl, by rw [goto_workers, advance_get hw, if_neg hu, hw'], hend⟩
  · intro q record' hr'
    refine ⟨h.allowed hr' rfl ?_ ?_, record', hr', rfl⟩
    · intro a ha
      exact (hocc ha).elim (fun hn => ⟨.call n, hn.2 ▸ hcall⟩) fun hold => ⟨a, hold.2.2⟩
    · intro u w' hw' hq hshowing
      exact ⟨u, w', hshow hw' hshowing, hq, hshowing⟩

/-- A call of `stop` writes a state that its record may have. -/
theorem stop_write_single {s : State} (h : Single s) {n : Nat} {c : Call} {r : Nat}
    {record : ServiceRecord} {state : ServiceState} {pc : Pc} (hc : s.calls.get n = some c)
    (hr : s.records.get r = some record) (hpc : ∀ q, ¬ pc.starting q)
    (hallowed : Allowed s r state) : Single (goto (setState s r record state) n c pc) := by
  have hocc : ∀ {q : Nat} {a : Source}, Occupies (goto (setState s r record state) n c pc) q a →
      Occupies s q a := by
    intro q a ha
    rcases occupies_goto ha hc with ⟨-, hstarting⟩ | ⟨-, hold⟩
    · exact absurd hstarting (hpc q)
    · exact occupies_setState hold
  refine h.write hr rfl rfl ?_ ?_ ?_ ?_ ?_
  · intro a b ha hb
    exact h.unique r a b (hocc ha) (hocc hb)
  · intro a ha hended
    exact Or.inl ⟨a, hocc ha, hended⟩
  · intro q a _ ha
    exact ⟨hocc ha, fun hended => hended⟩
  · intro t w hw _ hshowing
    exact ⟨w, hw, rfl, hshowing⟩
  · constructor
    · intro a name ha hname
      exact hallowed.locked a name (hocc ha) hname
    · intro t w hw hrecord hshowing
      exact hallowed.shown t w hw hrecord hshowing

theorem WorkerGoes.busy {t : Nat} {w : Worker} {pc : WorkerPc} {os : List Obs}
    (hgo : WorkerGoes t w pc os) (hbusy : Worker.busy { w with pc }) : w.busy := by
  cases hgo with
  | announces h => simp [Worker.busy, h]
  | spawns h => simp [Worker.busy, h]
  | ends h => rcases h with h | h <;> simp [Worker.busy, h]
  | leaves => simp [Worker.busy] at hbusy

theorem WorkerGoes.showing {t : Nat} {w : Worker} {pc : WorkerPc} {os : List Obs}
    (hgo : WorkerGoes t w pc os) (hshowing : Worker.showing { w with pc }) : w.showing := by
  cases hgo with
  | announces h => simp [Worker.showing, h]
  | spawns h => simp [Worker.showing, h]
  | ends => simp [Worker.showing] at hshowing
  | leaves => simp [Worker.showing] at hshowing

theorem WorkerGoes.not_ended {t : Nat} {w : Worker} {pc : WorkerPc} {os : List Obs}
    (hgo : WorkerGoes t w pc os) : w.pc ≠ .ended := by
  cases hgo with
  | announces h => simp [h]
  | spawns h => simp [h]
  | ends h => rcases h with h | h <;> simp [h]
  | leaves h => simp [h]

/-- A worker that has not ended moves, and the ended workers are the same. -/
theorem ended_advance {s s₁ : State} {t : Nat} {w : Worker} {pc : WorkerPc}
    (hw : s.workers.get t = some w) (hpc : w.pc ≠ .ended) {a : Source} (hended : Ended s a)
    (hworkers : s₁.workers = s.workers) : Ended (advance s₁ t w pc) a := by
  obtain ⟨u, w', rfl, hw', hend⟩ := hended
  have hu : u ≠ t := by
    rintro rfl
    obtain rfl := Option.some.inj (hw.symm.trans hw')
    exact hpc hend
  refine ⟨u, w', rfl, ?_, hend⟩
  rw [advance_get (hworkers ▸ hw), if_neg hu, hworkers, hw']

/-- A worker moves without a write. -/
theorem moves_single {s : State} (h : Single s) {t : Nat} {w : Worker} {pc : WorkerPc}
    {os : List Obs} (hw : s.workers.get t = some w) (hgo : WorkerGoes t w pc os) :
    Single (advance s t w pc) := by
  refine h.quiet rfl ?_ ?_ ?_
  · intro q a ha
    refine ⟨?_, fun hended => ended_advance hw hgo.not_ended hended rfl⟩
    rcases occupies_advance ha hw with ⟨rfl, hrecord, hbusy⟩ | ⟨-, hold⟩
    · exact .worker hw hrecord (hgo.busy hbusy)
    · exact hold
  · intro q record' hr'
    exact ⟨record', hr', rfl, rfl⟩
  · intro u w' hw' hshowing
    rw [advance_get hw] at hw'
    split at hw'
    · next hu =>
      obtain rfl := Option.some.inj hw'
      exact ⟨w, hu ▸ hw, rfl, hgo.showing hshowing⟩
    · exact ⟨w', hw', rfl, hshowing⟩

/-- A worker writes `RUNNING`. -/
theorem runs_single {s : State} (h : Single s) {t : Nat} {w : Worker} {record : ServiceRecord}
    (hw : s.workers.get t = some w) (hpc : w.pc = .launched)
    (hr : s.records.get w.record = some record) :
    Single (advance (setState s w.record record .RUNNING) t w .running) := by
  have hocc : ∀ {q : Nat} {a : Source},
      Occupies (advance (setState s w.record record .RUNNING) t w .running) q a →
      Occupies s q a := by
    intro q a ha
    rcases occupies_advance ha hw with ⟨rfl, hrecord, -⟩ | ⟨-, hold⟩
    · exact .worker hw hrecord (by simp [Worker.busy, hpc])
    · exact occupies_setState hold
  have hended : ∀ {a : Source}, Ended s a →
      Ended (advance (setState s w.record record .RUNNING) t w .running) a :=
    fun hended => ended_advance hw (by simp [hpc]) hended rfl
  refine h.write hr rfl rfl ?_ ?_ ?_ ?_ ?_
  · intro a b ha hb
    exact h.unique _ a b (hocc ha) (hocc hb)
  · intro a ha hno
    exact Or.inl ⟨a, hocc ha, fun hend => hno (hended hend)⟩
  · intro q a _ ha
    exact ⟨hocc ha, hended⟩
  · intro u w' hw' hne hshowing
    rw [advance_get (s := setState s w.record record .RUNNING) hw] at hw'
    split at hw'
    · obtain rfl := Option.some.inj hw'
      exact absurd rfl hne
    · exact ⟨w', hw', rfl, hshowing⟩
  · exact ⟨fun _ _ _ _ => ⟨by simp, by simp⟩, fun _ _ _ _ _ => Or.inl rfl⟩

/-- A worker writes `STOPPED`, and leaves its record. -/
theorem stops_single {s : State} (h : Single s) {t : Nat} {w : Worker} {record : ServiceRecord}
    (hw : s.workers.get t = some w) (hpc : w.pc = .ended)
    (hr : s.records.get w.record = some record) :
    Single (advance (setState s w.record record .STOPPED) t w .stopped) := by
  -- the worker is the only occupant, so its record is free afterwards
  have hworker : Occupies s w.record (.worker t) :=
    .worker hw rfl (by simp [Worker.busy, hpc])
  have hocc : ∀ {q : Nat} {a : Source},
      Occupies (advance (setState s w.record record .STOPPED) t w .stopped) q a →
      Occupies s q a ∧ a ≠ .worker t ∧ q ≠ w.record := by
    intro q a ha
    rcases occupies_advance ha hw with ⟨-, -, hbusy⟩ | ⟨hne, hold⟩
    · simp [Worker.busy] at hbusy
    · have hold := occupies_setState hold
      refine ⟨hold, hne, ?_⟩
      rintro rfl
      exact hne (h.unique _ a _ hold hworker)
  refine h.write hr rfl rfl ?_ ?_ ?_ ?_ ?_
  · intro a b ha
    exact absurd rfl (hocc ha).2.2
  · intro a ha
    exact absurd rfl (hocc ha).2.2
  · intro q a _ ha
    obtain ⟨hold, hne, -⟩ := hocc ha
    refine ⟨hold, ?_⟩
    rintro ⟨u, w', rfl, hw', hend⟩
    have hu : u ≠ t := fun heq => hne (heq ▸ rfl)
    refine ⟨u, w', rfl, ?_, hend⟩
    rw [advance_get (s := setState s w.record record .STOPPED) hw, if_neg hu, setState_workers,
      hw']
  · intro u w' hw' _ hshowing
    rw [advance_get (s := setState s w.record record .STOPPED) hw] at hw'
    split at hw'
    · obtain rfl := Option.some.inj hw'
      simp [Worker.showing] at hshowing
    · exact ⟨w', hw', rfl, hshowing⟩
  · constructor
    · intro a name ha
      exact absurd rfl (hocc ha).2.2
    · intro u w' hw' hrecord hshowing
      exact absurd hrecord (hocc (showing_occupies hw' hshowing).1).2.2

theorem step_single {s s' : State} {l : Label} {os : List Obs} (hs : Step s l os s')
    (hwf : WellFormed s) (h : Single s) (hcareful : Careful s l) : Single s' := by
  cases hs with
  | register name unit hcomplete =>
    exact register_single hwf h name (fun r => by simp [Pc.starting]) (hcareful hcomplete)
  | begins c hbegin =>
    exact h.quiet rfl (fun r a ha => ⟨occupies_create hbegin.not_starting ha, fun hend => hend⟩)
      (fun r record hr => ⟨record, hr, rfl, rfl⟩) fun t w hw hshowing => ⟨w, hw, rfl, hshowing⟩
  | goes n timed_out c pc os hc hgo =>
    refine h.quiet rfl ?_ (fun r record hr => ⟨record, hr, rfl, rfl⟩)
      fun t w hw hshowing => ⟨w, hw, rfl, hshowing⟩
    intro r a ha
    rcases occupies_goto ha hc with ⟨-, hstarting⟩ | ⟨-, hold⟩
    · exact absurd hstarting (hgo.not_starting r)
    · exact ⟨hold, fun hend => hend⟩
  | start_write n timed_out c r record hc hpc hr =>
    obtain ⟨hregistry, hstate⟩ : s.registry.get c.name = some r ∧ ∀ record ∈ s.records.get r,
        record.state = .REGISTERED ∨ record.state = .STOPPED := by
      simpa only [CarefulCall, hpc] using hcareful c hc
    exact start_write_single hwf h hc hr hregistry (hstate record hr)
  | start_thread n timed_out c r record hc hpc hr => exact start_thread_single h hc hpc hr
  | launch n timed_out c r record t w hc hpc hr ht hw hcreated =>
    exact launch_single h hc hpc hw (hwf.thread_record hr ht hw)
  | stop_write n timed_out c r record hc hpc hr =>
    refine stop_write_single h hc hr (fun q => by simp [Pc.starting]) ?_
    exact ⟨fun _ _ _ _ => ⟨by simp, by simp⟩, fun _ _ _ _ _ => Or.inr rfl⟩
  | stop_finish n timed_out c r record hc hpc hr =>
    have hfree : s.registry.get c.name = some r → ∀ a, ¬ Occupies s r a := by
      simpa only [CarefulCall, hpc] using hcareful c hc
    obtain ⟨record₀, hr₀, hname⟩ := hwf.calls n c r hc (by rw [hpc]; rfl)
    refine stop_write_single h hc hr (fun q => by simp [Pc.starting]) ⟨?_, ?_⟩
    · intro a name ha hregistry
      obtain ⟨record₁, hr₁, rfl⟩ := hwf.registry name r hregistry
      obtain rfl := Option.some.inj (hr₀.symm.trans hr₁)
      exact absurd ha (hfree (hname ▸ hregistry) a)
    · -- a worker that shows is on the registered record, which is free
      rintro t w hw rfl hshowing
      obtain ⟨hocc, hended⟩ := showing_occupies hw hshowing
      have hregistry := h.current _ _ c.name hocc hended ⟨record₀, hr₀, hname⟩
      exact absurd hocc (hfree hregistry _)
  | moves t isfile raises w pc os hw hgo => exact moves_single h hw hgo
  | runs t isfile raises w record hw hpc hr => exact runs_single h hw hpc hr
  | stops t isfile raises w record hw hpc hr => exact stops_single h hw hpc hr

/-! ### Runs -/

theorem init_single : Single init := by
  have hnone : ∀ r a, ¬ Occupies init r a := by
    intro r a ha
    cases ha with
    | call hc => cases hc
    | worker hw => cases hw
  refine ⟨fun r a b ha => absurd ha (hnone r a), fun r a name ha => absurd ha (hnone r a),
    fun r a name record ha => absurd ha (hnone r a), ?_⟩
  intro t w record hw
  cases hw

theorem run_single {ls : List Label} {s : State} {tr : List Obs}
    (hcareful : machine.Along Careful init ls) (hrun : machine.run init ls = some (s, tr)) :
    Single s := by
  refine machine.run_induction_along (P := fun _ s _ => Single s) init_single ?_ hcareful hrun
  intro ls s tr l s' os hrun' h hc hs
  exact step_single (step_sound hs) (run_wellFormed hrun') h hc

/-- **Single worker**: in a run whose steps are all careful, at most one worker
    executes an entrypoint of each service, and while it does the service is
    running or stopping. -/
theorem single_worker {ls : List Label} {s : State} {tr : List Obs}
    (hcareful : machine.Along Careful init ls) (hrun : machine.run init ls = some (s, tr))
    (name : String) :
    (∀ t u, Executing s name t → Executing s name u → t = u) ∧
      ∀ t, Executing s name t →
        status s name = some .RUNNING ∨ status s name = some .STOPPING := by
  have h := run_single hcareful hrun
  have hwf := run_wellFormed hrun
  -- a worker that executes occupies the registered record of its service
  have hon : ∀ t, Executing s name t → ∃ r, s.registry.get name = some r ∧
      Occupies s r (.worker t) ∧ ∃ record, s.records.get r = some record ∧
        (record.state = .RUNNING ∨ record.state = .STOPPING) := by
    rintro t ⟨w, hw, rfl, hpc⟩
    have hshowing : w.showing := by simp [Worker.showing, hpc]
    obtain ⟨hocc, hended⟩ := showing_occupies hw hshowing
    obtain ⟨record, hr, hname⟩ := hwf.workers t w hw
    exact ⟨w.record, h.current _ _ w.name hocc hended ⟨record, hr, hname⟩, hocc, record, hr,
      h.shown t w record hw hshowing hr⟩
  constructor
  · intro t u ht hu
    obtain ⟨r, hr, hocc, -⟩ := hon t ht
    obtain ⟨q, hq, hocc', -⟩ := hon u hu
    obtain rfl := Option.some.inj (hr.symm.trans hq)
    exact Source.worker.inj (h.unique r _ _ hocc hocc')
  · intro t ht
    obtain ⟨r, hregistry, -, record, hr, hstate⟩ := hon t ht
    unfold status
    rw [hregistry, Option.bind_some, hr, Option.map_some]
    simpa using hstate

/-! ### Careful runs, evaluated -/

theorem occupies_iff (s : State) (r : Nat) (a : Source) :
    Occupies s r a ↔
      match a with
      | .call n => ∃ c ∈ s.calls.get n, c.pc.starting r
      | .worker t => ∃ w ∈ s.workers.get t, w.record = r ∧ w.busy := by
  constructor
  · intro h
    cases h with
    | call hc hpc => exact ⟨_, hc, hpc⟩
    | worker hw hr hbusy => exact ⟨_, hw, hr, hbusy⟩
  · cases a with
    | call n => exact fun ⟨_, hc, hpc⟩ => .call hc hpc
    | worker t => exact fun ⟨_, hw, hr, hbusy⟩ => .worker hw hr hbusy

instance (pc : Pc) (r : Nat) : Decidable (pc.starting r) := inferInstanceAs (Decidable (_ ∨ _))

instance (s : State) (r : Nat) : (a : Source) → Decidable (Occupies s r a)
  | .call n =>
    have : Decidable (∃ c ∈ s.calls.get n, c.pc.starting r) := inferInstance
    decidable_of_iff _ (occupies_iff s r (.call n)).symm
  | .worker t =>
    have : Decidable (∃ w ∈ s.workers.get t, w.record = r ∧ w.busy) := inferInstance
    decidable_of_iff _ (occupies_iff s r (.worker t)).symm

/-- Only the calls and workers that exist occupy a record. -/
theorem forall_occupies_iff (s : State) (r : Nat) (P : Source → Prop) :
    (∀ a, Occupies s r a → P a) ↔
      (∀ n < s.calls.next, Occupies s r (.call n) → P (.call n)) ∧
      ∀ t < s.workers.next, Occupies s r (.worker t) → P (.worker t) := by
  constructor
  · intro h
    exact ⟨fun n _ => h _, fun t _ => h _⟩
  · rintro ⟨hcalls, hworkers⟩ a ha
    cases ha with
    | call hc hpc => exact hcalls _ (Objects.lt_next hc) (.call hc hpc)
    | worker hw hr hbusy => exact hworkers _ (Objects.lt_next hw) (.worker hw hr hbusy)

instance (s : State) (t : Nat) : Decidable (Ended s (.worker t)) :=
  decidable_of_iff (∃ w ∈ s.workers.get t, w.pc = .ended) <| by
    constructor
    · rintro ⟨w, hw, hended⟩
      exact ⟨t, w, rfl, hw, hended⟩
    · rintro ⟨t', w, heq, hw, hended⟩
      exact ⟨w, Source.worker.inj heq ▸ hw, hended⟩

instance (s : State) (r : Nat) : Decidable (Finished s r) :=
  have : ∀ n, Decidable (Ended s (.call n)) := fun n => isFalse (not_ended_call s n)
  decidable_of_iff _ (forall_occupies_iff s r (Ended s)).symm

instance (s : State) (r : Nat) : Decidable (∀ a, ¬ Occupies s r a) :=
  decidable_of_iff _ (forall_occupies_iff s r fun _ => False).symm

instance (s : State) (c : Call) : Decidable (CarefulCall s c) := by
  unfold CarefulCall
  split <;> infer_instance

instance (s : State) : (l : Label) → Decidable (Careful s l)
  | .register name unit =>
    inferInstanceAs (Decidable (missing unit = ∅ → ∀ r ∈ s.registry.get name, Finished s r))
  | .start _ => isTrue trivial
  | .stop _ => isTrue trivial
  | .call n _ => inferInstanceAs (Decidable (∀ c ∈ s.calls.get n, CarefulCall s c))
  | .worker _ _ _ => isTrue trivial

/-- The unit of a service. -/
def unitOf (name : String) : Dict String String :=
  ⟨[("name", name), ("entrypoint", "/services/a.py")], by simp⟩

/-- A service is registered and started, and its worker executes. -/
def executingRun : List Label :=
  [.register "a" (unitOf "a"), .call 0 false, .start "a", .call 1 false, .call 1 false,
    .call 1 false, .call 1 false, .worker 0 true false, .worker 0 true false,
    .worker 0 true false]

/-- It is stopped with a timeout. -/
def timedOutStop : List Label :=
  [.stop "a", .call 2 false, .call 2 false, .call 2 false, .call 2 false, .call 2 true,
    .call 2 false, .call 2 false]

/-- It is started again, and a second worker executes. -/
def startedAgain : List Label :=
  [.start "a", .call 3 false, .call 3 false, .call 3 false, .call 3 false,
    .worker 1 true false, .worker 1 true false, .worker 1 true false]

/-- The test of `Executing`. -/
def executes (s : State) (name : String) (t : Nat) : Bool :=
  (s.workers.get t).any fun w => w.name = name ∧ w.pc = .executing

theorem executing_of_test {s : State} {name : String} {t : Nat}
    (h : executes s name t = true) : Executing s name t := by
  obtain ⟨w, hw, htest⟩ := (Option.any_eq_true ..).mp h
  obtain ⟨hname, hpc⟩ := of_decide_eq_true htest
  exact ⟨w, hw, hname, hpc⟩

/-- A careful run, in which a call of `stop` is under way. -/
theorem single_worker_stopping :
    ∃ s tr, machine.run init (executingRun ++ timedOutStop.take 5) = some (s, tr) ∧
      Executing s "a" 0 ∧ (∀ t u, Executing s "a" t → Executing s "a" u → t = u) ∧
      ∀ t, Executing s "a" t → status s "a" = some .RUNNING ∨ status s "a" = some .STOPPING := by
  obtain ⟨s, tr, hrun, htest⟩ := machine.exists_run init (executingRun ++ timedOutStop.take 5)
    (fun s _ => executes s "a" 0) (by decide +kernel)
  exact ⟨s, tr, hrun, executing_of_test htest, single_worker (by decide +kernel) hrun "a"⟩

/-- The join of a call of `stop` times out, and the service is started again. -/
theorem two_workers_after_timeout :
    ∃ (ls : List Label) (s : State) (tr : List Obs), machine.run init ls = some (s, tr) ∧
      Executing s "a" 0 ∧ Executing s "a" 1 := by
  obtain ⟨s, tr, hrun, htest⟩ := machine.exists_run init
    (executingRun ++ timedOutStop ++ startedAgain)
    (fun s _ => executes s "a" 0 && executes s "a" 1) (by decide +kernel)
  obtain ⟨h₀, h₁⟩ := Bool.and_eq_true_iff.mp htest
  exact ⟨_, s, tr, hrun, executing_of_test h₀, executing_of_test h₁⟩

end ServiceManager
