import Aioscpu.Framework.Machine
import Aioscpu.Framework.Objects

/-! # Command Center Client

  The client of `vnet/command_center.py` and the Command Center that it
  registers with.

  Calls of the client, its threads and the requests in flight take turns. A
  step is one access to `_running`, `_registered` or `_thread`, a sleep, or one
  stage of a request: it is sent, the Command Center processes it, and the
  answer comes back. A request may fail as well, after it was processed or
  before. Then the Command Center does not process it any more.
-/

namespace CommandCenterClient

/-! ### Frames -/

inductive Request where
  | register
  | heartbeat
  | deregister
deriving DecidableEq, Repr

/-- The stages of `_post`. -/
inductive Post where
  | send
  /-- In flight to the Command Center. -/
  | sent
  /-- Processed, with the answer in flight. -/
  | delivered
deriving DecidableEq, Repr

/-- Where a call of `start`, `stop` or `register_now` stands. -/
inductive Pc where
  /-- At the test of `_running`. -/
  | start_test
  | start_write
  | start_create
  | start_launch
  /-- At `self._running = False`. -/
  | stop_write
  /-- At the test of `_registered`. -/
  | stop_test
  | deregister (p : Post)
  | register (p : Post)
  | returned
  | raised
deriving DecidableEq, Repr

/-- Where a thread stands in `_run`. -/
inductive ThreadPc where
  /-- The thread is not started. -/
  | created
  /-- At the first test of the first loop. -/
  | test_running
  /-- At its second test. -/
  | test_registered
  | register (p : Post)
  /-- Inside `time.sleep(backoff)`. -/
  | backing_off
  /-- At the test of the second loop. -/
  | test_loop
  /-- Inside `time.sleep(self._hb_interval)`. -/
  | sleeping
  /-- At the test after the sleep. -/
  | test_again
  | heartbeat (p : Post)
  | gone
deriving DecidableEq, Repr

inductive Source where
  | call (n : Nat)
  | thread (t : Nat)
deriving DecidableEq, Repr

/-! ### The client and the Command Center -/

structure State where
  /-- `is_configured`. -/
  configured : Bool
  registered : Bool
  running : Bool
  /-- `_thread`. -/
  thread : Option Nat
  threads : Objects ThreadPc
  calls : Objects Pc
  /-- Whether the Command Center holds the node as registered. -/
  held : Bool

inductive Label where
  | start
  | stop
  | register_now
  | call (n : Nat)
  | thread (t : Nat)
  | deliver (source : Source)
  | answer (source : Source)
  | fail (source : Source)
deriving DecidableEq, Repr

inductive Obs where
  | delivered (request : Request) (source : Source)
deriving DecidableEq, Repr

def init (configured : Bool) : State := ⟨configured, false, false, none, .empty, .empty, false⟩

/-- The call stands elsewhere. -/
def goto (s : State) (n : Nat) (pc : Pc) : State := { s with calls := s.calls.set n pc }

/-- The thread stands elsewhere. -/
def advance (s : State) (t : Nat) (pc : ThreadPc) : State :=
  { s with threads := s.threads.set t pc }

/-- A call begins. Without a URL, `start` and `register_now` return. -/
def begin_call (s : State) (pc : Pc) : State := { s with calls := s.calls.create pc }

/-- A step of a call. -/
def call_step (s : State) (n : Nat) : Pc → Option State
  | .start_test => some (goto s n (if s.running then .returned else .start_write))
  | .start_write => some { goto s n .start_create with running := true }
  | .start_create =>
    some { goto s n .start_launch with
      thread := some s.threads.next
      threads := s.threads.create .created }
  | .start_launch =>
    -- another call may have created its thread since
    match s.thread with
    | none => some (goto s n .raised)
    | some t =>
      match s.threads.get t with
      | some .created => some (goto (advance s t .test_running) n .returned)
      | _ => some (goto s n .raised)
  | .stop_write => some { goto s n .stop_test with running := false }
  | .stop_test =>
    some (goto s n (if s.configured ∧ s.registered then .deregister .send else .returned))
  | .deregister .send => some (goto s n (.deregister .sent))
  | .register .send => some (goto s n (.register .sent))
  | _ => none

/-- A step of `_run`. -/
def thread_step (s : State) (t : Nat) : ThreadPc → Option State
  | .test_running => some (advance s t (if s.running then .test_registered else .test_loop))
  | .test_registered =>
    some (advance s t (if s.registered then .test_loop else .register .send))
  | .register .send => some (advance s t (.register .sent))
  | .backing_off => some (advance s t .test_running)
  | .test_loop => some (advance s t (if s.running then .sleeping else .gone))
  | .sleeping => some (advance s t .test_again)
  | .test_again => some (advance s t (if s.running then .heartbeat .send else .gone))
  | .heartbeat .send => some (advance s t (.heartbeat .sent))
  | _ => none

/-- The Command Center processes a request. -/
def deliver (s : State) : Source → Option (State × Request)
  | .call n =>
    match s.calls.get n with
    | some (.register .sent) =>
      some ({ goto s n (.register .delivered) with held := true }, .register)
    | some (.deregister .sent) =>
      some ({ goto s n (.deregister .delivered) with held := false }, .deregister)
    | _ => none
  | .thread t =>
    match s.threads.get t with
    | some (.register .sent) =>
      some ({ advance s t (.register .delivered) with held := true }, .register)
    | some (.heartbeat .sent) => some (advance s t (.heartbeat .delivered), .heartbeat)
    | _ => none

/-- The answer to a request arrives. -/
def answer (s : State) : Source → Option State
  | .call n =>
    match s.calls.get n with
    | some (.register .delivered) => some { goto s n .returned with registered := true }
    | some (.deregister .delivered) => some { goto s n .returned with registered := false }
    | _ => none
  | .thread t =>
    match s.threads.get t with
    | some (.register .delivered) => some { advance s t .test_loop with registered := true }
    | some (.heartbeat .delivered) => some (advance s t .test_loop)
    | _ => none

/-- A request raises. -/
def fail (s : State) : Source → Option State
  | .call n =>
    match s.calls.get n with
    | some (.register p) => if p = .send then none else some (goto s n .returned)
    -- `stop` only logs it
    | some (.deregister p) => if p = .send then none else some (goto s n .returned)
    | _ => none
  | .thread t =>
    match s.threads.get t with
    | some (.register p) => if p = .send then none else some (advance s t .backing_off)
    | some (.heartbeat p) => if p = .send then none else some (advance s t .test_loop)
    | _ => none

/-- The client, its threads and the Command Center. -/
def machine : Machine State Label Obs where
  step := fun s l =>
    match l with
    | .start => some (begin_call s (if s.configured then .start_test else .returned), [])
    | .stop => some (begin_call s .stop_write, [])
    | .register_now =>
      some (begin_call s (if s.configured then .register .send else .returned), [])
    | .call n =>
      match s.calls.get n with
      | none => none
      | some pc => (call_step s n pc).map fun s' => (s', [])
    | .thread t =>
      match s.threads.get t with
      | none => none
      | some pc => (thread_step s t pc).map fun s' => (s', [])
    | .deliver source => (deliver s source).map fun r => (r.1, [.delivered r.2 source])
    | .answer source => (answer s source).map fun s' => (s', [])
    | .fail source => (fail s source).map fun s' => (s', [])

/-! ### Inversion of the steps -/

def Label.isCall : Label → Bool
  | .start => true
  | .stop => true
  | .register_now => true
  | _ => false

def Label.isFail : Label → Bool
  | .fail _ => true
  | _ => false

/-- The moves of a call that write nothing. -/
inductive CallGoes (s : State) : Pc → Pc → Prop where
  | start_refused (h : s.running = true) : CallGoes s .start_test .returned
  | start_accepted (h : s.running = false) : CallGoes s .start_test .start_write
  | start_fails : CallGoes s .start_launch .raised
  | stop_returns (h : ¬ (s.configured = true ∧ s.registered = true)) :
      CallGoes s .stop_test .returned
  | stop_deregisters (h : s.configured = true ∧ s.registered = true) :
      CallGoes s .stop_test (.deregister .send)
  | deregister_sent : CallGoes s (.deregister .send) (.deregister .sent)
  | register_sent : CallGoes s (.register .send) (.register .sent)

/-- The moves of a thread by itself. -/
inductive ThreadGoes (s : State) : ThreadPc → ThreadPc → Prop where
  | tests (h : s.running = true) : ThreadGoes s .test_running .test_registered
  | skips (h : s.running = false) : ThreadGoes s .test_running .test_loop
  | registered (h : s.registered = true) : ThreadGoes s .test_registered .test_loop
  | registers (h : s.registered = false) : ThreadGoes s .test_registered (.register .send)
  | register_sent : ThreadGoes s (.register .send) (.register .sent)
  | retries : ThreadGoes s .backing_off .test_running
  | sleeps (h : s.running = true) : ThreadGoes s .test_loop .sleeping
  | wakes : ThreadGoes s .sleeping .test_again
  | beats (h : s.running = true) : ThreadGoes s .test_again (.heartbeat .send)
  | heartbeat_sent : ThreadGoes s (.heartbeat .send) (.heartbeat .sent)
  | leaves (pc : ThreadPc) (h : s.running = false) (hpc : pc = .test_loop ∨ pc = .test_again) :
      ThreadGoes s pc .gone

/-- What a step can do. -/
inductive Step (s : State) : Label → List Obs → State → Prop where
  | begins (l : Label) (pc : Pc) (h : l.isCall = true) : Step s l [] (begin_call s pc)
  | goes (n : Nat) (pc pc' : Pc) (hn : s.calls.get n = some pc) (hgo : CallGoes s pc pc') :
      Step s (.call n) [] (goto s n pc')
  | raises (n : Nat) (hn : s.calls.get n = some .start_write) :
      Step s (.call n) [] { goto s n .start_create with running := true }
  | creates (n : Nat) (hn : s.calls.get n = some .start_create) :
      Step s (.call n) []
        { goto s n .start_launch with
          thread := some s.threads.next
          threads := s.threads.create .created }
  | launches (n t : Nat) (hn : s.calls.get n = some .start_launch) (ht : s.thread = some t)
      (hcreated : s.threads.get t = some .created) :
      Step s (.call n) [] (goto (advance s t .test_running) n .returned)
  | lowers (n : Nat) (hn : s.calls.get n = some .stop_write) :
      Step s (.call n) [] { goto s n .stop_test with running := false }
  | moves (t : Nat) (pc pc' : ThreadPc) (ht : s.threads.get t = some pc)
      (hgo : ThreadGoes s pc pc') : Step s (.thread t) [] (advance s t pc')
  | call_registers (n : Nat) (hn : s.calls.get n = some (.register .sent)) :
      Step s (.deliver (.call n)) [.delivered .register (.call n)]
        { goto s n (.register .delivered) with held := true }
  | deregisters (n : Nat) (hn : s.calls.get n = some (.deregister .sent)) :
      Step s (.deliver (.call n)) [.delivered .deregister (.call n)]
        { goto s n (.deregister .delivered) with held := false }
  | thread_registers (t : Nat) (ht : s.threads.get t = some (.register .sent)) :
      Step s (.deliver (.thread t)) [.delivered .register (.thread t)]
        { advance s t (.register .delivered) with held := true }
  | beats (t : Nat) (ht : s.threads.get t = some (.heartbeat .sent)) :
      Step s (.deliver (.thread t)) [.delivered .heartbeat (.thread t)]
        (advance s t (.heartbeat .delivered))
  | call_registered (n : Nat) (hn : s.calls.get n = some (.register .delivered)) :
      Step s (.answer (.call n)) [] { goto s n .returned with registered := true }
  | deregistered (n : Nat) (hn : s.calls.get n = some (.deregister .delivered)) :
      Step s (.answer (.call n)) [] { goto s n .returned with registered := false }
  | thread_registered (t : Nat) (ht : s.threads.get t = some (.register .delivered)) :
      Step s (.answer (.thread t)) [] { advance s t .test_loop with registered := true }
  | beaten (t : Nat) (ht : s.threads.get t = some (.heartbeat .delivered)) :
      Step s (.answer (.thread t)) [] (advance s t .test_loop)
  | fails (source : Source) (s' : State) (h : fail s source = some s') :
      Step s (.fail source) [] s'

theorem call_step_sound {s s' : State} {n : Nat} {pc : Pc} (hn : s.calls.get n = some pc)
    (h : call_step s n pc = some s') : Step s (.call n) [] s' := by
  cases pc with
  | start_test =>
    cases h
    split
    · next hrunning => exact .goes n _ _ hn (.start_refused hrunning)
    · next hrunning => exact .goes n _ _ hn (.start_accepted (by simpa using hrunning))
  | start_write => cases h; exact .raises n hn
  | start_create => cases h; exact .creates n hn
  | start_launch =>
    simp only [call_step] at h
    split at h
    · cases h; exact .goes n _ _ hn .start_fails
    · next t ht =>
      split at h
      · next hcreated => cases h; exact .launches n t hn ht hcreated
      · cases h; exact .goes n _ _ hn .start_fails
  | stop_write => cases h; exact .lowers n hn
  | stop_test =>
    cases h
    split
    · next htest => exact .goes n _ _ hn (.stop_deregisters htest)
    · next htest => exact .goes n _ _ hn (.stop_returns htest)
  | deregister p =>
    cases p with
    | send => cases h; exact .goes n _ _ hn .deregister_sent
    | _ => cases h
  | register p =>
    cases p with
    | send => cases h; exact .goes n _ _ hn .register_sent
    | _ => cases h
  | returned => cases h
  | raised => cases h

theorem thread_step_sound {s s' : State} {t : Nat} {pc : ThreadPc}
    (ht : s.threads.get t = some pc) (h : thread_step s t pc = some s') :
    Step s (.thread t) [] s' := by
  cases pc with
  | test_running =>
    cases h
    split
    · next hrunning => exact .moves t _ _ ht (.tests hrunning)
    · next hrunning => exact .moves t _ _ ht (.skips (by simpa using hrunning))
  | test_registered =>
    cases h
    split
    · next hregistered => exact .moves t _ _ ht (.registered hregistered)
    · next hregistered => exact .moves t _ _ ht (.registers (by simpa using hregistered))
  | register p =>
    cases p with
    | send => cases h; exact .moves t _ _ ht .register_sent
    | _ => cases h
  | backing_off => cases h; exact .moves t _ _ ht .retries
  | test_loop =>
    cases h
    split
    · next hrunning => exact .moves t _ _ ht (.sleeps hrunning)
    · next hrunning => exact .moves t _ _ ht (.leaves _ (by simpa using hrunning) (Or.inl rfl))
  | sleeping => cases h; exact .moves t _ _ ht .wakes
  | test_again =>
    cases h
    split
    · next hrunning => exact .moves t _ _ ht (.beats hrunning)
    · next hrunning => exact .moves t _ _ ht (.leaves _ (by simpa using hrunning) (Or.inr rfl))
  | heartbeat p =>
    cases p with
    | send => cases h; exact .moves t _ _ ht .heartbeat_sent
    | _ => cases h
  | created => cases h
  | gone => cases h

theorem deliver_sound {s s' : State} {source : Source} {request : Request}
    (h : deliver s source = some (s', request)) :
    Step s (.deliver source) [.delivered request source] s' := by
  cases source with
  | call n =>
    simp only [deliver] at h
    split at h
    · next hn => cases h; exact .call_registers n hn
    · next hn => cases h; exact .deregisters n hn
    · cases h
  | thread t =>
    simp only [deliver] at h
    split at h
    · next ht => cases h; exact .thread_registers t ht
    · next ht => cases h; exact .beats t ht
    · cases h

theorem answer_sound {s s' : State} {source : Source} (h : answer s source = some s') :
    Step s (.answer source) [] s' := by
  cases source with
  | call n =>
    simp only [answer] at h
    split at h
    · next hn => cases h; exact .call_registered n hn
    · next hn => cases h; exact .deregistered n hn
    · cases h
  | thread t =>
    simp only [answer] at h
    split at h
    · next ht => cases h; exact .thread_registered t ht
    · next ht => cases h; exact .beaten t ht
    · cases h

theorem step_sound {s s' : State} {l : Label} {os : List Obs}
    (h : machine.step s l = some (s', os)) : Step s l os s' := by
  cases l with
  | start => cases h; exact .begins _ _ rfl
  | stop => cases h; exact .begins _ _ rfl
  | register_now => cases h; exact .begins _ _ rfl
  | call n =>
    simp only [machine] at h
    split at h
    · cases h
    next pc hn =>
    obtain ⟨s₁, hstep, heq⟩ := Option.map_eq_some_iff.mp h
    obtain ⟨rfl, rfl⟩ := Prod.mk.inj heq
    exact call_step_sound hn hstep
  | thread t =>
    simp only [machine] at h
    split at h
    · cases h
    next pc ht =>
    obtain ⟨s₁, hstep, heq⟩ := Option.map_eq_some_iff.mp h
    obtain ⟨rfl, rfl⟩ := Prod.mk.inj heq
    exact thread_step_sound ht hstep
  | deliver source =>
    obtain ⟨⟨s₁, request⟩, hstep, heq⟩ := Option.map_eq_some_iff.mp h
    obtain ⟨rfl, rfl⟩ := Prod.mk.inj heq
    exact deliver_sound hstep
  | answer source =>
    obtain ⟨s₁, hstep, heq⟩ := Option.map_eq_some_iff.mp h
    obtain ⟨rfl, rfl⟩ := Prod.mk.inj heq
    exact answer_sound hstep
  | fail source =>
    obtain ⟨s₁, hstep, heq⟩ := Option.map_eq_some_iff.mp h
    obtain ⟨rfl, rfl⟩ := Prod.mk.inj heq
    exact .fails source s₁ hstep

end CommandCenterClient
