import Aioscpu.Vnet.CommandCenter

/-! # Deregistration

  When the last call is `stop` and it has returned, the client and the Command
  Center should agree that the node is not registered, and no heartbeat should
  come after the deregistration. `stop` decides by `_registered` whether there
  is anything to deregister, and does not wait for the threads.
-/

namespace CommandCenterClient

/-! ### Requests under way -/

/-- The call is about to register the node, or waits for the answer. -/
def Pc.registering : Pc → Bool
  | .register _ => true
  | _ => false

/-- The thread may be about to register the node, or waits for the answer. -/
def ThreadPc.registering : ThreadPc → Bool
  | .test_registered => true
  | .register _ => true
  | _ => false

/-- The thread has a heartbeat that is still to be delivered. -/
def ThreadPc.beating : ThreadPc → Bool
  | .heartbeat .send => true
  | .heartbeat .sent => true
  | _ => false

/-- No registration is under way. -/
structure NoneRegistering (s : State) : Prop where
  calls : ∀ n pc, s.calls.get n = some pc → pc.registering = false
  threads : ∀ t pc, s.threads.get t = some pc → pc.registering = false

/-- No heartbeat is under way to the Command Center. -/
def NoneBeating (s : State) : Prop :=
  ∀ t pc, s.threads.get t = some pc → pc.beating = false

/-- No heartbeat is delivered after the deregistration by the call. -/
def Silent (n : Nat) (tr : List Obs) : Prop :=
  ∀ pre post, tr = pre ++ .delivered .deregister (.call n) :: post →
    ∀ t, .delivered .heartbeat (.thread t) ∉ post

/-- Both sides agree that the node is not registered. -/
structure Deregistered (n : Nat) (s : State) (tr : List Obs) : Prop where
  held : s.held = false
  registered : s.registered = false
  silent : Silent n tr

/-- What a step may do while the last call, `n`, runs. -/
def Careful (n : Nat) (s : State) : Label → Prop
  | .call m =>
    -- no `start` raises `_running` after `stop` has lowered it
    (s.calls.get m = some .start_write → s.calls.get n = some .stop_write) ∧
    (m = n → s.calls.get n = some .stop_test → s.configured = true → s.registered = false →
      s.held = false ∧ NoneRegistering s)
  | .deliver (.call m) => m = n → NoneBeating s
  | .answer (.call m) => m = n → s.held = false ∧ NoneRegistering s
  | _ => True

/-! ### What the other steps do -/

/-- The step is one of the call. -/
def Label.isOf (n : Nat) (l : Label) : Prop :=
  l = .call n ∨ l = .deliver (.call n) ∨ l = .answer (.call n)

section step

variable {s s' : State} {l : Label} {os : List Obs}

/-- The other steps leave the call where it stands. -/
theorem call_of_other {n : Nat} {pc : Pc} (hs : machine.step s l = some (s', os))
    (hfail : l.isFail = false) (hother : ¬ l.isOf n) (hn : s.calls.get n = some pc) :
    s'.calls.get n = some pc := by
  have hset : ∀ m pc' pc'', s.calls.get m = some pc' → m ≠ n →
      (s.calls.set m pc'').get n = some pc := by
    intro m pc' pc'' hm hne
    rw [Objects.get_set_of_ne hm hne.symm, hn]
  have hcall : ∀ m, l = .call m → m ≠ n := fun m hl heq => hother (Or.inl (heq ▸ hl))
  have hdeliver : ∀ m, l = .deliver (.call m) → m ≠ n := fun m hl heq =>
    hother (Or.inr (Or.inl (heq ▸ hl)))
  have hanswer : ∀ m, l = .answer (.call m) → m ≠ n := fun m hl heq =>
    hother (Or.inr (Or.inr (heq ▸ hl)))
  cases step_sound hs with
  | begins l pc' h => exact Objects.get_create_of_get hn _
  | goes m pc' pc'' hm hgo => exact hset m _ _ hm (hcall m rfl)
  | raises m hm => exact hset m _ _ hm (hcall m rfl)
  | creates m hm => exact hset m _ _ hm (hcall m rfl)
  | launches m t hm ht hcreated => exact hset m _ _ hm (hcall m rfl)
  | lowers m hm => exact hset m _ _ hm (hcall m rfl)
  | moves t pc' pc'' ht hgo => exact hn
  | call_registers m hm => exact hset m _ _ hm (hdeliver m rfl)
  | deregisters m hm => exact hset m _ _ hm (hdeliver m rfl)
  | thread_registers t ht => exact hn
  | beats t ht => exact hn
  | call_registered m hm => exact hset m _ _ hm (hanswer m rfl)
  | deregistered m hm => exact hset m _ _ hm (hanswer m rfl)
  | thread_registered t ht => exact hn
  | beaten t ht => exact hn
  | fails source s' h => cases hfail

/-- Only `start` raises `_running`. -/
theorem running_of_step (hs : machine.step s l = some (s', os)) (hfail : l.isFail = false)
    (hstart : ∀ m, l = .call m → s.calls.get m ≠ some .start_write)
    (h : s.running = false) : s'.running = false := by
  cases step_sound hs with
  | raises m hm => exact absurd hm (hstart m rfl)
  | lowers m hm => rfl
  | fails source s' h => cases hfail
  | _ => exact h

/-- With `_running` down, no thread sets out for a heartbeat. -/
theorem noneBeating_of_step (hs : machine.step s l = some (s', os)) (hfail : l.isFail = false)
    (hrunning : s.running = false) (h : NoneBeating s) : NoneBeating s' := by
  cases step_sound hs with
  | creates m hm => exact Objects.forall_get_create h rfl
  | launches m u hm hu hcreated => exact Objects.forall_get_set h hcreated rfl
  | moves u pc' pc'' hu hgo =>
    refine Objects.forall_get_set h hu ?_
    cases hgo with
    | beats hup => rw [hrunning] at hup; cases hup
    | heartbeat_sent => cases h u _ hu
    | _ => rfl
  | thread_registers u hu => exact Objects.forall_get_set h hu rfl
  | beats u hu => exact Objects.forall_get_set h hu rfl
  | thread_registered u hu => exact Objects.forall_get_set h hu rfl
  | beaten u hu => exact Objects.forall_get_set h hu rfl
  | fails source s' h => cases hfail
  | _ => exact h

/-- Nobody registers the node any more. -/
structure Settled (s : State) : Prop where
  held : s.held = false
  registered : s.registered = false
  none : NoneRegistering s

/-- With `_running` down and without a call, nothing registers the node again. -/
theorem settled_of_step (hs : machine.step s l = some (s', os)) (hcall : l.isCall = false)
    (hfail : l.isFail = false) (hrunning : s.running = false) (h : Settled s) : Settled s' := by
  obtain ⟨hheld, hregistered, hcalls, hthreads⟩ := h
  cases step_sound hs with
  | begins l pc h => rw [hcall] at h; cases h
  | goes m pc pc' hm hgo =>
    refine ⟨hheld, hregistered, Objects.forall_get_set hcalls hm ?_, hthreads⟩
    cases hgo with
    | register_sent => cases hcalls m _ hm
    | _ => rfl
  | raises m hm => exact ⟨hheld, hregistered, Objects.forall_get_set hcalls hm rfl, hthreads⟩
  | creates m hm =>
    exact ⟨hheld, hregistered, Objects.forall_get_set hcalls hm rfl,
      Objects.forall_get_create hthreads rfl⟩
  | launches m t hm ht hcreated =>
    exact ⟨hheld, hregistered, Objects.forall_get_set hcalls hm rfl,
      Objects.forall_get_set hthreads hcreated rfl⟩
  | lowers m hm => exact ⟨hheld, hregistered, Objects.forall_get_set hcalls hm rfl, hthreads⟩
  | moves t pc pc' ht hgo =>
    refine ⟨hheld, hregistered, hcalls, Objects.forall_get_set hthreads ht ?_⟩
    cases hgo with
    | tests hup => rw [hrunning] at hup; cases hup
    | registers => cases hthreads t _ ht
    | register_sent => cases hthreads t _ ht
    | _ => rfl
  | call_registers m hm => cases hcalls m _ hm
  | deregisters m hm =>
    exact ⟨rfl, hregistered, Objects.forall_get_set hcalls hm rfl, hthreads⟩
  | thread_registers t ht => cases hthreads t _ ht
  | beats t ht => exact ⟨hheld, hregistered, hcalls, Objects.forall_get_set hthreads ht rfl⟩
  | call_registered m hm => cases hcalls m _ hm
  | deregistered m hm => exact ⟨hheld, rfl, Objects.forall_get_set hcalls hm rfl, hthreads⟩
  | thread_registered t ht => cases hthreads t _ ht
  | beaten t ht => exact ⟨hheld, hregistered, hcalls, Objects.forall_get_set hthreads ht rfl⟩
  | fails source s' h => cases hfail

/-- What a step emits. -/
theorem os_of_step (hs : machine.step s l = some (s', os)) :
    os = [] ∨ ∃ request source, os = [.delivered request source] ∧ l = .deliver source ∧
      ∀ t, request = .heartbeat → source = .thread t →
        s.threads.get t = some (.heartbeat .sent) := by
  cases step_sound hs with
  | call_registers m hm => exact Or.inr ⟨_, _, rfl, rfl, fun _ h => by cases h⟩
  | deregisters m hm => exact Or.inr ⟨_, _, rfl, rfl, fun _ h => by cases h⟩
  | thread_registers u hu => exact Or.inr ⟨_, _, rfl, rfl, fun _ h => by cases h⟩
  | beats u hu =>
    refine Or.inr ⟨_, _, rfl, rfl, fun t _ heq => ?_⟩
    obtain rfl := Source.thread.inj heq
    exact hu
  | _ => exact Or.inl rfl

end step

/-- A step that delivers no heartbeat after the deregistration. -/
theorem silent_append {n : Nat} {tr os : List Obs} (h : Silent n tr)
    (hone : os = [] ∨ ∃ o, os = [o])
    (hos : .delivered .deregister (.call n) ∈ tr →
      ∀ t, .delivered .heartbeat (.thread t) ∉ os) : Silent n (tr ++ os) := by
  rcases hone with rfl | ⟨o, rfl⟩
  · rwa [List.append_nil]
  intro pre post heq t hmem
  rcases List.eq_nil_or_concat post with rfl | ⟨post', o', rfl⟩
  · cases hmem
  rw [List.concat_eq_append, ← List.cons_append, ← List.append_assoc] at heq
  obtain ⟨rfl, hlast⟩ := List.append_inj' heq rfl
  obtain rfl := List.singleton_inj.mp hlast
  rw [List.concat_eq_append] at hmem
  rcases List.mem_append.mp hmem with hmem | hmem
  · exact h pre post' rfl t hmem
  · exact hos (List.mem_append_right _ List.mem_cons_self) t hmem

/-! ### The last call -/

/-- How far `stop`, as the last call, has got. -/
structure Phase (n : Nat) (s : State) (tr : List Obs) : Prop where
  stopping : s.calls.get n = some .stop_write ∨ s.calls.get n = some .stop_test ∨
    (∃ p, s.calls.get n = some (.deregister p)) ∨ s.calls.get n = some .returned
  lowered : s.calls.get n ≠ some .stop_write → s.running = false
  settled : s.calls.get n = some .returned → Settled s
  quiet : .delivered .deregister (.call n) ∈ tr →
    s.calls.get n ≠ some .stop_write ∧ NoneBeating s
  silent : Silent n tr

/-- A step of others keeps the phase. -/
theorem phase_of_other {n : Nat} {s s' : State} {l : Label} {tr os : List Obs}
    (h : Phase n s tr) (hs : machine.step s l = some (s', os)) (hcall : l.isCall = false)
    (hfail : l.isFail = false) (hother : ¬ l.isOf n)
    (hstart : ∀ m, l = .call m → s.calls.get m = some .start_write →
      s.calls.get n = some .stop_write) : Phase n s' (tr ++ os) := by
  -- the call stands where it stood
  obtain ⟨pc, hpc⟩ : ∃ pc, s.calls.get n = some pc := by
    rcases h.stopping with hn | hn | ⟨p, hn⟩ | hn <;> exact ⟨_, hn⟩
  have hsame : s'.calls.get n = s.calls.get n :=
    (call_of_other hs hfail hother hpc).trans hpc.symm
  have hos := os_of_step hs
  have hold : .delivered .deregister (.call n) ∈ tr ++ os →
      .delivered .deregister (.call n) ∈ tr := by
    intro hmem
    rcases List.mem_append.mp hmem with hmem | hmem
    · exact hmem
    rcases hos with rfl | ⟨request, source, rfl, hl, -⟩
    · cases hmem
    · obtain ⟨-, rfl⟩ := Obs.delivered.inj (List.mem_singleton.mp hmem)
      exact absurd (Or.inr (Or.inl hl)) hother
  have hquiet : .delivered .deregister (.call n) ∈ tr →
      s.calls.get n ≠ some .stop_write ∧ NoneBeating s ∧ s.running = false := fun hmem =>
    ⟨(h.quiet hmem).1, (h.quiet hmem).2, h.lowered (h.quiet hmem).1⟩
  refine ⟨hsame ▸ h.stopping, fun hne => ?_, fun hreturned => ?_, fun hmem => ?_, ?_⟩
  · rw [hsame] at hne
    exact running_of_step hs hfail (fun m hl hm => hne (hstart m hl hm)) (h.lowered hne)
  · rw [hsame] at hreturned
    refine settled_of_step hs hcall hfail (h.lowered ?_) (h.settled hreturned)
    rw [hreturned]
    decide
  · obtain ⟨hne, hnone, hrunning⟩ := hquiet (hold hmem)
    exact ⟨hsame ▸ hne, noneBeating_of_step hs hfail hrunning hnone⟩
  · refine silent_append h.silent ?_ fun hmem t ht => ?_
    · rcases hos with hnil | ⟨request, source, hone, -⟩
      · exact Or.inl hnil
      · exact Or.inr ⟨_, hone⟩
    · obtain ⟨-, hnone, -⟩ := hquiet hmem
      rcases hos with rfl | ⟨request, source, rfl, -, hsent⟩
      · cases ht
      · obtain ⟨rfl, rfl⟩ := Obs.delivered.inj (List.mem_singleton.mp ht)
        cases hnone t _ (hsent t rfl rfl)

/-- A step of the call without an event keeps the phase if it leaves the threads. -/
theorem phase_of_goto {n : Nat} {s s' : State} {tr : List Obs} (h : Phase n s tr) {pc : Pc}
    (hget : s'.calls.get n = some pc) (hthreads : s'.threads = s.threads)
    (hpc : pc = .stop_test ∨ (∃ p, pc = .deregister p) ∨ pc = .returned)
    (hrunning : s'.running = false) (hsettled : pc = .returned → Settled s') :
    Phase n s' tr := by
  refine ⟨?_, fun _ => hrunning, fun hreturned => ?_, fun hmem => ⟨?_, ?_⟩, h.silent⟩
  · rcases hpc with rfl | ⟨p, rfl⟩ | rfl
    · exact Or.inr (Or.inl hget)
    · exact Or.inr (Or.inr (Or.inl ⟨p, hget⟩))
    · exact Or.inr (Or.inr (Or.inr hget))
  · exact hsettled (Option.some.inj (hget.symm.trans hreturned))
  · rw [hget]
    rcases hpc with rfl | ⟨p, rfl⟩ | rfl <;> simp
  · have hnone := (h.quiet hmem).2
    unfold NoneBeating at hnone ⊢
    rwa [hthreads]

/-- The call goes on. -/
theorem phase_of_call {n : Nat} {s s' : State} {tr os : List Obs} (h : Phase n s tr)
    (hconfigured : s.configured = true) (hs : machine.step s (.call n) = some (s', os))
    (hcareful : Careful n s (.call n)) : Phase n s' (tr ++ os) := by
  rcases h.stopping with hn | hn | ⟨p, hn⟩ | hn
  · have heq : machine.step s (.call n) =
        some ({ goto s n .stop_test with running := false }, []) := by
      simp [machine, hn, call_step]
    obtain ⟨rfl, rfl⟩ := Prod.mk.inj (Option.some.inj (hs.symm.trans heq))
    rw [List.append_nil]
    exact phase_of_goto h (Objects.get_set_self hn _) rfl (Or.inl rfl) rfl (by simp)
  · have hrunning := h.lowered (by rw [hn]; decide)
    cases hregistered : s.registered with
    | true =>
      have heq : machine.step s (.call n) = some (goto s n (.deregister .send), []) := by
        simp [machine, hn, call_step, hconfigured, hregistered]
      obtain ⟨rfl, rfl⟩ := Prod.mk.inj (Option.some.inj (hs.symm.trans heq))
      rw [List.append_nil]
      exact phase_of_goto h (Objects.get_set_self hn _) rfl (Or.inr (Or.inl ⟨_, rfl⟩)) hrunning
        (by simp)
    | false =>
      have heq : machine.step s (.call n) = some (goto s n .returned, []) := by
        simp [machine, hn, call_step, hregistered]
      obtain ⟨rfl, rfl⟩ := Prod.mk.inj (Option.some.inj (hs.symm.trans heq))
      rw [List.append_nil]
      obtain ⟨hheld, hcalls, hthreads⟩ := hcareful.2 rfl hn hconfigured hregistered
      refine phase_of_goto h (Objects.get_set_self hn _) rfl (Or.inr (Or.inr rfl)) hrunning
        fun _ => ?_
      exact ⟨hheld, hregistered, Objects.forall_get_set hcalls hn rfl, hthreads⟩
  · have hrunning := h.lowered (by rw [hn]; simp)
    cases p with
    | send =>
      have heq : machine.step s (.call n) = some (goto s n (.deregister .sent), []) := by
        simp [machine, hn, call_step]
      obtain ⟨rfl, rfl⟩ := Prod.mk.inj (Option.some.inj (hs.symm.trans heq))
      rw [List.append_nil]
      exact phase_of_goto h (Objects.get_set_self hn _) rfl (Or.inr (Or.inl ⟨_, rfl⟩)) hrunning
        (by simp)
    | _ => simp [machine, hn, call_step] at hs
  · simp [machine, hn, call_step] at hs

/-- The request of the call is delivered. -/
theorem phase_of_deliver {n : Nat} {s s' : State} {tr os : List Obs} (h : Phase n s tr)
    (hs : machine.step s (.deliver (.call n)) = some (s', os)) (hnone : NoneBeating s) :
    Phase n s' (tr ++ os) := by
  cases step_sound hs with
  | begins l pc hcall => cases hcall
  | call_registers m hn =>
    rcases h.stopping with hn' | hn' | ⟨p, hn'⟩ | hn' <;> cases hn'.symm.trans hn
  | deregisters m hn =>
    have hget : (goto s n (.deregister .delivered)).calls.get n =
        some (.deregister .delivered) := Objects.get_set_self hn _
    refine ⟨Or.inr (Or.inr (Or.inl ⟨_, hget⟩)), fun _ => ?_, fun hreturned => ?_,
      fun _ => ⟨?_, hnone⟩, ?_⟩
    · exact h.lowered (by rw [hn]; simp)
    · cases hget.symm.trans hreturned
    · exact fun hwrite => by cases hget.symm.trans hwrite
    · exact silent_append h.silent (Or.inr ⟨_, rfl⟩) (by simp)

/-- The answer to the call arrives. -/
theorem phase_of_answer {n : Nat} {s s' : State} {tr os : List Obs} (h : Phase n s tr)
    (hs : machine.step s (.answer (.call n)) = some (s', os)) (hheld : s.held = false)
    (hnone : NoneRegistering s) : Phase n s' (tr ++ os) := by
  cases step_sound hs with
  | begins l pc hcall => cases hcall
  | call_registered m hn =>
    rcases h.stopping with hn' | hn' | ⟨p, hn'⟩ | hn' <;> cases hn'.symm.trans hn
  | deregistered m hn =>
    rw [List.append_nil]
    refine phase_of_goto h (Objects.get_set_self hn _) rfl (Or.inr (Or.inr rfl))
      (h.lowered (by rw [hn]; simp)) fun _ => ?_
    exact ⟨hheld, rfl, Objects.forall_get_set hnone.calls hn rfl, hnone.threads⟩

/-- A careful step keeps the phase. -/
theorem phase_of_step {n : Nat} {s s' : State} {l : Label} {tr os : List Obs}
    (h : Phase n s tr) (hconfigured : s.configured = true)
    (hs : machine.step s l = some (s', os)) (hcall : l.isCall = false)
    (hfail : l.isFail = false) (hcareful : Careful n s l) : Phase n s' (tr ++ os) := by
  by_cases hof : l.isOf n
  · rcases hof with rfl | rfl | rfl
    · exact phase_of_call h hconfigured hs hcareful
    · exact phase_of_deliver h hs (hcareful rfl)
    · exact phase_of_answer h hs (hcareful rfl).1 (hcareful rfl).2
  · refine phase_of_other h hs hcall hfail hof fun m hl hm => ?_
    subst hl
    exact hcareful.1 hm

/-! ### Clients without a URL -/

theorem configured_of_fail {s s' : State} {source : Source} (h : fail s source = some s') :
    s'.configured = s.configured := by
  cases source with
  | call n =>
    simp only [fail] at h
    split at h
    · split at h <;> cases h
      rfl
    · split at h <;> cases h
      rfl
    · cases h
  | thread t =>
    simp only [fail] at h
    split at h
    · split at h <;> cases h
      rfl
    · split at h <;> cases h
      rfl
    · cases h

theorem configured_of_step {s s' : State} {l : Label} {os : List Obs}
    (hs : machine.step s l = some (s', os)) : s'.configured = s.configured := by
  cases step_sound hs with
  | fails source s' h => exact configured_of_fail h
  | _ => rfl

/-- Without a URL only `stop` does anything. -/
structure Idle (s : State) : Prop where
  configured : s.configured = false
  held : s.held = false
  registered : s.registered = false
  threads : ∀ t, s.threads.get t = none
  calls : ∀ n pc, s.calls.get n = some pc → pc = .stop_write ∨ pc = .stop_test ∨ pc = .returned

/-- There is no request then. -/
theorem requests_of_idle {s : State} (h : Idle s) (source : Source) :
    deliver s source = none ∧ answer s source = none ∧ fail s source = none := by
  cases source with
  | call n =>
    cases hn : s.calls.get n with
    | none => simp [deliver, answer, fail, hn]
    | some pc => rcases h.calls n pc hn with rfl | rfl | rfl <;> simp [deliver, answer, fail, hn]
  | thread t => simp [deliver, answer, fail, h.threads t]

theorem step_idle {s s' : State} {l : Label} {os : List Obs} (h : Idle s)
    (hs : machine.step s l = some (s', os)) : Idle s' ∧ os = [] := by
  have hrequests := requests_of_idle h
  obtain ⟨hconfigured, hheld, hregistered, hthreads, hcalls⟩ := h
  cases l with
  | start =>
    obtain ⟨rfl, rfl⟩ := Prod.mk.inj (Option.some.inj hs)
    refine ⟨⟨hconfigured, hheld, hregistered, hthreads, ?_⟩, rfl⟩
    exact Objects.forall_get_create hcalls (by simp [hconfigured])
  | stop =>
    obtain ⟨rfl, rfl⟩ := Prod.mk.inj (Option.some.inj hs)
    refine ⟨⟨hconfigured, hheld, hregistered, hthreads, ?_⟩, rfl⟩
    exact Objects.forall_get_create hcalls (Or.inl rfl)
  | register_now =>
    obtain ⟨rfl, rfl⟩ := Prod.mk.inj (Option.some.inj hs)
    refine ⟨⟨hconfigured, hheld, hregistered, hthreads, ?_⟩, rfl⟩
    exact Objects.forall_get_create hcalls (by simp [hconfigured])
  | call n =>
    cases hn : s.calls.get n with
    | none => simp [machine, hn] at hs
    | some pc =>
      rcases hcalls n pc hn with rfl | rfl | rfl
      · simp [machine, hn, call_step] at hs
        obtain ⟨rfl, rfl⟩ := hs
        refine ⟨⟨hconfigured, hheld, hregistered, hthreads, ?_⟩, rfl⟩
        exact Objects.forall_get_set hcalls hn (Or.inr (Or.inl rfl))
      · simp [machine, hn, call_step, hconfigured] at hs
        obtain ⟨rfl, rfl⟩ := hs
        refine ⟨⟨hconfigured, hheld, hregistered, hthreads, ?_⟩, rfl⟩
        exact Objects.forall_get_set hcalls hn (Or.inr (Or.inr rfl))
      · simp [machine, hn, call_step] at hs
  | thread t => simp [machine, hthreads t] at hs
  | deliver source =>
    simp [machine, (hrequests source).1] at hs
  | answer source =>
    simp [machine, (hrequests source).2.1] at hs
  | fail source =>
    simp [machine, (hrequests source).2.2] at hs

theorem init_idle : Idle (init false) :=
  ⟨rfl, rfl, rfl, fun _ => rfl, fun _ _ h => by cases h⟩

theorem run_idle {s s' : State} {ls : List Label} {tr : List Obs} (h : Idle s)
    (hrun : machine.run s ls = some (s', tr)) : Idle s' ∧ tr = [] := by
  refine machine.run_induction (P := fun _ s tr => Idle s ∧ tr = []) ⟨h, rfl⟩ ?_ hrun
  rintro _ s tr l s' os _ ⟨h, rfl⟩ hs
  exact step_idle h hs

/-! ### Runs -/

theorem run_configured {s s' : State} {ls : List Label} {tr : List Obs}
    (h : s.configured = true) (hrun : machine.run s ls = some (s', tr)) : s'.configured = true :=
  machine.run_invariant (I := fun s => s.configured = true) h
    (fun _ _ _ _ h hs => (configured_of_step hs).trans h) hrun

/-- A call of `stop` that has done nothing yet. -/
theorem phase_of_stop (s : State) : Phase s.calls.next (begin_call s .stop_write) [] := by
  have hget : (begin_call s .stop_write).calls.get s.calls.next = some .stop_write :=
    Objects.get_create_self ..
  refine ⟨Or.inl hget, fun hne => absurd hget hne, fun hret => ?_, fun hmem => ?_, ?_⟩
  · cases hget.symm.trans hret
  · cases hmem
  · exact fun pre post heq => absurd heq (by simp)

/-- Careful steps of a run without calls and failures keep the phase. -/
theorem run_phase {n : Nat} {s s' : State} {ls : List Label} {tr : List Obs}
    (h : Phase n s []) (hconfigured : s.configured = true)
    (hrun : machine.run s ls = some (s', tr)) (hlast : ∀ l ∈ ls, l.isCall = false)
    (hsuccess : ∀ l ∈ ls, l.isFail = false) (hcareful : machine.Along (Careful n) s ls) :
    Phase n s' tr := by
  have hall := machine.run_induction_along
    (P := fun ls s tr => s.configured = true ∧
      ((∀ l ∈ ls, l.isCall = false ∧ l.isFail = false) → Phase n s tr))
    ⟨hconfigured, fun _ => h⟩
    (fun ls s tr l s' os _ h hC hs => by
      refine ⟨(configured_of_step hs).trans h.1, fun hls => ?_⟩
      have hphase := h.2 fun l' hl' => hls l' (List.mem_append_left _ hl')
      obtain ⟨hcall, hfail⟩ := hls l (List.mem_append_right _ (List.mem_singleton.mpr rfl))
      exact phase_of_step hphase h.1 hs hcall hfail hC) hcareful hrun
  exact hall.2 fun l hl => ⟨hlast l hl, hsuccess l hl⟩

/-- **Deregistration**: if the last call is `stop`, and from then on every
    request is delivered and answered, then both sides agree once the call has
    returned that the node is not registered, and no heartbeat is delivered
    after the deregistration, in every run in which the steps from the call on
    are careful. -/
theorem deregistered_of_careful {configured : Bool} {before after : List Label}
    {s₁ s : State} {tr₁ tr : List Obs}
    (hbefore : machine.run (init configured) before = some (s₁, tr₁))
    (hafter : machine.run s₁ (.stop :: after) = some (s, tr))
    (hlast : ∀ l ∈ after, l.isCall = false) (hsuccess : ∀ l ∈ after, l.isFail = false)
    (hcareful : machine.Along (Careful s₁.calls.next) s₁ (.stop :: after))
    (hreturned : s.calls.get s₁.calls.next = some .returned) :
    Deregistered s₁.calls.next s tr := by
  cases configured with
  | false =>
    obtain ⟨hidle, -⟩ := run_idle init_idle hbefore
    obtain ⟨hend, rfl⟩ := run_idle hidle hafter
    exact ⟨hend.held, hend.registered, fun pre post heq => by simp at heq⟩
  | true =>
    have hconfigured := run_configured rfl hbefore
    obtain ⟨s₂, os, tr', hstop, hrest, rfl⟩ := machine.run_cons_iff.mp hafter
    obtain ⟨rfl, rfl⟩ := Prod.mk.inj (Option.some.inj hstop)
    have hend := run_phase (phase_of_stop s₁) hconfigured hrest hlast hsuccess hcareful.2
    obtain ⟨hheld, hregistered, -⟩ := hend.settled hreturned
    exact ⟨hheld, hregistered, hend.silent⟩

instance (s : State) : Decidable (NoneRegistering s) :=
  decidable_of_iff ((∀ pc ∈ s.calls.list, pc.registering = false) ∧
      ∀ pc ∈ s.threads.list, pc.registering = false)
    ⟨fun h => ⟨(s.calls.forall_get_iff _).mpr h.1, (s.threads.forall_get_iff _).mpr h.2⟩,
      fun h => ⟨(s.calls.forall_get_iff _).mp h.calls, (s.threads.forall_get_iff _).mp h.threads⟩⟩

instance (s : State) : Decidable (NoneBeating s) :=
  decidable_of_iff _ (s.threads.forall_get_iff _).symm

instance (n : Nat) (s : State) : (l : Label) → Decidable (Careful n s l)
  | .call m =>
    inferInstanceAs (Decidable
      ((s.calls.get m = some .start_write → s.calls.get n = some .stop_write) ∧
        (m = n → s.calls.get n = some .stop_test → s.configured = true → s.registered = false →
          s.held = false ∧ NoneRegistering s)))
  | .deliver (.call m) => inferInstanceAs (Decidable (m = n → NoneBeating s))
  | .answer (.call m) => inferInstanceAs (Decidable (m = n → s.held = false ∧ NoneRegistering s))
  | .deliver (.thread _) => isTrue trivial
  | .answer (.thread _) => isTrue trivial
  | .start => isTrue trivial
  | .stop => isTrue trivial
  | .register_now => isTrue trivial
  | .thread _ => isTrue trivial
  | .fail _ => isTrue trivial

/-- A client is started, and its thread sends the registration. -/
def registeringRun : List Label :=
  [.start, .call 0, .call 0, .call 0, .call 0, .thread 0, .thread 0, .thread 0]

/-- The registration is answered, and the thread sleeps. -/
def registeredRun : List Label :=
  registeringRun ++ [.deliver (.thread 0), .answer (.thread 0), .thread 0]

/-- The client is stopped while its thread sleeps. -/
def stoppedRun : List Label :=
  [.call 1, .call 1, .call 1, .deliver (.call 1), .answer (.call 1), .thread 0, .thread 0]

theorem deregistered_of_careful_asleep :
    ∃ s₁ tr₁ s tr, machine.run (init true) registeredRun = some (s₁, tr₁) ∧
      machine.run s₁ (.stop :: stoppedRun) = some (s, tr) ∧
      s.threads.get 0 = some .gone ∧ Deregistered 1 s tr := by
  obtain ⟨s₁, hbefore, hnext, hcareful, s, tr, hafter, hgone, hreturned⟩ :
      ∃ s₁, machine.run (init true) registeredRun =
          some (s₁, [.delivered .register (.thread 0)]) ∧
        s₁.calls.next = 1 ∧ machine.Along (Careful 1) s₁ (.stop :: stoppedRun) ∧
        ∃ s tr, machine.run s₁ (.stop :: stoppedRun) = some (s, tr) ∧
          s.threads.get 0 = some .gone ∧ s.calls.get 1 = some .returned := by
    refine ⟨_, rfl, rfl, by decide, _, _, rfl, rfl, rfl⟩
  have h := deregistered_of_careful hbefore hafter (by decide) (by decide)
    (hnext.symm ▸ hcareful) (hnext.symm ▸ hreturned)
  exact ⟨s₁, _, s, tr, hbefore, hafter, hgone, hnext ▸ h⟩

/-- A client that is stopped while its registration is in flight stays
    registered, and one that is stopped during a heartbeat sends it after the
    deregistration. -/
theorem stopped_node_registered :
    (∃ s₁ tr₁ s tr, machine.run (init true) registeringRun = some (s₁, tr₁) ∧
      machine.run s₁ [.stop, .call 1, .call 1, .deliver (.thread 0), .answer (.thread 0),
        .thread 0] = some (s, tr) ∧
      s.threads.get 0 = some .gone ∧ s.calls.get 1 = some .returned ∧
      s.held = true ∧ s.registered = true) ∧
    ∃ s₁ tr₁ s, machine.run (init true)
        (registeredRun ++ [.thread 0, .thread 0, .thread 0]) = some (s₁, tr₁) ∧
      machine.run s₁ [.stop, .call 1, .call 1, .call 1, .deliver (.call 1), .deliver (.thread 0),
        .answer (.call 1), .answer (.thread 0), .thread 0] =
          some (s, [.delivered .deregister (.call 1), .delivered .heartbeat (.thread 0)]) ∧
      s.threads.get 0 = some .gone ∧ s.calls.get 1 = some .returned :=
  ⟨⟨_, _, _, _, rfl, rfl, rfl, rfl, rfl, rfl⟩, _, _, _, rfl, rfl, rfl, rfl⟩

/-! ### Where the two sides come to disagree -/

/-- The client knows of each registration, or waits for its answer. -/
def Acknowledged (s : State) : Prop :=
  s.held = true → s.registered = true ∨ (∃ n, s.calls.get n = some (.register .delivered)) ∨
    ∃ t, s.threads.get t = some (.register .delivered)

/-- No request fails, and no registration is delivered between a deregistration
    and its answer. -/
def Ordered (s : State) : Label → Prop
  | .answer (.call n) => s.calls.get n = some (.deregister .delivered) → s.held = false
  | .fail _ => False
  | _ => True

/-- A step that overtakes no deregistration. -/
theorem acknowledged_of_step {s s' : State} {l : Label} {os : List Obs} (h : Acknowledged s)
    (hordered : Ordered s l) (hs : machine.step s l = some (s', os)) : Acknowledged s' := by
  -- a registration that waits for its answer still does
  have hcalls : ∀ m pc pc', s.calls.get m = some pc → pc ≠ .register .delivered →
      (∃ n, s.calls.get n = some (.register .delivered)) →
      ∃ n, (s.calls.set m pc').get n = some (.register .delivered) := by
    rintro m pc pc' hm hpc ⟨n, hn⟩
    exact ⟨n, Objects.get_set_of_get hm hn hpc.symm _⟩
  have hthreads : ∀ u pc pc', s.threads.get u = some pc → pc ≠ .register .delivered →
      (∃ t, s.threads.get t = some (.register .delivered)) →
      ∃ t, (s.threads.set u pc').get t = some (.register .delivered) := by
    rintro u pc pc' hu hpc ⟨t, ht⟩
    exact ⟨t, Objects.get_set_of_get hu ht hpc.symm _⟩
  cases step_sound hs with
  | begins l pc hcall =>
    exact fun hheld => (h hheld).imp_right fun h => h.imp_left fun ⟨n, hn⟩ =>
      ⟨n, Objects.get_create_of_get hn _⟩
  | goes m pc pc' hm hgo =>
    have hpc : pc ≠ .register .delivered := by cases hgo <;> simp
    exact fun hheld => (h hheld).imp_right fun h => h.imp_left (hcalls m _ _ hm hpc)
  | raises m hm =>
    exact fun hheld => (h hheld).imp_right fun h => h.imp_left (hcalls m _ _ hm (by simp))
  | creates m hm =>
    exact fun hheld => (h hheld).imp_right fun h => h.imp (hcalls m _ _ hm (by simp))
      fun ⟨t, ht⟩ => ⟨t, Objects.get_create_of_get ht _⟩
  | launches m u hm hu hcreated =>
    exact fun hheld => (h hheld).imp_right fun h =>
      h.imp (hcalls m _ _ hm (by simp)) (hthreads u _ _ hcreated (by simp))
  | lowers m hm =>
    exact fun hheld => (h hheld).imp_right fun h => h.imp_left (hcalls m _ _ hm (by simp))
  | moves u pc pc' hu hgo =>
    have hpc : pc ≠ .register .delivered := by
      cases hgo with
      | leaves pc hrunning hpc => rcases hpc with rfl | rfl <;> simp
      | _ => simp
    exact fun hheld => (h hheld).imp_right fun h => h.imp_right (hthreads u _ _ hu hpc)
  | call_registers m hm =>
    exact fun _ => Or.inr (Or.inl ⟨m, Objects.get_set_self hm _⟩)
  | deregisters m hm => exact fun hheld => by cases hheld
  | thread_registers u hu =>
    exact fun _ => Or.inr (Or.inr ⟨u, Objects.get_set_self hu _⟩)
  | beats u hu =>
    exact fun hheld => (h hheld).imp_right fun h => h.imp_right (hthreads u _ _ hu (by simp))
  | call_registered m hm => exact fun _ => Or.inl rfl
  | deregistered m hm =>
    intro hheld
    have hnot : s.held = false := hordered hm
    cases hnot.symm.trans hheld
  | thread_registered u hu => exact fun _ => Or.inl rfl
  | beaten u hu =>
    exact fun hheld => (h hheld).imp_right fun h => h.imp_right (hthreads u _ _ hu (by simp))
  | fails source s' h => exact hordered.elim

/-- **Where they come to disagree**: if no request fails, and no registration is
    delivered between a deregistration and its answer, a client that is not
    registered with no registration under way is not held as registered. -/
theorem agreed_of_ordered {configured : Bool} {ls : List Label} {s : State} {tr : List Obs}
    (hrun : machine.run (init configured) ls = some (s, tr))
    (hordered : machine.Along Ordered (init configured) ls) (hregistered : s.registered = false)
    (hnone : NoneRegistering s) : s.held = false := by
  have h : Acknowledged s := machine.run_induction_along (P := fun _ s _ => Acknowledged s)
    (fun hheld => by cases hheld)
    (fun _ _ _ _ _ _ _ h hC hs => acknowledged_of_step h hC hs) hordered hrun
  cases hheld : s.held with
  | false => rfl
  | true =>
    rcases h hheld with hreg | ⟨n, hn⟩ | ⟨t, ht⟩
    · rw [hregistered] at hreg
      cases hreg
    · cases hnone.calls n _ hn
    · cases hnone.threads t _ ht

end CommandCenterClient
