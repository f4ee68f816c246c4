import Aioscpu.Services.HealthMonitor

/-! # Abandoned Services

  A repair of a service may fail, and a service that was restarted may fail
  again. The monitor would have to repair it once more then. It does so only
  if the circuit of the service is closed, and only a check that the service
  passes closes it.
-/

open ServiceManager (ServiceState)

namespace HealthMonitor

variable {T : Type}

/-! ### The law -/

/-- The observation is a check of the service. -/
def Obs.isCheck (name : String) : Obs T → Bool
  | .checked name' _ _ => name' = name
  | _ => false

/-- The service has failed all checks of the window. -/
def AllFail (name : String) (window : List (Obs T)) : Prop :=
  ∀ state now, .checked name state now ∈ window → state ≠ .RUNNING

/-- The service has failed enough checks in a row, all of them late enough
    after a repair of it. -/
structure Lapsed [Clock T] (max_failures : Int) (name : String) (repaired : T)
    (window : List (Obs T)) : Prop where
  fails : AllFail name window
  late : ∀ state now, .checked name state now ∈ window →
    Clock.ofSeconds CIRCUIT_RESET_S < now - repaired
  enough : max_failures ≤ (window.countP (Obs.isCheck name) : Nat)
  nonempty : 0 < window.countP (Obs.isCheck name)

/-- A service that fails that often after a repair has another repair
    submitted by then. -/
def NotAbandoned [Clock T] (max_failures : Int) (tr : List (Obs T)) : Prop :=
  ∀ name repaired pre mid window, tr = pre ++ .repaired name repaired :: (mid ++ window) →
    Lapsed max_failures name repaired window → ∃ j, .submitted name j ∈ mid ++ window

/-- With this check the service has failed that often after a repair of it,
    and no repair has been submitted since. -/
def Overdue [Clock T] (max_failures : Int) (tr : List (Obs T)) (name : String)
    (state : ServiceState) (now : T) : Prop :=
  ∃ repaired pre mid window, tr = pre ++ .repaired name repaired :: (mid ++ window) ∧
    (∀ j, .submitted name j ∉ mid ++ window) ∧
    Lapsed max_failures name repaired (window ++ [.checked name state now])

/-- The circuit of each service whose repair is overdue is closed. -/
def Retries [Clock T] (s : State T) (tr : List (Obs T)) : Label T → Prop
  | .check_all (some registry) env =>
    ∀ name state, registry.get name = some state →
      Overdue s.monitor.max_failures tr name state (env.checked name) →
      circuit s.monitor.health name = .CLOSED
  | _ => True

/-! ### Windows -/

theorem countP_isCheck (name : String) (window : List (Obs T)) :
    window.countP (Obs.isCheck name) = (window.filter (Obs.isCheck name)).length :=
  List.countP_eq_length_filter

/-- A repair checks nothing. -/
theorem filter_isCheck_of_repair {os : List (Obs T)} (h : ∀ o ∈ os, o.ofCheck = false)
    (name : String) : os.filter (Obs.isCheck name) = [] := by
  refine List.filter_eq_nil_iff.mpr fun o ho => ?_
  have hcheck := h o ho
  cases o with
  | checked name' state now => cases hcheck
  | _ => exact Bool.false_ne_true

/-- Only the checks of the service count. -/
theorem lapsed_congr [Clock T] {max_failures : Int} {name : String} {repaired : T}
    {window window' : List (Obs T)}
    (h : window.filter (Obs.isCheck name) = window'.filter (Obs.isCheck name)) :
    Lapsed max_failures name repaired window ↔ Lapsed max_failures name repaired window' := by
  have hmem : ∀ state now, Obs.checked name state now ∈ window ↔
      .checked name state now ∈ window' := by
    intro state now
    have hcheck : (Obs.checked name state now).isCheck name = true := by simp [Obs.isCheck]
    have := congrArg (Obs.checked name state now ∈ ·) h
    simpa [hcheck] using this
  have hcount : window.countP (Obs.isCheck name) = window'.countP (Obs.isCheck name) := by
    rw [List.countP_eq_length_filter, h, ← List.countP_eq_length_filter]
  constructor
  · rintro ⟨hfails, hlate, henough, hnonempty⟩
    exact ⟨fun state now hw => hfails state now ((hmem state now).mpr hw),
      fun state now hw => hlate state now ((hmem state now).mpr hw), hcount ▸ henough,
      hcount ▸ hnonempty⟩
  · rintro ⟨hfails, hlate, henough, hnonempty⟩
    exact ⟨fun state now hw => hfails state now ((hmem state now).mp hw),
      fun state now hw => hlate state now ((hmem state now).mp hw), hcount ▸ henough,
      hcount ▸ hnonempty⟩

/-- A check emits one check of a service at most. Where the window goes back
    beyond it, the rest of the window stands before it. -/
theorem lapsed_split [Clock T] {max_failures : Int} {name : String} {repaired : T}
    {rest os mid window new : List (Obs T)} (hrest : mid ++ window = rest ++ os)
    (hlapsed : Lapsed max_failures name repaired window)
    (hnew : os.filter (Obs.isCheck name) = new) (hone : new.length ≤ 1) :
    ∃ mid' w, rest = mid' ++ w ∧ Lapsed max_failures name repaired (w ++ new) := by
  have hidem : new.filter (Obs.isCheck name) = new := by
    rw [← hnew, List.filter_filter]
    simp
  rcases List.append_eq_append_iff.mp hrest with ⟨w, rfl, rfl⟩ | ⟨a, rfl, rfl⟩
  · refine ⟨mid, w, rfl, (lapsed_congr ?_).mp hlapsed⟩
    rw [List.filter_append, List.filter_append, hnew, hidem]
  · -- the window lies within the check
    refine ⟨rest, [], (List.append_nil _).symm, (lapsed_congr ?_).mp hlapsed⟩
    have hnonempty := hlapsed.nonempty
    rw [countP_isCheck] at hnonempty
    rw [List.filter_append] at hnew
    have hlength := congrArg List.length hnew
    rw [List.length_append] at hlength
    have hnil : a.filter (Obs.isCheck name) = [] := List.eq_nil_of_length_eq_zero (by omega)
    rw [List.nil_append, hidem, ← hnew, hnil, List.nil_append]

/-- A window of failing checks at the end of the trace began before the step, or
    lies within it. -/
theorem window_cases {tr os pre mid window : List (Obs T)} {o : Obs T}
    (heq : tr ++ os = pre ++ o :: (mid ++ window)) :
    (∃ w, window = w ++ os ∧ tr = pre ++ o :: (mid ++ w)) ∨
    ∃ a, os = a ++ window ∧ pre ++ o :: mid = tr ++ a := by
  have hsplit : tr ++ os = (pre ++ o :: mid) ++ window := by
    rw [heq, List.append_assoc, List.cons_append]
  rcases List.append_eq_append_iff.mp hsplit with ⟨a, hpre, hos⟩ | ⟨w, htr, hwindow⟩
  · exact Or.inr ⟨a, hos, hpre⟩
  · exact Or.inl ⟨w, hwindow, by rw [htr, List.append_assoc, List.cons_append]⟩

/-- A repair that had ended before the step, with what came after it. -/
theorem eq_append_of_notMem {tr os pre rest : List (Obs T)} {o : Obs T}
    (h : tr ++ os = pre ++ o :: rest) (ho : o ∉ os) :
    ∃ rest', tr = pre ++ o :: rest' ∧ rest = rest' ++ os := by
  rcases List.append_eq_append_iff.mp h with ⟨pre', rfl, hos⟩ | ⟨rest', rfl, hrest⟩
  · exact absurd (hos ▸ List.mem_append_right _ List.mem_cons_self) ho
  · cases rest' with
    | nil => exact absurd ((List.nil_append os ▸ hrest) ▸ List.mem_cons_self) ho
    | cons o' rest' =>
      obtain ⟨rfl, rfl⟩ := List.cons.inj hrest
      exact ⟨rest', rfl, rfl⟩

/-- A step without a check abandons no service. -/
theorem notAbandoned_append [Clock T] {max_failures : Int} {tr os : List (Obs T)}
    (h : NotAbandoned max_failures tr) (hos : ∀ o ∈ os, o.ofCheck = false) :
    NotAbandoned max_failures (tr ++ os) := by
  intro name repaired pre mid window heq hlapsed
  have hnone := filter_isCheck_of_repair hos name
  rcases window_cases heq with ⟨w, rfl, htr⟩ | ⟨a, rfl, -⟩
  · have hw : Lapsed max_failures name repaired w :=
      (lapsed_congr (by rw [List.filter_append, hnone, List.append_nil])).mp hlapsed
    obtain ⟨j, hj⟩ := h name repaired pre mid w htr hw
    exact ⟨j, by rw [← List.append_assoc]; exact List.mem_append_left _ hj⟩
  · -- the window has a check
    rw [List.filter_append, List.append_eq_nil_iff] at hnone
    have hnonempty := hlapsed.nonempty
    rw [countP_isCheck, hnone.2] at hnonempty
    exact absurd hnonempty (Nat.lt_irrefl 0)

/-- The checks of a service are about it. -/
theorem filter_isCheck (name : String) (os : List (Obs T)) :
    os.filter (Obs.isCheck name) =
      (os.filter (Obs.about name)).filter (Obs.isCheck name) := by
  rw [List.filter_filter]
  refine List.filter_congr fun o _ => ?_
  cases o <;> simp [Obs.isCheck, Obs.about]

/-- The checks of a service that a check has emitted. -/
theorem filter_isCheck_checked {name : String} {state : ServiceState} {now : T}
    {os subs : List (Obs T)} (h : os.filter (Obs.about name) = .checked name state now :: subs)
    (hsubs : ∀ o ∈ subs, ∃ j, o = .submitted name j) :
    os.filter (Obs.isCheck name) = [.checked name state now] := by
  have hnone : subs.filter (Obs.isCheck name) = [] := by
    refine List.filter_eq_nil_iff.mpr fun o ho => ?_
    obtain ⟨j, rfl⟩ := hsubs o ho
    simp [Obs.isCheck]
  rw [filter_isCheck, h, List.filter_cons_of_pos (by simp [Obs.isCheck]), hnone]

/-- A check that opens the circuit submits a repair. -/
theorem submitted_iff {name : String} {state : ServiceState} {now : T} {os subs : List (Obs T)}
    (habout : os.filter (Obs.about name) = .checked name state now :: subs)
    (hsubs : ∀ o ∈ subs, ∃ j, o = .submitted name j) :
    (∃ j, .submitted name j ∈ os) ↔ subs ≠ [] := by
  constructor
  · rintro ⟨j, hj⟩
    have hmem : Obs.submitted name j ∈ os.filter (Obs.about name) :=
      List.mem_filter.mpr ⟨hj, by simp [Obs.about]⟩
    rw [habout] at hmem
    rcases List.mem_cons.mp hmem with heq | hmem
    · cases heq
    · exact List.ne_nil_of_mem hmem
  · intro hne
    obtain ⟨o, ho⟩ := List.exists_mem_of_ne_nil subs hne
    obtain ⟨j, rfl⟩ := hsubs o ho
    have hmem : Obs.submitted name j ∈ os.filter (Obs.about name) :=
      habout ▸ List.mem_cons_of_mem _ ho
    exact ⟨j, (List.mem_filter.mp hmem).1⟩

/-! ### The invariant -/

/-- What the monitor knows of the checks and the repairs so far. -/
structure Kept (max_failures : Int) (s : State T) (tr : List (Obs T)) : Prop where
  max : s.monitor.max_failures = max_failures
  counted : ∀ name pre window, tr = pre ++ window → AllFail name window →
    window.countP (Obs.isCheck name) ≤ failures s.monitor.health name
  queued : ∀ j job, s.jobs.get j = some job →
    s.monitor.svc_mgr = true ∧ s.monitor.job_queue = true
  repaired : ∀ name now, .repaired name now ∈ tr →
    s.monitor.svc_mgr = true ∧ s.monitor.job_queue = true

theorem kept_init (event_bus svc_mgr job_queue : Bool) (max_failures : Int) :
    Kept (T := T) max_failures ⟨.init event_bus svc_mgr job_queue max_failures, .empty⟩ [] := by
  refine ⟨rfl, ?_, by simp, by simp⟩
  intro name pre window heq _
  obtain ⟨-, rfl⟩ := List.append_eq_nil_iff.mp heq.symm
  exact Nat.zero_le _

/-- A step that changes no count and checks nothing keeps what is counted. -/
theorem counted_append {s : State T} {health : Dict String (ServiceHealth T)}
    {tr os : List (Obs T)}
    (h : ∀ name pre window, tr = pre ++ window → AllFail name window →
      window.countP (Obs.isCheck name) ≤ failures s.monitor.health name)
    {name : String} (hsame : failures health name = failures s.monitor.health name)
    (hos : os.filter (Obs.isCheck name) = []) {pre window : List (Obs T)}
    (heq : tr ++ os = pre ++ window) (hfail : AllFail name window) :
    window.countP (Obs.isCheck name) ≤ failures health name := by
  rw [hsame]
  rcases List.append_eq_append_iff.mp heq with ⟨a, -, hos'⟩ | ⟨w, htr, rfl⟩
  · rw [hos', List.filter_append, List.append_eq_nil_iff] at hos
    rw [countP_isCheck, hos.2]
    exact Nat.zero_le _
  · have hw := h name pre w htr fun state now hmem =>
      hfail state now (List.mem_append_left _ hmem)
    rwa [countP_isCheck, List.filter_append, hos, List.append_nil, ← countP_isCheck]

variable [Clock T]

/-- A check counts what it checks. -/
theorem counted_checks {s : State T} {registry : Dict String ServiceState} {env : CheckEnv T}
    {acc : Check T} (hacc : check_services s env registry.items = acc) (report : HealthReport T)
    {tr os : List (Obs T)} (hos : acc.trace ++ s.monitor.publish (.health_report report) = os)
    (h : ∀ name pre window, tr = pre ++ window → AllFail name window →
      window.countP (Obs.isCheck name) ≤ failures s.monitor.health name)
    {name : String} {pre window : List (Obs T)} (heq : tr ++ os = pre ++ window)
    (hfail : AllFail name window) :
    window.countP (Obs.isCheck name) ≤ failures acc.health name := by
  rcases checks_cases hacc report name hos with
    ⟨-, hhealth, hnone⟩ | ⟨state, subs, -, -, hfailures, habout, hsubs, -⟩
  · refine counted_append h ?_ ?_ heq hfail
    · exact failures_congr hhealth
    · rw [filter_isCheck, hnone]
      rfl
  · have hone := filter_isCheck_checked habout hsubs
    rcases List.append_eq_append_iff.mp heq with ⟨a, -, rfl⟩ | ⟨w, htr, rfl⟩
    · -- the window lies within the step
      rw [List.filter_append] at hone
      cases hw : window.filter (Obs.isCheck name) with
      | nil =>
        rw [countP_isCheck, hw]
        exact Nat.zero_le _
      | cons o rest =>
        rw [hw] at hone
        obtain ⟨-, hone⟩ | ⟨-, hnil⟩ := List.append_eq_singleton_iff.mp hone
        swap
        · cases hnil
        obtain ⟨rfl, rfl⟩ := List.cons.inj hone
        have hmem : Obs.checked name state (env.checked name) ∈ window :=
          (List.mem_filter.mp (hw ▸ List.mem_cons_self)).1
        rw [countP_isCheck, hw, hfailures, if_neg (hfail _ _ hmem)]
        exact Nat.le_add_left _ _
    · have hmem : Obs.checked name state (env.checked name) ∈ os :=
        (List.mem_filter.mp (hone ▸ List.mem_singleton.mpr rfl)).1
      have hw := h name pre w htr fun state now hmem =>
        hfail state now (List.mem_append_left _ hmem)
      rw [hfailures, if_neg (hfail _ _ (List.mem_append_right _ hmem)), List.countP_append,
        countP_isCheck name os, hone]
      exact Nat.add_le_add_right hw 1

theorem step_kept {max_failures : Int} {s s' : State T} {l : Label T} {tr os : List (Obs T)}
    (h : Kept max_failures s tr) (hs : machine.step s l = some (s', os)) :
    Kept max_failures s' (tr ++ os) := by
  cases step_sound hs with
  | idle registry env hidle =>
    rw [List.append_nil]
    exact h
  | checks registry env acc hmgr hacc =>
    obtain ⟨hjobs, htrace⟩ := checks_jobs hacc (report acc env.timestamp)
    refine ⟨h.max, fun name pre window heq hfail => ?_, fun j job hj => ?_, fun name now hmem => ?_⟩
    · exact counted_checks hacc _ rfl h.counted heq hfail
    · rcases hjobs j job hj with hj | ⟨-, hqueue⟩
      · exact h.queued j job hj
      · exact ⟨hmgr, hqueue⟩
    · rcases List.mem_append.mp hmem with hmem | hmem
      · exact h.repaired name now hmem
      · cases htrace _ hmem
  | repairs j result now job os s' hjob hrepairs =>
    obtain ⟨⟨hmax, hmgr, hqueue⟩, hfailures, -, -, hos⟩ := hrepairs.spec
    obtain ⟨hmgr', hqueue'⟩ := h.queued j job hjob
    refine ⟨hmax.trans h.max, fun name pre window heq hfail => ?_, fun i job' hi => ?_,
      fun name now hmem => ?_⟩
    · refine counted_append h.counted (hfailures name) ?_ heq hfail
      exact filter_isCheck_of_repair hos name
    · exact ⟨hmgr.trans hmgr', hqueue.trans hqueue'⟩
    · exact ⟨hmgr.trans hmgr', hqueue.trans hqueue'⟩

/-- Only a check that the service passes closes its circuit. -/
theorem step_closes {s s' : State T} {l : Label T} {os : List (Obs T)} {name : String}
    (hs : machine.step s l = some (s', os)) (hopen : circuit s.monitor.health name ≠ .CLOSED)
    (hclosed : circuit s'.monitor.health name = .CLOSED) :
    ∃ now, .checked name .RUNNING now ∈ os := by
  cases step_sound hs with
  | idle registry env hidle => exact absurd hclosed hopen
  | checks registry env acc hmgr hacc =>
    rcases checks_cases hacc _ name rfl with
      ⟨-, hhealth, -⟩ | ⟨state, subs, -, hcircuit, -, habout, -⟩
    · exact absurd ((circuit_congr hhealth).symm.trans hclosed) hopen
    · have hclosed' : circuit acc.health name = .CLOSED := hclosed
      rw [hcircuit] at hclosed'
      split at hclosed'
      · next hrunning =>
        subst hrunning
        have hmem := (List.mem_filter.mp (habout ▸ List.mem_cons_self)).1
        exact ⟨_, hmem⟩
      · split at hclosed'
        · cases hclosed'
        · exact absurd hclosed' hopen
  | repairs j result now job os s' hjob hrepairs =>
    rcases hrepairs.spec.2.2.1 name with hsame | hhalf
    · exact absurd (hsame.symm.trans hclosed) hopen
    · cases hhalf.symm.trans hclosed

/-! ### Where the law is kept -/

/-- A service whose repair is overdue is repaired again if its circuit is closed. -/
theorem opens_of_overdue {max_failures : Int} {s : State T} {tr : List (Obs T)}
    (hkept : Kept max_failures s tr) {name : String} {state : ServiceState} {now : T}
    (hoverdue : Overdue s.monitor.max_failures tr name state now)
    (hclosed : circuit s.monitor.health name = .CLOSED) :
    s.monitor.Opens s.monitor.health name state := by
  obtain ⟨repaired, pre, mid, window, htr, -, hlapsed⟩ := hoverdue
  have hfails : AllFail name window := fun state now hmem =>
    hlapsed.fails state now (List.mem_append_left _ hmem)
  have hcount := hkept.counted name (pre ++ .repaired name repaired :: mid) window
    (by rw [htr]; simp) hfails
  have henough := hlapsed.enough
  have hone : [Obs.checked name state now].countP (Obs.isCheck name) = 1 := by simp [Obs.isCheck]
  rw [List.countP_append, hone] at henough
  exact ⟨hlapsed.fails state now (List.mem_append_right _ (List.mem_singleton.mpr rfl)), hclosed,
    by omega⟩

/-- A check keeps the law if and only if the circuit of each service whose
    repair is overdue is closed. -/
theorem checks_retries_iff {max_failures : Int} {s : State T}
    {registry : Dict String ServiceState} {env : CheckEnv T} {acc : Check T}
    {tr os : List (Obs T)} (hkept : Kept max_failures s tr) (h : NotAbandoned max_failures tr)
    (hacc : check_services s env registry.items = acc) {report : HealthReport T}
    (hos : acc.trace ++ s.monitor.publish (.health_report report) = os)
    (hrepaired : ∀ name now, .repaired name now ∉ os) :
    Retries s tr (.check_all (some registry) env) ↔ NotAbandoned max_failures (tr ++ os) := by
  constructor
  · intro hretries name repaired pre mid window heq hlapsed
    obtain ⟨rest, htr, hrest⟩ := eq_append_of_notMem heq (hrepaired name repaired)
    obtain ⟨-, hqueue⟩ := hkept.repaired name repaired
      (htr ▸ List.mem_append_right _ List.mem_cons_self)
    rw [hrest]
    by_cases hsince : ∃ j, .submitted name j ∈ rest
    · obtain ⟨j, hj⟩ := hsince
      exact ⟨j, List.mem_append_left _ hj⟩
    rcases checks_cases hacc report name hos with
      ⟨-, -, hnone⟩ | ⟨state, subs, hget, -, -, habout, hsubs, hiff⟩
    · -- the service is not checked
      have hnone' : os.filter (Obs.isCheck name) = [] := by rw [filter_isCheck, hnone]; rfl
      obtain ⟨mid', w, rfl, hw⟩ := lapsed_split hrest hlapsed hnone' (Nat.zero_le 1)
      rw [List.append_nil] at hw
      exact absurd (h name repaired pre mid' w htr hw) hsince
    · have hone := filter_isCheck_checked habout hsubs
      obtain ⟨mid', w, rfl, hw⟩ := lapsed_split hrest hlapsed hone (Nat.le_refl 1)
      have hoverdue : Overdue s.monitor.max_failures tr name state (env.checked name) :=
        ⟨repaired, pre, mid', w, htr, fun j hj => hsince ⟨j, hj⟩, hkept.max ▸ hw⟩
      have hopens := opens_of_overdue hkept hoverdue (hretries name state hget hoverdue)
      obtain ⟨j, hj⟩ := (submitted_iff habout hsubs).mpr (hiff.mpr ⟨hopens, hqueue⟩)
      exact ⟨j, List.mem_append_right _ hj⟩
  · intro hnot name state hget ⟨repaired, pre, mid, window, htr, hsince, hlapsed⟩
    rw [hkept.max] at hlapsed
    rcases checks_cases hacc report name hos with
      ⟨hnone, -⟩ | ⟨state', subs, hget', -, -, habout, hsubs, hiff⟩
    · cases hget.symm.trans hnone
    obtain rfl := Option.some.inj (hget.symm.trans hget')
    have hone := filter_isCheck_checked habout hsubs
    have hlapsed' : Lapsed max_failures name repaired (window ++ os) := by
      refine (lapsed_congr ?_).mp hlapsed
      rw [List.filter_append, List.filter_append, hone]
      simp [Obs.isCheck]
    obtain ⟨j, hj⟩ := hnot name repaired pre mid (window ++ os) (by rw [htr]; simp) hlapsed'
    rw [← List.append_assoc] at hj
    rcases List.mem_append.mp hj with hj | hj
    · exact absurd hj (hsince j)
    · exact (hiff.mp ((submitted_iff habout hsubs).mp ⟨j, hj⟩)).1.2.1

/-- A step keeps the law if and only if it meets the condition. -/
theorem step_retries_iff {max_failures : Int} {s s' : State T} {l : Label T}
    {tr os : List (Obs T)} (hkept : Kept max_failures s tr) (h : NotAbandoned max_failures tr)
    (hs : machine.step s l = some (s', os)) :
    Retries s tr l ↔ NotAbandoned max_failures (tr ++ os) := by
  cases step_sound hs with
  | idle registry env hidle =>
    rw [List.append_nil]
    refine iff_of_true ?_ h
    cases registry with
    | none => trivial
    | some registry =>
      -- without a manager there are no repairs
      rintro name state - ⟨repaired, pre, mid, window, htr, -⟩
      obtain ⟨hmgr, -⟩ := hkept.repaired name repaired
        (htr ▸ List.mem_append_right _ List.mem_cons_self)
      rcases hidle with hidle | hidle
      · rw [hmgr] at hidle
        cases hidle
      · cases hidle
  | checks registry env acc hmgr hacc =>
    refine checks_retries_iff hkept h hacc rfl fun name now hmem => ?_
    cases (checks_jobs hacc (report acc env.timestamp)).2 _ hmem
  | repairs j result now job os s' hjob hrepairs =>
    exact iff_of_true trivial (notAbandoned_append h hrepairs.spec.2.2.2.2)

/-! ### Runs -/

theorem run_kept {event_bus svc_mgr job_queue : Bool} {max_failures : Int} {ls : List (Label T)}
    {s : State T} {tr : List (Obs T)}
    (hrun : machine.run ⟨.init event_bus svc_mgr job_queue max_failures, .empty⟩ ls =
      some (s, tr)) : Kept max_failures s tr :=
  machine.run_induction (P := fun _ s tr => Kept max_failures s tr)
    (kept_init event_bus svc_mgr job_queue max_failures)
    (fun _ _ _ _ _ _ _ h hs => step_kept h hs) hrun

/-- **No abandoned service**: throughout a run of checks and repairs, a service
    that fails `max_consecutive_failures` further checks in a row, all later
    than `_CIRCUIT_RESET_S` after a repair of it, has another repair submitted
    by then, if and only if at each check with which it has failed that often
    its circuit is closed. -/
theorem not_abandoned_iff_closed (event_bus svc_mgr job_queue : Bool) (max_failures : Int)
    {ls : List (Label T)} {s : State T} {tr : List (Obs T)}
    (hrun : machine.run ⟨.init event_bus svc_mgr job_queue max_failures, .empty⟩ ls =
      some (s, tr)) :
    (∀ pre l t tr', pre ++ [l] <+: ls →
      machine.run ⟨.init event_bus svc_mgr job_queue max_failures, .empty⟩ pre =
        some (t, tr') → Retries t tr' l) ↔
    ∀ pre t tr', pre <+: ls →
      machine.run ⟨.init event_bus svc_mgr job_queue max_failures, .empty⟩ pre =
        some (t, tr') → NotAbandoned max_failures tr' := by
  refine machine.forall_iff_throughout (C := Retries)
    (I := fun _ tr => NotAbandoned max_failures tr) ?_ ?_ hrun
  · intro name repaired pre mid window heq
    exact absurd heq (by simp)
  · intro pre l t tr' t' os _ hrun' h hs
    exact step_retries_iff (run_kept hrun') h hs

/-- A service that does not run when it is checked. -/
def failedAt (now : ℚ) : Label ℚ :=
  .check_all (some (Dict.empty.set "a" .STOPPED)) ⟨fun _ => now, fun _ => now, now⟩

/-- A service that runs again when it is checked. -/
def passedAt (now : ℚ) : Label ℚ :=
  .check_all (some (Dict.empty.set "a" .RUNNING)) ⟨fun _ => now, fun _ => now, now⟩

/-- The steps of a repair whose restart is accepted. -/
def acceptedAt (now : ℚ) : List (Label ℚ) :=
  [.repair 0 none now, .repair 0 (some true) now, .repair 0 (some true) now, .repair 0 none now]

theorem not_abandoned_iff_closed_recovered :
    ∃ s tr, machine.run ⟨.init false true true 1, .empty⟩
        (failedAt 0 :: acceptedAt 1 ++ [passedAt 2, failedAt 100]) = some (s, tr) ∧
      ((∀ pre l t tr',
        pre ++ [l] <+: failedAt 0 :: acceptedAt 1 ++ [passedAt 2, failedAt 100] →
        machine.run ⟨.init false true true 1, .empty⟩ pre = some (t, tr') → Retries t tr' l) ↔
      ∀ pre t tr', pre <+: failedAt 0 :: acceptedAt 1 ++ [passedAt 2, failedAt 100] →
        machine.run ⟨.init false true true 1, .empty⟩ pre = some (t, tr') →
          NotAbandoned 1 tr') := by
  obtain ⟨s, tr, hrun⟩ : ∃ s tr, machine.run ⟨.init false true true 1, .empty⟩
      (failedAt 0 :: acceptedAt 1 ++ [passedAt 2, failedAt 100]) = some (s, tr) := ⟨_, _, rfl⟩
  exact ⟨s, tr, hrun, not_abandoned_iff_closed false true true 1 hrun⟩

/-- A service that was restarted fails again. Its circuit is half open, so no
    repair is submitted any more. -/
theorem half_open_abandoned :
    ∃ s tr, machine.run ⟨.init false true true 1, .empty⟩
        (failedAt 0 :: acceptedAt 1 ++ [failedAt 100]) = some (s, tr) ∧
      ¬ NotAbandoned 1 tr := by
  obtain ⟨s, hrun⟩ : ∃ s, machine.run ⟨.init false true true 1, .empty⟩
      (failedAt 0 :: acceptedAt 1 ++ [failedAt 100]) =
        some (s, [.checked "a" .STOPPED 0, .submitted "a" 0, .stop 0 "a", .start 0 "a",
          .repaired "a" 1, .checked "a" .STOPPED 100]) := ⟨_, rfl⟩
  refine ⟨s, _, hrun, fun h => ?_⟩
  -- the window is the last check
  obtain ⟨j, hj⟩ := h "a" 1 [.checked "a" .STOPPED 0, .submitted "a" 0, .stop 0 "a",
    .start 0 "a"] [] [.checked "a" .STOPPED 100] rfl
    { fails := by simp [AllFail]
      late := by
        intro state now hmem
        obtain ⟨-, -, rfl⟩ : "a" = "a" ∧ state = .STOPPED ∧ now = 100 := by simpa using hmem
        show (60 : ℚ) < 100 - 1
        norm_num
      enough := by simp [Obs.isCheck]
      nonempty := by simp [Obs.isCheck] }
  simp at hj

end HealthMonitor
