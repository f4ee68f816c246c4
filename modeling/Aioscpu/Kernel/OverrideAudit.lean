import Aioscpu.Kernel.Override

/-! # Audited Execution

  Every call of `request_override` leaves a trail: its decision is recorded,
  a function is executed only after an approval was recorded for it, and the
  outcome is recorded after that. Calls may nest, the audit file and the event
  bus may fail at any point.

  The one gap is an exception whose text cannot be made: the handler raises
  before it records, and the execution has no outcome in the log.
-/

namespace CommandOverrideLayer

variable {E T R : Type}

/-! ### Trails -/

/-- The audited observations of the call number `n`. -/
def Obs.ofCall (n : Nat) : Obs E T R → Bool
  | .called m _ => m = n
  | .recorded m _ => m = n
  | .executed m => m = n
  | _ => false

def trail (n : Nat) (tr : List (Obs E T R)) : List (Obs E T R) := tr.filter (Obs.ofCall n)

/-- The entries recorded, in order. -/
def recordedEntries (tr : List (Obs E T R)) : List (Entry E T) :=
  tr.filterMap fun
    | .recorded _ e => some e
    | _ => none

/-- The entry of a decision. -/
def Decision (r : Request E T) (approved : Bool) (e : Entry E T) : Prop :=
  e.request = r.req ∧ e.result.approved = approved ∧ e.result.executed = false

/-- The entry of an execution that has returned or raised. -/
def Outcome (r : Request E T) (e : Entry E T) : Prop :=
  e.request = r.req ∧
    (e.result.executed = true ∨ ∃ text, e.result.denial_reason = "execution failed: " ++ text)

/-- What a call leaves in the trace, while it is active and after. -/
inductive Trail (texts : Texts E T) (n : Nat) (r : Request E T) (active : Prop) :
    List (Obs E T R) → Prop where
  | denied (e : Entry E T) (h : ¬ (Accepted texts r ∧ Confirmed r)) (he : Decision r false e)
      (hended : ¬ active) :
      Trail texts n r active [.called n r, .recorded n e]
  | approved (e : Entry E T) (h : Accepted texts r ∧ Confirmed r) (hfn : r.execute_fn = false)
      (he : Decision r true e) (hended : ¬ active) :
      Trail texts n r active [.called n r, .recorded n e]
  | running (e : Entry E T) (h : Accepted texts r ∧ Confirmed r) (hfn : r.execute_fn = true)
      (he : Decision r true e) (hactive : active) :
      Trail texts n r active [.called n r, .recorded n e, .executed n]
  | ended (e e' : Entry E T) (h : Accepted texts r ∧ Confirmed r) (hfn : r.execute_fn = true)
      (he : Decision r true e) (hended : ¬ active) (he' : Outcome r e') :
      Trail texts n r active [.called n r, .recorded n e, .executed n, .recorded n e']

/-- The call number `n` is inside its `execute_fn`. -/
def Active (s : State E T R) (n : Nat) : Prop := ∃ frame ∈ s.frames, frame.n = n

/-- The law of the audit. -/
structure Audited (texts : Texts E T) (s : State E T R) (tr : List (Obs E T R)) : Prop where
  /-- The in-memory log is what was recorded, in order. -/
  entries : s.col.log.entries = recordedEntries tr
  trails : ∀ n r, .called n r ∈ tr → Trail texts n r (Active s n) (trail n tr)
  /-- Nothing is recorded or executed without a call. -/
  called : ∀ n, (∀ r, .called n r ∉ tr) → trail n tr = []

/-! ### Steps -/

/-- What a step can do, as far as the audit goes. -/
inductive Step (texts : Texts E T) :
    State E T R → Label E T R → List (Obs E T R) → State E T R → Prop where
  | set_mode {s} (mode : String) :
      Step texts s (.set_mode mode) [] { s with col := { s.col with current_mode := mode } }
  | denied {s s'} (r : Request E T) (env : Env T) (result : OverrideResult R) (e : Entry E T)
      (h : ¬ (Accepted texts r ∧ Confirmed r)) (hdec : Decided s s' r result e)
      (happ : result.approved = false) (hframes : s'.frames = s.frames) :
      Step texts s (.request_override r env) [.called s.calls r, .recorded s.calls e] s'
  | approved {s s'} (r : Request E T) (env : Env T) (result : OverrideResult R) (e : Entry E T)
      (h : Accepted texts r ∧ Confirmed r) (hdec : Decided s s' r result e)
      (happ : result.approved = true) (hfn : r.execute_fn = false)
      (hframes : s'.frames = s.frames) :
      Step texts s (.request_override r env) [.called s.calls r, .recorded s.calls e] s'
  | executed {s s'} (r : Request E T) (env : Env T) (result : OverrideResult R) (e : Entry E T)
      (h : Accepted texts r ∧ Confirmed r) (hdec : Decided s s' r result e)
      (happ : result.approved = true) (hfn : r.execute_fn = true)
      (hframes : s'.frames = ⟨s.calls, r, result⟩ :: s.frames) :
      Step texts s (.request_override r env)
        [.called s.calls r, .recorded s.calls e, .executed s.calls] s'
  | ended {s s'} (l : Label E T R) (frame : Frame E T R) (e : Entry E T)
      (hframe : s.frames = frame :: s'.frames) (hcalls : s'.calls = s.calls)
      (hentries : s'.col.log.entries = s.col.log.entries ++ [e]) (he : Outcome frame.r e) :
      Step texts s l [.recorded frame.n e] s'
  | escaped {s s'} (env : Env T) (frame : Frame E T R)
      (hframe : s.frames = frame :: s'.frames) (hcalls : s'.calls = s.calls)
      (hcol : s'.col = s.col) :
      Step texts s (.fn_raises none env) [] s'

theorem step_sound {texts : Texts E T} {s s' : State E T R} {l : Label E T R}
    {os : List (Obs E T R)} (h : (machine texts).step s l = some (s', os)) :
    Step texts s l (os.filter Obs.audited) s' := by
  cases l with
  | set_mode mode =>
    cases h
    exact .set_mode mode
  | request_override r env =>
    simp only [machine, Option.some.injEq] at h
    by_cases hok : Accepted texts r ∧ Confirmed r
    · obtain ⟨s'', os', result, e, heq, hdec, happ, hrest⟩ :=
        request_override_approved texts s r env hok
      obtain ⟨rfl, rfl⟩ := Prod.mk.inj (heq.symm.trans h)
      cases hfn : r.execute_fn with
      | true =>
        rw [if_pos hfn] at hrest
        rw [hrest.2]
        exact .executed r env result e hok hdec happ hfn hrest.1
      | false =>
        rw [if_neg (by simp [hfn])] at hrest
        rw [hrest.2.2]
        exact .approved r env result e hok hdec happ hfn hrest.1
    · obtain ⟨s'', os', result, e, heq, hdec, happ, hframes, -, haudit⟩ :=
        request_override_denied texts s r env hok
      obtain ⟨rfl, rfl⟩ := Prod.mk.inj (heq.symm.trans h)
      rw [haudit]
      exact .denied r env result e hok hdec happ hframes
  | fn_returns output env =>
    simp only [machine] at h
    split at h
    · cases h
    · next frame frames hframes =>
      cases h
      have haudit : (fn_returns texts s.col frame output env).2.filter Obs.audited =
          [.recorded frame.n (OverrideLog.entry texts env frame.r.req
            { frame.result with executed := true, output := some output }
            s.col.current_mode)] := by
        simp [fn_returns, record, List.filter_cons, Obs.audited, publish_not_audited]
      rw [haudit]
      exact .ended _ frame _ hframes rfl (OverrideLog.record_entries _ _ _)
        ⟨rfl, Or.inl rfl⟩
  | fn_raises text env =>
    simp only [machine] at h
    split at h
    · cases h
    · next frame frames hframes =>
      cases h
      cases text with
      | none => exact .escaped env frame hframes rfl rfl
      | some text =>
        have haudit : (fn_raises texts s.col frame (some text) env).2.filter Obs.audited =
            [.recorded frame.n (OverrideLog.entry texts env frame.r.req
              { frame.result with
                executed := false, denial_reason := "execution failed: " ++ text }
              s.col.current_mode)] := by
          simp [fn_raises, record, List.filter_cons, Obs.audited, publish_not_audited]
        rw [haudit]
        exact .ended _ frame _ hframes rfl (OverrideLog.record_entries _ _ _)
          ⟨rfl, Or.inr ⟨text, rfl⟩⟩

/-! ### The invariant -/

theorem trail_append (n : Nat) (tr os : List (Obs E T R)) :
    trail n (tr ++ os) = trail n tr ++ trail n os := List.filter_append ..

/-- Only audited observations count. -/
theorem trail_audited (n : Nat) (os : List (Obs E T R)) :
    trail n (os.filter Obs.audited) = trail n os := by
  unfold trail
  rw [List.filter_filter]
  congr 1
  funext o
  cases o <;> simp [Obs.ofCall, Obs.audited]

theorem recordedEntries_append (tr os : List (Obs E T R)) :
    recordedEntries (tr ++ os) = recordedEntries tr ++ recordedEntries os :=
  List.filterMap_append

theorem recordedEntries_audited (os : List (Obs E T R)) :
    recordedEntries (os.filter Obs.audited) = recordedEntries os := by
  unfold recordedEntries
  rw [List.filterMap_filter]
  congr 1
  funext o
  cases o <;> simp [Obs.audited]

theorem mem_trail_called {n : Nat} {r : Request E T} {tr : List (Obs E T R)} :
    .called n r ∈ trail n tr ↔ .called n r ∈ tr := by
  simp [trail, Obs.ofCall]

/-- A trail begins with its call. -/
theorem Trail.called_mem {texts : Texts E T} {n : Nat} {r : Request E T} {active : Prop}
    {l : List (Obs E T R)} (h : Trail texts n r active l) : .called n r ∈ l := by
  cases h <;> simp

theorem Trail.called_eq {texts : Texts E T} {n : Nat} {r r' : Request E T} {active : Prop}
    {l : List (Obs E T R)} (h : Trail texts n r active l) (hmem : .called n r' ∈ l) :
    r' = r := by
  cases h <;> simpa using hmem

/-- What holds after every run in which the texts of exceptions can be made. -/
structure Inv (texts : Texts E T) (s : State E T R) (tr : List (Obs E T R)) : Prop where
  entries : s.col.log.entries = recordedEntries tr
  fresh : ∀ n, s.calls ≤ n → trail n tr = []
  trails : ∀ n, n < s.calls → ∃ r, Trail texts n r (Active s n) (trail n tr)
  frames : ∀ frame ∈ s.frames, frame.n < s.calls ∧ .called frame.n frame.r ∈ tr
  distinct : (s.frames.map (·.n)).Nodup

theorem Inv.audited {texts : Texts E T} {s : State E T R} {tr : List (Obs E T R)}
    (h : Inv texts s tr) : Audited texts s tr := by
  refine ⟨h.entries, ?_, ?_⟩
  · intro n r hmem
    have hmem' := mem_trail_called.mpr hmem
    have hlt : n < s.calls := by
      by_contra hge
      rw [h.fresh n (not_lt.mp hge)] at hmem'
      cases hmem'
    obtain ⟨r', htrail⟩ := h.trails n hlt
    rw [htrail.called_eq hmem']
    exact htrail
  · intro n hno
    by_cases hlt : n < s.calls
    · obtain ⟨r, htrail⟩ := h.trails n hlt
      exact absurd (mem_trail_called.mp htrail.called_mem) (hno r)
    · exact h.fresh n (not_lt.mp hlt)

/-- A call up to its decision, or to its execution, keeps the invariant. -/
theorem Inv.decided {texts : Texts E T} {s s' : State E T R} {tr os : List (Obs E T R)}
    (h : Inv texts s tr) {r : Request E T} {result : OverrideResult R} {e : Entry E T}
    (hdec : Decided s s' r result e) (new : Option (Frame E T R))
    (hframes : s'.frames = new.toList ++ s.frames)
    (hnew : ∀ frame ∈ new, frame.n = s.calls ∧ frame.r = r)
    (hcalled : .called s.calls r ∈ os) (hrec : recordedEntries os = [e])
    (hself : trail s.calls os = os) (hother : ∀ n, n ≠ s.calls → trail n os = [])
    (htrail : Trail texts s.calls r (Active s' s.calls) os) : Inv texts s' (tr ++ os) where
  entries := by rw [hdec.entries, h.entries, recordedEntries_append, hrec]
  fresh := by
    intro n hn
    rw [hdec.calls] at hn
    rw [trail_append, h.fresh n (by omega), hother n (by omega), List.append_nil]
  trails := by
    intro n hn
    rw [hdec.calls] at hn
    rw [trail_append]
    by_cases heq : n = s.calls
    -- the number of the call is new, so its trail begins here
    · subst heq
      rw [h.fresh _ (Nat.le_refl _), hself]
      exact ⟨r, htrail⟩
    · -- the other calls are as active as they were
      have hactive : Active s' n ↔ Active s n := by
        unfold Active
        rw [hframes]
        constructor
        · rintro ⟨frame, hmem, rfl⟩
          rcases List.mem_append.mp hmem with hmem | hmem
          · exact absurd (hnew frame (Option.mem_toList.mp hmem)).1 heq
          · exact ⟨frame, hmem, rfl⟩
        · rintro ⟨frame, hmem, rfl⟩
          exact ⟨frame, List.mem_append_right _ hmem, rfl⟩
      rw [hother n heq, List.append_nil, hactive]
      exact h.trails n (by omega)
  frames := by
    intro frame hmem
    rw [hframes] at hmem
    rw [hdec.calls]
    rcases List.mem_append.mp hmem with hmem | hmem
    · obtain ⟨hn, hr⟩ := hnew frame (Option.mem_toList.mp hmem)
      rw [hn, hr]
      exact ⟨Nat.lt_succ_self _, List.mem_append_right _ hcalled⟩
    · obtain ⟨hlt, hin⟩ := h.frames frame hmem
      exact ⟨Nat.lt_succ_of_lt hlt, List.mem_append_left _ hin⟩
  distinct := by
    rw [hframes]
    cases new with
    | none => exact h.distinct
    | some frame =>
      refine List.nodup_cons.mpr ⟨?_, h.distinct⟩
      intro hmem
      obtain ⟨frame', hmem', (heq : frame'.n = frame.n)⟩ := List.mem_map.mp hmem
      have hlt := (h.frames frame' hmem').1
      have hn := (hnew frame rfl).1
      omega

/-- The end of a call keeps the invariant. -/
theorem Inv.ended {texts : Texts E T} {s s' : State E T R} {tr : List (Obs E T R)}
    (h : Inv texts s tr) {frame : Frame E T R} {e : Entry E T}
    (hframe : s.frames = frame :: s'.frames) (hcalls : s'.calls = s.calls)
    (hentries : s'.col.log.entries = s.col.log.entries ++ [e]) (he : Outcome frame.r e) :
    Inv texts s' (tr ++ [.recorded frame.n e]) := by
  have hin : frame ∈ s.frames := by simp [hframe]
  have hdistinct := h.distinct
  rw [hframe] at hdistinct
  obtain ⟨hout, hdistinct'⟩ := List.nodup_cons.mp hdistinct
  have hother : ∀ n, n ≠ frame.n → trail n [(.recorded frame.n e : Obs E T R)] = [] := by
    intro n hn
    simp [trail, Obs.ofCall, Ne.symm hn]
  refine ⟨?_, ?_, ?_, ?_, hdistinct'⟩
  · rw [hentries, h.entries, recordedEntries_append]
    rfl
  · intro n hn
    rw [hcalls] at hn
    have hlt := (h.frames frame hin).1
    rw [trail_append, h.fresh n hn, hother n (by omega), List.append_nil]
  · intro n hn
    rw [hcalls] at hn
    obtain ⟨r, htrail⟩ := h.trails n hn
    rw [trail_append]
    by_cases heq : n = frame.n
    · subst heq
      have hactive : Active s frame.n := ⟨frame, hin, rfl⟩
      have hended : ¬ Active s' frame.n := by
        rintro ⟨frame', hmem, heq⟩
        exact hout (List.mem_map.mpr ⟨frame', hmem, heq⟩)
      have hr : frame.r = r :=
        htrail.called_eq (mem_trail_called.mpr (h.frames frame hin).2)
      refine ⟨r, ?_⟩
      -- the trail of an active call is that of a running one
      generalize hl : trail frame.n tr = l at htrail
      cases htrail with
      | denied _ _ _ hno => exact absurd hactive hno
      | approved _ _ _ _ hno => exact absurd hactive hno
      | running e₀ hok hfn he₀ _ =>
        have hlast : trail frame.n [(.recorded frame.n e : Obs E T R)] = [.recorded frame.n e] := by
          simp [trail, Obs.ofCall]
        rw [hlast]
        exact .ended e₀ e hok hfn he₀ hended (hr ▸ he)
      | ended _ _ _ _ _ hno _ => exact absurd hactive hno
    · have hactive : Active s' n ↔ Active s n := by
        unfold Active
        rw [hframe]
        simp [Ne.symm heq]
      rw [hother n heq, List.append_nil, hactive]
      exact ⟨r, htrail⟩
  · intro frame' hmem
    obtain ⟨hlt, hcalled⟩ := h.frames frame' (by rw [hframe]; exact List.mem_cons_of_mem _ hmem)
    rw [hcalls]
    exact ⟨hlt, List.mem_append_left _ hcalled⟩

/-- The text of the exception can be made, if the step ends with one. -/
def TextDefined : Label E T R → Prop
  | .fn_raises none _ => False
  | _ => True

instance (l : Label E T R) : Decidable (TextDefined l) := by
  unfold TextDefined
  split <;> infer_instance

/-- The first label of a run without a text. -/
theorem first_undefined {ls : List (Label E T R)} {env : Env T}
    (h : .fn_raises none env ∈ ls) :
    ∃ pre env' post, ls = pre ++ .fn_raises none env' :: post ∧ ∀ l ∈ pre, TextDefined l := by
  cases hfind : ls.find? (fun l => ¬ TextDefined l) with
  | none =>
    have hall := List.find?_eq_none.mp hfind _ h
    simp [TextDefined] at hall
  | some l =>
    obtain ⟨hl, pre, post, rfl, hpre⟩ := List.find?_eq_some_iff_append.mp hfind
    have hdefined : ∀ l ∈ pre, TextDefined l := by
      intro l' hl'
      simpa using hpre l' hl'
    cases l with
    | fn_raises text env' =>
      cases text with
      | none => exact ⟨pre, env', post, rfl, hdefined⟩
      | some text => simp [TextDefined] at hl
    | _ => simp [TextDefined] at hl

theorem Decided.decision {s s' : State E T R} {r : Request E T} {result : OverrideResult R}
    {e : Entry E T} (h : Decided s s' r result e) : Decision r result.approved e := by
  refine ⟨h.request, ?_, ?_⟩
  · rw [h.outcome]
    rfl
  · rw [h.outcome]
    exact h.unexecuted

/-- A call that returns at once is not active. -/
theorem Inv.not_active {texts : Texts E T} {s s' : State E T R} {tr : List (Obs E T R)}
    (h : Inv texts s tr) (hframes : s'.frames = s.frames) : ¬ Active s' s.calls := by
  rintro ⟨frame, hmem, heq⟩
  rw [hframes] at hmem
  have hlt := (h.frames frame hmem).1
  omega

theorem step_inv {texts : Texts E T} {s s' : State E T R} {l : Label E T R}
    {os : List (Obs E T R)} (h : Step texts s l os s') (hl : TextDefined l)
    {tr : List (Obs E T R)} (hi : Inv texts s tr) : Inv texts s' (tr ++ os) := by
  cases h with
  -- a change of mode is not audited
  | set_mode mode =>
    rw [List.append_nil]
    exact ⟨hi.entries, hi.fresh, hi.trails, hi.frames, hi.distinct⟩
  | denied r env result e hno hdec happ hframes =>
    apply hi.decided hdec none (by simpa using hframes) (by simp) (by simp) rfl
    · simp [trail, Obs.ofCall]
    · intro n hn
      simp [trail, Obs.ofCall, Ne.symm hn]
    · exact .denied e hno (happ ▸ hdec.decision) (hi.not_active hframes)
  | approved r env result e hok hdec happ hfn hframes =>
    apply hi.decided hdec none (by simpa using hframes) (by simp) (by simp) rfl
    · simp [trail, Obs.ofCall]
    · intro n hn
      simp [trail, Obs.ofCall, Ne.symm hn]
    · exact .approved e hok hfn (happ ▸ hdec.decision) (hi.not_active hframes)
  | executed r env result e hok hdec happ hfn hframes =>
    have hactive : Active s' s.calls := by
      refine ⟨⟨s.calls, r, result⟩, ?_, rfl⟩
      rw [hframes]
      exact List.mem_cons_self
    apply hi.decided hdec (some ⟨s.calls, r, result⟩) (by simpa using hframes) (by simp)
      (by simp) rfl
    · simp [trail, Obs.ofCall]
    · intro n hn
      simp [trail, Obs.ofCall, Ne.symm hn]
    · exact .running e hok hfn (happ ▸ hdec.decision) hactive
  | ended _ frame e hframe hcalls hentries he => exact hi.ended hframe hcalls hentries he
  | escaped => exact hl.elim

/-! ### Every run -/

theorem run_inv {texts : Texts E T} {log_dir : String} {event_bus : Bool}
    {ls : List (Label E T R)} {s : State E T R} {tr : List (Obs E T R)}
    (hdefined : ∀ l ∈ ls, TextDefined l)
    (hrun : (machine texts).run (init log_dir event_bus) ls = some (s, tr)) : Inv texts s tr := by
  have halong : (machine texts).Along (fun _ l => TextDefined l)
      (init log_dir event_bus : State E T R) ls :=
    (machine texts).along_of_mem (fun l hl _ => hdefined l hl) _
  apply (machine texts).run_induction_along (P := fun _ s tr => Inv texts s tr) ?_ ?_ halong
    hrun
  · exact ⟨rfl, by simp [trail], by simp [init], by simp [init], by simp [init]⟩
  · intro ls s tr l s' os _ hi hl hs
    have hinv := step_inv (step_sound hs) hl hi
    refine ⟨?_, ?_, ?_, ?_, hinv.distinct⟩
    · have h := hinv.entries
      rw [recordedEntries_append, recordedEntries_audited] at h
      rw [recordedEntries_append, h]
    · intro n hn
      have h := hinv.fresh n hn
      rw [trail_append, trail_audited] at h
      rw [trail_append, h]
    · intro n hn
      have h := hinv.trails n hn
      rw [trail_append, trail_audited] at h
      rw [trail_append]
      exact h
    · intro frame hmem
      obtain ⟨hlt, hcalled⟩ := hinv.frames frame hmem
      refine ⟨hlt, ?_⟩
      rcases List.mem_append.mp hcalled with h | h
      · exact List.mem_append_left _ h
      · exact List.mem_append_right _ (List.mem_filter.mp h).1

/-- The log only grows. -/
theorem step_entries {texts : Texts E T} {s s' : State E T R} {l : Label E T R}
    {os : List (Obs E T R)} (h : Step texts s l os s') :
    s.col.log.entries <+: s'.col.log.entries := by
  cases h with
  | set_mode => exact List.prefix_refl _
  | denied r env result e _ hdec => exact ⟨[e], hdec.entries.symm⟩
  | approved r env result e _ hdec => exact ⟨[e], hdec.entries.symm⟩
  | executed r env result e _ hdec => exact ⟨[e], hdec.entries.symm⟩
  | ended _ frame e _ _ hentries => exact ⟨[e], hentries.symm⟩
  | escaped env frame _ _ hcol =>
    rw [hcol]

theorem run_entries {texts : Texts E T} {s₀ s : State E T R} {ls : List (Label E T R)}
    {tr : List (Obs E T R)} (hrun : (machine texts).run s₀ ls = some (s, tr)) :
    s₀.col.log.entries <+: s.col.log.entries :=
  (machine texts).run_invariant (I := fun s => s₀.col.log.entries <+: s.col.log.entries)
    (List.prefix_refl _) (fun _ _ _ _ h hs => h.trans (step_entries (step_sound hs))) hrun

/-- An execution that ends with an exception without a text has no outcome. -/
theorem escaped_not_audited {texts : Texts E T} {s s' : State E T R} {tr os : List (Obs E T R)}
    {env : Env T} (hi : Inv texts s tr)
    (hs : (machine texts).step s (.fn_raises none env) = some (s', os)) :
    ¬ Audited texts s' (tr ++ os) := by
  intro haud
  simp only [machine] at hs
  split at hs
  · cases hs
  · next frame frames hframe =>
    cases hs
    have hin : frame ∈ s.frames := by simp [hframe]
    have hcalled := (hi.frames frame hin).2
    have hactive : Active s frame.n := ⟨frame, hin, rfl⟩
    have hdistinct := hi.distinct
    rw [hframe] at hdistinct
    have hended : ¬ Active (⟨s.col, s.calls, frames⟩ : State E T R) frame.n := by
      rintro ⟨frame', hmem, heq⟩
      exact (List.nodup_cons.mp hdistinct).1 (List.mem_map.mpr ⟨frame', hmem, heq⟩)
    have hnow := hi.audited.trails frame.n frame.r hcalled
    have hafter := haud.trails frame.n frame.r (List.mem_append_left _ hcalled)
    have hsame : trail frame.n (tr ++ (fn_raises texts s.col frame none env).2) =
        trail frame.n tr := by
      rw [trail_append]
      simp [trail, fn_raises, Obs.ofCall]
    rw [hsame] at hafter
    -- an active call has three observations, an ended one two or four
    generalize trail frame.n tr = l at hnow hafter
    cases hnow with
    | running e _ _ _ _ =>
      cases hafter with
      | running _ _ _ _ hactive' => exact hended hactive'
    | denied _ _ _ hno => exact hno hactive
    | approved _ _ _ _ hno => exact hno hactive
    | ended _ _ _ _ _ hno _ => exact hno hactive

def plainTexts : Texts Unit Nat := ⟨id, fun _ _ _ _ _ => ""⟩

/-- A request with a function, confirmed in advance. -/
def chmod (reason : String) : Request Unit Nat :=
  { req := ⟨"fs.chmod", reason, "operator", "/etc/passwd", (), "id", 0⟩
    confirm := true, execute_fn := true, bridge := none, answer := .EOFError }

/-- The function of the first call requests two overrides, of which the first
    has no reason and the second raises, and returns. The audit file fails. -/
def nestedCalls : List (Label Unit Nat Unit) :=
  [.request_override (chmod "repair") ⟨0, "", false, true⟩,
    .request_override (chmod " ") ⟨1, "", true, true⟩,
    .request_override (chmod "again") ⟨2, "", true, false⟩,
    .fn_raises (some "boom") ⟨3, "", true, true⟩, .fn_returns () ⟨4, "", false, false⟩]

end CommandOverrideLayer
