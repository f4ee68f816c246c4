import Aioscpu.Framework.Machine
import Aioscpu.Framework.PyStr

/-! # Command Override Layer

  The operator overrides of `kernel/override.py`: a request is validated,
  confirmed, recorded, and only then executed.

  A call of `request_override` runs a function of the caller, which may
  request overrides itself, so a call is split where the function starts and
  where it returns or raises. Labels carry what the environment decides: the
  capabilities of the host bridge, the answer of the operator, the readings
  for an audit entry, and whether the audit file and the event bus fail.
-/

/-! ### Requests and results -/

def PROTECTED_PARTITIONS : Finset String := {"boot", "system"}

/-- `E` is the type of the additional metadata, `T` that of time stamps. -/
structure OverrideRequest (E T : Type) where
  action : String
  reason : String
  requestor : String
  target_path : String
  extra : E
  request_id : String
  timestamp : T
deriving DecidableEq, Repr

/-- The keys that `OverrideResult.to_dict` has. -/
structure ResultDict where
  request_id : String
  approved : Bool
  executed : Bool
  denial_reason : String
deriving DecidableEq, Repr

/-- `R` is the type of the outputs of executed functions. -/
structure OverrideResult (R : Type) where
  request_id : String
  approved : Bool
  executed : Bool
  denial_reason : String
  output : Option R
deriving DecidableEq, Repr

def OverrideResult.to_dict {R : Type} (self : OverrideResult R) : ResultDict :=
  ⟨self.request_id, self.approved, self.executed, self.denial_reason⟩

/-! ### The guard -/

namespace OverrideGuard

variable {E T : Type}

def OVERRIDEABLE_ACTIONS : Finset String :=
  {"net.listen", "net.raw", "fs.chmod", "fs.mount_bind", "storage.partition", "service.start",
    "service.stop", "model.load", "kernel.config_write"}

/-- `action.replace(".", "_")`. -/
def bridge_cap (action : String) : String := PyStr.replace action '.' '_'

/-- `target_path.lstrip("/").split("/")`. -/
def parts (target_path : String) : List String :=
  PyStr.split (PyStr.lstrip target_path '/') '/'

/-- The text of a list of strings; `repr` is that of strings. -/
def reprList (repr : String → String) (l : List String) : String :=
  "[" ++ ", ".intercalate (l.map repr) ++ "]"

/-- `OverrideGuard.validate`, with the capabilities of the host bridge, if there
    is one. -/
def validate (repr : String → String) (bridge : Option (Finset String))
    (req : OverrideRequest E T) : Bool × String :=
  if req.action ∉ OVERRIDEABLE_ACTIONS then
    (false, "Action " ++ repr req.action ++ " is not override-able. Overrideable actions: " ++
      reprList repr (PyStr.sorted OVERRIDEABLE_ACTIONS))
  else if ∃ caps ∈ bridge, bridge_cap req.action ∉ caps then
    (false, "Host bridge does not support " ++ repr (bridge_cap req.action) ++
      ". Override would fail at the host level.")
  else if req.target_path ≠ "" ∧ (parts req.target_path).headD "" ∈ PROTECTED_PARTITIONS then
    (false, "Path " ++ repr req.target_path ++ " is in a protected partition (" ++
      repr ((parts req.target_path).headD "") ++
      "). Protected partitions cannot be modified via override.")
  else if req.reason = "" ∨ PyStr.strip req.reason = "" then
    (false, "Override requires a non-empty justification reason.")
  else (true, "")

/-- What the guard accepts. -/
theorem validate_iff (repr : String → String) (bridge : Option (Finset String))
    (req : OverrideRequest E T) :
    (validate repr bridge req).1 = true ↔
      req.action ∈ OVERRIDEABLE_ACTIONS ∧ (∀ caps ∈ bridge, bridge_cap req.action ∈ caps) ∧
        (parts req.target_path).headD "" ∉ PROTECTED_PARTITIONS ∧
        PyStr.strip req.reason ≠ "" := by
  -- the guard skips an empty path, whose only part is empty and not protected
  have hpath : (req.target_path ≠ "" ∧
      (parts req.target_path).headD "" ∈ PROTECTED_PARTITIONS) ↔
      (parts req.target_path).headD "" ∈ PROTECTED_PARTITIONS := by
    refine and_iff_right_of_imp ?_
    intro hhead hempty
    rw [hempty] at hhead
    exact absurd hhead (by decide)
  -- an empty reason is blank
  have hreason : (req.reason = "" ∨ PyStr.strip req.reason = "") ↔
      PyStr.strip req.reason = "" := by
    refine or_iff_right_of_imp ?_
    intro hempty
    rw [hempty]
    rfl
  unfold validate
  simp only [hpath, hreason]
  by_cases h₁ : req.action ∈ OVERRIDEABLE_ACTIONS
  · rw [if_neg (not_not.mpr h₁)]
    by_cases h₂ : ∃ caps ∈ bridge, bridge_cap req.action ∉ caps
    · rw [if_pos h₂]
      obtain ⟨caps, hcaps, hnot⟩ := h₂
      exact iff_of_false (by simp) fun h => hnot (h.2.1 caps hcaps)
    · rw [if_neg h₂]
      push Not at h₂
      by_cases h₃ : (parts req.target_path).headD "" ∈ PROTECTED_PARTITIONS
      · rw [if_pos h₃]
        exact iff_of_false (by simp) fun h => h.2.2.1 h₃
      · rw [if_neg h₃]
        by_cases h₄ : PyStr.strip req.reason = ""
        · rw [if_pos h₄]
          exact iff_of_false (by simp) fun h => h.2.2.2 h₄
        · rw [if_neg h₄]
          exact iff_of_true rfl ⟨h₁, h₂, h₃, h₄⟩
  · rw [if_pos h₁]
    exact iff_of_false (by simp) fun h => h₁ h.1

end OverrideGuard

/-! ### The audit log -/

/-- An entry of the audit log. -/
structure Entry (E T : Type) where
  ts : T
  ts_human : String
  kernel_mode : String
  request : OverrideRequest E T
  result : ResultDict
  fingerprint : String
deriving DecidableEq, Repr

structure OverrideLog (E T : Type) where
  log_dir : String
  entries : List (Entry E T)
  /-- The lines of the audit file. -/
  file : List (Entry E T)
deriving Repr

/-- What the environment decides while an entry is recorded and its event is
    published. -/
structure Env (T : Type) where
  ts : T
  ts_human : String
  /-- The audit file can be opened and written. -/
  file_ok : Bool
  /-- The event bus takes the event. -/
  bus_ok : Bool
deriving DecidableEq, Repr

/-- The hash of an entry, from its other keys. -/
abbrev Fingerprint (E T : Type) :=
  T → String → String → OverrideRequest E T → ResultDict → String

/-- The functions of Python that only make texts: `repr` of a string, and the
    fingerprint of an entry. -/
structure Texts (E T : Type) where
  repr : String → String
  fingerprint : Fingerprint E T

namespace OverrideLog

variable {E T R : Type}

/-- The entry that `record` makes. -/
def entry (texts : Texts E T) (env : Env T) (req : OverrideRequest E T)
    (result : OverrideResult R) (kernel_mode : String) : Entry E T :=
  { ts := env.ts
    ts_human := env.ts_human
    kernel_mode
    request := req
    result := result.to_dict
    fingerprint := texts.fingerprint env.ts env.ts_human kernel_mode req result.to_dict }

/-- `OverrideLog._append_to_file`; an `OSError` is ignored. -/
def append_to_file (self : OverrideLog E T) (env : Env T) (entry : Entry E T) :
    OverrideLog E T :=
  if self.log_dir = "" then self
  else if env.file_ok then { self with file := self.file ++ [entry] }
  else self

/-- `OverrideLog.record`, with the entry already made. -/
def record (self : OverrideLog E T) (env : Env T) (entry : Entry E T) : OverrideLog E T :=
  append_to_file { self with entries := self.entries ++ [entry] } env entry

@[simp] theorem record_entries (self : OverrideLog E T) (env : Env T) (entry : Entry E T) :
    (self.record env entry).entries = self.entries ++ [entry] := by
  unfold record append_to_file
  split
  · rfl
  · split <;> rfl

end OverrideLog

/-! ### The layer -/

/-- What the operator's terminal answers. -/
inductive Answer where
  | line (text : String)
  | EOFError
  | KeyboardInterrupt
deriving DecidableEq, Repr

/-- The arguments of a call, and what its decision depends on. -/
structure Request (E T : Type) where
  req : OverrideRequest E T
  confirm : Bool
  /-- Whether `execute_fn` is given. -/
  execute_fn : Bool
  bridge : Option (Finset String)
  answer : Answer

structure CommandOverrideLayer (E T : Type) where
  log : OverrideLog E T
  /-- Whether an event bus was given. -/
  event_bus : Bool
  current_mode : String
deriving Repr

namespace CommandOverrideLayer

variable {E T R : Type}

/-- The payload of the events of the layer. -/
structure OverrideEvent where
  event_type : String
  request_id : String
  action : String
  approved : Bool
  executed : Bool
  reason : String
deriving DecidableEq, Repr

/-- What a call does to the outside. Calls are numbered in the order in which
    they begin. -/
inductive Obs (E T R : Type) where
  | called (n : Nat) (r : Request E T)
  /-- The banner printed for the operator. -/
  | warned (msg : String)
  /-- An entry is appended to the in-memory log. -/
  | recorded (n : Nat) (entry : Entry E T)
  | published (event : OverrideEvent)
  /-- `execute_fn` is called. -/
  | executed (n : Nat)
  | returned (n : Nat) (result : OverrideResult R)
  /-- An exception leaves `request_override`. -/
  | escaped (n : Nat)

/-- An active call, inside its `execute_fn`. -/
structure Frame (E T R : Type) where
  n : Nat
  r : Request E T
  result : OverrideResult R

structure State (E T R : Type) where
  col : CommandOverrideLayer E T
  /-- The number of calls so far. -/
  calls : Nat
  /-- The active calls, the innermost first. -/
  frames : List (Frame E T R)

inductive Label (E T R : Type) where
  | set_mode (mode : String)
  | request_override (r : Request E T) (env : Env T)
  /-- The innermost `execute_fn` returns. -/
  | fn_returns (output : R) (env : Env T)
  /-- It raises an `Exception`. Its text is `none` if `str` of it raises. -/
  | fn_raises (text : Option String) (env : Env T)

/-- `CommandOverrideLayer._interactive_confirm`. The letters of `yes` are lower
    forms of ASCII letters only, so `PyStr.lower` decides this test as
    `str.lower` does. -/
def interactive_confirm : Answer → Bool
  | .line text => PyStr.lower (PyStr.strip text) = "yes"
  | .EOFError => false
  | .KeyboardInterrupt => false

/-- `CommandOverrideLayer._publish_event`; a bus that raises is ignored. -/
def publish_event (self : CommandOverrideLayer E T) (env : Env T) (event_type : String)
    (req : OverrideRequest E T) (result : OverrideResult R) : List (Obs E T R) :=
  if self.event_bus ∧ env.bus_ok then
    [.published ⟨event_type, req.request_id, req.action, result.approved, result.executed,
      req.reason⟩]
  else []

/-- `self._log.record(req, result, self._current_mode)`, with the entry. -/
def record (texts : Texts E T) (self : CommandOverrideLayer E T) (env : Env T)
    (req : OverrideRequest E T) (result : OverrideResult R) :
    CommandOverrideLayer E T × Entry E T :=
  let entry := OverrideLog.entry texts env req result self.current_mode
  ({ self with log := self.log.record env entry }, entry)

/-- The warning of step 2. -/
def warning (self : CommandOverrideLayer E T) (req : OverrideRequest E T) : String :=
  "OVERRIDE REQUESTED\n  Action  : " ++ req.action ++ "\n  Reason  : " ++ req.reason ++
    "\n  Mode    : " ++ self.current_mode ++ "\n  ID      : " ++ req.request_id ++
    "\n  WARNING : This will be logged and cannot be undone."

/-- The branch of a request that is not safe. -/
def deny (texts : Texts E T) (s : State E T R) (r : Request E T) (env : Env T)
    (denial_reason : String) : State E T R × List (Obs E T R) :=
  let result : OverrideResult R := ⟨r.req.request_id, false, false, denial_reason, none⟩
  let (col, entry) := s.col.record texts env r.req result
  ({ s with col, calls := s.calls + 1 },
    [.called s.calls r, .recorded s.calls entry, .warned ("OVERRIDE DENIED: " ++ denial_reason)]
      ++ col.publish_event env "OVERRIDE_DENIED" r.req result ++ [.returned s.calls result])

/-- The branch of a request that is not confirmed. -/
def decline (texts : Texts E T) (s : State E T R) (r : Request E T) (env : Env T) :
    State E T R × List (Obs E T R) :=
  let result : OverrideResult R :=
    ⟨r.req.request_id, false, false, "operator declined confirmation", none⟩
  let (col, entry) := s.col.record texts env r.req result
  ({ s with col, calls := s.calls + 1 },
    [.called s.calls r, .warned (s.col.warning r.req), .recorded s.calls entry]
      ++ col.publish_event env "OVERRIDE_DECLINED" r.req result ++ [.returned s.calls result])

/-- The steps after the confirmation, up to the call of `execute_fn`. -/
def approve (texts : Texts E T) (s : State E T R) (r : Request E T) (env : Env T) :
    State E T R × List (Obs E T R) :=
  let result : OverrideResult R := ⟨r.req.request_id, true, false, "", none⟩
  let (col, entry) := s.col.record texts env r.req result
  let os := [.called s.calls r, .warned (s.col.warning r.req), .recorded s.calls entry]
    ++ col.publish_event env "OVERRIDE_APPROVED" r.req result
  if r.execute_fn then
    (⟨col, s.calls + 1, ⟨s.calls, r, result⟩ :: s.frames⟩, os ++ [.executed s.calls])
  else ({ s with col, calls := s.calls + 1 }, os ++ [.returned s.calls result])

/-- A call of `request_override`, up to the call of `execute_fn`. -/
def request_override (texts : Texts E T) (s : State E T R) (r : Request E T) (env : Env T) :
    State E T R × List (Obs E T R) :=
  match OverrideGuard.validate texts.repr r.bridge r.req with
  | (false, denial_reason) => deny texts s r env denial_reason
  | (true, _) =>
    if r.confirm ∨ interactive_confirm r.answer then approve texts s r env
    else decline texts s r env

/-- The rest of the call after `execute_fn` has returned. -/
def fn_returns (texts : Texts E T) (col : CommandOverrideLayer E T) (frame : Frame E T R)
    (output : R) (env : Env T) : CommandOverrideLayer E T × List (Obs E T R) :=
  let result := { frame.result with executed := true, output := some output }
  let (col, entry) := col.record texts env frame.r.req result
  (col, [.recorded frame.n entry] ++
    col.publish_event env "OVERRIDE_EXECUTED" frame.r.req result ++ [.returned frame.n result])

/-- The rest of the call after `execute_fn` has raised. The handler formats the
    exception first, and an exception of `str` leaves the call. -/
def fn_raises (texts : Texts E T) (col : CommandOverrideLayer E T) (frame : Frame E T R)
    (text : Option String) (env : Env T) : CommandOverrideLayer E T × List (Obs E T R) :=
  match text with
  | none => (col, [.escaped frame.n])
  | some text =>
    let result :=
      { frame.result with executed := false, denial_reason := "execution failed: " ++ text }
    let (col, entry) := col.record texts env frame.r.req result
    (col, [.recorded frame.n entry] ++
      col.publish_event env "OVERRIDE_FAILED" frame.r.req result ++ [.returned frame.n result])

/-- The layer with nested calls. A call may begin at any time: outside of all
    calls, and inside the innermost `execute_fn`. -/
def machine (texts : Texts E T) : Machine (State E T R) (Label E T R) (Obs E T R) where
  step := fun s l =>
    match l with
    | .set_mode mode => some ({ s with col := { s.col with current_mode := mode } }, [])
    | .request_override r env => some (request_override texts s r env)
    | .fn_returns output env =>
      match s.frames with
      | [] => none
      | frame :: frames =>
        let (col, os) := fn_returns texts s.col frame output env
        some ({ s with col, frames }, os)
    | .fn_raises text env =>
      match s.frames with
      | [] => none
      | frame :: frames =>
        let (col, os) := fn_raises texts s.col frame text env
        some ({ s with col, frames }, os)

/-- `CommandOverrideLayer.__init__`. -/
def init (log_dir : String) (event_bus : Bool) : State E T R :=
  ⟨⟨⟨log_dir, [], []⟩, event_bus, "universal"⟩, 0, []⟩

/-! ### The two outcomes of a decision -/

/-- The guard accepts the request. -/
def Accepted (texts : Texts E T) (r : Request E T) : Prop :=
  (OverrideGuard.validate texts.repr r.bridge r.req).1 = true

/-- Confirmation was preset, or the operator confirms. -/
def Confirmed (r : Request E T) : Prop :=
  r.confirm = true ∨ interactive_confirm r.answer = true

/-- What the laws of the audit speak of. -/
def Obs.audited : Obs E T R → Bool
  | .called .. => true
  | .recorded .. => true
  | .executed .. => true
  | _ => false

theorem publish_not_audited (self : CommandOverrideLayer E T) (env : Env T)
    (event_type : String) (req : OverrideRequest E T) (result : OverrideResult R) :
    (self.publish_event env event_type req result).filter Obs.audited = [] := by
  unfold publish_event
  split <;> rfl

theorem publish_not_returned (self : CommandOverrideLayer E T) (env : Env T)
    (event_type : String) (req : OverrideRequest E T) (result result' : OverrideResult R)
    (n : Nat) : .returned n result' ∉ self.publish_event env event_type req result := by
  unfold publish_event
  split
  · simp
  · simp

/-- What a call does up to its decision, as far as the audit goes: it appends
    one entry. -/
structure Decided (s s' : State E T R) (r : Request E T) (result : OverrideResult R)
    (e : Entry E T) : Prop where
  request : e.request = r.req
  outcome : e.result = result.to_dict
  unexecuted : result.executed = false
  entries : s'.col.log.entries = s.col.log.entries ++ [e]
  calls : s'.calls = s.calls + 1

/-- A request that is not accepted or not confirmed is denied. -/
theorem request_override_denied (texts : Texts E T) (s : State E T R) (r : Request E T)
    (env : Env T) (h : ¬ (Accepted texts r ∧ Confirmed r)) :
    ∃ s' os result e, request_override texts s r env = (s', os) ∧ Decided s s' r result e ∧
      result.approved = false ∧ s'.frames = s.frames ∧ .returned s.calls result ∈ os ∧
      os.filter Obs.audited = [.called s.calls r, .recorded s.calls e] := by
  unfold Accepted Confirmed at h
  unfold request_override
  cases hv : OverrideGuard.validate texts.repr r.bridge r.req with
  | mk is_safe denial_reason =>
    rw [hv] at h
    cases is_safe with
    | false =>
      refine ⟨_, _, ⟨r.req.request_id, false, false, denial_reason, none⟩,
        OverrideLog.entry texts env r.req _ s.col.current_mode, rfl,
        ⟨rfl, rfl, rfl, OverrideLog.record_entries _ _ _, rfl⟩, rfl, rfl, ?_, ?_⟩
      · simp
      · simp [List.filter_cons, Obs.audited, publish_not_audited]
    | true =>
      have hno : ¬ (r.confirm = true ∨ interactive_confirm r.answer = true) := by
        simpa using h
      refine ⟨_, _, ⟨r.req.request_id, false, false, "operator declined confirmation", none⟩,
        OverrideLog.entry texts env r.req _ s.col.current_mode, if_neg hno,
        ⟨rfl, rfl, rfl, OverrideLog.record_entries _ _ _, rfl⟩, rfl, rfl, ?_, ?_⟩
      · simp
      · simp [List.filter_cons, Obs.audited, publish_not_audited]

/-- A request that is accepted and confirmed is approved, and its function, if
    there is one, is called. -/
theorem request_override_approved (texts : Texts E T) (s : State E T R) (r : Request E T)
    (env : Env T) (h : Accepted texts r ∧ Confirmed r) :
    ∃ s' os result e, request_override texts s r env = (s', os) ∧ Decided s s' r result e ∧
      result.approved = true ∧
      if r.execute_fn then
        s'.frames = ⟨s.calls, r, result⟩ :: s.frames ∧
        os.filter Obs.audited =
          [.called s.calls r, .recorded s.calls e, .executed s.calls]
      else
        s'.frames = s.frames ∧ (∀ n result', .returned n result' ∈ os → result' = result) ∧
        os.filter Obs.audited = [.called s.calls r, .recorded s.calls e] := by
  obtain ⟨hsafe, hconfirmed⟩ := h
  unfold Accepted at hsafe
  unfold Confirmed at hconfirmed
  unfold request_override
  cases hv : OverrideGuard.validate texts.repr r.bridge r.req with
  | mk is_safe denial_reason =>
    rw [hv] at hsafe
    obtain rfl : is_safe = true := hsafe
    refine ⟨(approve texts s r env).1, (approve texts s r env).2,
      ⟨r.req.request_id, true, false, "", none⟩,
      OverrideLog.entry texts env r.req _ s.col.current_mode, if_pos hconfirmed,
      ⟨rfl, rfl, rfl, ?_, ?_⟩, rfl, ?_⟩
    · cases hfn : r.execute_fn <;> simp [approve, hfn, record]
    · cases hfn : r.execute_fn <;> simp [approve, hfn]
    · cases hfn : r.execute_fn with
      | true =>
        simp [approve, hfn, record, List.filter_cons, Obs.audited, publish_not_audited]
      | false =>
        simp [approve, hfn, record, List.filter_cons, Obs.audited, publish_not_audited,
          publish_not_returned]

end CommandOverrideLayer
