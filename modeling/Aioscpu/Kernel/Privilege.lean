import Aioscpu.Kernel.Api
import Aioscpu.Kernel.Override

/-! # AURA Privilege

  The host escalations of `kernel/privilege.py`. A request passes the gates of
  `AURAPrivilege`, then those of the command override layer, and is granted
  through the kernel API.

  The layer receives another text than the reason of the caller: the reason
  behind a prefix. Its test for a blank reason is a test of this text.
-/

/-! ### What the layer returns -/

namespace CommandOverrideLayer

variable {E T R : Type}

/-- What a call without `execute_fn` returns. -/
def decision (texts : Texts E T) (r : Request E T) : OverrideResult R :=
  match OverrideGuard.validate texts.repr r.bridge r.req with
  | (false, denial_reason) => ⟨r.req.request_id, false, false, denial_reason, none⟩
  | (true, _) =>
    if r.confirm ∨ interactive_confirm r.answer then
      ⟨r.req.request_id, true, false, "", none⟩
    else ⟨r.req.request_id, false, false, "operator declined confirmation", none⟩

theorem returned_iff_decision (texts : Texts E T) (s : State E T R) {r : Request E T}
    (env : Env T) (hfn : r.execute_fn = false) (n : Nat) (result : OverrideResult R) :
    .returned n result ∈ (request_override texts s r env).2 ↔
      n = s.calls ∧ result = decision texts r := by
  unfold request_override decision
  cases hv : OverrideGuard.validate texts.repr r.bridge r.req with
  | mk is_safe denial_reason =>
    cases is_safe with
    | false => simp [deny, publish_not_returned]
    | true =>
      by_cases hyes : r.confirm ∨ interactive_confirm r.answer
      · simp [hyes, approve, hfn, publish_not_returned]
      · simp [hyes, decline, publish_not_returned]

/-- Exactly the requests that are accepted and confirmed are approved. -/
theorem decision_approved_iff (texts : Texts E T) (r : Request E T) :
    (decision texts r : OverrideResult R).approved = true ↔ Accepted texts r ∧ Confirmed r := by
  unfold decision Accepted Confirmed
  split
  · next hv => simp [hv]
  · next hv =>
    rw [hv]
    split
    · next hyes => exact iff_of_true rfl ⟨rfl, hyes⟩
    · next hno => exact iff_of_false (by simp) fun h => hno h.2

end CommandOverrideLayer

/-! ### The privilege manager -/

/-- `T` is the type of time stamps. -/
structure AuditEntry (T : Type) where
  ts : T
  actor : String
  privilege : String
  capability : String
  desc : String
  approved : Bool
  executed : Bool
  denial : String
deriving DecidableEq, Repr

structure HostEscalation (T : Type) where
  capability : String
  reason : String
  ts : T
deriving DecidableEq, Repr

structure AURAPrivilege (V H K E T R : Type) where
  api : Option (ApiState V H K)
  col : Option (CommandOverrideLayer.State E T R)
  /-- Whether a logging service was given. -/
  log_svc : Bool
  /-- Whether an event bus was given. -/
  bus : Bool
  host_escalations : List (HostEscalation T)

namespace AURAPrivilege

variable {V H K E T R : Type}

def HOST_ESCALATION_ELIGIBLE : Finset String :=
  {"net.listen", "net.raw", "fs.mount_bind", "hal.project", "hal.teardown", "device.write",
    "proc.kill"}

def PERMANENTLY_FORBIDDEN : Finset String :=
  {"host.kernel_patch", "host.wipe_device", "host.root_exploit", "host.bypass_security",
    "host.illegal_action", "host.memory_overwrite"}

/-- What the environment decides during a request. -/
structure HostEnv (T : Type) where
  /-- The capabilities of the active bridge, unless asking for them raises. -/
  bridge : Option (Finset String)
  /-- The capabilities of the bridge of the layer, if it has one. -/
  col_bridge : Option (Finset String)
  answer : Answer
  /-- The exception of that bridge or of the terminal that leaves the layer. -/
  col_raises : Option String
  request_id : String
  timestamp : T
  col : Env T
  ts : T
  audit_ts : T
  /-- The logging service takes the entry. -/
  log_ok : Bool
  /-- The event bus takes the event. -/
  bus_ok : Bool

inductive Obs (E T R : Type) where
  /-- What the layer does. -/
  | col (o : CommandOverrideLayer.Obs E T R)
  /-- `grant_capability` is called. -/
  | granted (capability : String) (result : Except ApiError Unit)
  /-- The entry is written to the logging service. -/
  | written (msg level : String) (entry : AuditEntry T)
  /-- The entry is published as `AURA_ACTION`. -/
  | published (entry : AuditEntry T)

/-- `AURAPrivilege._bridge_allows`. -/
def bridge_allows (bridge : Option (Finset String)) (capability : String) : Bool :=
  match bridge with
  | none => false
  | some caps => PyStr.replace capability '.' '_' ∈ caps

/-- `AURAPrivilege._audit`; services that raise are ignored. -/
def audit (self : AURAPrivilege V H K E T R) (env : HostEnv T) (entry : AuditEntry T) :
    List (Obs E T R) :=
  let msg := "actor=AURA privilege=" ++ entry.privilege ++ " cap=" ++ entry.capability ++
    " approved=" ++ (if entry.approved then "True" else "False")
  let level := if entry.approved then "INFO" else "WARNING"
  (if self.log_svc ∧ env.log_ok then [.written msg level entry] else []) ++
    if self.bus ∧ env.bus_ok then [.published entry] else []

/-- The arguments of the call of `request_override`. -/
def override_request [EmptyCollection E] (env : HostEnv T) (capability reason : String)
    (confirm : Bool) : Request E T :=
  { req :=
      { action := capability
        reason := "[AURA host escalation] " ++ reason
        requestor := "AURA"
        target_path := ""
        extra := ∅
        request_id := env.request_id
        timestamp := env.timestamp }
    confirm
    execute_fn := false
    bridge := env.col_bridge
    answer := env.answer }

/-- The grant of step 5; what it raises is ignored. -/
def grant (api : Option (ApiState V H K)) (capability : String) :
    Option (ApiState V H K) × List (Obs E T R) :=
  match api with
  | none => (none, [])
  | some api =>
    let (result, api) := KernelAPI.grant_capability capability api
    (some api, [.granted capability result])

/-- `AURAPrivilege.request_host_escalation`. -/
def request_host_escalation [EmptyCollection E] (texts : Texts E T)
    (self : AURAPrivilege V H K E T R) (env : HostEnv T) (capability reason : String)
    (confirm : Bool) : Except String Bool × AURAPrivilege V H K E T R × List (Obs E T R) :=
  let audit := fun approved executed denial =>
    self.audit env
      ⟨env.audit_ts, "AURA", "host_root", capability, reason, approved, executed, denial⟩
  if capability ∈ PERMANENTLY_FORBIDDEN then
    (.ok false, self, audit false false "permanently_forbidden")
  else if capability ∉ HOST_ESCALATION_ELIGIBLE then
    (.ok false, self, audit false false "not_escalation_eligible")
  else if !bridge_allows env.bridge capability then
    (.ok false, self, audit false false "bridge_refused")
  else
    match self.col with
    | none => (.ok false, self, audit false false "no_col_available")
    | some col =>
      match env.col_raises with
      | some text => (.error text, self, [])
      | none =>
        let r : Request E T := override_request env capability reason confirm
        let result : OverrideResult R := CommandOverrideLayer.decision texts r
        let (col, os) := CommandOverrideLayer.request_override texts col r env.col
        if result.approved then
          let (api, granted) := grant self.api capability
          (.ok result.approved,
            { self with
              api
              col := some col
              host_escalations := self.host_escalations ++ [⟨capability, reason, env.ts⟩] },
            os.map .col ++ granted ++ audit true true "")
        else
          (.ok result.approved, { self with col := some col },
            os.map .col ++ audit false false
              (if result.denial_reason = "" then "user_declined" else result.denial_reason))

/-! ### The gates -/

/-- The reason contains a character that is not white space. -/
def Justified (reason : String) : Prop := ∃ c ∈ reason.toList, PyStr.isspace c = false

/-- An approved entry of the layer for the capability comes before all grants. -/
def AuditedFirst (capability : String) (os : List (Obs E T R)) : Prop :=
  ∃ pre n e post, os = pre ++ .col (.recorded n e) :: post ∧ e.request.action = capability ∧
    e.result.approved = true ∧ ∀ c result, .granted c result ∉ pre

/-- What a request needs in order to return `True`. -/
structure Gated (env : HostEnv T) (capability reason : String) (confirm : Bool)
    (os : List (Obs E T R)) : Prop where
  allowed : capability ∉ PERMANENTLY_FORBIDDEN
  eligible : capability ∈ HOST_ESCALATION_ELIGIBLE
  bridged : bridge_allows env.bridge capability = true
  justified : Justified reason
  confirmed : confirm = true ∨ CommandOverrideLayer.interactive_confirm env.answer = true
  audited : AuditedFirst capability os

/-- There is a ground for a refusal that is not in the reason. -/
def Refused (self : AURAPrivilege V H K E T R) (env : HostEnv T) (capability : String)
    (confirm : Bool) : Prop :=
  capability ∈ PERMANENTLY_FORBIDDEN ∨ capability ∉ HOST_ESCALATION_ELIGIBLE ∨
    bridge_allows env.bridge capability = false ∨ self.col = none ∨ env.col_raises ≠ none ∨
    capability ∉ OverrideGuard.OVERRIDEABLE_ACTIONS ∨
    (∃ caps ∈ env.col_bridge, OverrideGuard.bridge_cap capability ∉ caps) ∨
    ¬ (confirm = true ∨ CommandOverrideLayer.interactive_confirm env.answer = true)

/-- The text that the layer tests is never blank. -/
theorem prefixed_not_blank (reason : String) :
    PyStr.strip ("[AURA host escalation] " ++ reason) ≠ "" := by
  rw [Ne, PyStr.strip_eq_empty_iff]
  intro h
  -- the bracket of the prefix is no white space
  have hbracket := h '[' (by simp)
  revert hbracket
  decide

/-- The layer accepts a request whatever its reason is. -/
theorem accepted_iff [EmptyCollection E] (texts : Texts E T) (env : HostEnv T)
    (capability reason : String) (confirm : Bool) :
    CommandOverrideLayer.Accepted texts
        (override_request env capability reason confirm : Request E T) ↔
      capability ∈ OverrideGuard.OVERRIDEABLE_ACTIONS ∧
        ∀ caps ∈ env.col_bridge, OverrideGuard.bridge_cap capability ∈ caps := by
  unfold CommandOverrideLayer.Accepted
  rw [OverrideGuard.validate_iff]
  have hpath : (OverrideGuard.parts "").headD "" ∉ PROTECTED_PARTITIONS := by decide
  constructor
  · intro h
    exact ⟨h.1, h.2.1⟩
  · intro h
    exact ⟨h.1, h.2, hpath, prefixed_not_blank reason⟩

/-- The layer records an approved entry before it returns. -/
theorem audited_first_of_approved [EmptyCollection E] (texts : Texts E T)
    (col : CommandOverrideLayer.State E T R) {env : HostEnv T} {capability reason : String}
    {confirm : Bool}
    (h : (CommandOverrideLayer.decision texts (override_request env capability reason confirm) :
      OverrideResult R).approved = true) (os : List (Obs E T R)) :
    AuditedFirst capability ((CommandOverrideLayer.request_override texts col
      (override_request env capability reason confirm) env.col).2.map .col ++ os) := by
  obtain ⟨col', cos, result, e, heq, hdec, happroved, hrest⟩ :=
    CommandOverrideLayer.request_override_approved texts col _ env.col
      ((CommandOverrideLayer.decision_approved_iff texts _).mp h)
  rw [heq]
  -- the entry is among what the layer does, and the grant comes after that
  have haudit : .recorded col.calls e ∈ cos.filter CommandOverrideLayer.Obs.audited := by
    rw [hrest.2.2]
    simp
  obtain ⟨pre, post, hcos⟩ := List.append_of_mem (List.mem_filter.mp haudit).1
  refine ⟨pre.map .col, col.calls, e, post.map .col ++ os, ?_, ?_, ?_, ?_⟩
  · simp [hcos]
  · rw [hdec.request]
    rfl
  · rw [hdec.outcome]
    exact happroved
  · simp

/-- A request returns `True` if and only if there is no ground for a refusal
    that is not in the reason, and then its approval is recorded first. -/
theorem request_host_escalation_cases [EmptyCollection E] (texts : Texts E T)
    (self : AURAPrivilege V H K E T R) (env : HostEnv T) (capability reason : String)
    (confirm : Bool) :
    (Refused self env capability confirm ∧
      (self.request_host_escalation texts env capability reason confirm).1 ≠ .ok true) ∨
    (¬ Refused self env capability confirm ∧
      (self.request_host_escalation texts env capability reason confirm).1 = .ok true ∧
      AuditedFirst capability
        (self.request_host_escalation texts env capability reason confirm).2.2) := by
  unfold request_host_escalation Refused
  -- the gates in the order of the source, each of which refuses by itself
  by_cases hforbidden : capability ∈ PERMANENTLY_FORBIDDEN
  · simp [hforbidden]
  by_cases heligible : capability ∈ HOST_ESCALATION_ELIGIBLE
  swap
  · simp [hforbidden, heligible]
  cases hbridge : bridge_allows env.bridge capability with
  | false => simp [hforbidden, heligible]
  | true =>
    cases hcol : self.col with
    | none => simp [hforbidden, heligible]
    | some col =>
      cases hraises : env.col_raises with
      | some text => simp [hforbidden, heligible]
      | none =>
        -- what is left is up to the layer, which never sees a blank reason
        have hiff := (CommandOverrideLayer.decision_approved_iff texts
          (override_request env capability reason confirm) (R := R)).trans
          (and_congr_left' (accepted_iff texts env capability reason confirm))
        simp only [hforbidden, heligible, not_true_eq_false, if_false, Bool.not_true,
          Bool.false_eq_true, ne_eq, reduceCtorEq, false_or]
        cases happroved : (CommandOverrideLayer.decision texts
            (override_request env capability reason confirm) : OverrideResult R).approved with
        | false =>
          refine Or.inl ⟨?_, by simp⟩
          by_contra hno
          push Not at hno
          rw [hiff.mpr ⟨⟨hno.1, hno.2.1⟩, hno.2.2⟩] at happroved
          cases happroved
        | true =>
          refine Or.inr ⟨?_, by simp, ?_⟩
          · obtain ⟨⟨haction, hcaps⟩, hconfirmed⟩ := hiff.mp happroved
            push Not
            exact ⟨haction, hcaps, hconfirmed⟩
          · have hfirst := audited_first_of_approved texts col happroved
            simpa using hfirst _

/-- **Host escalation gate**: a request returns `True` only behind all gates if
    and only if its reason is not blank or there is another ground for a
    refusal. -/
theorem gated_iff_justified [EmptyCollection E] (texts : Texts E T)
    (self : AURAPrivilege V H K E T R) (env : HostEnv T) (capability reason : String)
    (confirm : Bool) :
    ((self.request_host_escalation texts env capability reason confirm).1 = .ok true →
      Gated env capability reason confirm
        (self.request_host_escalation texts env capability reason confirm).2.2) ↔
    Justified reason ∨ Refused self env capability confirm := by
  rcases self.request_host_escalation_cases texts env capability reason confirm with
    ⟨hrefused, hno⟩ | ⟨hopen, hyes, hfirst⟩
  · exact iff_of_true (fun h => absurd h hno) (Or.inr hrefused)
  · constructor
    · intro h
      exact Or.inl (h hyes).justified
    · intro h _
      have hjustified := h.resolve_right hopen
      unfold Refused at hopen
      push Not at hopen
      obtain ⟨hallowed, heligible, hbridge, -, -, -, -, hconfirmed⟩ := hopen
      exact ⟨hallowed, heligible, by simpa using hbridge, hjustified, hconfirmed, hfirst⟩

/-- A manager with a layer, on a host that can listen. -/
def listening : AURAPrivilege Unit Unit Unit (List String) Nat Unit :=
  ⟨none, some (CommandOverrideLayer.init "" false), false, false, []⟩

def listeningEnv : HostEnv Nat :=
  { bridge := some {"net_listen"}, col_bridge := none, answer := .EOFError, col_raises := none
    request_id := "id", timestamp := 0, col := ⟨0, "", true, true⟩, ts := 0, audit_ts := 0
    log_ok := true, bus_ok := true }

def listeningTexts : Texts (List String) Nat := ⟨id, fun _ _ _ _ _ => ""⟩

/-- A blank reason is enough. -/
theorem blank_reason_escalates :
    (listening.request_host_escalation listeningTexts listeningEnv "net.listen" " " true).1 =
        .ok true ∧
      ¬ Gated listeningEnv "net.listen" " " true
        (listening.request_host_escalation listeningTexts listeningEnv "net.listen" " "
          true).2.2 := by
  have hblank : ¬ Justified " " := by
    rintro ⟨c, hc, hspace⟩
    obtain rfl : c = ' ' := by simpa using hc
    exact absurd hspace (by decide)
  have hopen : ¬ Refused listening listeningEnv "net.listen" true := by
    rintro (hforbidden | heligible | hbridge | hcol | hraises | haction | hcap | hconfirm)
    · exact absurd hforbidden (by decide)
    · exact absurd (by decide) heligible
    · exact absurd hbridge (by decide)
    · cases hcol
    · exact hraises rfl
    · exact absurd (by decide) haction
    · obtain ⟨caps, hcaps, -⟩ := hcap
      cases hcaps
    · exact hconfirm (Or.inl rfl)
  rcases listening.request_host_escalation_cases listeningTexts listeningEnv "net.listen" " "
    true with ⟨hrefused, -⟩ | ⟨-, hyes, -⟩
  · exact absurd hrefused hopen
  · exact ⟨hyes, fun h => hblank h.justified⟩

end AURAPrivilege
