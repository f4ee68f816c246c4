import Aioscpu.Kernel.Permissions
import Aioscpu.Services.CommandHandler
import Aioscpu.Services.ManagerFrames
import Mathlib.Logic.Function.Basic

/-! # Remote Control

  `POST /api/service/start` and `/stop` over the real components: the command
  handler calls `KernelAPI.start_service` (or `stop_service`), which checks the
  permission and calls `start` (or `stop`) of the service manager.

  While a request waits for the manager, the other calls and the workers of
  the manager go on, and the permissions change. When the call ends, the
  handler goes on in the same thread and answers.
-/

namespace RemoteControl

open CommandChannel (Response)
open CommandHandler (Handling Server KernelApi)

variable {T : Type}

inductive Op where
  | start
  | stop
deriving DecidableEq, Repr

/-- What the API checks. -/
def Op.capability : Op → String
  | .start => "service.start"
  | .stop => "service.stop"

/-- How the call of the manager ends. -/
inductive Outcome where
  /-- The handler does not call the API. -/
  | not_called
  | denied (e : PermissionDenied)
  | raised (e : ServiceManager.Error)
  | returned

/-- The server of a node whose id goes into a header, with the texts of the exceptions. -/
structure Channel (T : Type) where
  server : Server T
  sendable : CommandHandler.encodable server.node_id = true
  denied_str : PermissionDenied → String
  error_str : ServiceManager.Error → String

/-- What the API returns or raises. -/
def answer (channel : Channel T) : Outcome → Except String (Json T)
  | .denied e => .error (channel.denied_str e)
  | .raised e => .error (channel.error_str e)
  -- `start` and `stop` return `None`, and the API returns what they return
  | _ => .ok .null

/-- The API, as the handler sees it. -/
def api (channel : Channel T) (outcome : Outcome) : KernelApi T where
  list_services := .ok .null
  start_service := fun _ => answer channel outcome
  stop_service := fun _ => answer channel outcome
  publish := .ok .null

/-- The server with this API. -/
def server (channel : Channel T) (outcome : Outcome) : Server T :=
  { channel.server with kernel_api := some (api channel outcome) }

/-- The handler, with a name in the body. -/
def handle [Clock T] (channel : Channel T) (op : Op) (name : String) (outcome : Outcome) :
    Handling T Unit :=
  match op with
  | .start =>
    CommandHandler.handle_service_start (server channel outcome) (.obj [("name", .str name)])
  | .stop =>
    CommandHandler.handle_service_stop (server channel outcome) (.obj [("name", .str name)])

/-- The responses that the handler sends. -/
def responses (x : Handling T Unit) : List (Response T) :=
  x.trace.filterMap fun o =>
    match o with
    | .called _ => none
    | .responded r => some r

/-! ### Requests over the manager -/

structure State where
  manager : ServiceManager.State
  perms : PermissionModel
  /-- The request that waits for a call of the manager. -/
  waits : Nat → Option (Op × String)

inductive Label where
  /-- Anything that the manager, its workers and its callers do. -/
  | manager (l : ServiceManager.Label)
  /-- The permissions change. -/
  | permit (perms : PermissionModel)
  | request (op : Op) (name : String)

inductive Obs (T : Type) where
  | manager (o : ServiceManager.Obs)
  | answered (op : Op) (name : String) (outcome : Outcome) (responses : List (Response T))

def init (manager : ServiceManager.State) (perms : PermissionModel) : State :=
  ⟨manager, perms, fun _ => none⟩

/-- How a call has ended. -/
def ended : ServiceManager.Pc → Option Outcome
  | .returned => some .returned
  | .raised e => some (.raised e)
  | _ => none

section machine

variable [Clock T] (channel : Channel T)

def answered (op : Op) (name : String) (outcome : Outcome) : Obs T :=
  .answered op name outcome (responses (handle channel op name outcome))

/-- The request that waits for the call is answered, if the call has ended. -/
def settle (s : State) (n : Nat) : State × List (Obs T) :=
  match s.waits n, (s.manager.calls.get n).bind fun c => ended c.pc with
  | some (op, name), some outcome =>
    ({ s with waits := Function.update s.waits n none }, [answered channel op name outcome])
  | _, _ => (s, [])

/-- The API calls the manager. -/
def call (s : State) (op : Op) (name : String) : State :=
  let stripped := PyStr.strip name
  let manager :=
    match op with
    | .start => ServiceManager.lookup s.manager stripped .start_check
    | .stop => ServiceManager.lookup s.manager stripped .stop_check
  { s with manager, waits := Function.update s.waits s.manager.calls.next (some (op, name)) }

/-- A request, up to the call of the manager. -/
def request (s : State) (op : Op) (name : String) : State × List (Obs T) :=
  if PyStr.strip name = "" then (s, [answered channel op name .not_called])
  else
    match s.perms.check op.capability with
    | .error e => (s, [answered channel op name (.denied e)])
    -- the call has ended if the service is unknown
    | .ok () => settle channel (call s op name) s.manager.calls.next

/-- The requests, the permissions and the manager. -/
def machine : Machine State Label (Obs T) where
  step := fun s l =>
    match l with
    | .permit perms => some ({ s with perms }, [])
    | .request op name => some (request channel s op name)
    | .manager l =>
      match ServiceManager.machine.step s.manager l with
      | none => none
      | some (manager, os) =>
        let s := { s with manager }
        match l with
        | .call n _ =>
          let (s, answers) := settle channel s n
          some (s, os.map .manager ++ answers)
        | _ => some (s, os.map .manager)

end machine

/-! ### What the handler answers -/

/-- The field `status` of a response. -/
def status_of (r : Response T) : Option String :=
  match r.body with
  | .obj items =>
    match items.lookup "status" with
    | some (.str s) => some s
    | _ => none
  | _ => none

/-- The response has a field `error`. -/
def is_error (r : Response T) : Bool :=
  match r.body with
  | .obj items => (items.lookup "error").isSome
  | _ => false

/-- The responses tell how the call has ended. -/
structure Truthful (outcome : Outcome) (responses : List (Response T)) : Prop where
  ok : (∃ r ∈ responses, status_of r = some "ok") ↔ outcome = .returned
  error : (∃ r ∈ responses, is_error r = true) ↔
    (∃ e, outcome = .denied e) ∨ ∃ e, outcome = .raised e
  failed : outcome = .returned → ∀ r ∈ responses, status_of r ≠ some "failed"

/-- Every request of the trace is answered truthfully. -/
def Obs.Truthful : Obs T → Prop
  | .manager _ => True
  | .answered _ _ outcome responses => RemoteControl.Truthful outcome responses

section handler

variable [Clock T]

theorem service_call_eq (srv : Server T) (c : String → CommandHandler.Call T)
    (method : KernelApi T → String → Except String (Json T)) (name : String) :
    CommandHandler.service_call c method srv (.obj [("name", .str name)]) =
      CommandHandler.named_call c method srv (PyStr.strip name) := by
  simp [CommandHandler.service_call, CommandHandler.as_dict, CommandHandler.stripped,
    Traced.andThen]

/-- The handler calls the API once and tells what it returns or raises. -/
theorem service_call_trace {srv : Server T} (h : CommandHandler.encodable srv.node_id = true)
    {api : KernelApi T} (hapi : srv.kernel_api = some api)
    (c : String → CommandHandler.Call T)
    (method : KernelApi T → String → Except String (Json T)) {name : String}
    (hname : PyStr.strip name ≠ "") :
    (CommandHandler.service_call c method srv (.obj [("name", .str name)])).trace =
      [.called (c (PyStr.strip name)), .responded
        (match method api (PyStr.strip name) with
          | .ok v => ⟨200, .obj [("status", .str (if v.truthy then "ok" else "failed")),
              ("service", .str (PyStr.strip name))]⟩
          | .error text => ⟨500, CommandHandler.error text⟩)] := by
  rw [service_call_eq]
  unfold CommandHandler.named_call
  rw [if_neg hname, hapi]
  have hstatus : ∀ status service : String, CommandHandler.send_json srv
      (.obj [("status", .str status), ("service", .str service)]) 200 = _ :=
    fun status service => CommandHandler.send_own_eq h _ (by simp) 200
  have herror : ∀ text, CommandHandler.send_json srv (CommandHandler.error text) 500 = _ :=
    fun text => CommandHandler.send_own_eq h _ (by simp [CommandHandler.error]) 500
  simp only [hstatus, herror]
  cases hmethod : method api (PyStr.strip name) with
  | ok v => simp [CommandHandler.call, Traced.observe, Traced.andThen, Traced.catching,
      Except.mapError]
  | error text => simp [CommandHandler.call, Traced.observe, Traced.andThen, Traced.catching,
      Except.mapError, CommandHandler.Exc.str]

/-- Without a name it does not call the API. -/
theorem service_call_blank {srv : Server T} (h : CommandHandler.encodable srv.node_id = true)
    (c : String → CommandHandler.Call T)
    (method : KernelApi T → String → Except String (Json T)) {name : String}
    (hname : PyStr.strip name = "") :
    (CommandHandler.service_call c method srv (.obj [("name", .str name)])).trace =
      [.responded ⟨400, CommandHandler.error "name required"⟩] := by
  rw [service_call_eq]
  unfold CommandHandler.named_call
  rw [if_pos hname, CommandHandler.send_own_eq h _ (by simp [CommandHandler.error])]

variable (channel : Channel T) (op : Op) (name : String)

theorem responses_blank (h : PyStr.strip name = "") (outcome : Outcome) :
    responses (handle channel op name outcome) =
      [⟨400, CommandHandler.error "name required"⟩] := by
  unfold responses handle
  have hsend : CommandHandler.encodable (server channel outcome).node_id = true :=
    channel.sendable
  cases op with
  | start =>
    simp only [CommandHandler.handle_service_start]
    rw [service_call_blank hsend _ _ h]
    rfl
  | stop =>
    simp only [CommandHandler.handle_service_stop]
    rw [service_call_blank hsend _ _ h]
    rfl

theorem responses_answer (h : PyStr.strip name ≠ "") (outcome : Outcome) :
    responses (handle channel op name outcome) =
      [match answer channel outcome with
        | .ok v => ⟨200, .obj [("status", .str (if v.truthy then "ok" else "failed")),
            ("service", .str (PyStr.strip name))]⟩
        | .error text => ⟨500, CommandHandler.error text⟩] := by
  unfold responses handle
  have hsend : CommandHandler.encodable (server channel outcome).node_id = true :=
    channel.sendable
  cases op with
  | start =>
    simp only [CommandHandler.handle_service_start]
    rw [service_call_trace hsend rfl _ _ h]
    rfl
  | stop =>
    simp only [CommandHandler.handle_service_stop]
    rw [service_call_trace hsend rfl _ _ h]
    rfl

/-- The answer to a request that is refused, by the API or by the manager, is an error. -/
theorem truthful_of_error (h : PyStr.strip name ≠ "") {outcome : Outcome} {text : String}
    (hanswer : answer channel outcome = .error text) :
    (answered channel op name outcome).Truthful := by
  -- only an exception makes the API answer with an error
  have hrefused : outcome ≠ .returned ∧
      ((∃ e, outcome = .denied e) ∨ ∃ e, outcome = .raised e) := by
    cases outcome with
    | not_called => cases hanswer
    | denied e => exact ⟨by simp, Or.inl ⟨e, rfl⟩⟩
    | raised e => exact ⟨by simp, Or.inr ⟨e, rfl⟩⟩
    | returned => cases hanswer
  unfold answered Obs.Truthful
  rw [responses_answer channel op name h, hanswer]
  refine ⟨iff_of_false ?_ hrefused.1, iff_of_true ⟨_, List.mem_singleton.mpr rfl, rfl⟩ hrefused.2,
    fun hreturned => absurd hreturned hrefused.1⟩
  rintro ⟨r, hr, hok⟩
  obtain rfl := List.mem_singleton.mp hr
  cases hok

/-- `None` is no success. -/
theorem not_truthful_returned (h : PyStr.strip name ≠ "") :
    ¬ (answered channel op name .returned).Truthful := by
  unfold answered Obs.Truthful
  rw [responses_answer channel op name h]
  intro htruthful
  exact htruthful.failed rfl _ (List.mem_singleton.mpr rfl) rfl

/-- Without a name the answer is an error, and the manager has not raised. -/
theorem not_truthful_blank (h : PyStr.strip name = "") :
    ¬ (answered channel op name .not_called).Truthful := by
  unfold answered Obs.Truthful
  rw [responses_blank channel op name h]
  intro htruthful
  rcases htruthful.error.mp ⟨_, List.mem_singleton.mpr rfl, rfl⟩ with ⟨e, he⟩ | ⟨e, he⟩
  · cases he
  · cases he

end handler

/-! ### Requests that are answered truthfully -/

/-- The next step of the call returns: `start` starts a new thread, `stop` publishes. -/
inductive Accepts (s : ServiceManager.State) (n : Nat) : Prop where
  | start (c : ServiceManager.Call) (r : Nat) (record : ServiceManager.ServiceRecord) (t : Nat)
      (w : ServiceManager.Worker) (hc : s.calls.get n = some c) (hpc : c.pc = .start_launch r)
      (hr : s.records.get r = some record) (ht : record.thread = some t)
      (hw : s.workers.get t = some w) (hcreated : w.pc = .created)
  | stop (c : ServiceManager.Call) (hc : s.calls.get n = some c) (hpc : c.pc = .stop_publish)

theorem accepts_of_get {s : ServiceManager.State} {n : Nat} (h : Accepts s n)
    {c : ServiceManager.Call} (hc : s.calls.get n = some c) :
    c.pc = .stop_publish ∨ ∃ r record t w, c.pc = .start_launch r ∧
      s.records.get r = some record ∧ record.thread = some t ∧ s.workers.get t = some w ∧
      w.pc = .created := by
  cases h with
  | start c' r record t w hc' hpc hr ht hw hcreated =>
    obtain rfl := Option.some.inj (hc.symm.trans hc')
    exact Or.inr ⟨r, record, t, w, hpc, hr, ht, hw, hcreated⟩
  | stop c' hc' hpc =>
    obtain rfl := Option.some.inj (hc.symm.trans hc')
    exact Or.inl hpc

/-- A step of a call: it returns if and only if it is accepted, or has registered. -/
theorem call_moves {s s' : ServiceManager.State} {n : Nat} {timed_out : Bool}
    {os : List ServiceManager.Obs} (hs : ServiceManager.Step s (.call n timed_out) os s')
    {c : ServiceManager.Call} (hc : s.calls.get n = some c) (hpc : c.pc ≠ .register_publish) :
    ∃ pc, s'.calls.get n = some { c with pc } ∧ pc ≠ .register_publish ∧
      (pc = .returned ↔ Accepts s n) := by
  -- the step moves the call itself, and nothing else about it
  have hgoto : ∀ {s₁ : ServiceManager.State} {c₀ : ServiceManager.Call}
      (pc : ServiceManager.Pc), s.calls.get n = some c₀ → s₁.calls = s.calls →
      pc ≠ .register_publish → (pc = .returned ↔ Accepts s n) →
      ∃ pc', (ServiceManager.goto s₁ n c₀ pc).calls.get n = some { c with pc := pc' } ∧
        pc' ≠ .register_publish ∧ (pc' = .returned ↔ Accepts s n) := by
    intro s₁ c₀ pc hc₀ hcalls hne hiff
    obtain rfl := Option.some.inj (hc.symm.trans hc₀)
    exact ⟨pc, Objects.get_set_self (hcalls ▸ hc) _, hne, hiff⟩
  -- everywhere but at the publishing of a stop and at the launch nothing is accepted
  have hother : ∀ {c₀ : ServiceManager.Call} {pc : ServiceManager.Pc},
      s.calls.get n = some c₀ → pc ≠ .returned → c₀.pc ≠ .stop_publish →
      (∀ r, c₀.pc ≠ .start_launch r) → (pc = .returned ↔ Accepts s n) := by
    intro c₀ pc hc₀ hne hpublish hlaunch
    refine iff_of_false hne fun haccepts => ?_
    rcases accepts_of_get haccepts hc₀ with hpc | ⟨r, _, _, _, hpc, -⟩
    · exact hpublish hpc
    · exact hlaunch r hpc
  cases hs with
  | begins c₀ hbegin => cases hbegin
  | goes _ _ c₀ pc _ hc₀ hgo =>
    have hne : pc ≠ .register_publish := by cases hgo <;> simp
    refine hgoto pc hc₀ rfl hne ?_
    cases hgo with
    | registered h =>
      obtain rfl := Option.some.inj (hc.symm.trans hc₀)
      exact absurd h hpc
    | stop_published h => exact iff_of_true rfl (.stop c₀ hc₀ h)
    | start_raises r e h hlaunch =>
      -- the thread of the record is one that was started before
      refine iff_of_false (by simp) fun haccepts => ?_
      rcases accepts_of_get haccepts hc₀ with hpc' | ⟨r', record, t, w, hpc', hr, ht, hw, hcreated⟩
      · simp [hpc'] at h
      · obtain rfl : r' = r := by simpa [hpc'] using h
        exact hlaunch hpc' record t w hr ht hw hcreated
    | start_accepted r record h => exact hother hc₀ (by simp) (by simp [h]) (by simp [h])
    | start_refused r record h => exact hother hc₀ (by simp) (by simp [h]) (by simp [h])
    | stop_accepted r record h => exact hother hc₀ (by simp) (by simp [h]) (by simp [h])
    | stop_refused r h => exact hother hc₀ (by simp) (by simp [h]) (by simp [h])
    | stop_alive r h => exact hother hc₀ (by simp) (by simp [h]) (by simp [h])
    | stop_wait r t h => exact hother hc₀ (by simp) (by simp [h]) (by simp [h])
    | stop_raises r e h =>
      refine hother hc₀ (by simp) ?_ ?_ <;> rcases h with h | h <;> simp [h]
    | stop_joined r h =>
      refine hother hc₀ (by simp) ?_ ?_ <;> rcases h with h | ⟨t, h⟩ <;> simp [h]
  | start_write _ _ c₀ r record hc₀ h =>
    exact hgoto _ hc₀ rfl (by simp) (hother hc₀ (by simp) (by simp [h]) (by simp [h]))
  | start_thread _ _ c₀ r record hc₀ h =>
    exact hgoto _ hc₀ rfl (by simp) (hother hc₀ (by simp) (by simp [h]) (by simp [h]))
  | launch _ _ c₀ r record t w hc₀ h hr ht hw hcreated =>
    exact hgoto _ hc₀ rfl (by simp)
      (iff_of_true rfl (.start c₀ r record t w hc₀ h hr ht hw hcreated))
  | stop_write _ _ c₀ r record hc₀ h =>
    exact hgoto _ hc₀ rfl (by simp) (hother hc₀ (by simp) (by simp [h]) (by simp [h]))
  | stop_finish _ _ c₀ r record hc₀ h =>
    exact hgoto _ hc₀ rfl (by simp) (hother hc₀ (by simp) (by simp [h]) (by simp [h]))

/-- The calls that requests wait for exist, and are not registrations. -/
def Waiting (s : State) : Prop :=
  ∀ n op name, s.waits n = some (op, name) →
    PyStr.strip name ≠ "" ∧
      ∃ c, s.manager.calls.get n = some c ∧ c.pc ≠ .register_publish

/-- What the step before the answer must not do: accept a request, or get none. -/
def Refuses (s : State) : Label → Prop
  | .permit _ => True
  | .request _ name => PyStr.strip name ≠ ""
  | .manager (.call n _) => s.waits n ≠ none → ¬ Accepts s.manager n
  | .manager _ => True

/-- The manager gets one more call, at the test of the state or ended. -/
theorem call_calls (s : State) (op : Op) (name : String) :
    ∃ c, (call s op name).manager.calls = s.manager.calls.create c ∧
      c.pc ≠ .register_publish ∧ c.pc ≠ .returned := by
  cases op <;> simp only [call, ServiceManager.lookup] <;>
    cases s.manager.registry.get (PyStr.strip name) <;>
    exact ⟨_, rfl, by simp, by simp⟩

theorem call_waiting {s : State} (h : Waiting s) (op : Op) {name : String}
    (hname : PyStr.strip name ≠ "") : Waiting (call s op name) := by
  obtain ⟨c, hcalls, hpc, -⟩ := call_calls s op name
  intro n op' name' hn
  rw [hcalls]
  by_cases heq : n = s.manager.calls.next
  · have hwaits : (call s op name).waits n = some (op, name) := by
      rw [heq]
      exact Function.update_self ..
    obtain ⟨rfl, rfl⟩ := Prod.mk.inj (Option.some.inj (hwaits.symm.trans hn))
    exact ⟨hname, c, by rw [heq, Objects.get_create_self], hpc⟩
  · have hwaits : (call s op name).waits n = s.waits n := Function.update_of_ne heq ..
    obtain ⟨hname', c', hc', hpc'⟩ := h n op' name' (hwaits.symm.trans hn)
    exact ⟨hname', c', Objects.get_create_of_get hc' c, hpc'⟩

/-- Nothing that the manager does makes a call a registration. -/
theorem manager_waiting {s : State} (h : Waiting s) {l : ServiceManager.Label}
    {manager : ServiceManager.State} {os : List ServiceManager.Obs}
    (hs : ServiceManager.Step s.manager l os manager) : Waiting { s with manager } := by
  intro n op name hn
  obtain ⟨hname, c, hc, hpc⟩ := h n op name hn
  refine ⟨hname, ?_⟩
  obtain ⟨c', hc', -, hsame | ⟨timed_out, rfl⟩⟩ := ServiceManager.step_call hs hc
  · exact ⟨c', hc', by rwa [hsame]⟩
  · obtain ⟨pc, hmoved, hne, -⟩ := call_moves hs hc hpc
    exact ⟨_, hmoved, hne⟩

section runs

variable [Clock T] (channel : Channel T)

/-- The law of the observations of a step. -/
abbrev Lawful (os : List (Obs T)) : Prop := ∀ o ∈ os, o.Truthful

theorem settle_lawful {s : State} (h : Waiting s) {n : Nat} {c : ServiceManager.Call}
    (hc : s.manager.calls.get n = some c) :
    Waiting (settle channel s n).1 ∧
      (Lawful (settle channel s n).2 ↔ (s.waits n ≠ none → c.pc ≠ .returned)) := by
  -- an answered request does not wait any more
  have hupdate : Waiting { s with waits := Function.update s.waits n none } := by
    intro m op name hm
    by_cases heq : m = n
    · simp [heq] at hm
    · exact h m op name (by simpa [heq] using hm)
  unfold settle
  cases hwaits : s.waits n with
  | none => exact ⟨h, by simp [Lawful]⟩
  | some w =>
    obtain ⟨op, name⟩ := w
    have hname := (h n op name hwaits).1
    rw [hc, Option.bind_some]
    cases c.pc with
    | returned =>
      refine ⟨hupdate, iff_of_false (fun hlawful => ?_) (by simp)⟩
      exact not_truthful_returned channel op name hname
        (hlawful _ (List.mem_singleton.mpr rfl))
    | raised e =>
      refine ⟨hupdate, iff_of_true (fun o ho => ?_) (by simp)⟩
      obtain rfl := List.mem_singleton.mp ho
      exact truthful_of_error channel op name hname rfl
    | _ => exact ⟨h, by simp [ended, Lawful]⟩

/-- A step is lawful if and only if it refuses. -/
theorem step_lawful_iff {s s' : State} {l : Label} {os : List (Obs T)} (h : Waiting s)
    (hs : (machine channel).step s l = some (s', os)) :
    Waiting s' ∧ (Refuses s l ↔ Lawful os) := by
  cases l with
  | permit perms =>
    obtain ⟨rfl, rfl⟩ := Prod.mk.inj (Option.some.inj hs)
    exact ⟨h, iff_of_true trivial (by simp [Lawful])⟩
  | request op name =>
    have hs : request channel s op name = (s', os) := Option.some.inj hs
    unfold request at hs
    split at hs
    next hname =>
      obtain ⟨rfl, rfl⟩ := Prod.mk.inj hs
      refine ⟨h, iff_of_false (fun hrefuses => hrefuses hname) fun hlawful => ?_⟩
      exact not_truthful_blank channel op name hname (hlawful _ (List.mem_singleton.mpr rfl))
    next hname =>
      split at hs
      next e he =>
        obtain ⟨rfl, rfl⟩ := Prod.mk.inj hs
        refine ⟨h, iff_of_true hname fun o ho => ?_⟩
        obtain rfl := List.mem_singleton.mp ho
        exact truthful_of_error channel op name hname rfl
      next =>
        obtain ⟨c, hcalls, -, hpc⟩ := call_calls s op name
        have hc : (call s op name).manager.calls.get s.manager.calls.next = some c := by
          rw [hcalls, Objects.get_create_self]
        obtain ⟨hwaiting, hlawful⟩ := settle_lawful channel (call_waiting h op hname) hc
        rw [hs] at hwaiting hlawful
        exact ⟨hwaiting, iff_of_true hname (hlawful.mpr fun _ => hpc)⟩
  | manager l =>
    simp only [machine] at hs
    split at hs
    · cases hs
    next manager os' hstep =>
    have hsound := ServiceManager.step_sound hstep
    have hsilent : Lawful (os'.map (Obs.manager (T := T))) := by
      simp [Lawful, Obs.Truthful]
    split at hs
    next n timed_out =>
      obtain ⟨rfl, rfl⟩ := Prod.mk.inj (Option.some.inj hs)
      have hwaiting := manager_waiting h hsound
      have happend : ∀ answers : List (Obs T),
          Lawful (os'.map .manager ++ answers) ↔ Lawful answers := fun answers =>
        List.forall_mem_append.trans (and_iff_right hsilent)
      rw [happend]
      by_cases hn : s.waits n = none
      · -- nobody waits for the call
        have hsettle : settle channel { s with manager } n = ({ s with manager }, []) := by
          unfold settle
          rw [hn]
        rw [hsettle]
        exact ⟨hwaiting, iff_of_true (fun hsome => absurd hn hsome) (by simp [Lawful])⟩
      · obtain ⟨⟨op, name⟩, hsome⟩ := Option.ne_none_iff_exists'.mp hn
        obtain ⟨-, c, hc, hpc⟩ := h n op name hsome
        obtain ⟨pc, hmoved, -, haccepts⟩ := call_moves hsound hc hpc
        obtain ⟨hsettled, hlawful⟩ := settle_lawful channel hwaiting hmoved
        refine ⟨hsettled, ?_⟩
        rw [hlawful]
        exact forall_congr' fun _ => not_congr haccepts.symm
    next hcall =>
      obtain ⟨rfl, rfl⟩ := Prod.mk.inj (Option.some.inj hs)
      refine ⟨manager_waiting h hsound, iff_of_true ?_ hsilent⟩
      cases l with
      | call n timed_out => exact absurd rfl (hcall n timed_out)
      | _ => trivial

/-- **Remote control tells the truth about refusals only**: in every run, every request is
    answered truthfully if and only if none is without a name and none is accepted. -/
theorem truthful_iff_refused (manager : ServiceManager.State) (perms : PermissionModel)
    {ls : List Label} {s : State} {tr : List (Obs T)}
    (hrun : (machine channel).run (init manager perms) ls = some (s, tr)) :
    (∀ o ∈ tr, o.Truthful) ↔ (machine channel).Along Refuses (init manager perms) ls := by
  have hinit : Waiting (init manager perms) := fun n op name h => by cases h
  exact ((machine channel).along_iff_trace (Q := Lawful) (I := Waiting) (by simp [Lawful])
    (fun _ _ => List.forall_mem_append)
    (fun s l s' os h hs => step_lawful_iff channel h hs) hinit hrun).symm

end runs

/-- The channel of a bare node. -/
def bareChannel : Channel ℚ where
  server := CommandHandler.bareServer
  sendable := CommandHandler.bareServer_sendable
  denied_str := fun e => e.capability
  error_str := fun _ => "error"

theorem service_keys_nodup :
    ([("name", "a"), ("entrypoint", "/services/a.py")].map Prod.fst).Nodup := by
  decide

/-- A service is registered, and a request starts it. -/
def startedService : List Label :=
  [.manager (.register "a" ⟨[("name", "a"), ("entrypoint", "/services/a.py")],
      service_keys_nodup⟩),
    .request .start "a", .manager (.call 1 false), .manager (.call 1 false),
    .manager (.call 1 false), .manager (.call 1 false)]

/-- A request for a service that is not registered, and one that is not permitted. -/
def refusedRequests : List Label :=
  [.request .start "b", .permit (.init .universal), .request .stop "a"]

theorem truthful_iff_refused_requests :
    ∃ s tr, (machine bareChannel).run (init ServiceManager.init (.init .internal))
        refusedRequests = some (s, tr) ∧
      ((∀ o ∈ tr, o.Truthful) ↔
        (machine bareChannel).Along Refuses (init ServiceManager.init (.init .internal))
          refusedRequests) := by
  obtain ⟨s, tr, hrun, -⟩ := (machine bareChannel).exists_run
    (init ServiceManager.init (.init .internal)) refusedRequests (fun _ _ => true)
    (by decide +kernel)
  exact ⟨s, tr, hrun, truthful_iff_refused bareChannel ServiceManager.init (.init .internal) hrun⟩

/-- The last two observations: the service is started, and the answer tells of a failure. -/
def tellsFailure : List (Obs ℚ) → Bool
  | [_, .manager (.launched _ _ name), .answered .start name' .returned [r]] =>
    name = "a" ∧ name' = "a" ∧ status_of r = some "failed"
  | _ => false

/-- The manager has started the service, and the answer is that this has failed. -/
theorem started_answered_failed :
    ∃ s tr, (machine bareChannel).run (init ServiceManager.init (.init .internal))
        startedService = some (s, tr) ∧ tellsFailure tr = true ∧ ¬ ∀ o ∈ tr, o.Truthful := by
  obtain ⟨s, tr, hrun, htest⟩ := (machine bareChannel).exists_run
    (init ServiceManager.init (.init .internal)) startedService (fun _ tr => tellsFailure tr)
    (by decide +kernel)
  refine ⟨s, tr, hrun, htest, fun hall => ?_⟩
  unfold tellsFailure at htest
  split at htest
  · next o n t name name' r =>
    have hfailed : status_of r = some "failed" := (of_decide_eq_true htest).2.2
    have htruthful := hall (.answered .start name' .returned [r]) (by simp)
    exact htruthful.failed rfl r (List.mem_singleton.mpr rfl) hfailed
  · cases htest

end RemoteControl
