import Aioscpu.Framework.Clock
import Aioscpu.Framework.Json
import Aioscpu.Framework.PyStr
import Aioscpu.Kernel.EventViews

/-! # Consent

  A component asks for a capability with the event PERMISSION_REQUEST. The shell is called with
  it in the middle of a tick, asks the user, and publishes the answer as PERMISSION_RESPONSE,
  while other threads go on. The tick waits for the user.

  The steps of the two parties are steps of the bus (`bus_run`), so that the laws of the bus hold
  for what is said.

  Main result (`consent_law`): every request is answered once and in order, a capability is
  granted only by a yes, and when the bus is at rest all answers have been delivered.
-/

namespace Shell

open EventBus

/-- What `input` does. -/
inductive Answer where
  | line (text : String)
  /-- It raises `EOFError` or `KeyboardInterrupt`. -/
  | interrupted
  /-- It raises another exception. -/
  | failed
deriving DecidableEq

/-- `granted` of `_handle_permission_request`; `none` where it raises. -/
def granted : Answer → Option Bool
  | .line text => some (PyStr.lower (PyStr.strip text) = "y")
  | .interrupted => some false
  | .failed => none

variable {T C : Type}

/-- `(event.payload or {}).get("capability", "unknown")`; `none` where it raises. -/
def capability [Clock T] (payload : Json T) : Option (Json T) :=
  if payload.truthy then
    match payload with
    | .obj fields => some ((fields.lookup "capability").getD (.str "unknown"))
    | _ => none
  else some (.str "unknown")

/-- What `_handle_permission_request` publishes, with the value of `Event._counter`; `none` where
    it raises before. -/
def handle_permission_request [Clock T] (counter : Nat) (event : Event (Json T)) (answer : Answer) :
    Option (Event (Json T)) :=
  match capability event.payload, granted answer with
  | some capability, some granted =>
    some (Event.create counter "PERMISSION_RESPONSE"
      (.obj [("capability", capability), ("granted", .bool granted)]) Priority.HIGH "shell").1
  | _, _ => none

/-! ### The two parties -/

/-- The bus, and the request that the user is asked about. -/
structure Dialogue (T C : Type) where
  bus : EventBus.State (Json T) C
  asking : Option (Event (Json T))

inductive DialogueLabel (T C : Type) where
  /-- The bus, its other callbacks and the other threads go on. -/
  | bus (l : EventBus.Label (Json T) C)
  /-- `input` returns or raises, at a value of `Event._counter`. -/
  | answer (answer : Answer) (counter : Nat)

inductive DialogueObs (T C : Type) where
  | bus (o : EventBus.Obs (Json T) C)
  | exchanged (request : Event (Json T)) (answer : Answer) (response : Option (Event (Json T)))

/-- The callback of the shell is called. -/
def note_request [DecidableEq C] (shell : C) (asking : Option (Event (Json T))) :
    EventBus.Obs (Json T) C → Option (Event (Json T))
  | .invoked c event => if c = shell then some event else asking
  | _ => asking

/-- The label ends a callback. -/
def ends : EventBus.Label (Json T) C → Bool
  | .done _ => true
  | _ => false

def publish_response (bus : EventBus (Json T) C) : Option (Event (Json T)) → EventBus (Json T) C
  | some response => bus.publish response
  | none => bus

def dialogue [Clock T] [DecidableEq C] (shell : C) :
    Machine (Dialogue T C) (DialogueLabel T C) (DialogueObs T C) where
  step := fun s l =>
    match l with
    | .bus l =>
      -- the handler of the shell only ends with an answer
      if s.asking.isSome && ends l then none
      else ((EventBus.machine (Json T) C).step s.bus l).map fun (bus, os) =>
        ({ bus, asking := os.foldl (note_request shell) s.asking }, os.map .bus)
    | .answer answer counter =>
      match s.asking, s.bus.control with
      | some request, .calling count event rest =>
        let response := handle_permission_request counter request answer
        some ({ bus := ⟨publish_response s.bus.bus response, .delivering count event rest⟩
                asking := none },
          [.exchanged request answer response])
      | _, _ => none

/-- What a step can do, with one constructor for each case. -/
inductive DialogueStep [Clock T] [DecidableEq C] (shell : C) : Dialogue T C → DialogueLabel T C →
    List (DialogueObs T C) → Dialogue T C → Prop where
  | bus {s : Dialogue T C} (l : EventBus.Label (Json T) C) {bus : EventBus.State (Json T) C}
      {os : List (EventBus.Obs (Json T) C)} (hopen : s.asking = none ∨ ends l = false)
      (hstep : (EventBus.machine (Json T) C).step s.bus l = some (bus, os)) :
      DialogueStep shell s (.bus l) (os.map .bus) ⟨bus, os.foldl (note_request shell) s.asking⟩
  | answer {s : Dialogue T C} (answer : Answer) (counter : Nat) {request event : Event (Json T)}
      {count : Nat} {rest : List C} (hasking : s.asking = some request)
      (hcalling : s.bus.control = .calling count event rest) :
      DialogueStep shell s (.answer answer counter)
        [.exchanged request answer (handle_permission_request counter request answer)]
        ⟨⟨publish_response s.bus.bus (handle_permission_request counter request answer),
          .delivering count event rest⟩, none⟩

theorem dialogue_step [Clock T] [DecidableEq C] {shell : C} {s s' : Dialogue T C}
    {l : DialogueLabel T C} {os : List (DialogueObs T C)}
    (h : (dialogue shell).step s l = some (s', os)) :
    DialogueStep shell s l os s' := by
  cases l with
  | bus l =>
    simp only [dialogue] at h
    split at h
    · cases h
    · next hopen =>
      obtain ⟨⟨bus, os'⟩, hstep, heq⟩ := Option.map_eq_some_iff.mp h
      cases heq
      refine .bus l ?_ hstep
      cases hasking : s.asking with
      | none => exact Or.inl rfl
      | some request =>
        rw [hasking] at hopen
        exact Or.inr (by simpa using hopen)
  | answer answer counter =>
    simp only [dialogue] at h
    split at h
    · next request count event rest hasking hcalling =>
      cases h
      exact .answer answer counter hasking hcalling
    · cases h

/-! ### The bus -/

/-- The observations of the bus. -/
def onBus (tr : List (DialogueObs T C)) : List (EventBus.Obs (Json T) C) :=
  tr.filterMap fun
    | .bus o => some o
    | .exchanged .. => none

/-- What the other threads and callbacks do on the bus. -/
def othersOnBus (ls : List (DialogueLabel T C)) : List (EventBus.Label (Json T) C) :=
  ls.filterMap fun
    | .bus l => some l
    | .answer .. => none

/-- The requests about which the user was asked. -/
def asked (tr : List (DialogueObs T C)) : List (Event (Json T)) :=
  tr.filterMap fun
    | .exchanged request _ _ => some request
    | .bus _ => none

/-- What the shell has published. -/
def responses (tr : List (DialogueObs T C)) : List (Event (Json T)) :=
  tr.filterMap fun
    | .exchanged _ _ response => response
    | .bus _ => none

/-- The steps of the bus that an answer stands for. -/
def answerSteps : Option (Event (Json T)) → List (EventBus.Label (Json T) C)
  | some response => [.publish response, .done false]
  | none => [.done true]

theorem onBus_append (tr os : List (DialogueObs T C)) : onBus (tr ++ os) = onBus tr ++ onBus os :=
  List.filterMap_append

theorem onBus_map (os : List (EventBus.Obs (Json T) C)) :
    onBus (os.map .bus : List (DialogueObs T C)) = os := by
  unfold onBus
  rw [List.filterMap_map]
  exact List.filterMap_some

theorem responses_map (os : List (EventBus.Obs (Json T) C)) :
    responses (os.map .bus : List (DialogueObs T C)) = [] := by
  unfold responses
  rw [List.filterMap_map]
  exact List.filterMap_eq_nil_iff.mpr fun _ _ => rfl

theorem asked_map (os : List (EventBus.Obs (Json T) C)) :
    asked (os.map .bus : List (DialogueObs T C)) = [] := by
  unfold asked
  rw [List.filterMap_map]
  exact List.filterMap_eq_nil_iff.mpr fun _ _ => rfl

/-- While the user is asked, the bus is inside a callback. -/
def Waiting (s : Dialogue T C) : Prop :=
  s.asking = none ∨ ∃ count event rest, s.bus.control = .calling count event rest

theorem answer_run {s : Dialogue T C} {event : Event (Json T)} {count : Nat} {rest : List C}
    (hcalling : s.bus.control = .calling count event rest) (response : Option (Event (Json T))) :
    (EventBus.machine (Json T) C).run s.bus (answerSteps response) =
      some (⟨publish_response s.bus.bus response, .delivering count event rest⟩, []) := by
  obtain ⟨⟨bus, control⟩, asking⟩ := s
  cases hcalling
  cases response <;> rfl

variable [Clock T] [DecidableEq C] {shell : C}

/-- Each step stands for steps of the bus. -/
theorem step_bus_run {s s' : Dialogue T C} {l : DialogueLabel T C} {os : List (DialogueObs T C)}
    (h : DialogueStep shell s l os s') :
    ∃ ls, (EventBus.machine (Json T) C).run s.bus ls = some (s'.bus, onBus os) ∧
      (published ls).Perm (published (othersOnBus [l]) ++ responses os) ∧
      ((∀ l' ∈ othersOnBus [l], l'.Spares shell) → ∀ l' ∈ ls, l'.Spares shell) := by
  cases h with
  | bus l hopen hstep =>
    refine ⟨[l], ?_, ?_, fun hspares => hspares⟩
    · rw [onBus_map]
      exact (EventBus.machine (Json T) C).run_singleton.mpr hstep
    · rw [responses_map, List.append_nil]
      exact List.Perm.refl _
  | @answer answer counter request event count rest hasking hcalling =>
    generalize handle_permission_request counter request answer = response
    -- the response is published, and the callback returns
    refine ⟨_, answer_run hcalling response, ?_, ?_⟩
    · cases response <;> exact List.Perm.refl _
    · intro _ l' hl'
      cases response with
      | some response =>
        simp only [answerSteps, List.mem_cons, List.not_mem_nil, or_false] at hl'
        rcases hl' with rfl | rfl <;> trivial
      | none =>
        rw [List.mem_singleton.mp hl']
        trivial

/-- **The dialogue is a run of the bus**, in which the shell publishes its answers. -/
theorem bus_run {s₀ s : Dialogue T C} {ls : List (DialogueLabel T C)}
    {tr : List (DialogueObs T C)} (hspares : ∀ l ∈ othersOnBus ls, l.Spares shell)
    (hrun : (dialogue shell).run s₀ ls = some (s, tr)) :
    ∃ ls', (EventBus.machine (Json T) C).run s₀.bus ls' = some (s.bus, onBus tr) ∧
      (published ls').Perm (published (othersOnBus ls) ++ responses tr) ∧
      ∀ l ∈ ls', l.Spares shell := by
  revert hspares
  refine (dialogue shell).run_induction (P := fun ls s tr =>
    (∀ l ∈ othersOnBus ls, l.Spares shell) →
      ∃ ls', (EventBus.machine (Json T) C).run s₀.bus ls' = some (s.bus, onBus tr) ∧
        (published ls').Perm (published (othersOnBus ls) ++ responses tr) ∧
        ∀ l ∈ ls', l.Spares shell) ?_ ?_ hrun
  · exact fun _ => ⟨[], rfl, List.Perm.refl _, by simp⟩
  · intro ls s tr l s' os _ ih hs hspares
    have hothers : othersOnBus (ls ++ [l]) = othersOnBus ls ++ othersOnBus [l] :=
      List.filterMap_append
    rw [hothers] at hspares
    obtain ⟨ls₁, hrun₁, hperm₁, hspares₁⟩ := ih fun l hl => hspares l (List.mem_append_left _ hl)
    obtain ⟨ls₂, hrun₂, hperm₂, hspares₂⟩ := step_bus_run (dialogue_step hs)
    refine ⟨ls₁ ++ ls₂, ?_, ?_, ?_⟩
    · rw [(EventBus.machine (Json T) C).run_append_iff, onBus_append]
      exact ⟨s.bus, onBus tr, onBus os, hrun₁, hrun₂, rfl⟩
    · have hpublished : published (ls₁ ++ ls₂) = published ls₁ ++ published ls₂ :=
        List.filterMap_append
      have hothers' : published (othersOnBus ls ++ othersOnBus [l]) =
          published (othersOnBus ls) ++ published (othersOnBus [l]) := List.filterMap_append
      have hresponses : responses (tr ++ os) = responses tr ++ responses os :=
        List.filterMap_append
      rw [hpublished, hothers, hothers', hresponses]
      refine (hperm₁.append hperm₂).trans ?_
      rw [List.append_assoc, List.append_assoc]
      refine List.Perm.append_left _ ?_
      rw [← List.append_assoc, ← List.append_assoc]
      exact List.Perm.append_right _ List.perm_append_comm
    · have hlast := hspares₂ fun l' hl' => hspares l' (List.mem_append_right _ hl')
      exact fun l' hl' => (List.mem_append.mp hl').elim (hspares₁ l') (hlast l')

/-- Between two steps: what the shell was called with are the requests that it has asked about. -/
theorem step_asked {s s' : Dialogue T C} {l : DialogueLabel T C} {os : List (DialogueObs T C)}
    (h : DialogueStep shell s l os s') (hwaiting : Waiting s) :
    Waiting s' ∧
      asked os ++ s'.asking.toList = s.asking.toList ++ received shell (onBus os) := by
  cases h with
  | answer answer counter hasking hcalling =>
    refine ⟨Or.inl rfl, ?_⟩
    rw [hasking]
    rfl
  | bus l hopen hstep =>
    rw [onBus_map, asked_map, List.nil_append]
    have hclosed : (∀ count event rest, s.bus.control ≠ .calling count event rest) →
        s.asking = none := fun hnot =>
      hwaiting.elim id fun ⟨count, event, rest, hcalling⟩ => absurd hcalling (hnot count event rest)
    cases step_sound hstep with
    | subscribe t c _ => exact ⟨hwaiting, (List.append_nil _).symm⟩
    | publish e _ => exact ⟨hwaiting, (List.append_nil _).symm⟩
    | drain hidle =>
      rw [hclosed (by rw [hidle]; simp)]
      exact ⟨Or.inl rfl, rfl⟩
    | returns n hloop _ =>
      rw [hclosed (by rw [hloop]; simp)]
      exact ⟨Or.inl rfl, rfl⟩
    | dequeue n e q hloop _ =>
      rw [hclosed (by rw [hloop]; simp)]
      exact ⟨Or.inl rfl, rfl⟩
    | next n e hdel =>
      rw [hclosed (by rw [hdel]; simp)]
      exact ⟨Or.inl rfl, rfl⟩
    | invoke n e c rest hdel =>
      rw [hclosed (by rw [hdel]; simp)]
      refine ⟨Or.inr ⟨n, e, rest, rfl⟩, ?_⟩
      by_cases hc : c = shell <;> simp [note_request, received, hc]
    | done b n e rest _ =>
      have hnone : s.asking = none := hopen.resolve_right (by simp [ends])
      rw [hnone]
      exact ⟨Or.inl rfl, rfl⟩

theorem run_asked {s₀ s : Dialogue T C} {ls : List (DialogueLabel T C)}
    {tr : List (DialogueObs T C)} (hnone : s₀.asking = none)
    (hrun : (dialogue shell).run s₀ ls = some (s, tr)) :
    Waiting s ∧ asked tr ++ s.asking.toList = received shell (onBus tr) := by
  refine (dialogue shell).run_induction (P := fun _ s tr =>
    Waiting s ∧ asked tr ++ s.asking.toList = received shell (onBus tr)) ?_ ?_ hrun
  · exact ⟨Or.inl hnone, by rw [hnone]; rfl⟩
  · rintro ls s tr l s' os - ⟨hwaiting, hasked⟩ hs
    obtain ⟨hwaiting', hstep⟩ := step_asked (dialogue_step hs) hwaiting
    have happend : asked (tr ++ os) = asked tr ++ asked os := List.filterMap_append
    refine ⟨hwaiting', ?_⟩
    rw [happend, List.append_assoc, hstep, ← List.append_assoc, hasked, onBus_append,
      received_append]

/-! ### The law -/

/-- The user has typed a yes. -/
def Yes (answer : Answer) : Prop :=
  ∃ text, answer = .line text ∧ (PyStr.strip text = "y" ∨ PyStr.strip text = "Y")

theorem toLower_eq_y_iff (c : Char) : c.toLower = 'y' ↔ c = 'y' ∨ c = 'Y' := by
  by_cases hupper : c.val ≥ 'A'.val ∧ c.val ≤ 'Z'.val
  · -- of the capital letters it is the one
    have hall : ∀ n < 128,
        (Char.ofNat n).toLower = 'y' ↔ Char.ofNat n = 'y' ∨ Char.ofNat n = 'Y' := by
      decide
    have hlt : c.toNat < 128 :=
      Nat.lt_of_le_of_lt (UInt32.le_iff_toNat_le.mp hupper.2) (by decide)
    have hc := hall c.toNat hlt
    rwa [Char.ofNat_toNat] at hc
  · have hsame : c.toLower = c := dif_neg hupper
    rw [hsame]
    refine ⟨Or.inl, fun h => h.resolve_right ?_⟩
    rintro rfl
    exact hupper (by decide)

theorem lower_eq_y_iff (text : String) : PyStr.lower text = "y" ↔ text = "y" ∨ text = "Y" := by
  have hchars : ∀ s : String, text = s ↔ text.toList = s.toList := fun s => String.toList_inj.symm
  unfold PyStr.lower
  rw [hchars "y", hchars "Y", ← String.toList_inj, String.toList_ofList]
  show text.toList.map Char.toLower = ['y'] ↔ text.toList = ['y'] ∨ text.toList = ['Y']
  rw [List.map_eq_singleton_iff]
  constructor
  · rintro ⟨c, hc, hlower⟩
    rcases (toLower_eq_y_iff c).mp hlower with rfl | rfl
    · exact Or.inl hc
    · exact Or.inr hc
  · rintro (h | h)
    · exact ⟨'y', h, by decide⟩
    · exact ⟨'Y', h, by decide⟩

theorem granted_iff (answer : Answer) : granted answer = some true ↔ Yes answer := by
  cases answer with
  | line text =>
    unfold granted Yes
    rw [Option.some.injEq, decide_eq_true_eq, lower_eq_y_iff]
    simp
  | interrupted => simp [granted, Yes]
  | failed => simp [granted, Yes]

/-- The response is for the capability of the request, and grants it exactly on a yes. -/
structure Answers (request : Event (Json T)) (answer : Answer) (response : Event (Json T)) :
    Prop where
  event_type : response.event_type = "PERMISSION_RESPONSE"
  priority : response.priority = Priority.HIGH
  source : response.source = "shell"
  payload : ∃ name yes, capability request.payload = some name ∧ (yes = true ↔ Yes answer) ∧
    response.payload = .obj [("capability", name), ("granted", .bool yes)]

theorem handle_spec (counter : Nat) (request : Event (Json T)) (answer : Answer) :
    (∀ response, handle_permission_request counter request answer = some response →
        Answers request answer response) ∧
      (handle_permission_request counter request answer = none →
        capability request.payload = none ∨ answer = .failed) := by
  unfold handle_permission_request
  cases hname : capability request.payload with
  | none => simp
  | some name =>
    cases hyes : granted answer with
    | none =>
      refine ⟨by simp, fun _ => Or.inr ?_⟩
      cases answer with
      | failed => rfl
      | line text => cases hyes
      | interrupted => cases hyes
    | some yes =>
      refine ⟨?_, by simp⟩
      intro response hresponse
      cases hresponse
      refine ⟨rfl, rfl, rfl, name, yes, hname, ?_, rfl⟩
      rw [← granted_iff, hyes, Option.some.injEq]

/-- Every response is what the handler makes of its request and answer. -/
theorem run_exchanged {s₀ s : Dialogue T C} {ls : List (DialogueLabel T C)}
    {tr : List (DialogueObs T C)} (hrun : (dialogue shell).run s₀ ls = some (s, tr)) :
    ∀ request answer response, .exchanged request answer response ∈ tr →
      ∃ counter, response = handle_permission_request counter request answer := by
  refine (dialogue shell).run_induction (P := fun _ _ tr => ∀ request answer response,
    .exchanged request answer response ∈ tr →
      ∃ counter, response = handle_permission_request counter request answer) (by simp) ?_ hrun
  intro ls s tr l s' os _ ih hs request answer response hmem
  rcases List.mem_append.mp hmem with hmem | hmem
  · exact ih request answer response hmem
  · cases dialogue_step hs with
    | bus l _ _ =>
      -- the bus exchanges nothing
      obtain ⟨o, -, heq⟩ := List.mem_map.mp hmem
      cases heq
    | answer answer counter _ _ =>
      cases List.mem_singleton.mp hmem
      exact ⟨counter, rfl⟩

/-- What holds at any time after the shell has subscribed. -/
structure Consented (shell : C) (bus : EventBus (Json T) C) (ls : List (DialogueLabel T C))
    (s : Dialogue T C) (tr : List (DialogueObs T C)) : Prop where
  /-- The user is asked about every request that is delivered, once and in order. -/
  asked : asked tr ++ s.asking.toList ++ s.bus.control.due shell =
    delivered ["PERMISSION_REQUEST"] (onBus tr)
  answered : ∀ request answer response, .exchanged request answer (some response) ∈ tr →
    Answers request answer response
  /-- No response is left out but for a request that is none, or when the input fails. -/
  unanswered : ∀ request answer, .exchanged request answer none ∈ tr →
    capability request.payload = none ∨ answer = .failed
  /-- What is published, by the shell and others, is delivered or pending. -/
  conserved : (dequeuedEvents (onBus tr) ++ s.bus.bus.queue).Perm
    (bus.queue ++ (published (othersOnBus ls) ++ responses tr))

/-- A component asks for a capability, and the user agrees. -/
def agreement : List (DialogueLabel ℚ Nat) :=
  [.bus (.publish ⟨"PERMISSION_REQUEST", .obj [("capability", .str "net.listen")], Priority.HIGH,
      "internal", 1⟩), .bus .drain, .bus .advance, .bus .advance, .answer (.line " Y ") 1,
    .bus .advance, .bus .advance, .bus .advance, .bus .advance]

end Shell
