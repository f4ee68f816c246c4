import Aioscpu.Framework.Clock
import Aioscpu.Framework.Dict
import Aioscpu.Framework.Machine
import Mathlib.Order.Basic

/-! # Node Identity

  The identity of a node, from `vnet/node_identity.py`, and the file that
  keeps it. Each construction reads the file and writes it again. It may crash
  anywhere, and each access to the file may fail. A write truncates the file
  before it fills it, and a document that is cut short is no JSON.
-/

/-- The text of `str(uuid.uuid4())`. -/
structure Uuid where
  text : String
  nonempty : text ≠ ""

/-- The object of `node_identity.json`, with the fields that it has. `T` is
    the type of clock readings. -/
structure IdentityEntry (T : Type) where
  node_id : Option String
  «alias» : Option String
  created_at : Option T

structure NodeIdentity (T : Type) where
  node_id : String
  «alias» : String
  version : String
  created_at : T
  capabilities : Dict String String
  identified : node_id ≠ ""

namespace NodeIdentity

variable {T : Type}

def CAPABILITIES : List (String × String) :=
  [("kernel.event_bus", "Publish/subscribe event bus"),
    ("kernel.scheduler", "Task and job scheduling"),
    ("kernel.watchdog", "Service watchdog and self-repair"),
    ("kernel.modes", "Multi-mode kernel surface (universal/internal/hardware)"),
    ("services.registry", "System service registry with dependency ordering"),
    ("services.health", "Service health monitoring and circuit breaker"),
    ("services.logging", "Structured log aggregation"),
    ("services.network", "Network connectivity monitoring"),
    ("services.storage", "Virtual key-value storage"),
    ("services.job_queue", "Asynchronous job queue"),
    ("services.build", "In-process rootfs builder and integrity verifier"),
    ("services.web_terminal", "Browser-accessible HTML5 terminal (port 7331)"),
    ("services.cmd_channel", "Remote REST command channel (port 7332)"),
    ("aura.ai_layer", "AURA AI personality and context engine"),
    ("aura.memory", "Persistent memory and recall"),
    ("aura.introspection", "Runtime self-introspection"),
    ("hal.storage", "Hardware abstraction — storage device"),
    ("shell.plugins", "Extensible POSIX-compatible shell with plugins"),
    ("vnet.node", "Virtual-network node (this capability)"),
    ("vnet.mesh", "Virtual mesh peer synchronisation"),
    ("vnet.cmd_channel", "Accepts remote commands from Command Center"),
    ("builder.module", "Can scaffold new modules at runtime")]

/-- `v or w`, for a text that may be missing. -/
def textOr (v : Option String) (w : String) : String :=
  match v with
  | none => w
  | some text => if text = "" then w else text

theorem textOr_ne {v : Option String} {w : String} (h : w ≠ "") : textOr v w ≠ "" := by
  unfold textOr
  split
  · exact h
  · split
    · exact h
    · next hne => exact hne

@[simp] theorem textOr_some {text : String} (h : text ≠ "") (w : String) :
    textOr (some text) w = text := if_neg h

/-- `stored.get("created_at") or time.time()`. -/
def timeOr [Clock T] (v : Option T) (now : T) : T :=
  match v with
  | none => now
  | some t => if t = Clock.ofSeconds 0 then now else t

/-- What the environment decides during a construction. -/
structure Env (T : Type) where
  uuid : Uuid
  now : T
  default_alias : String

/-- `NodeIdentity.__init__`, up to the save, with what is stored. -/
def create [Clock T] (stored : IdentityEntry T) («alias» : Option String) (version : String)
    (env : Env T) : NodeIdentity T where
  node_id := textOr stored.node_id env.uuid.text
  «alias» := textOr «alias» (textOr stored.alias env.default_alias)
  version := version
  created_at := timeOr stored.created_at env.now
  capabilities := CAPABILITIES.foldl (fun d item => d.set item.1 item.2) .empty
  identified := textOr_ne env.uuid.nonempty

@[simp] theorem create_node_id [Clock T] (stored : IdentityEntry T) («alias» : Option String)
    (version : String) (env : Env T) :
    (create stored «alias» version env).node_id = textOr stored.node_id env.uuid.text := rfl

/-- The object that `_save` writes. -/
def data (self : NodeIdentity T) : IdentityEntry T :=
  ⟨some self.node_id, some self.alias, some self.created_at⟩

/-! ### Constructions on one directory -/

inductive Content (T : Type) where
  /-- The text is cut short. -/
  | cut
  /-- A document; `none` where it is no object. -/
  | document (stored : Option (IdentityEntry T))

/-- How far the save comes. -/
inductive Write where
  /-- The file is not opened. -/
  | unopened
  /-- The file is truncated, but not all is written. -/
  | cut
  | done
deriving DecidableEq

structure State (T : Type) where
  /-- `node_identity.json`, if it is there. -/
  file : Option (Content T)
  /-- The id of the first construction that completed its save. No operation
      reads it. -/
  first : Option String

/-- A construction. One that does not return has crashed, and one that returns
    without a complete save has logged an `OSError`. -/
structure Label (T : Type) where
  «alias» : Option String
  version : String
  env : Env T
  /-- The file can be read. -/
  readable : Bool
  write : Write
  returns : Bool

inductive Obs where
  | saved (node_id : String)
  | yielded (node_id : String)
  /-- The stored value has no `get`. -/
  | raised
deriving DecidableEq

/-- `NodeIdentity._load`; `none` is a value that is no object. -/
def load (file : Option (Content T)) (readable : Bool) : Option (IdentityEntry T) :=
  match file with
  | some (.document stored) => if readable then stored else some ⟨none, none, none⟩
  | _ => some ⟨none, none, none⟩

/-- `NodeIdentity._save`. -/
def save (self : NodeIdentity T) (s : State T) : Write → State T × List Obs
  | .unopened => (s, [])
  | .cut => ({ s with file := some .cut }, [])
  | .done =>
    (⟨some (.document (some self.data)), s.first.or (some self.node_id)⟩,
      [.saved self.node_id])

/-- `NodeIdentity(...)`. -/
def construct [Clock T] (s : State T) (l : Label T) : State T × List Obs :=
  match load s.file l.readable with
  | none => (s, [.raised])
  | some stored =>
    let self := create stored l.alias l.version l.env
    ((self.save s l.write).1,
      (self.save s l.write).2 ++ if l.returns then [.yielded self.node_id] else [])

/-- Constructions, one after the other. -/
def machine [Clock T] : Machine (State T) (Label T) Obs where
  step := fun s l => some (construct s l)

/-- A directory with this file. -/
def init (file : Option (Content T)) : State T := ⟨file, none⟩

/-! ### Stable identities -/

/-- The id of the first save. -/
def firstSaved (tr : List Obs) : Option String :=
  tr.findSome? fun
    | .saved node_id => some node_id
    | _ => none

/-- All that comes after the first save is of its id. -/
def Stable (tr : List Obs) : Prop :=
  ∀ pre o post, tr = pre ++ o :: post → ∀ id, firstSaved pre = some id →
    o = .saved id ∨ o = .yielded id

/-- A construction that saves or returns has read a whole file, or has drawn
    the id of the first save. -/
def Whole (s : State T) (l : Label T) : Prop :=
  ∀ id, s.first = some id → l.write = .done ∨ l.returns = true →
    (l.readable = true ∧ ∃ stored, s.file = some (.document stored)) ∨ l.env.uuid.text = id

theorem firstSaved_append (tr os : List Obs) :
    firstSaved (tr ++ os) = (firstSaved tr).or (firstSaved os) :=
  List.findSome?_append

theorem Stable.of_prefix {tr tr' : List Obs} (h : Stable tr) (hpre : tr' <+: tr) : Stable tr' := by
  obtain ⟨rest, rfl⟩ := hpre
  rintro pre o post rfl id hid
  exact h pre o (post ++ rest) (by simp) id hid

/-- After the first save all that is emitted has to be of its id. -/
theorem stable_append_iff {tr : List Obs} {id : String} (hid : firstSaved tr = some id)
    (h : Stable tr) (os : List Obs) :
    Stable (tr ++ os) ↔ ∀ o ∈ os, o = .saved id ∨ o = .yielded id := by
  constructor
  · intro hstable o ho
    obtain ⟨pre, post, rfl⟩ := List.append_of_mem ho
    refine hstable (tr ++ pre) o post (by simp) id ?_
    rw [firstSaved_append, hid]
    rfl
  · rintro hall pre o post heq id' hid'
    rcases List.append_eq_append_iff.mp heq with ⟨rest, rfl, hos⟩ | ⟨rest, rfl, hrest⟩
    · -- the observation is a new one
      rw [firstSaved_append, hid] at hid'
      obtain rfl : id = id' := by simpa using hid'
      exact hall o (hos ▸ by simp)
    · cases rest with
      | nil =>
        obtain rfl : id = id' := Option.some.inj (hid.symm.trans (by simpa using hid'))
        have hos : os = o :: post := hrest.symm
        exact hall o (hos ▸ List.mem_cons_self)
      | cons o' rest =>
        obtain ⟨rfl, -⟩ := List.cons.inj hrest
        exact h pre o rest rfl id' hid'

/-- Without a save before, a construction that saves emits its own id only. -/
theorem stable_append_of_none {tr : List Obs} (hnone : firstSaved tr = none) (h : Stable tr)
    {os : List Obs} (id : String)
    (hos : os = [] ∨ os = [.raised] ∨ os = [.yielded id] ∨ os = [.saved id] ∨
      os = [.saved id, .yielded id]) : Stable (tr ++ os) := by
  have hone : ∀ o, Stable (tr ++ [o]) := by
    rintro o pre o' post heq id' hid'
    rcases List.append_eq_append_iff.mp heq with ⟨rest, rfl, hrest⟩ | ⟨rest, rfl, hrest⟩
    · cases rest with
      | nil =>
        rw [List.append_nil, hnone] at hid'
        cases hid'
      | cons o'' rest => simp at hrest
    · cases rest with
      | nil =>
        rw [List.append_nil] at hnone
        rw [hnone] at hid'
        cases hid'
      | cons o'' rest =>
        obtain ⟨rfl, -⟩ := List.cons.inj hrest
        exact h pre o' rest rfl id' hid'
  rcases hos with rfl | rfl | rfl | rfl | rfl
  · simpa using h
  · exact hone _
  · exact hone _
  · exact hone _
  · -- what is yielded is what was saved
    have hsaved : firstSaved (tr ++ [.saved id]) = some id := by
      rw [firstSaved_append, hnone]
      rfl
    have happend := (stable_append_iff hsaved (hone (.saved id)) [.yielded id]).mpr (by simp)
    simpa using happend

/-- What a save does. -/
theorem save_cases (self : NodeIdentity T) (s : State T) (write : Write) :
    (write ≠ .done ∧ (self.save s write).2 = [] ∧ (self.save s write).1.first = s.first ∧
      ((self.save s write).1.file = s.file ∨ (self.save s write).1.file = some .cut)) ∨
    (write = .done ∧ (self.save s write).2 = [.saved self.node_id] ∧
      (self.save s write).1.first = s.first.or (some self.node_id) ∧
      (self.save s write).1.file = some (.document (some self.data))) := by
  cases write with
  | unopened => exact Or.inl ⟨by decide, rfl, rfl, Or.inl rfl⟩
  | cut => exact Or.inl ⟨by decide, rfl, rfl, Or.inr rfl⟩
  | done => exact Or.inr ⟨rfl, rfl, rfl, rfl⟩

/-- After the first save the file is cut short, or holds the id. -/
def FileKept (s : State T) : Prop :=
  ∀ id, s.first = some id → s.file = some .cut ∨
    ∃ stored, s.file = some (.document (some stored)) ∧ stored.node_id = some id ∧ id ≠ ""

/-- A save keeps the file whole, or cuts it short. -/
theorem save_kept {s : State T} (hkept : FileKept s) (self : NodeIdentity T) (write : Write)
    (hsame : write = .done → ∀ id, s.first = some id → self.node_id = id) :
    FileKept (self.save s write).1 := by
  intro id hid
  rcases self.save_cases s write with ⟨-, -, hfirst, hfile⟩ | ⟨hdone, -, hfirst, hfile⟩
  · rw [hfirst] at hid
    rcases hfile with hfile | hfile
    · rw [hfile]
      exact hkept id hid
    · exact Or.inl hfile
  · refine Or.inr ⟨self.data, hfile, ?_⟩
    rw [hfirst] at hid
    have hnode : self.node_id = id := by
      cases hbefore : s.first with
      | none => simpa [hbefore] using hid
      | some id' =>
        obtain rfl : id' = id := by simpa [hbefore] using hid
        exact hsame hdone id' hbefore
    subst hnode
    exact ⟨rfl, self.identified⟩

variable [Clock T]

/-- What a construction emits. -/
theorem construct_cases (s : State T) (l : Label T) :
    (load s.file l.readable = none ∧ construct s l = (s, [.raised])) ∨
    ∃ stored, load s.file l.readable = some stored ∧
      construct s l =
        (((create stored l.alias l.version l.env).save s l.write).1,
          ((create stored l.alias l.version l.env).save s l.write).2 ++
            if l.returns then [.yielded (create stored l.alias l.version l.env).node_id]
            else []) := by
  unfold construct
  cases h : load s.file l.readable with
  | none => exact Or.inl ⟨rfl, rfl⟩
  | some stored => exact Or.inr ⟨stored, rfl, rfl⟩

/-- The id of the first save is read back from a whole file, and from no other. -/
theorem create_node_id_iff {s : State T} (hkept : FileKept s) {id : String}
    (hid : s.first = some id) (l : Label T) :
    ∃ stored, load s.file l.readable = some stored ∧
      ((create stored l.alias l.version l.env).node_id = id ↔
        (l.readable = true ∧ ∃ stored, s.file = some (.document stored)) ∨
          l.env.uuid.text = id) := by
  rcases hkept id hid with hcut | ⟨stored, hfile, hnode, hne⟩
  · refine ⟨⟨none, none, none⟩, by simp [load, hcut], ?_⟩
    simp [textOr, hcut]
  · cases hread : l.readable with
    | false =>
      refine ⟨⟨none, none, none⟩, by simp [load, hfile], ?_⟩
      simp [textOr]
    | true =>
      refine ⟨stored, by simp [load, hfile], ?_⟩
      have hsame : (create stored l.alias l.version l.env).node_id = id := by
        rw [create_node_id, hnode, textOr_some hne]
      exact iff_of_true hsame (Or.inl ⟨rfl, _, hfile⟩)

theorem step_first {s s' : State T} {l : Label T} {os tr : List Obs}
    (h : s.first = firstSaved tr) (hs : machine.step s l = some (s', os)) :
    s'.first = firstSaved (tr ++ os) := by
  rw [firstSaved_append, ← h]
  rcases construct_cases s l with ⟨-, heq⟩ | ⟨stored, -, heq⟩
  · obtain ⟨rfl, rfl⟩ := Prod.mk.inj (heq.symm.trans (Option.some.inj hs))
    simp [firstSaved]
  · obtain ⟨rfl, rfl⟩ := Prod.mk.inj (heq.symm.trans (Option.some.inj hs))
    cases l.write <;> cases l.returns <;> simp [save, firstSaved]

/-- A construction keeps the identity if and only if it has it whole. -/
theorem step_stable_iff {s s' : State T} {l : Label T} {os tr : List Obs}
    (hfirst : s.first = firstSaved tr) (hkept : FileKept s) (h : Stable tr)
    (hs : machine.step s l = some (s', os)) :
    (Whole s l ↔ Stable (tr ++ os)) ∧ (Stable (tr ++ os) → FileKept s') := by
  have hs' : construct s l = (s', os) := Option.some.inj hs
  cases hid : s.first with
  | none =>
    -- nothing has been saved, so whatever is emitted is stable
    have hwhole : Whole s l := by
      intro id hsome
      rw [hid] at hsome
      cases hsome
    rw [hid] at hfirst
    rcases construct_cases s l with ⟨-, heq⟩ | ⟨stored, -, heq⟩
    · obtain ⟨rfl, rfl⟩ := Prod.mk.inj (heq.symm.trans hs')
      have hstable := stable_append_of_none hfirst.symm h "" (Or.inr (Or.inl rfl))
      exact ⟨iff_of_true hwhole hstable, fun _ => hkept⟩
    · obtain ⟨rfl, rfl⟩ := Prod.mk.inj (heq.symm.trans hs')
      refine ⟨iff_of_true hwhole (stable_append_of_none hfirst.symm h
        (create stored l.alias l.version l.env).node_id ?_), fun _ => ?_⟩
      · cases l.write <;> cases l.returns <;> simp [save]
      · refine save_kept hkept _ _ fun _ id hsome => ?_
        rw [hid] at hsome
        cases hsome
  | some id =>
    obtain ⟨stored, hload, hiff⟩ := create_node_id_iff hkept hid l
    rw [stable_append_iff (hfirst.symm.trans hid) h]
    rcases construct_cases s l with ⟨hnone, -⟩ | ⟨stored', hload', heq⟩
    · cases hload.symm.trans hnone
    obtain rfl := Option.some.inj (hload.symm.trans hload')
    obtain ⟨rfl, rfl⟩ := Prod.mk.inj (heq.symm.trans hs')
    generalize create stored l.alias l.version l.env = self at hiff
    -- what is emitted is of the id of the new identity
    have hemits : (∀ o ∈ (self.save s l.write).2 ++
        (if l.returns = true then [Obs.yielded self.node_id] else []),
          o = .saved id ∨ o = .yielded id) ↔
        (l.write = .done ∨ l.returns = true → self.node_id = id) := by
      cases l.write <;> cases l.returns <;> simp [save]
    rw [hemits]
    constructor
    · unfold Whole
      rw [hid, hiff]
      simp
    · intro hsame
      refine save_kept hkept self l.write fun hdone id' hid' => ?_
      obtain rfl := Option.some.inj (hid.symm.trans hid')
      exact hsame (Or.inl hdone)

/-! ### Runs -/

theorem run_kept {file : Option (Content T)} {ls : List (Label T)} {s : State T}
    {tr : List Obs} (hrun : machine.run (init file) ls = some (s, tr)) :
    s.first = firstSaved tr ∧ (Stable tr → FileKept s) := by
  refine machine.run_induction
    (P := fun _ s tr => s.first = firstSaved tr ∧ (Stable tr → FileKept s)) ?_ ?_ hrun
  · exact ⟨rfl, fun _ _ hid => (nomatch hid)⟩
  · rintro _ s tr l s' os - ⟨hfirst, hkept⟩ hs
    refine ⟨step_first hfirst hs, fun hstable => ?_⟩
    have hbefore := hstable.of_prefix (List.prefix_append tr os)
    exact (step_stable_iff hfirst (hkept hbefore) hbefore hs).2 hstable

/-- **Stable node identity**: all constructions after the first complete save
    save and yield its id if and only if none of them finds the file cut short
    or cannot read it, unless it does not get as far or draws the id again. -/
theorem stable_iff_whole {file : Option (Content T)} {ls : List (Label T)} {s : State T}
    {tr : List Obs} (hrun : machine.run (init file) ls = some (s, tr)) :
    (∀ pre t tr', pre <+: ls → machine.run (init file) pre = some (t, tr') → Stable tr') ↔
      machine.Along Whole (init file) ls := by
  refine (machine.along_iff_throughout (I := fun _ tr => Stable tr) ?_ ?_ hrun).symm
  · intro pre o post heq
    simp at heq
  · intro pre l t tr' t' os _ hpre h hs
    obtain ⟨hfirst, hkept⟩ := run_kept hpre
    exact (step_stable_iff hfirst (hkept h) h hs).1

theorem a_ne_empty : "a" ≠ "" := by decide

theorem b_ne_empty : "b" ≠ "" := by decide

/-- A first start, a crash before the file is opened, and two more starts. -/
def restarts : List (Label ℚ) :=
  let env : Env ℚ := ⟨⟨"a", a_ne_empty⟩, 1, "host-aura"⟩
  let other : Env ℚ := ⟨⟨"b", b_ne_empty⟩, 2, "host-aura"⟩
  [⟨none, "0.1.0", env, true, .done, true⟩, ⟨none, "0.1.0", other, true, .unopened, false⟩,
    ⟨some "node", "0.1.0", other, true, .done, true⟩,
    ⟨none, "0.1.0", other, true, .cut, false⟩]

theorem stable_iff_whole_restarts :
    ∃ s tr, machine.run (init none) restarts = some (s, tr) ∧
      ((∀ pre t tr', pre <+: restarts → machine.run (init none) pre = some (t, tr') →
        Stable tr') ↔ machine.Along Whole (init none) restarts) := by
  obtain ⟨s, tr, hrun⟩ := machine.run_total (fun _ _ => ⟨_, _, rfl⟩) (init none) restarts
  exact ⟨s, tr, hrun, stable_iff_whole hrun⟩

/-- A crash inside the second write costs the node its identity. -/
theorem identity_lost :
    ∃ (ls : List (Label ℚ)) (s : State ℚ) (tr : List Obs),
      machine.run (init none) ls = some (s, tr) ∧
      tr = [.saved "a", .yielded "a", .saved "b", .yielded "b"] ∧ ¬ Stable tr := by
  let env (text : String) (h : text ≠ "") : Env ℚ := ⟨⟨text, h⟩, 1, "host-aura"⟩
  refine ⟨[⟨none, "0.1.0", env "a" (by decide), true, .done, true⟩,
    ⟨none, "0.1.0", env "c" (by decide), true, .cut, false⟩,
    ⟨none, "0.1.0", env "b" (by decide), true, .done, true⟩], _, _, rfl, rfl, ?_⟩
  intro h
  rcases h [.saved "a", .yielded "a", .saved "b"] (.yielded "b") [] rfl "a" rfl with heq | heq
  · cases heq
  · exact absurd (Obs.yielded.inj heq) (by decide)

end NodeIdentity
