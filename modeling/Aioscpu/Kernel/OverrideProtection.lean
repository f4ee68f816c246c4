import Aioscpu.Framework.LexicalPath
import Aioscpu.Kernel.Override

/-! # Protected Partitions

  The guard compares the first component of a path, as it is spelled, with the
  names of the protected partitions. A path may reach a partition by a detour:
  over components before the name that lead back to the rootfs.

  - A protected path is denied for its spelling, unless it takes a detour that
    does not itself begin with the name of a protected partition.
  - A path of plain names takes no detour.

  The rootfs may be any directory: the top of its own tree, where `..` stays,
  or a directory of the host, where `..` leaves it.
-/

namespace CommandOverrideLayer

open OverrideGuard

variable {E T R : Type}

/-! ### Protected paths -/

/-- The path, normalised from the rootfs, lies in a protected partition. -/
def Protected (root : Dir) (path : String) : Prop :=
  ∃ p ∈ PROTECTED_PARTITIONS, (root.walk (parts path)).Within (root.enter p)

/-- The path leads back to the rootfs before it names a protected partition,
    which it does not leave again, and begins with another component. -/
def Detour (root : Dir) (path : String) : Prop :=
  ∃ c pre, ∃ p ∈ PROTECTED_PARTITIONS, ∃ post, parts path = c :: pre ++ p :: post ∧
    c ∉ PROTECTED_PARTITIONS ∧ root.walk (c :: pre) = root ∧ (root.enter p).Stays post

theorem isName_of_protected {p : String} (hp : p ∈ PROTECTED_PARTITIONS) : IsName p := by
  revert p
  decide

/-- The prefix test misses exactly the detours. -/
theorem detour_iff (root : Dir) (path : String) :
    Detour root path ↔
      Protected root path ∧ (parts path).headD "" ∉ PROTECTED_PARTITIONS := by
  constructor
  · rintro ⟨c, pre, p, hp, post, hparts, hc, hback, hstay⟩
    refine ⟨⟨p, hp, ?_⟩, by rw [hparts]; exact hc⟩
    rw [Dir.walk_within_iff root (isName_of_protected hp)]
    exact ⟨c :: pre, post, hparts, hback, hstay⟩
  · rintro ⟨⟨p, hp, hin⟩, hhead⟩
    rw [Dir.walk_within_iff root (isName_of_protected hp)] at hin
    obtain ⟨pre, post, hparts, hback, hstay⟩ := hin
    rw [hparts] at hhead
    cases pre with
    -- no detour: the path begins with the name of the partition
    | nil => exact absurd hp hhead
    | cons c pre => exact ⟨c, pre, p, hp, post, hparts, hhead, hback, hstay⟩

/-- A path of plain names takes no detour. -/
theorem no_detour_of_names (root : Dir) {path : String} (h : ∀ c ∈ parts path, IsName c) :
    ¬ Detour root path := by
  rintro ⟨c, pre, p, -, post, hparts, -, hback, -⟩
  have hnames : (root.walk (c :: pre)).names = root.names ++ c :: pre := by
    apply Dir.walk_names
    intro c' hc'
    apply h
    rw [hparts]
    exact List.mem_append_left _ hc'
  rw [hback] at hnames
  simp at hnames

/-! ### Denials -/

/-- The call returns a result that is not approved, and executes nothing. -/
def Denied (texts : Texts E T) (s : State E T R) (r : Request E T) (env : Env T) : Prop :=
  (∃ result : OverrideResult R, .returned s.calls result ∈ (request_override texts s r env).2 ∧
    result.approved = false ∧ result.executed = false) ∧
  ∀ n, .executed n ∉ (request_override texts s r env).2

/-- There is another ground for a denial than the path. -/
def Refused (r : Request E T) : Prop :=
  r.req.action ∉ OVERRIDEABLE_ACTIONS ∨ (∃ caps ∈ r.bridge, bridge_cap r.req.action ∉ caps) ∨
    PyStr.strip r.req.reason = "" ∨ ¬ Confirmed r

theorem denied_iff (texts : Texts E T) (s : State E T R) (r : Request E T) (env : Env T) :
    Denied texts s r env ↔ ¬ (Accepted texts r ∧ Confirmed r) := by
  constructor
  · rintro ⟨⟨result, hmem, hnot, -⟩, hexec⟩ happroved
    obtain ⟨s', os, result', e, heq, -, happ, hrest⟩ :=
      request_override_approved texts s r env happroved
    rw [heq] at hmem hexec
    cases hfn : r.execute_fn with
    | true =>
      rw [if_pos hfn] at hrest
      apply hexec s.calls
      have haud : Obs.executed s.calls ∈ os.filter Obs.audited := by
        rw [hrest.2]
        simp
      exact (List.mem_filter.mp haud).1
    | false =>
      rw [if_neg (by simp [hfn])] at hrest
      rw [hrest.2.1 _ _ hmem, happ] at hnot
      cases hnot
  · intro h
    obtain ⟨s', os, result, e, heq, hdec, hnot, -, hret, haudit⟩ :=
      request_override_denied texts s r env h
    unfold Denied
    rw [heq]
    refine ⟨⟨result, hret, hnot, hdec.unexecuted⟩, ?_⟩
    intro n hmem
    have haud : Obs.executed n ∈ os.filter Obs.audited := List.mem_filter.mpr ⟨hmem, rfl⟩
    rw [haudit] at haud
    simp at haud

/-- A request is denied for the spelling of its path, or on another ground. -/
theorem denied_iff_spelled_or_refused (texts : Texts E T) (s : State E T R) (r : Request E T)
    (env : Env T) :
    Denied texts s r env ↔
      (parts r.req.target_path).headD "" ∈ PROTECTED_PARTITIONS ∨ Refused r := by
  rw [denied_iff, Accepted, validate_iff, Refused]
  constructor
  · intro h
    by_contra hno
    push Not at hno
    exact h ⟨⟨hno.2.1, hno.2.2.1, hno.1, hno.2.2.2.1⟩, hno.2.2.2.2⟩
  · rintro (hhead | haction | ⟨caps, hcaps, hnot⟩ | hreason | hconf) ⟨⟨h₁, h₂, h₃, h₄⟩, h₅⟩
    · exact h₃ hhead
    · exact haction h₁
    · exact hnot (h₂ caps hcaps)
    · exact h₄ hreason
    · exact hconf h₅

/-- **Protected paths**: in any state, a request whose path lies in a protected
    partition is denied if and only if, when the path takes a detour, there is
    another ground for the denial; and paths of plain names take no detour. -/
theorem protected_denied_iff_no_detour (texts : Texts E T) (root : Dir) (s : State E T R)
    (r : Request E T) (env : Env T) :
    ((Protected root r.req.target_path → Denied texts s r env) ↔
      (Detour root r.req.target_path → Refused r)) ∧
    ((∀ c ∈ parts r.req.target_path, IsName c) → ¬ Detour root r.req.target_path) := by
  refine ⟨?_, fun h => no_detour_of_names root h⟩
  rw [denied_iff_spelled_or_refused, detour_iff]
  constructor
  · rintro hdenied ⟨hprot, hhead⟩
    exact (hdenied hprot).resolve_left hhead
  · intro hdetour hprot
    by_cases hhead : (parts r.req.target_path).headD "" ∈ PROTECTED_PARTITIONS
    · exact Or.inl hhead
    · exact Or.inr (hdetour ⟨hprot, hhead⟩)

/-- A confirmed request for a path that starts with the present directory. -/
def dotted : Request Unit Nat :=
  { req := ⟨"fs.chmod", "maintenance", "operator", "./boot/grub.cfg", (), "id", 0⟩
    confirm := true, execute_fn := true, bridge := none, answer := .EOFError }

/-- It lies in `boot/`, and it is approved and executed. -/
theorem dotted_path_approved :
    Protected Dir.top dotted.req.target_path ∧
      ¬ Denied ⟨id, fun _ _ _ _ _ => ""⟩ (init "" false : State Unit Nat Unit) dotted
        ⟨0, "", true, true⟩ := by
  constructor
  · refine ⟨"boot", by decide, ?_⟩
    show Dir.names _ <+: Dir.names _
    decide
  · rw [denied_iff, not_not, Accepted, validate_iff]
    refine ⟨⟨by decide, by simp [dotted], by decide, by decide⟩, Or.inl rfl⟩

end CommandOverrideLayer
