import Aioscpu.Services.LoggingService
import Mathlib.Data.List.Nodup
import Mathlib.Data.Rat.Floor

/-! # Durability of the Log

  What the log file gains from a run of the logging service. A flush writes
  the whole ring and leaves it as it is, so an entry is written by every flush
  that finds it in the ring, and by none if it leaves the ring before.

  The entries of the run are those that are still to be written, those since
  the last flush, and those to come. As long as the file can still become
  right it is these three, in this order, that the flushes write.
-/

namespace LoggingService

variable {T : Type}

/-! ### The law -/

/-- The entries that reach the ring. -/
def entries (tr : List (Obs T)) : List (LogEntry T) :=
  tr.filterMap fun
    | .logged entry => some entry
    | _ => none

/-- The entries whose lines reach the file. -/
def lines (tr : List (Obs T)) : List (LogEntry T) :=
  tr.filterMap fun
    | .line entry => some entry
    | _ => none

/-- What the flushes find in the ring. -/
def reads (tr : List (Obs T)) : List (LogEntry T) :=
  tr.flatMap fun
    | .flushed ring => ring
    | _ => []

/-- The file gains every entry exactly once, in the order of the entries. -/
def Durable (fmt : Format T) (file : List String) (s : State T) (tr : List (Obs T)) : Prop :=
  s.file = file ++ (lines tr).map (·.to_json fmt.dumps) ∧ lines tr = entries tr

/-- When the flushes read the ring, with `m` entries before the last one and `k`
    since: the first one comes after at most `N` entries, every other one after
    `N` more, and none is left for after the last one. Flushes without any
    entry before them do not count. -/
def Paced (N : Nat) : Nat → Nat → List (Obs T) → Prop
  | _, k, [] => k = 0
  | m, k, .logged _ :: os => Paced N m (k + 1) os
  | m, k, .flushed _ :: os => (m = 0 ∧ k ≤ N ∨ k = N) ∧ Paced N (m + k) 0 os
  | m, k, .line _ :: os => Paced N m k os

instance Paced.decidable (N : Nat) :
    ∀ (m k : Nat) (os : List (Obs T)), Decidable (Paced N m k os)
  | _, k, [] => inferInstanceAs (Decidable (k = 0))
  | m, k, .logged _ :: os => Paced.decidable N m (k + 1) os
  | m, k, .flushed _ :: os =>
    have := Paced.decidable N (m + k) 0 os
    inferInstanceAs (Decidable ((m = 0 ∧ k ≤ N ∨ k = N) ∧ Paced N (m + k) 0 os))
  | m, k, .line _ :: os => Paced.decidable N m k os

/-- A line is written by the flush that has read the ring first. -/
def InTurn (s : State T) : Label T → Prop
  | .line proc => (s.flushes.head?.map Flush.proc) = some proc
  | _ => True

instance (s : State T) (l : Label T) : Decidable (InTurn s l) :=
  match l with
  | .line _ => inferInstanceAs (Decidable (_ = _))
  | .write .. | .on_event .. | .start | .stop | .proceed _ | .os_error _ =>
    inferInstanceAs (Decidable True)

/-- The file operation of the step succeeds. -/
def Succeeds : Label T → Prop
  | .os_error _ => False
  | _ => True

/-! ### What a step does -/

/-- What a step can do to the ring, to the flushes and to the file. -/
inductive Step (fmt : Format T) (s : State T) : Label T → List (Obs T) → State T → Prop where
  | silent {l s'} (hturn : InTurn s l) (hservice : s'.service.buffer = s.service.buffer)
      (htotal : s'.service.total_written = s.service.total_written)
      (hflushes : s'.flushes = s.flushes) (hfile : s'.file = s.file) : Step fmt s l [] s'
  | logs {l s'} (e : LogEntry T) (hturn : InTurn s l) (hid : e.id = s.service.total_written)
      (hservice : s'.service = s.service.append e) (hflushes : s'.flushes = s.flushes)
      (hfile : s'.file = s.file) : Step fmt s l [.logged e] s'
  | flushes {l s'} (proc : Nat) (hturn : InTurn s l) (hservice : s'.service = s.service)
      (hflushes : s'.flushes = s.flushes ++ Flush.of proc s.service.buffer.items)
      (hfile : s'.file = s.file) : Step fmt s l [.flushed s.service.buffer.items] s'
  | writes {s'} (proc : Nat) (e : LogEntry T) (hservice : s'.service = s.service)
      (htake : Flush.take proc s.flushes = some (e, s'.flushes))
      (hfile : s'.file = s.file ++ [e.to_json fmt.dumps]) : Step fmt s (.line proc) [.line e] s'
  | fails {s'} (proc : Nat) : Step fmt s (.os_error proc) [] s'

theorem step_sound [Clock T] {fmt : Format T} {s s' : State T} {l : Label T} {os : List (Obs T)}
    (h : (machine fmt).step s l = some (s', os)) : Step fmt s l os s' := by
  cases l with
  | write msg level source event data now =>
    obtain ⟨rfl, rfl⟩ := Prod.mk.inj (Option.some.inj h)
    exact .logs _ trivial rfl rfl rfl rfl
  | on_event event now =>
    obtain ⟨rfl, rfl⟩ := Prod.mk.inj (Option.some.inj h)
    exact .logs _ trivial rfl rfl rfl rfl
  | start =>
    simp only [machine] at h
    split at h
    · cases h; exact .silent trivial rfl rfl rfl rfl
    · cases h; exact .silent trivial rfl rfl rfl rfl
  | stop =>
    simp only [machine] at h
    split at h
    · cases h; exact .silent trivial rfl rfl rfl rfl
    · cases h; exact .silent trivial rfl rfl rfl rfl
  | proceed proc =>
    simp only [machine] at h
    split at h
    · next pc _ =>
      cases pc with
      | testing => cases h; exact .silent trivial rfl rfl rfl rfl
      | asleep => cases h; exact .silent trivial rfl rfl rfl rfl
      | woken => cases h; exact .silent trivial rfl rfl rfl rfl
      | flushing back => cases h; exact .flushes proc trivial rfl rfl rfl
      | writing back => cases h
      | ended => cases h
    · cases h
  | line proc =>
    simp only [machine] at h
    split at h
    · next htake => cases h; exact .writes proc _ rfl htake rfl
    · cases h
  | os_error proc =>
    simp only [machine] at h
    split at h
    · cases h; exact .fails proc
    · cases h

/-! ### What is written and what is read -/

variable [Clock T] {fmt : Format T} {s s' : State T} {ls : List (Label T)} {tr : List (Obs T)}

/-- The file gains the lines of the trace. -/
theorem run_file (hok : ∀ l ∈ ls, Succeeds l) (hrun : (machine fmt).run s ls = some (s', tr)) :
    s'.file = s.file ++ (lines tr).map (·.to_json fmt.dumps) := by
  induction ls generalizing s tr with
  | nil =>
    cases hrun
    exact (List.append_nil _).symm
  | cons l ls ih =>
    obtain ⟨t, os, tr', hstep, hrest, rfl⟩ := (machine fmt).run_cons_iff.mp hrun
    obtain ⟨hl, hok⟩ := List.forall_mem_cons.mp hok
    have htail := ih hok hrest
    cases step_sound hstep with
    | silent _ _ _ _ hfile => rw [htail, hfile]; rfl
    | logs e _ _ _ _ hfile => rw [htail, hfile]; rfl
    | flushes proc _ _ _ hfile => rw [htail, hfile]; rfl
    | writes proc e _ _ hfile =>
      rw [htail, hfile, List.append_assoc]
      rfl
    | fails proc => exact hl.elim

/-- A flush writes what it has found in the ring. -/
theorem run_perm (hok : ∀ l ∈ ls, Succeeds l) (hrun : (machine fmt).run s ls = some (s', tr)) :
    (Flush.pending s.flushes ++ reads tr).Perm (lines tr ++ Flush.pending s'.flushes) := by
  induction ls generalizing s tr with
  | nil =>
    cases hrun
    exact List.Perm.of_eq (List.append_nil _)
  | cons l ls ih =>
    obtain ⟨t, os, tr', hstep, hrest, rfl⟩ := (machine fmt).run_cons_iff.mp hrun
    obtain ⟨hl, hok⟩ := List.forall_mem_cons.mp hok
    have htail := ih hok hrest
    cases step_sound hstep with
    | silent _ _ _ hflushes _ => rw [← hflushes]; exact htail
    | logs e _ _ _ hflushes _ => rw [← hflushes]; exact htail
    | flushes proc _ _ hflushes _ =>
      rw [hflushes, Flush.pending_append, Flush.pending_of, List.append_assoc] at htail
      exact htail
    | writes proc e _ htake _ =>
      -- the line leaves the flush that it was waiting in
      exact ((Flush.take_perm htake).append_right _).trans (htail.cons e)
    | fails proc => exact hl.elim

/-- A flush finds only entries that were in the ring or come into it. -/
theorem run_reads (hok : ∀ l ∈ ls, Succeeds l) (hrun : (machine fmt).run s ls = some (s', tr))
    {e : LogEntry T} (he : e ∈ reads tr) : e ∈ s.service.buffer.items ∨ e ∈ entries tr := by
  induction ls generalizing s tr with
  | nil =>
    cases hrun
    cases he
  | cons l ls ih =>
    obtain ⟨t, os, tr', hstep, hrest, rfl⟩ := (machine fmt).run_cons_iff.mp hrun
    obtain ⟨hl, hok⟩ := List.forall_mem_cons.mp hok
    have htail := ih hok hrest
    cases step_sound hstep with
    | silent _ hservice _ _ _ => rw [← hservice]; exact htail he
    | logs e' _ _ hservice _ _ =>
      rcases htail he with hring | hcomes
      · rw [hservice] at hring
        -- a full ring has lost its oldest entry for the new one
        rcases List.mem_append.mp (List.mem_of_mem_drop hring) with hring | hnew
        · exact Or.inl hring
        · exact Or.inr (List.mem_singleton.mp hnew ▸ List.mem_cons_self)
      · exact Or.inr (List.mem_cons_of_mem e' hcomes)
    | flushes proc _ hservice _ _ =>
      rcases List.mem_append.mp he with hring | hread
      · exact Or.inl hring
      · rw [← hservice]
        exact htail hread
    | writes proc e' hservice _ _ => rw [← hservice]; exact htail he
    | fails proc => exact hl.elim

/-- The entries to come are new objects, all different. -/
theorem run_entries (hok : ∀ l ∈ ls, Succeeds l) (hrun : (machine fmt).run s ls = some (s', tr)) :
    (entries tr).Nodup ∧ ∀ e ∈ entries tr, s.service.total_written ≤ e.id := by
  induction ls generalizing s tr with
  | nil =>
    cases hrun
    exact ⟨List.nodup_nil, fun e he => by cases he⟩
  | cons l ls ih =>
    obtain ⟨t, os, tr', hstep, hrest, rfl⟩ := (machine fmt).run_cons_iff.mp hrun
    obtain ⟨hl, hok⟩ := List.forall_mem_cons.mp hok
    obtain ⟨hnodup, hnew⟩ := ih hok hrest
    cases step_sound hstep with
    | silent _ _ htotal _ _ => exact ⟨hnodup, htotal ▸ hnew⟩
    | logs e _ hid hservice _ _ =>
      rw [hservice] at hnew
      refine ⟨List.nodup_cons.mpr ⟨fun hmem => ?_, hnodup⟩, fun e' he' => ?_⟩
      · have := hnew e hmem
        rw [append_total_written] at this
        omega
      · rcases List.mem_cons.mp he' with rfl | he'
        · exact hid.ge
        · exact (Nat.le_succ _).trans (hnew e' he')
    | flushes proc _ hservice _ _ => exact ⟨hnodup, hservice ▸ hnew⟩
    | writes proc e hservice _ _ => exact ⟨hnodup, hservice ▸ hnew⟩
    | fails proc => exact hl.elim

/-! ### When the file is right -/

/-- What the ring and the counter of the service say about the entries so far. -/
structure Tracks (service : LoggingService T) (E : List (LogEntry T)) : Prop where
  ring : service.buffer.items = E.rtake service.buffer.maxlen
  old : ∀ e ∈ E, e.id < service.total_written
  nodup : E.Nodup

omit [Clock T] in
theorem Tracks.append {service : LoggingService T} {E : List (LogEntry T)}
    (h : Tracks service E) {e : LogEntry T} (hid : e.id = service.total_written) :
    Tracks (service.append e) (E ++ [e]) where
  ring := Deque.append_items h.ring e
  old := by
    intro e' he'
    rw [append_total_written]
    rcases List.mem_append.mp he' with he' | he'
    · exact Nat.lt_succ_of_lt (h.old e' he')
    · rw [List.mem_singleton.mp he', hid]
      exact Nat.lt_succ_self _
  nodup := by
    refine h.nodup.append (List.nodup_singleton e) ?_
    intro e' he' hmem
    have := h.old e' he'
    rw [List.mem_singleton.mp hmem, hid] at this
    exact Nat.lt_irrefl _ this

omit [Clock T] in
/-- The ring holds the last `k` of `m + k` entries if and only if a flush may
    come now. -/
theorem rtake_eq_drop_iff {E : List (LogEntry T)} {N m k : Nat} (hlen : E.length = m + k) :
    E.rtake N = E.drop m ↔ m = 0 ∧ k ≤ N ∨ k = N := by
  constructor
  · intro h
    have := congrArg List.length h
    rw [Deque.length_rtake, List.length_drop, hlen] at this
    omega
  · intro h
    rw [List.rtake, hlen]
    congr 1
    omega

/-- A flush that keeps the file right finds in the ring the entries since the
    last flush: no others are written, and the others are not written later. -/
theorem ring_eq_drop {E : List (LogEntry T)} {m : Nat} (htracks : Tracks s.service E)
    (hok : ∀ l ∈ ls, Succeeds l) (hrun : (machine fmt).run s ls = some (s', tr))
    (hend : s'.flushes = []) {before : List (LogEntry T)}
    (hflushes : Flush.pending s.flushes = before ++ s.service.buffer.items)
    (hnodup : (before ++ E.drop m ++ entries tr).Nodup)
    (hlines : lines tr = before ++ E.drop m ++ entries tr) :
    s.service.buffer.items = E.drop m := by
  have hperm := run_perm hok hrun
  rw [hend, Flush.pending_nil, List.append_nil, hflushes] at hperm
  have hnodup' : (before ++ s.service.buffer.items ++ reads tr).Nodup :=
    hperm.nodup_iff.mpr (hlines ▸ hnodup)
  have hsub : s.service.buffer.items.Sublist E := by
    rw [htracks.ring]
    exact List.drop_sublist _ _
  have hcomes : ∀ e ∈ E, e ∉ entries tr := by
    intro e he hmem
    have := (run_entries hok hrun).2 e hmem
    exact absurd (htracks.old e he) (Nat.not_lt.mpr this)
  -- what is read is written, and every line is in one of the three parts only
  have hmem : ∀ e, e ∈ s.service.buffer.items ↔ e ∈ E.drop m := by
    intro e
    constructor
    · intro hring
      have hline : e ∈ before ++ E.drop m ++ entries tr := by
        rw [← hlines]
        exact hperm.subset (List.mem_append_left _ (List.mem_append_right _ hring))
      rcases List.mem_append.mp hline with hline | hnew
      · rcases List.mem_append.mp hline with hbefore | hdrop
        · have hdisj := (List.nodup_append.mp hnodup'.of_append_left).2.2
          exact absurd rfl (hdisj e hbefore e hring)
        · exact hdrop
      · exact absurd hnew (hcomes e (hsub.subset hring))
    · intro hdrop
      -- an entry since the last flush is written by this flush or by a later one, and a later
      -- one would find it in the ring still
      have hline : e ∈ before ++ s.service.buffer.items ++ reads tr := by
        rw [hperm.mem_iff, hlines]
        exact List.mem_append_left _ (List.mem_append_right _ hdrop)
      rcases List.mem_append.mp hline with hline | hread
      · rcases List.mem_append.mp hline with hbefore | hring
        · have hdisj := (List.nodup_append.mp hnodup.of_append_left).2.2
          exact absurd rfl (hdisj e hbefore e hdrop)
        · exact hring
      · rcases run_reads hok hrun hread with hring | hnew
        · exact hring
        · exact absurd hnew (hcomes e (List.mem_of_mem_drop hdrop))
  -- both are ends of the same list
  have hlength := ((List.perm_ext_iff_of_nodup (htracks.nodup.sublist hsub)
    (htracks.nodup.sublist (List.drop_sublist m E))).mpr hmem).length_eq
  rw [htracks.ring, List.rtake]
  rw [htracks.ring, List.rtake, List.length_drop, List.length_drop] at hlength
  rw [List.drop_eq_drop_iff]
  omega

omit [Clock T] in
/-- A line is the next one of those that are still to be written if and only if
    it is written in its turn. -/
theorem next_line_iff {proc : Nat} {e : LogEntry T} {gs : List (Flush T)}
    {out later : List (LogEntry T)} (htake : Flush.take proc s.flushes = some (e, gs))
    (hnodup : (Flush.pending s.flushes ++ later).Nodup) :
    e :: out = Flush.pending s.flushes ++ later ↔
      InTurn s (.line proc) ∧ out = Flush.pending gs ++ later := by
  show _ ↔ (s.flushes.head?.map Flush.proc) = some proc ∧ _
  cases hflushes : s.flushes with
  | nil =>
    rw [hflushes] at htake
    cases htake
  | cons f fs =>
    rw [hflushes] at htake hnodup
    rw [List.head?_cons, Option.map_some, Option.some_inj]
    rcases Flush.take_cons htake with ⟨hproc, hpending⟩ | ⟨hproc, hmem⟩
    · rw [hpending, and_iff_right hproc]
      exact List.cons_inj_right _
    · -- the first flush would have to write this entry once more
      refine iff_of_false (fun hout => ?_) fun h => hproc h.1
      have hhead : e = f.entry := (List.cons.inj hout).1
      refine (List.nodup_cons.mp hnodup).1 ?_
      exact List.mem_append_left _ (List.mem_append_right _ (hhead ▸ hmem))

/-- The flushes write the entries that are still to be written, those since the
    last flush and those to come, in this order, if and only if each of them
    comes at its time and writes in its turn. -/
theorem lines_eq_iff {E : List (LogEntry T)} {m k : Nat} (htracks : Tracks s.service E)
    (hlen : E.length = m + k) (hok : ∀ l ∈ ls, Succeeds l)
    (hrun : (machine fmt).run s ls = some (s', tr)) (hend : s'.flushes = [])
    (hnodup : (Flush.pending s.flushes ++ E.drop m ++ entries tr).Nodup) :
    lines tr = Flush.pending s.flushes ++ E.drop m ++ entries tr ↔
      Paced s.service.buffer.maxlen m k tr ∧ (machine fmt).Along InTurn s ls := by
  induction ls generalizing s tr E m k with
  | nil =>
    cases hrun
    have hdrop : E.drop m = [] ↔ k = 0 := by
      rw [List.drop_eq_nil_iff]
      omega
    rw [hend]
    simpa [lines, entries, Paced, Machine.Along] using eq_comm.trans hdrop
  | cons l ls ih =>
    obtain ⟨t, os, tr', hstep, hrest, rfl⟩ := (machine fmt).run_cons_iff.mp hrun
    obtain ⟨hl, hok'⟩ := List.forall_mem_cons.mp hok
    have halong : (machine fmt).Along InTurn s (l :: ls) ↔
        InTurn s l ∧ (machine fmt).Along InTurn t ls := by
      simp only [Machine.Along, hstep]
    rw [halong]
    cases step_sound hstep with
    | silent hturn hservice htotal hflushes _ =>
      have htracks' : Tracks t.service E :=
        ⟨hservice ▸ htracks.ring, htotal ▸ htracks.old, htracks.nodup⟩
      have htail := ih htracks' hlen hok' hrest (hflushes ▸ hnodup)
      rw [hflushes, hservice] at htail
      rw [and_iff_right hturn]
      exact htail
    | logs e hturn hid hservice hflushes _ =>
      have hle : m ≤ E.length := by omega
      -- the new entry goes over from those to come to those since the last flush
      have hlist : Flush.pending s.flushes ++ E.drop m ++ entries ([.logged e] ++ tr') =
          Flush.pending t.flushes ++ (E ++ [e]).drop m ++ entries tr' := by
        rw [hflushes, List.drop_append_of_le_length hle]
        show _ ++ (e :: entries tr') = _
        simp
      have hlen' : (E ++ [e]).length = m + (k + 1) := by
        rw [List.length_append, hlen]
        rfl
      have htracks' : Tracks t.service (E ++ [e]) := hservice ▸ htracks.append hid
      have htail := ih htracks' hlen' hok' hrest (hlist ▸ hnodup)
      rw [hservice] at htail
      rw [and_iff_right hturn, hlist]
      exact htail
    | flushes proc hturn hservice hflushes _ =>
      have hpending : Flush.pending t.flushes =
          Flush.pending s.flushes ++ t.service.buffer.items := by
        rw [hflushes, Flush.pending_append, Flush.pending_of, hservice]
      have htracks' : Tracks t.service E := hservice ▸ htracks
      have hcond := rtake_eq_drop_iff (N := s.service.buffer.maxlen) hlen
      rw [← htracks.ring] at hcond
      rw [and_iff_right hturn]
      show lines tr' = Flush.pending s.flushes ++ E.drop m ++ entries tr' ↔
        ((m = 0 ∧ k ≤ s.service.buffer.maxlen ∨ k = s.service.buffer.maxlen) ∧
          Paced s.service.buffer.maxlen (m + k) 0 tr') ∧ (machine fmt).Along InTurn t ls
      rw [← hcond, and_assoc]
      -- after the flush, the entries since it are none and its lines are to be written
      have hafter : s.service.buffer.items = E.drop m →
          (lines tr' = Flush.pending s.flushes ++ E.drop m ++ entries tr' ↔
            Paced s.service.buffer.maxlen (m + k) 0 tr' ∧ (machine fmt).Along InTurn t ls) := by
        intro hring
        have hlist : Flush.pending t.flushes ++ E.drop (m + k) ++ entries tr' =
            Flush.pending s.flushes ++ E.drop m ++ entries tr' := by
          rw [hpending, hservice, hring, List.drop_of_length_le hlen.le, List.append_nil]
        have htail := ih (m := m + k) (k := 0) htracks' hlen hok' hrest (hlist ▸ hnodup)
        rwa [hlist, hservice] at htail
      constructor
      · intro hlines
        have hring : t.service.buffer.items = E.drop m :=
          ring_eq_drop htracks' hok' hrest hend hpending hnodup hlines
        rw [hservice] at hring
        exact ⟨hring, (hafter hring).mp hlines⟩
      · rintro ⟨hring, hrests⟩
        exact (hafter hring).mpr hrests
    | writes proc e hservice htake _ =>
      have htracks' : Tracks t.service E := hservice ▸ htracks
      have hnodup' : (e :: (Flush.pending t.flushes ++ E.drop m ++ entries tr')).Nodup :=
        (((Flush.take_perm htake).append_right _).append_right _).nodup_iff.mp hnodup
      have htail := ih htracks' hlen hok' hrest (List.nodup_cons.mp hnodup').2
      rw [hservice, List.append_assoc] at htail
      rw [List.append_assoc] at hnodup
      show e :: lines tr' = Flush.pending s.flushes ++ E.drop m ++ entries tr' ↔
        Paced s.service.buffer.maxlen m k tr' ∧ InTurn s (.line proc) ∧ _
      rw [List.append_assoc, and_left_comm, ← htail]
      exact next_line_iff htake hnodup
    | fails proc => exact hl.elim

/-- **The log file gains every entry exactly once, in order, if and only if**
    the first flush comes after at most `buffer_size` entries, every other one
    exactly `buffer_size` entries after the one before it, no entry comes after
    the last one, and the flushes write in the order in which they have read
    the ring. The run ends with no flush under way. -/
theorem durable_iff_paced {buffer_size : Nat} {file : List String} (hok : ∀ l ∈ ls, Succeeds l)
    (hrun : (machine fmt).run (.init buffer_size file) ls = some (s, tr))
    (hend : s.flushes = []) :
    Durable fmt file s tr ↔
      Paced buffer_size 0 0 tr ∧ (machine fmt).Along InTurn (.init buffer_size file) ls := by
  have htracks : Tracks (State.init (T := T) buffer_size file).service [] :=
    ⟨(List.rtake_nil _).symm, fun e he => (List.not_mem_nil he).elim, List.nodup_nil⟩
  have hlines := lines_eq_iff (m := 0) (k := 0) htracks rfl hok hrun hend (run_entries hok hrun).1
  exact (and_iff_right (run_file hok hrun)).trans hlines

/-- `json.dumps` for entries that `write("…")` makes at time 0. -/
def sample : Format ℚ where
  dumps v :=
    match v with
    | .obj [_, _, _, _, ("msg", .str msg), _] =>
      "\x7b\"ts\": 0.0, \"level\": \"INFO\", \"source\": \"system\", \"event\": \"LOG\", " ++
        "\"msg\": \"" ++ msg ++ "\", \"data\": \x7b\x7d\x7d"
    | _ => "null"
  str _ := "\x7b\x7d"
  upper s := s

/-- `write(msg)` at time 0. -/
def note (msg : String) : Label ℚ := .write msg "INFO" "system" "LOG" .null 0

/-- One flush, by `stop`, of the two entries that the ring has room for. -/
theorem durable_iff_paced_stopped : ∃ s tr,
    (machine sample).run (.init 2 ["x"])
      [note "a", .start, note "b", .stop, .proceed 1, .line 1, .line 1] = some (s, tr) ∧
    Durable sample ["x"] s tr := by
  obtain ⟨s, tr, hrun, htest⟩ := (machine sample).exists_run (.init 2 ["x"])
    [note "a", .start, note "b", .stop, .proceed 1, .line 1, .line 1]
    (fun s tr => s.flushes.isEmpty ∧ Paced 2 0 0 tr) rfl
  obtain ⟨hflushes, hpaced⟩ := of_decide_eq_true htest
  refine ⟨s, tr, hrun, (durable_iff_paced ?_ hrun (List.isEmpty_iff.mp hflushes)).mpr ⟨hpaced, ?_⟩⟩
  · simp [note, Succeeds]
  · decide

/-- The ring is flushed by the thread and again by `stop`. -/
theorem entry_written_twice : ∃ s tr,
    (machine sample).run (.init 500 [])
      [.start, note "a", .proceed 0, .proceed 0, .proceed 0, .proceed 0, .line 0, note "b",
        .stop, .proceed 1, .line 1, .line 1] = some (s, tr) ∧
    s.flushes = [] ∧ s.service.running = false ∧ ¬ Durable sample [] s tr := by
  obtain ⟨s, tr, hrun, htest⟩ := (machine sample).exists_run (.init 500 [])
    [.start, note "a", .proceed 0, .proceed 0, .proceed 0, .proceed 0, .line 0, note "b",
      .stop, .proceed 1, .line 1, .line 1]
    (fun s tr => s.flushes.isEmpty ∧ s.service.running = false ∧
      (lines tr).length = 3 ∧ (entries tr).length = 2) rfl
  obtain ⟨hflushes, hrunning, hlines, hentries⟩ := of_decide_eq_true htest
  refine ⟨s, tr, hrun, List.isEmpty_iff.mp hflushes, hrunning, fun h => ?_⟩
  have := congrArg List.length h.2
  omega

end LoggingService
