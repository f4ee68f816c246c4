import Mathlib
import Aioscpu.Framework.PyStr
import Aioscpu.Services.LogDurability

/-! # Queries of the Log

  `query` of `services/logging_service.py`: it scans the ring from the newest entry on, skips
  what a filter excludes, and leaves the loop when it has `limit` entries. The number is looked
  at after an entry has been added, so even a query for no entries returns one.
-/

namespace LoggingService

variable {T : Type}

/-! ### The query -/

/-- The arguments of `query` that filter; `none` for `None`. -/
structure Filters (T : Type) where
  level : Option String
  source : Option String
  event_type : Option String
  since : Option T

section query

variable [Clock T] (fmt : Format T)

/-- One of the tests in the loop has `continue`. An empty text and a time of zero are no
    filters. -/
def skips (filters : Filters T) (e : LogEntry T) : Bool :=
  filters.level.any (fun level => level ≠ "" && e.level ≠ fmt.upper level) ||
    filters.source.any (fun source => source ≠ "" && e.source ≠ source) ||
    filters.event_type.any (fun event_type => event_type ≠ "" && e.event ≠ event_type) ||
    filters.since.any fun since => since ≠ Clock.ofSeconds 0 && e.ts < since

/-- The loop of `query`, with the results so far. -/
def query_loop (filters : Filters T) (limit : Int) (results : List (Json T)) :
    List (LogEntry T) → List (Json T)
  | [] => results
  | e :: rest =>
    if skips fmt filters e then query_loop filters limit results rest
    else
      -- the entry is added before the limit is looked at
      let results := results ++ [e.to_dict]
      if results.length ≥ limit then results else query_loop filters limit results rest

/-- `LoggingService.query`. -/
def query (self : LoggingService T) (filters : Filters T) (limit : Int) : List (Json T) :=
  query_loop fmt filters limit [] self.buffer.items.reverse

/-! ### What a query is for -/

/-- The entry matches all filters that are given. -/
structure Matches (filters : Filters T) (e : LogEntry T) : Prop where
  level : ∀ level ∈ filters.level, fmt.upper e.level = fmt.upper level
  source : ∀ source ∈ filters.source, e.source = source
  event_type : ∀ event_type ∈ filters.event_type, e.event = event_type
  since : ∀ since ∈ filters.since, since ≤ e.ts

instance (filters : Filters T) : DecidablePred (Matches fmt filters) := fun e =>
  decidable_of_iff ((∀ level ∈ filters.level, fmt.upper e.level = fmt.upper level) ∧
      (∀ source ∈ filters.source, e.source = source) ∧
      (∀ event_type ∈ filters.event_type, e.event = event_type) ∧
      ∀ since ∈ filters.since, since ≤ e.ts)
    ⟨fun h => ⟨h.1, h.2.1, h.2.2.1, h.2.2.2⟩, fun h => ⟨h.1, h.2, h.3, h.4⟩⟩

/-- The first `limit` of the entries that match, the newest first. -/
def newest (filters : Filters T) (limit : Nat) (ring : List (LogEntry T)) : List (Json T) :=
  ((ring.reverse.filter fun e => Matches fmt filters e).take limit).map (·.to_dict)

end query

/-- No text that is given is empty. -/
structure Filters.NonEmpty (filters : Filters T) : Prop where
  level : filters.level ≠ some ""
  source : filters.source ≠ some ""
  event_type : filters.event_type ≠ some ""

/-- What `str.upper` does with a text that it has made, and with the level of an event. -/
structure Uppercases (fmt : Format T) : Prop where
  upper_upper : ∀ s, fmt.upper (fmt.upper s) = fmt.upper s
  info : fmt.upper "INFO" = "INFO"

/-! ### The ring -/

variable [Clock T] {fmt : Format T} {s s' : State T} {ls : List (Label T)} {tr : List (Obs T)}

/-- The level of an entry is in capital letters. -/
theorem step_level (hupper : Uppercases fmt) {l : Label T} {os : List (Obs T)}
    (hstep : (machine fmt).step s l = some (s', os)) :
    ∀ e ∈ entries os, fmt.upper e.level = e.level := by
  cases l with
  | write msg level source event data now =>
    cases hstep
    intro e he
    obtain rfl := List.mem_singleton.mp he
    exact hupper.upper_upper level
  | on_event event now =>
    cases hstep
    intro e he
    obtain rfl := List.mem_singleton.mp he
    exact hupper.info
  | start =>
    simp only [machine] at hstep
    split at hstep <;> (cases hstep; simp [entries])
  | stop =>
    simp only [machine] at hstep
    split at hstep <;> (cases hstep; simp [entries])
  | proceed proc =>
    simp only [machine] at hstep
    split at hstep
    · next pc _ => cases pc <;> cases hstep <;> simp [entries]
    · cases hstep
  | line proc =>
    simp only [machine] at hstep
    split at hstep <;> (cases hstep; try simp [entries])
  | os_error proc =>
    simp only [machine] at hstep
    split at hstep <;> (cases hstep; try simp [entries])

omit [Clock T] in
theorem entries_append (tr os : List (Obs T)) : entries (tr ++ os) = entries tr ++ entries os :=
  List.filterMap_append

/-- The ring has the last entries that were written. -/
structure Ring (buffer_size : Nat) (s : State T) (tr : List (Obs T)) : Prop where
  maxlen : s.service.buffer.maxlen = buffer_size
  items : s.service.buffer.items = (entries tr).rtake buffer_size

theorem step_ring {buffer_size : Nat} (h : Ring buffer_size s tr) {l : Label T}
    {os : List (Obs T)} (hstep : (machine fmt).step s l = some (s', os)) :
    Ring buffer_size s' (tr ++ os) := by
  obtain ⟨hmaxlen, hitems⟩ := h
  have hsame : s'.service.buffer = s.service.buffer → entries os = [] →
      Ring buffer_size s' (tr ++ os) := by
    intro hbuffer hnone
    refine ⟨hbuffer ▸ hmaxlen, ?_⟩
    rw [entries_append, hnone, List.append_nil, hbuffer, hitems]
  cases step_sound hstep with
  | silent _ hbuffer _ _ _ => exact hsame hbuffer rfl
  | logs e _ _ hservice _ _ =>
    have hbuffer : s'.service.buffer = s.service.buffer.append e := by
      rw [hservice]
      rfl
    refine ⟨by rw [hbuffer, Deque.append_maxlen, hmaxlen], ?_⟩
    rw [hbuffer, entries_append, ← hmaxlen]
    exact Deque.append_items (hmaxlen ▸ hitems) e
  | flushes proc _ hservice _ _ => exact hsame (by rw [hservice]) rfl
  | writes proc e hservice _ _ => exact hsame (by rw [hservice]) rfl
  | fails proc =>
    -- an error of the file ends a flush, and leaves the ring alone
    simp only [machine] at hstep
    split at hstep
    · cases hstep
      exact hsame rfl rfl
    · cases hstep

theorem run_ring (hupper : Uppercases fmt) {buffer_size : Nat} {file : List String}
    (hrun : (machine fmt).run (.init buffer_size file) ls = some (s, tr)) :
    Ring buffer_size s tr ∧ ∀ e ∈ entries tr, fmt.upper e.level = e.level := by
  refine (machine fmt).run_induction (P := fun _ s tr => Ring buffer_size s tr ∧
    ∀ e ∈ entries tr, fmt.upper e.level = e.level) ⟨⟨rfl, ?_⟩, by simp [entries]⟩ ?_ hrun
  · exact (List.rtake_nil _).symm
  · intro ls s tr l s' os _ ih hstep
    refine ⟨step_ring ih.1 hstep, fun e he => ?_⟩
    rw [entries_append, List.mem_append] at he
    exact he.elim (ih.2 e) (step_level hupper hstep e)

/-! ### The loop -/

/-- The loop returns the entries that it does not skip, up to `limit`, but at least one. -/
theorem query_loop_eq (fmt : Format T) (filters : Filters T) (limit : Nat)
    (results : List (Json T)) (rest : List (LogEntry T)) (h : results.length < limit ⊔ 1) :
    query_loop fmt filters limit results rest =
      results ++ ((rest.filter fun e => !skips fmt filters e).take
        ((limit ⊔ 1) - results.length)).map (·.to_dict) := by
  induction rest generalizing results with
  | nil => simp [query_loop]
  | cons e rest ih =>
    rw [query_loop]
    by_cases hskips : skips fmt filters e = true
    · rw [if_pos hskips, ih results h, List.filter_cons_of_neg (by simp [hskips])]
    · rw [if_neg hskips, List.filter_cons_of_pos (by simp [hskips])]
      have hone : (limit ⊔ 1) - results.length =
          (limit ⊔ 1) - (results ++ [e.to_dict]).length + 1 := by
        rw [List.length_append, List.length_singleton]
        omega
      rw [hone, List.take_succ_cons, List.map_cons]
      dsimp only
      split
      · next hfull =>
        -- no entry is left to be taken
        have hzero : (limit ⊔ 1) - (results ++ [e.to_dict]).length = 0 := by
          rw [List.length_append, List.length_singleton] at hfull ⊢
          omega
        rw [hzero, List.take_zero, List.map_nil]
      · next hmore =>
        rw [ih (results ++ [e.to_dict]) (by omega), List.append_assoc]
        rfl

/-- An entry is skipped if and only if it does not match. -/
theorem skips_eq {filters : Filters T} (hfilters : filters.NonEmpty) {e : LogEntry T}
    (hlevel : fmt.upper e.level = e.level) (hts : Clock.ofSeconds 0 ≤ e.ts) :
    (!skips fmt filters e) = decide (Matches fmt filters e) := by
  obtain ⟨level, source, event_type, since⟩ := filters
  obtain ⟨hlevel', hsource', hevent'⟩ := hfilters
  rw [Bool.eq_iff_iff, decide_eq_true_eq]
  have hsince : (since.any fun since => since ≠ Clock.ofSeconds 0 && e.ts < since) = false ↔
      ∀ since' ∈ since, since' ≤ e.ts := by
    cases since with
    | none => simp
    | some since =>
      by_cases hzero : since = Clock.ofSeconds 0
      · simp [hzero, hts]
      · simp [hzero]
  -- the three texts are tested in the same way
  have htext : ∀ {given : Option String} (p : String → Prop) [DecidablePred p],
      given ≠ some "" →
      ((given.any fun t => t ≠ "" && ¬ p t) = false ↔ ∀ t ∈ given, p t) := by
    intro given p _ hne
    cases given with
    | none => simp
    | some t =>
      have ht : t ≠ "" := fun heq => hne (congrArg some heq)
      simp [ht]
  have hlevels := htext (fun level => e.level = fmt.upper level) hlevel'
  have hsources := htext (fun source => e.source = source) hsource'
  have hevents := htext (fun event_type => e.event = event_type) hevent'
  simp only [skips, Bool.not_or, Bool.and_eq_true, Bool.not_eq_true', hsince]
  rw [hlevels, hsources, hevents]
  -- the level of the entry is in capital letters already
  constructor
  · rintro ⟨⟨⟨h₁, h₂⟩, h₃⟩, h₄⟩
    exact ⟨fun level hl => hlevel.trans (h₁ level hl), h₂, h₃, h₄⟩
  · rintro ⟨h₁, h₂, h₃, h₄⟩
    exact ⟨⟨⟨fun level hl => hlevel.symm.trans (h₁ level hl), h₂⟩, h₃⟩, h₄⟩

/-! ### The law -/

/-- **What a query returns**: the newest entries of the ring that match, as many as `limit`
    allows, if and only if it allows one or none matches. -/
theorem query_newest_iff (hupper : Uppercases fmt) {buffer_size : Nat} {file : List String}
    (hrun : (machine fmt).run (.init buffer_size file) ls = some (s, tr))
    (hts : ∀ e ∈ entries tr, Clock.ofSeconds 0 ≤ e.ts) {filters : Filters T}
    (hfilters : filters.NonEmpty) (limit : Nat) :
    s.service.query fmt filters limit =
        newest fmt filters limit ((entries tr).rtake buffer_size) ↔
      1 ≤ limit ∨ ∀ e ∈ (entries tr).rtake buffer_size, ¬ Matches fmt filters e := by
  obtain ⟨hring, hlevel⟩ := run_ring hupper hrun
  have hmatch : ((entries tr).rtake buffer_size).reverse.filter (fun e => !skips fmt filters e) =
      ((entries tr).rtake buffer_size).reverse.filter fun e => Matches fmt filters e := by
    refine List.filter_congr fun e he => ?_
    have hmem : e ∈ entries tr := List.mem_of_mem_drop (List.mem_reverse.mp he)
    exact skips_eq hfilters (hlevel e hmem) (hts e hmem)
  unfold query newest
  rw [query_loop_eq fmt filters limit [] _ (by simp), hring.items, hmatch, List.nil_append,
    List.length_nil, Nat.sub_zero]
  generalize hfound : (((entries tr).rtake buffer_size).reverse.filter
    fun e => Matches fmt filters e) = found
  have hnone : (∀ e ∈ (entries tr).rtake buffer_size, ¬ Matches fmt filters e) ↔ found = [] := by
    rw [← hfound, List.filter_eq_nil_iff]
    simp
  rw [hnone]
  rcases Nat.eq_zero_or_pos limit with rfl | hpos
  · cases found with
    | nil => simp
    | cons e found => simp
  · rw [Nat.max_eq_left hpos]
    exact iff_of_true rfl (Or.inl hpos)

/-- `sample` with `str.upper` for ASCII letters. -/
def ascii : Format ℚ := { sample with upper := PyStr.upper }

theorem ascii_uppercases : Uppercases ascii where
  upper_upper s := by
    show PyStr.upper (PyStr.upper s) = PyStr.upper s
    unfold PyStr.upper
    rw [String.toList_ofList, List.map_map]
    congr 2
    funext c
    exact Char.toUpper_toUpper_eq_toUpper c
  info := rfl

/-- The filters of a query for warnings from the network after time 1. -/
def warnings : Filters ℚ := ⟨some "warning", some "net", none, some 1⟩

/-- Two of the entries are such warnings, and the query is for one. -/
theorem query_newest_iff_warnings : ∃ s tr,
    (machine ascii).run (.init 3 [])
      [note "a", .write "b" "warning" "net" "LOG" .null 1, note "c",
        .write "d" "Warning" "net" "LOG" .null 2] = some (s, tr) ∧
    s.service.query ascii warnings 1 = newest ascii warnings 1 ((entries tr).rtake 3) := by
  obtain ⟨s, tr, hrun, htest⟩ := (machine ascii).exists_run (.init 3 [])
    [note "a", .write "b" "warning" "net" "LOG" .null 1, note "c",
      .write "d" "Warning" "net" "LOG" .null 2]
    (fun s tr => (entries tr).all fun e => Clock.ofSeconds 0 ≤ e.ts) rfl
  have hts : ∀ e ∈ entries tr, Clock.ofSeconds 0 ≤ e.ts := fun e he =>
    of_decide_eq_true (List.all_eq_true.mp htest e he)
  have hfilters : warnings.NonEmpty := ⟨by decide, by decide, by decide⟩
  exact ⟨s, tr, hrun, (query_newest_iff ascii_uppercases hrun hts hfilters 1).mpr (Or.inl le_rfl)⟩

/-- A query for no entries returns one. -/
theorem query_none_returns_one : ∃ s tr,
    (machine ascii).run (.init 500 []) [note "a"] = some (s, tr) ∧
    s.service.query ascii ⟨none, none, none, none⟩ 0 ≠
      newest ascii ⟨none, none, none, none⟩ 0 ((entries tr).rtake 500) := by
  obtain ⟨s, tr, hrun, htest⟩ := (machine ascii).exists_run (.init 500 []) [note "a"]
    (fun s _ => (s.service.query ascii ⟨none, none, none, none⟩ 0).length = 1) rfl
  refine ⟨s, tr, hrun, fun h => ?_⟩
  have hone := of_decide_eq_true htest
  rw [h] at hone
  exact absurd hone (by simp [newest])

end LoggingService
