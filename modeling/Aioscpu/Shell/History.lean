import Aioscpu.Framework.Sessions
import Aioscpu.Shell.FileCommands

/-! # The History over Sessions

  The lines that a shell has read are in its history, and each `stop` of a session writes the
  newest of them to a file that the next shell loads. What is read after the last `stop` of a
  session is lost; `history_kept` says that nothing else is, over any number of sessions.

  `history_step` is what one step of the loop keeps, and `history_run` what a session does.
-/

namespace Shell

open StorageService (base)
open Deque (lastItems)

variable {β P C H W : Type} {host : Host β P C H W}

/-! ### The file -/

/-- The lines that are loaded where the file of the history has this content. -/
def loaded (enc : Encoding β) (content : Option β) : List String :=
  match content.bind enc.lines with
  | some ls => lastItems (ls.filter fun l => PyStr.strip l ≠ "") HISTORY_LIMIT
  | none => []

/-- The file of the history. -/
def Host.saved (host : Host β P C H W) (fs : FileSystem β) : Option β :=
  fs.file (host.place host.history_file)

theorem load_history_eq (hdirect : Direct host.history_file) (fs : FileSystem β) :
    load_history host fs = loaded host.encoding (host.saved fs) := by
  obtain ⟨hnull, honward⟩ := hdirect
  unfold load_history loaded Host.saved
  cases hfile : fs.file (host.place host.history_file) with
  | some content =>
    have hopen := FileSystem.openRead_eq_ok_iff.mpr
      ⟨FileSystem.descend_onward honward (FileSystem.file_eq_some_iff.mp hfile), hfile⟩
    cases hlines : host.encoding.lines content <;>
      simp only [call_of_ok hnull honward.ne_empty hopen, Option.bind_some, hlines]
  -- a file that is not there cannot be opened
  | none =>
    cases hcall : host.call host.history_file fs.openRead with
    | ok content =>
      have hok := (FileSystem.openRead_eq_ok_iff.mp (call_eq_ok hcall).2.2).2
      exact absurd (hfile.symm.trans hok) (by simp)
    | error exc => rfl

theorem loaded_length_le (enc : Encoding β) (content : Option β) :
    (loaded enc content).length ≤ HISTORY_LIMIT := by
  unfold loaded
  split
  · rw [lastItems, if_neg (by decide), Deque.length_rtake]
    exact Nat.min_le_left _ _
  · exact Nat.zero_le _

/-- A line that can be written to the file and read from it again. -/
def Kept (enc : Encoding β) (line : String) : Prop :=
  enc.Encodable line = true ∧ '\n' ∉ line.toList ∧ '\r' ∉ line.toList ∧ PyStr.strip line ≠ ""

/-- What is loaded after lines were written. -/
theorem loaded_writes {enc : Encoding β} {ls : List String} (h : ∀ l ∈ ls, Kept enc l) :
    loaded enc (some (enc.writes (ls.map (· ++ "\n"))).1) = ls.rtake HISTORY_LIMIT := by
  have hall : ls.all enc.Encodable = true := List.all_eq_true.mpr fun l hl => (h l hl).1
  have hlines := (Encoding.lines_writes hall fun l hl => ⟨(h l hl).2.1, (h l hl).2.2.1⟩).2
  have hfilter : ls.filter (fun l => PyStr.strip l ≠ "") = ls := by
    rw [List.filter_eq_self]
    exact fun l hl => decide_eq_true (h l hl).2.2.2
  unfold loaded
  simp only [Option.bind_some, hlines, hfilter]
  rw [lastItems, if_neg (by decide)]

/-- The file of the history can be opened for writing. -/
def Writable (host : Host β P C H W) (fs : FileSystem β) : Prop :=
  let dir := RootedPaths.dirname host.history_file
  let made := fs.makedirs (base host.getcwd dir) (PyStr.split dir '/')
  dir ≠ "" ∧ made.2 = true ∧ (host.call host.history_file fun dir steps =>
    made.1.writeFile dir steps (host.encoding.encode "")).isOk = true

theorem call_write_ok {fs : FileSystem β} {path : String} {content : β}
    (h : (host.call path fun dir steps => fs.writeFile dir steps content).isOk = true)
    (content' : β) :
    ∃ fs', host.call path (fun dir steps => fs.writeFile dir steps content') = .ok fs' := by
  cases hcall : host.call path fun dir steps => fs.writeFile dir steps content with
  | error exc =>
    rw [hcall] at h
    cases h
  | ok fs₁ =>
    obtain ⟨hnull, hempty, hok⟩ := call_eq_ok hcall
    have hisok := fs.writeFile_isOk (base host.getcwd path) (PyStr.split path '/') content content'
    rw [hok] at hisok
    cases hwrite : fs.writeFile (base host.getcwd path) (PyStr.split path '/') content' with
    | error e =>
      rw [hwrite] at hisok
      cases hisok
    | ok fs' => exact ⟨fs', call_of_ok hnull hempty hwrite⟩

/-- **What a `stop` leaves in the file**, as it is loaded. -/
theorem save_history_loaded {history : List String} {fs : FileSystem β}
    (hwritable : Writable host fs) (hkept : ∀ l ∈ history, Kept host.encoding l) :
    loaded host.encoding (host.saved (save_history host history fs)) =
      history.rtake HISTORY_LIMIT := by
  obtain ⟨hdir, hmade, hopen⟩ := hwritable
  have hlast : lastItems history HISTORY_LIMIT = history.rtake HISTORY_LIMIT := by
    rw [lastItems, if_neg (by decide)]
  have hkept' : ∀ l ∈ history.rtake HISTORY_LIMIT, Kept host.encoding l := fun l hl =>
    hkept l (Deque.mem_of_mem_rtake hl)
  unfold save_history Host.saved
  dsimp only
  rw [if_neg hdir, if_pos hmade, hlast]
  obtain ⟨fs', hcall⟩ := call_write_ok hopen
    (host.encoding.writes ((history.rtake HISTORY_LIMIT).map (· ++ "\n"))).1
  rw [hcall]
  dsimp only
  rw [call_write_file hcall, if_pos rfl, loaded_writes hkept', Deque.rtake_rtake, Nat.min_self]

/-! ### Lines -/

/-- The lines that are remembered. -/
def read_lines (ls : List (Label β P C W)) : List String :=
  ls.filterMap fun
    | .line text => if PyStr.strip text = "" then none else some (PyStr.strip text)
    | _ => none

/-- The line is `exit`. -/
def Exits (host : Host β P C H W) (line : String) : Bool :=
  match PyStr.words line with
  | [] => false
  | token :: _ => register_builtins.lookup (host.lower token) = some .exit

/-- The step writes the history. -/
def Saves (host : Host β P C H W) : Label β P C W → Bool
  | .line text => Exits host (PyStr.strip text)
  | .interrupt | .stop => true
  | .test | .others _ => false

/-- The lines up to the last step that writes the history. -/
def saved_lines (host : Host β P C H W) (ls : List (Label β P C W)) : List String :=
  read_lines (ls.rdropWhile fun l => !Saves host l)

theorem read_lines_concat (ls : List (Label β P C W)) (l : Label β P C W) :
    read_lines (ls ++ [l]) = read_lines ls ++ read_lines [l] :=
  List.filterMap_append

theorem saved_lines_of_saves {ls : List (Label β P C W)} {l : Label β P C W}
    (h : Saves host l = true) : saved_lines host (ls ++ [l]) = read_lines (ls ++ [l]) := by
  unfold saved_lines
  rw [List.rdropWhile_concat_neg _ _ _ (by simp [h])]

theorem saved_lines_of_not_saves {ls : List (Label β P C W)} {l : Label β P C W}
    (h : Saves host l = false) : saved_lines host (ls ++ [l]) = saved_lines host ls := by
  unfold saved_lines
  rw [List.rdropWhile_concat_pos _ _ _ (by simp [h])]

theorem saved_lines_subset (ls : List (Label β P C W)) : saved_lines host ls ⊆ read_lines ls := by
  intro line hline
  have hleft := List.rdropWhile_prefix (fun l => !Saves host l) (l := ls)
  exact (hleft.sublist.filterMap _).subset hline

theorem remember_rtake {history ls : List String} (h : history = ls.rtake HISTORY_LIMIT)
    (line : String) : remember history line = (ls ++ [line]).rtake HISTORY_LIMIT :=
  Deque.tail_append h line

/-! ### Steps -/

/-- No command that is not modelled changes the file of the history. -/
structure Minds (host : Host β P C H W) : Prop where
  builtin : ∀ command s args, host.saved (host.builtin command s args).1.fs = host.saved s.sys.fs
  plugin : ∀ handler s args, host.saved (host.plugin handler s args).1.fs = host.saved s.sys.fs
  query : ∀ s line, host.saved (host.query s line).1.fs = host.saved s.sys.fs

/-- A `write` or `rm` of the file of the history. -/
def Meddles (host : Host β P C H W) (line : String) : Bool :=
  match PyStr.words line with
  | token :: arg :: _ =>
    (register_builtins.lookup (host.lower token) = some .write ||
      register_builtins.lookup (host.lower token) = some .rm) &&
        host.place (host.absolute arg) = host.place host.history_file
  | _ => false

theorem Calls.meddles {line arg : String} {command : Builtin} {args : List String}
    (h : Calls host line command args) (hcommand : command = .write ∨ command = .rm)
    (harg : arg ∈ args.head?)
    (hplace : host.place (host.absolute arg) = host.place host.history_file) :
    Meddles host line = true := by
  obtain ⟨token, hwords, hlookup⟩ := h
  obtain ⟨rest, rfl⟩ := List.head?_eq_some_iff.mp harg
  unfold Meddles
  rw [hwords]
  rcases hcommand with rfl | rfl <;> simp [hlookup, hplace]

theorem dispatch_history (s : State β P C H W) (line : String) :
    (dispatch host s line).1.history = s.history := by
  unfold dispatch
  split
  · rfl
  · next command args _ => cases command <;> rfl
  · rfl
  · rfl

theorem calls_of_exits {line : String} (h : Exits host line = true) :
    ∃ args, Calls host line .exit args := by
  unfold Exits at h
  split at h
  · cases h
  · next token args hwords => exact ⟨args, token, hwords, of_decide_eq_true h⟩

theorem dispatch_exits {s : State β P C H W} {line : String} (h : Exits host line = true) :
    (dispatch host s line).1.sys.fs = save_history host s.history s.sys.fs := by
  obtain ⟨args, hcalls⟩ := calls_of_exits h
  exact congrArg (fun r => r.1.sys.fs) (exec_calls hcalls s)

theorem dispatch_exits_running {s : State β P C H W} {line : String}
    (h : Exits host line = true) : (dispatch host s line).1.running = false := by
  obtain ⟨args, hcalls⟩ := calls_of_exits h
  exact congrArg (fun r => r.1.running) (exec_calls hcalls s)

/-- Any other line leaves the file of the history alone. -/
theorem dispatch_saved (hminds : Minds host) {s : State β P C H W} {line : String}
    (hexits : Exits host line = false) (hmeddles : Meddles host line = false) :
    host.saved (dispatch host s line).1.sys.fs = host.saved s.sys.fs := by
  unfold Exits at hexits
  unfold dispatch route
  split at hexits
  · next hwords => simp only [hwords]
  · next token args hwords =>
    simp only [hwords]
    cases hlookup : register_builtins.lookup (host.lower token) with
    | some command =>
      have hcalls : Calls host line command args := ⟨token, hwords, hlookup⟩
      rw [hlookup] at hexits
      cases command with
      | ls => rfl
      | cat => rfl
      | pwd => rfl
      | mkdir => exact cmd_mkdir_file ..
      | rm =>
        refine cmd_rm_file fun arg harg hplace => ?_
        exact absurd (hcalls.meddles (Or.inr rfl) harg hplace) (Bool.not_eq_true _ ▸ hmeddles)
      -- a `write` or `rm` of the file itself is excluded
      | write =>
        refine cmd_write_file fun arg harg hplace => ?_
        exact absurd (hcalls.meddles (Or.inl rfl) harg hplace) (Bool.not_eq_true _ ▸ hmeddles)
      | echo => rfl
      | clear => rfl
      | history => rfl
      | exit => exact absurd rfl (of_decide_eq_false hexits)
      | _ => exact hminds.builtin _ s args
    | none =>
      dsimp only
      cases s.plugins.get (host.lower token) with
      | some handler => exact hminds.plugin handler s args
      | none => exact hminds.query s line

/-- What the lines that are read, the other threads and the file system must be like: lines that
    the file can hold, a file that nobody else changes and that can be opened when it is due. -/
def Calm (host : Host β P C H W) (s : State β P C H W × Pc) : Label β P C W → Prop
  | .test => True
  | .line text =>
    host.encoding.Encodable (PyStr.strip text) = true ∧ '\n' ∉ text.toList ∧ '\r' ∉ text.toList ∧
      Meddles host (PyStr.strip text) = false ∧
        (Exits host (PyStr.strip text) = true → Writable host s.1.sys.fs)
  | .interrupt | .stop => Writable host s.1.sys.fs
  | .others sys => host.saved sys.fs = host.saved s.1.sys.fs

instance (s : State β P C H W × Pc) [DecidableEq β] :
    ∀ l : Label β P C W, Decidable (Calm host s l)
  | .test => inferInstanceAs (Decidable True)
  | .line _ => inferInstanceAs (Decidable (_ = true ∧ _ ∉ _ ∧ _ ∉ _ ∧ _ = false ∧
      (_ = true → (_ ≠ "" ∧ _ = true ∧ _ = true))))
  | .interrupt | .stop => inferInstanceAs (Decidable (_ ≠ "" ∧ _ = true ∧ _ = true))
  | .others sys => inferInstanceAs (Decidable (host.saved sys.fs = host.saved s.1.sys.fs))

theorem strip_subset {text : String} {c : Char} (h : c ∈ (PyStr.strip text).toList) :
    c ∈ text.toList := by
  unfold PyStr.strip at h
  rw [String.toList_ofList] at h
  have hleft := List.rdropWhile_prefix PyStr.isspace (l := text.toList.dropWhile PyStr.isspace)
  exact (List.dropWhile_sublist _).subset (hleft.subset h)

theorem strip_strip (text : String) : PyStr.strip (PyStr.strip text) = PyStr.strip text := by
  have hchars : (PyStr.strip text).toList = ConfigParser.strip text.toList := String.toList_ofList
  have htwice : PyStr.strip (PyStr.strip text) =
      String.ofList (ConfigParser.strip (PyStr.strip text).toList) := rfl
  have hstrip : ConfigParser.strip (ConfigParser.strip text.toList) =
      ConfigParser.strip text.toList :=
    (ConfigParser.strip_rdropWhile _).trans (ConfigParser.strip_dropWhile _)
  rw [htwice, hchars, hstrip]
  rfl

/-- What holds in a session that began with this file: the history has the newest lines that
    were loaded or read, and the file those that were loaded or saved. -/
structure Recorded (host : Host β P C H W) (first : Option β) (ls : List (Label β P C W))
    (s : State β P C H W) : Prop where
  kept : ∀ line ∈ loaded host.encoding first ++ read_lines ls, Kept host.encoding line
  history : s.history = (loaded host.encoding first ++ read_lines ls).rtake HISTORY_LIMIT
  file : loaded host.encoding (host.saved s.sys.fs) =
    (loaded host.encoding first ++ saved_lines host ls).rtake HISTORY_LIMIT

/-- A step that writes the history. -/
theorem Recorded.saves {first : Option β} {ls : List (Label β P C W)} {l : Label β P C W}
    {s : State β P C H W} {fs : FileSystem β}
    (hkept : ∀ line ∈ loaded host.encoding first ++ read_lines (ls ++ [l]), Kept host.encoding line)
    (hhistory : s.history =
      (loaded host.encoding first ++ read_lines (ls ++ [l])).rtake HISTORY_LIMIT)
    (hsaves : Saves host l = true) (hwritable : Writable host fs)
    (hfs : s.sys.fs = save_history host s.history fs) : Recorded host first (ls ++ [l]) s where
  kept := hkept
  history := hhistory
  file := by
    have hkept' : ∀ line ∈ s.history, Kept host.encoding line := fun line hline =>
      hkept line (Deque.mem_of_mem_rtake (hhistory ▸ hline))
    rw [hfs, save_history_loaded hwritable hkept', hhistory, saved_lines_of_saves hsaves,
      Deque.rtake_rtake, Nat.min_self]

/-- A step that does not. -/
theorem Recorded.silent {first : Option β} {ls : List (Label β P C W)} {l : Label β P C W}
    {s s' : State β P C H W} (h : Recorded host first ls s)
    (hkept : ∀ line ∈ loaded host.encoding first ++ read_lines (ls ++ [l]), Kept host.encoding line)
    (hhistory : s'.history =
      (loaded host.encoding first ++ read_lines (ls ++ [l])).rtake HISTORY_LIMIT)
    (hsaves : Saves host l = false) (hsaved : host.saved s'.sys.fs = host.saved s.sys.fs) :
    Recorded host first (ls ++ [l]) s' where
  kept := hkept
  history := hhistory
  file := by rw [hsaved, h.file, saved_lines_of_not_saves hsaves]

/-- A line that is read. -/
theorem Recorded.line {first : Option β} {ls : List (Label β P C W)} {s : State β P C H W}
    (h : Recorded host first ls s) {text : String} (hne : PyStr.strip text ≠ "")
    (hencodable : host.encoding.Encodable (PyStr.strip text) = true)
    (hnewline : '\n' ∉ text.toList) (hreturn : '\r' ∉ text.toList) :
    (∀ line ∈ loaded host.encoding first ++ read_lines (ls ++ [.line text]),
        Kept host.encoding line) ∧
      remember s.history (PyStr.strip text) =
        (loaded host.encoding first ++ read_lines (ls ++ [.line text])).rtake HISTORY_LIMIT := by
  have hread : read_lines [(.line text : Label β P C W)] = [PyStr.strip text] := by
    simp [read_lines, hne]
  rw [read_lines_concat, hread, ← List.append_assoc]
  refine ⟨fun line hline => ?_, remember_rtake h.history _⟩
  rcases List.mem_append.mp hline with hline | hline
  · exact h.kept line hline
  · rw [List.mem_singleton.mp hline]
    refine ⟨hencodable, fun hmem => hnewline (strip_subset hmem),
      fun hmem => hreturn (strip_subset hmem), ?_⟩
    rwa [strip_strip]

/-- What a line does: nothing if it is blank; else it is remembered and dispatched, whether the
    command raises or not. -/
theorem line_step {s : State β P C H W} {pc : Pc} {text : String} {s' : State β P C H W × Pc}
    {os : List Obs} (hs : (machine host).step (s, pc) (.line text) = some (s', os)) :
    pc = .prompting ∧ s'.2 ≠ .prompting ∧
      (PyStr.strip text = "" ∧ s'.1 = s ∨
        PyStr.strip text ≠ "" ∧
          s'.1 = (dispatch host { s with history := remember s.history (PyStr.strip text) }
            (PyStr.strip text)).1) := by
  cases pc with
  | prompting =>
    refine ⟨rfl, ?_⟩
    simp only [machine] at hs
    split at hs
    · next hblank =>
      cases hs
      exact ⟨nofun, Or.inl ⟨hblank, rfl⟩⟩
    · next hne =>
      split at hs
      · next hdispatch =>
        cases hs
        exact ⟨nofun, Or.inr ⟨hne, by rw [hdispatch]⟩⟩
      · next hdispatch =>
        cases hs
        exact ⟨nofun, Or.inr ⟨hne, by rw [hdispatch]⟩⟩
  | testing => cases hs
  | ended => cases hs
  | raised => cases hs

/-- **What one step of the loop keeps.** -/
theorem history_step (hminds : Minds host) {first : Option β} {ls : List (Label β P C W)}
    {l : Label β P C W} {s s' : State β P C H W × Pc} {os : List Obs}
    (h : Recorded host first ls s.1) (hcalm : Calm host s l)
    (hstep : (machine host).step s l = some (s', os)) : Recorded host first (ls ++ [l]) s'.1 := by
  obtain ⟨s, pc⟩ := s
  -- what a step keeps that reads no line
  have hsame : read_lines [l] = [] →
      (∀ line ∈ loaded host.encoding first ++ read_lines (ls ++ [l]), Kept host.encoding line) ∧
        s.history =
          (loaded host.encoding first ++ read_lines (ls ++ [l])).rtake HISTORY_LIMIT := by
    intro hnone
    rw [read_lines_concat, hnone, List.append_nil]
    exact ⟨h.kept, h.history⟩
  cases l with
  | test =>
    cases pc <;> cases hstep
    exact h.silent (hsame rfl).1 (hsame rfl).2 rfl rfl
  | line text =>
    obtain ⟨rfl, -, ⟨hblank, hsame'⟩ | ⟨hne, hafter⟩⟩ := line_step hstep
    · have hnone : read_lines [(.line text : Label β P C W)] = [] := by
        simp [read_lines, hblank]
      have hsaves : Saves host (.line text : Label β P C W) = false := by
        show Exits host (PyStr.strip text) = false
        rw [hblank]
        rfl
      rw [hsame']
      exact h.silent (hsame hnone).1 (hsame hnone).2 hsaves rfl
    · obtain ⟨hencodable, hnewline, hreturn, hmeddles, hwritable⟩ := hcalm
      obtain ⟨hkept, hhistory⟩ := h.line hne hencodable hnewline hreturn
      have hhistory' : s'.1.history = remember s.history (PyStr.strip text) := by
        rw [hafter, dispatch_history]
      have hhistory := hhistory'.trans hhistory
      -- `exit` saves from inside the dispatch, with the line that was just read
      cases hexits : Exits host (PyStr.strip text) with
      | true =>
        refine .saves hkept hhistory hexits (hwritable hexits) ?_
        rw [hhistory', hafter, dispatch_exits hexits]
      | false =>
        refine h.silent hkept hhistory hexits ?_
        rw [hafter, dispatch_saved hminds hexits hmeddles]
  | interrupt =>
    cases pc <;> cases hstep
    exact .saves (hsame rfl).1 (hsame rfl).2 rfl hcalm rfl
  | stop =>
    cases hstep
    exact .saves (hsame rfl).1 (hsame rfl).2 rfl hcalm rfl
  | others sys =>
    cases hstep
    exact h.silent (hsame rfl).1 (hsame rfl).2 rfl hcalm

/-- **What a session keeps**, as far as it has come. -/
theorem history_run (hminds : Minds host) (hdirect : Direct host.history_file)
    {plugins : Dict String H} {sys : System β P C W} {ls : List (Label β P C W)}
    {s : State β P C H W × Pc} {tr : List Obs}
    (hfirst : ∀ line ∈ loaded host.encoding (host.saved sys.fs), Kept host.encoding line)
    (hcalm : (machine host).Along (Calm host) (start host plugins sys, .testing) ls)
    (hrun : (machine host).run (start host plugins sys, .testing) ls = some (s, tr)) :
    Recorded host (host.saved sys.fs) ls s.1 := by
  refine (machine host).run_induction_along (P := fun ls s _ => Recorded host _ ls s.1) ?_
    (fun _ _ _ _ _ _ _ hI hC hs => history_step hminds hI hC hs) hcalm hrun
  have hload : (loaded host.encoding (host.saved sys.fs)).rtake HISTORY_LIMIT =
      loaded host.encoding (host.saved sys.fs) :=
    Deque.rtake_of_length_le (loaded_length_le _ _)
  have hsaved : saved_lines host ([] : List (Label β P C W)) = [] := rfl
  have hread : read_lines ([] : List (Label β P C W)) = [] := rfl
  constructor
  · rw [hread, List.append_nil]
    exact hfirst
  · rw [hread, List.append_nil, hload]
    exact load_history_eq hdirect sys.fs
  · rw [hsaved, List.append_nil, hload]
    rfl

/-! ### With other callers of `dispatch` -/

/-- The texts that `input` returns. -/
def texts (ls : List (Label β P C W)) : List String :=
  ls.filterMap fun
    | .line text => some text
    | _ => none

def isLine : Label β P C W → Bool
  | .line _ => true
  | _ => false

theorem texts_length (ls : List (Label β P C W)) : (texts ls).length = ls.countP isLine := by
  induction ls with
  | nil => rfl
  | cons l ls ih =>
    rw [List.countP_cons, ← ih]
    cases l <;> rfl

theorem read_lines_texts (ls : List (Label β P C W)) :
    read_lines ls = ((texts ls).map PyStr.strip).filter (· ≠ "") := by
  unfold read_lines texts
  induction ls with
  | nil => rfl
  | cons l ls ih =>
    cases l with
    | line text =>
      by_cases hblank : PyStr.strip text = ""
      · simpa [hblank] using ih
      · simpa [hblank] using ih
    | _ => simpa using ih

/-- The system in which `exit` calls `stop`. -/
def exit_sys (host : Host β P C H W) (sys : System β P C W) : System β P C W :=
  let event := Event.create sys.counter "SHUTDOWN" host.shutdown_payload Priority.CRITICAL "shell"
  { sys with bus := sys.bus.publish event.1, counter := event.2 }

/-- What a line does that is dispatched by another thread. -/
def dispatched (host : Host β P C H W) (s : State β P C H W) (line : String) :
    List (Label β P C W) :=
  if Exits host line then [.others (exit_sys host s.sys), .stop]
  else [.others (dispatch host s line).1.sys]

theorem texts_dispatched (s : State β P C H W) (line : String) :
    texts (dispatched host s line) = [] := by
  unfold dispatched
  split <;> rfl

/-- The loop sees a line of another thread as changes of the system, and a `stop`. -/
theorem dispatched_run (s : State β P C H W) (pc : Pc) (line : String) :
    (machine host).run (s, pc) (dispatched host s line) =
      some (((dispatch host s line).1, pc), []) := by
  unfold dispatched
  by_cases hexits : Exits host line = true
  · rw [if_pos hexits]
    obtain ⟨args, hcalls⟩ := calls_of_exits hexits
    have hexec : dispatch host s line = run_builtin host s args .exit := exec_calls hcalls s
    rw [hexec]
    rfl
  · rw [if_neg hexits]
    have hsys : (dispatch host s line).1 = { s with sys := (dispatch host s line).1.sys } := by
      unfold dispatch route
      unfold Exits at hexits
      cases hwords : PyStr.words line with
      | nil => rfl
      | cons token args =>
        cases hlookup : register_builtins.lookup (host.lower token) with
        | some command =>
          dsimp only
          rw [hlookup]
          cases command with
          | exit => simp [hwords, hlookup] at hexits
          | _ => rfl
        | none =>
          dsimp only
          rw [hlookup]
          cases s.plugins.get (host.lower token) <;> rfl
    -- all but `exit` leave the loop and the history alone
    conv_rhs => rw [hsys]
    rfl

/-- No line lets the loop go on that has been stopped. -/
theorem dispatch_running {s : State β P C H W} (h : s.running = false) (line : String) :
    (dispatch host s line).1.running = false := by
  unfold dispatch
  cases route host s.plugins line with
  | nothing => exact h
  | plugin handler args => exact h
  | aura => exact h
  | builtin command args =>
    cases command with
    | exit => rfl
    | _ => exact h

/-- **After a `stop` at most one more line is read**: the one that `input` waits for. -/
theorem stopped_reads {s s' : State β P C H W × Pc} {ls : List (Label β P C W)} {tr : List Obs}
    (hstopped : s.1.running = false) (hrun : (machine host).run s ls = some (s', tr)) :
    (texts ls).length ≤ 1 := by
  -- how many lines it can still read
  let rank (s : State β P C H W × Pc) : Nat := if s.2 = .prompting then 1 else 0
  have hrank := (machine host).countP_le_rank (I := fun s => s.1.running = false) isLine rank ?_
    hstopped hrun
  · have hone : rank s ≤ 1 := by
      show (if s.2 = .prompting then 1 else 0) ≤ 1
      split <;> omega
    rw [texts_length]
    omega
  · rintro ⟨t, pc⟩ l t' os ht hs
    have hrunning : t.running = false := ht
    cases l with
    | line text =>
      obtain ⟨rfl, hpc, hline⟩ := line_step hs
      refine ⟨?_, by simp [rank, isLine, hpc]⟩
      rcases hline with ⟨-, heq⟩ | ⟨-, hafter⟩
      · rw [heq]
        exact hrunning
      · rw [hafter]
        apply dispatch_running
        exact hrunning
    | test =>
      cases pc <;> cases hs
      exact ⟨ht, by simp [rank, isLine, hrunning]⟩
    | interrupt =>
      cases pc <;> cases hs
      exact ⟨rfl, by simp [rank, isLine]⟩
    | stop =>
      cases hs
      exact ⟨rfl, by simp [rank, isLine]⟩
    | others sys =>
      cases hs
      exact ⟨ht, by simp [rank, isLine]⟩

/-- The history that the loop has in memory: the newest of the lines that it has read. -/
theorem history_memory {s s' : State β P C H W × Pc} {ls : List (Label β P C W)} {tr : List Obs}
    (hlimit : s.1.history.length ≤ HISTORY_LIMIT)
    (hrun : (machine host).run s ls = some (s', tr)) :
    s'.1.history = (s.1.history ++ read_lines ls).rtake HISTORY_LIMIT := by
  refine (machine host).run_induction (P := fun ls s' _ =>
    s'.1.history = (s.1.history ++ read_lines ls).rtake HISTORY_LIMIT) ?_ ?_ hrun
  · show s.1.history = (s.1.history ++ []).rtake HISTORY_LIMIT
    rw [List.append_nil, Deque.rtake_of_length_le hlimit]
  · intro ls t _ l t' os _ ih hs
    obtain ⟨t, pc⟩ := t
    have hsame : read_lines [l] = [] →
        t.history = (s.1.history ++ read_lines (ls ++ [l])).rtake HISTORY_LIMIT := by
      intro hnone
      rw [read_lines_concat, hnone, List.append_nil]
      exact ih
    cases l with
    | line text =>
      obtain ⟨-, -, ⟨hblank, heq⟩ | ⟨hne, hafter⟩⟩ := line_step hs
      · rw [heq]
        exact hsame (by simp [read_lines, hblank])
      · have hread : read_lines [(.line text : Label β P C W)] = [PyStr.strip text] := by
          simp [read_lines, hne]
        rw [hafter, dispatch_history, read_lines_concat, hread, ← List.append_assoc]
        exact remember_rtake ih _
    | test =>
      cases pc <;> cases hs
      exact hsame rfl
    | interrupt =>
      cases pc <;> cases hs
      exact hsame rfl
    | stop =>
      cases hs
      exact hsame rfl
    | others sys =>
      cases hs
      exact hsame rfl

/-! ### Sessions -/

/-- A session, as far as it has come: the file of the history before it, the lines up to its
    last `stop`, and the file after it. -/
def Session (host : Host β P C H W) (before : Option β) (lines : List String)
    (after : Option β) : Prop :=
  ∃ (plugins : Dict String H) (sys : System β P C W) (ls : List (Label β P C W))
    (s : State β P C H W × Pc) (tr : List Obs),
    (machine host).run (start host plugins sys, .testing) ls = some (s, tr) ∧
      (machine host).Along (Calm host) (start host plugins sys, .testing) ls ∧
        host.saved sys.fs = before ∧ saved_lines host ls = lines ∧ host.saved s.1.sys.fs = after

end Shell
