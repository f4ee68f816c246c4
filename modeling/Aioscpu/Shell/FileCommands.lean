import Aioscpu.Shell.Shell

/-! # Commands on Files

  What the lines of a session do to the files. A line touches the place that its `write` or `rm`
  names, `exit` that of the history, and a line that is not for the commands of this module may
  touch any; all other files stay as they are, also where a line raises.

  Main results:

  - `read_back`: what `write` says it has written is what `cat` prints, whatever lines come
    between, as long as none of them touches the file, and under whatever path it is read.
  - `completes_iff`: which lines end the session with an exception.
-/

namespace Shell

open StorageService (base)

variable {β P C H W : Type} {host : Host β P C H W}

/-! ### Paths -/

theorem call_eq_ok {α : Type} {path : String} {f : Dir → List String → Except Errno α} {a : α}
    (h : host.call path f = .ok a) :
    '\x00' ∉ path.toList ∧ path ≠ "" ∧
      f (base host.getcwd path) (PyStr.split path '/') = .ok a := by
  unfold Host.call at h
  split at h
  · cases h
  · next hnull =>
    split at h
    · cases h
    · next hempty =>
      split at h
      · next hok =>
        cases h
        exact ⟨hnull, hempty, hok⟩
      · cases h

theorem call_of_ok {α : Type} {path : String} {f : Dir → List String → Except Errno α} {a : α}
    (hnull : '\x00' ∉ path.toList) (hempty : path ≠ "")
    (h : f (base host.getcwd path) (PyStr.split path '/') = .ok a) : host.call path f = .ok a := by
  unfold Host.call
  rw [if_neg hnull, if_neg hempty, h]

theorem call_write_file {fs fs' : FileSystem β} {path : String} {content : β}
    (h : host.call path (fun dir steps => fs.writeFile dir steps content) = .ok fs') (x : Dir) :
    fs'.file x = if x = host.place path then some content else fs.file x := by
  obtain ⟨-, -, hok⟩ := call_eq_ok h
  exact FileSystem.writeFile_file hok x

/-! ### What the commands leave alone -/

theorem cmd_mkdir_file (fs : FileSystem β) (args : List String) (x : Dir) :
    (cmd_mkdir host fs args).1.file x = fs.file x := by
  cases args with
  | nil => rfl
  | cons arg args => exact FileSystem.makedirs_file ..

theorem cmd_rm_file {fs : FileSystem β} {args : List String} {x : Dir}
    (h : ∀ arg ∈ args.head?, host.place (host.absolute arg) ≠ x) :
    (cmd_rm host fs args).1.file x = fs.file x := by
  cases args with
  | nil => rfl
  | cons arg args =>
    have hne := h arg rfl
    simp only [cmd_rm]
    split
    · next fs' hcall =>
      obtain ⟨-, -, hok⟩ := call_eq_ok hcall
      split at hok
      · exact FileSystem.rmdir_file hok x
      · exact (FileSystem.unlink_file hok x).trans (if_neg (Ne.symm hne))
    · rfl
    · rfl
    · rfl

theorem cmd_write_file {fs : FileSystem β} {args : List String} {x : Dir}
    (h : ∀ arg ∈ args.head?, host.place (host.absolute arg) ≠ x) :
    (cmd_write host fs args).1.file x = fs.file x := by
  unfold cmd_write
  split
  · next arg word words =>
    have hne := h arg rfl
    dsimp only
    split
    · split
      · next fs' hcall =>
        rw [call_write_file hcall, if_neg (Ne.symm hne), FileSystem.makedirs_file]
      · exact FileSystem.makedirs_file ..
    · exact FileSystem.makedirs_file ..
  · rfl

theorem save_history_file {history : List String} {fs : FileSystem β} {x : Dir}
    (h : host.place host.history_file ≠ x) : (save_history host history fs).file x = fs.file x := by
  unfold save_history
  dsimp only
  split
  · rfl
  · split
    · split
      · next fs' hcall =>
        rw [call_write_file hcall, if_neg (Ne.symm h), FileSystem.makedirs_file]
      · exact FileSystem.makedirs_file ..
    · exact FileSystem.makedirs_file ..

/-- A built-in command may change the file at a place. -/
def Builtin.touches (host : Host β P C H W) (args : List String) (x : Dir) : Builtin → Prop
  | .write | .rm => ∃ arg ∈ args.head?, host.place (host.absolute arg) = x
  | .exit => host.place host.history_file = x
  | .ls | .cat | .pwd | .mkdir | .echo | .clear | .history => False
  | _ => True

/-- A line may change the file at a place. -/
def touches (host : Host β P C H W) (line : String) (x : Dir) : Prop :=
  match PyStr.words line with
  | [] => False
  | token :: args =>
    match register_builtins.lookup (host.lower token) with
    | some command => command.touches host args x
    | none => True

/-- **Files that a line does not touch** stay as they are. -/
theorem dispatch_local :
    (interpreter host).Local (fun s x => s.sys.fs.file x) (touches host) := by
  intro s line x hnot
  show (dispatch host s line).1.sys.fs.file x = s.sys.fs.file x
  unfold touches at hnot
  unfold dispatch route
  cases hwords : PyStr.words line with
  | nil => rfl
  | cons token args =>
    rw [hwords] at hnot
    dsimp only at hnot ⊢
    cases hlookup : register_builtins.lookup (host.lower token) with
    | some command =>
      rw [hlookup] at hnot
      dsimp only at hnot ⊢
      cases command with
      | ls => rfl
      | cat => rfl
      | pwd => rfl
      | mkdir => exact cmd_mkdir_file ..
      | rm => exact cmd_rm_file fun arg harg heq => hnot ⟨arg, harg, heq⟩
      | write => exact cmd_write_file fun arg harg heq => hnot ⟨arg, harg, heq⟩
      | echo => rfl
      | clear => rfl
      | history => rfl
      | exit => exact save_history_file hnot
      | _ => exact absurd trivial hnot
    | none =>
      rw [hlookup] at hnot
      exact absurd trivial hnot

/-! ### Read-back -/

/-- The path has no null character, ends with a name and does not go up. -/
def Direct (path : String) : Prop :=
  '\x00' ∉ path.toList ∧ FileSystem.Onward (PyStr.split path '/')

theorem cmd_cat_content {fs : FileSystem β} {arg : String} (args : List String) {content : β}
    (hdirect : Direct (host.absolute arg))
    (hfile : fs.file (host.place (host.absolute arg)) = some content) :
    cmd_cat host fs (arg :: args) = if host.encoding.read content = "" then "(empty file)"
      else host.encoding.read content := by
  obtain ⟨hnull, honward⟩ := hdirect
  have hopen := FileSystem.openRead_eq_ok_iff.mpr
    ⟨FileSystem.descend_onward honward (FileSystem.file_eq_some_iff.mp hfile), hfile⟩
  simp only [cmd_cat, call_of_ok hnull honward.ne_empty hopen]

/-- The text of an exception is not taken for a success. -/
theorem write_ne_written (text content path : String) :
    "write: " ++ text ≠ written content path := by
  intro heq
  have hchars := congrArg String.toList heq
  simp [written] at hchars

/-- **What `write` says it has written** is in the file. -/
theorem cmd_write_content {fs : FileSystem β} {arg word : String} {words : List String}
    (h : (cmd_write host fs (arg :: word :: words)).2 =
      written (" ".intercalate (word :: words)) (host.absolute arg)) :
    host.encoding.Encodable (" ".intercalate (word :: words) ++ "\n") = true ∧
      (cmd_write host fs (arg :: word :: words)).1.file (host.place (host.absolute arg)) =
        some (host.encoding.encode (" ".intercalate (word :: words) ++ "\n")) := by
  unfold cmd_write at h ⊢
  dsimp only at h ⊢
  split at h
  · next hmade =>
    rw [if_pos hmade]
    split at h
    · next fs' hcall =>
      split at h
      · next hall =>
        have hencodable :
            host.encoding.Encodable (" ".intercalate (word :: words) ++ "\n") = true :=
          by simpa [Encoding.writes] using hall
        refine ⟨hencodable, ?_⟩
        rw [call_write_file hcall, if_pos rfl]
        simp [Encoding.writes, hencodable]
      · exact absurd h (write_ne_written _ _ _)
    · exact absurd h (write_ne_written _ _ _)
  · exact absurd h (write_ne_written _ _ _)

/-- The words of a line, put together again, have no carriage return. -/
theorem return_not_mem (line : String) {ws : List String}
    (h : ∀ w ∈ ws, w ∈ PyStr.words line) :
    '\r' ∉ (" ".intercalate ws ++ "\n").toList := by
  have hspace : ∀ w ∈ ws, '\r' ∉ w.toList := by
    intro w hw hmem
    have hnot := PyStr.not_isspace_of_mem_words (h w hw) '\r' hmem
    exact absurd hnot (by decide)
  rw [String.toList_append, List.mem_append, not_or]
  refine ⟨?_, by decide⟩
  rw [String.toList_intercalate]
  intro hmem
  induction ws with
  | nil => cases hmem
  | cons w ws ih =>
    cases ws with
    | nil =>
      exact hspace w List.mem_cons_self (by simpa using hmem)
    | cons w' ws =>
      rw [List.map_cons, List.map_cons, List.intercalate_cons_cons] at hmem
      simp only [List.mem_append] at hmem
      rcases hmem with (hmem | hmem) | hmem
      · exact hspace w List.mem_cons_self hmem
      · exact absurd hmem (by decide)
      · exact ih (fun w hw => h w (List.mem_cons_of_mem _ hw))
          (fun w hw => hspace w (List.mem_cons_of_mem _ hw)) hmem

/-- The line is for a built-in command, with these arguments. -/
def Calls (host : Host β P C H W) (line : String) (command : Builtin) (args : List String) : Prop :=
  ∃ token, PyStr.words line = token :: args ∧
    register_builtins.lookup (host.lower token) = some command

theorem Calls.unique {line : String} {command command' : Builtin} {args args' : List String}
    (h : Calls host line command args) (h' : Calls host line command' args') :
    command = command' ∧ args = args' := by
  obtain ⟨token, hwords, hlookup⟩ := h
  obtain ⟨token', hwords', hlookup'⟩ := h'
  obtain ⟨rfl, rfl⟩ := List.cons.inj (hwords.symm.trans hwords')
  exact ⟨Option.some.inj (hlookup.symm.trans hlookup'), rfl⟩

theorem exec_calls {line : String} {command : Builtin} {args : List String}
    (h : Calls host line command args) (s : State β P C H W) :
    (interpreter host).exec s line = run_builtin host s args command := by
  obtain ⟨token, hwords, hlookup⟩ := h
  show dispatch host s line = _
  unfold dispatch route
  simp only [hwords, hlookup]

theorem touches_of_calls {line : String} {command : Builtin} {args : List String}
    (h : Calls host line command args) (x : Dir) :
    touches host line x ↔ command.touches host args x := by
  obtain ⟨token, hwords, hlookup⟩ := h
  unfold touches
  simp only [hwords, hlookup]

/-- The file holds the content, if the one answer was that of a success. -/
def Holds (host : Host β P C H W) (path content : String) (success : Option String)
    (os : List (Option String)) (s : State β P C H W) : Prop :=
  ∃ o, os = [o] ∧ (o = success → host.encoding.Encodable content = true ∧
    s.sys.fs.file (host.place path) = some (host.encoding.encode content))

theorem write_holds {line arg word : String} {words : List String}
    (hwrite : Calls host line .write (arg :: word :: words)) :
    (interpreter host).Triple (fun _ => True) [line]
      (Holds host (host.absolute arg) (" ".intercalate (word :: words) ++ "\n")
        (some (written (" ".intercalate (word :: words)) (host.absolute arg)))) := by
  refine .command fun s o _ ho => ⟨o, rfl, ?_⟩
  rintro rfl
  rw [exec_calls hwrite] at ho ⊢
  exact cmd_write_content (Option.some.inj (Option.some.inj ho))

/-- Lines that do not touch the file leave it with its content. -/
theorem holds_frame {path content : String} {success : Option String} {mid : List String}
    (hmid : ∀ line ∈ mid, ¬ touches host line (host.place path)) (os : List (Option String)) :
    (interpreter host).Triple (Holds host path content success os) mid fun _ s =>
      Holds host path content success os s := by
  have hnothing : (interpreter host).Triple (fun _ => True) mid fun _ _ => True :=
    fun _ _ _ => trivial
  -- only this file matters
  have hdepends : Interpreter.DependsOn (fun (s : State β P C H W) x => s.sys.fs.file x)
      (Holds host path content success os) (· = host.place path) := by
    rintro s s' hview ⟨o, hos, hholds⟩
    refine ⟨o, hos, fun ho => ?_⟩
    obtain ⟨hencodable, hfile⟩ := hholds ho
    exact ⟨hencodable, (hview _ rfl).symm.trans hfile⟩
  have hframed := hnothing.frame dispatch_local hdepends fun line hline x hx =>
    hx ▸ hmid line hline
  exact hframed.consequence (fun _ h => ⟨trivial, h⟩) fun _ _ h => h.2

theorem cat_holds {line path content arg : String} {args : List String}
    {success : Option String} (hread : Calls host line .cat (arg :: args))
    (hdirect : Direct (host.absolute arg))
    (hplace : host.place (host.absolute arg) = host.place path) (hne : content ≠ "")
    (hreturn : '\r' ∉ content.toList) (os : List (Option String)) :
    (interpreter host).Triple (Holds host path content success os) [line] fun os' _ =>
      ∃ o o', os = [o] ∧ os' = [o'] ∧ (o = success → o' = some content) := by
  refine .command ?_
  rintro s o' ⟨o, hos, hholds⟩ ho'
  refine ⟨o, o', hos, rfl, fun ho => ?_⟩
  obtain ⟨hencodable, hfile⟩ := hholds ho
  have hcat := cmd_cat_content args hdirect (hplace ▸ hfile)
  rw [Encoding.read_encode hencodable hreturn, if_neg hne] at hcat
  rw [exec_calls hread] at ho'
  rw [← Option.some.inj ho', hcat]

/-- A host on which plugins do nothing. -/
def plainHostWith (H : Type) : Host String Unit Unit H Unit where
  encoding := .plain
  getcwd := Dir.top
  expanduser := fun path => if path = "~" then "/home" else path
  str := fun _ => "error"
  lower := PyStr.lower
  isdigit := fun s => s.toList.all Char.isDigit
  int := fun s => (PyStr.int s).map Int.toNat
  history_file := "/home/.aura/shell_history"
  shutdown_payload := ()
  builtin := fun _ s _ => (s.sys, some none)
  plugin := fun _ s _ => (s.sys, some none)
  query := fun s _ => (s.sys, some none)

/-- A host without plugins. -/
def plainHost : Host String Unit Unit Empty Unit := plainHostWith Empty

/-- Its shell, when there are no files. -/
def plainShell : State String Unit Unit Empty Unit :=
  start plainHost .empty ⟨.empty, .init, 0, ()⟩

/-- The commands that are modelled. -/
def Builtin.own : Builtin → Bool
  | .ls | .cat | .pwd | .mkdir | .rm | .write | .echo | .clear | .history | .exit => true
  | _ => false

/-- What `ls` lists. -/
def listed (host : Host β P C H W) (args : List String) : String :=
  host.absolute (host.expanduser (args.headD host.cwd))

/-- The path comes to a file, at its end or before. -/
def ComesToFile (host : Host β P C H W) (fs : FileSystem β) (path : String) : Prop :=
  ∃ pre, pre <+: PyStr.split path '/' ∧
    fs.descend (base host.getcwd path) pre = .ok ((base host.getcwd path).walk pre) ∧
      (fs.file ((base host.getcwd path).walk pre)).isSome

/-- The command raises. -/
def Builtin.Raises (host : Host β P C H W) (fs : FileSystem β) (args : List String) :
    Builtin → Prop
  | .ls => '\x00' ∈ (listed host args).toList ∨
      listed host args ≠ "" ∧ ComesToFile host fs (listed host args)
  | .rm => ∃ arg ∈ args.head?, '\x00' ∈ (host.absolute arg).toList
  | .history => ∃ arg ∈ args.head?, host.isdigit arg = true ∧ host.int arg = none
  | _ => False

theorem cmd_ls_raises_iff {fs : FileSystem β} {args : List String} :
    cmd_ls host fs args = none ↔ Builtin.ls.Raises host fs args := by
  show cmd_ls host fs args = none ↔ '\x00' ∈ (listed host args).toList ∨
    listed host args ≠ "" ∧ ComesToFile host fs (listed host args)
  unfold ComesToFile
  rw [← FileSystem.listdir_eq_notdir_iff]
  have hlisted : host.absolute (host.expanduser (args.headD host.cwd)) = listed host args := rfl
  unfold cmd_ls Host.call
  dsimp only
  rw [hlisted]
  by_cases hnull : '\x00' ∈ (listed host args).toList
  · rw [if_pos hnull]
    simp [hnull]
  · rw [if_neg hnull]
    by_cases hempty : listed host args = ""
    · rw [if_pos hempty]
      simp [hempty]
    · rw [if_neg hempty]
      cases hlist : fs.listdir (base host.getcwd (listed host args))
          (PyStr.split (listed host args) '/') with
      | ok entries => simp [hnull]
      | error e =>
        rcases FileSystem.listdir_error hlist with rfl | rfl
        · simp [hnull]
        · simp [hempty]

theorem cmd_rm_raises_iff {fs : FileSystem β} {args : List String} :
    (cmd_rm host fs args).2 = none ↔ Builtin.rm.Raises host fs args := by
  cases args with
  | nil => simp [cmd_rm, Builtin.Raises]
  | cons arg args =>
    have hraises : Builtin.rm.Raises host fs (arg :: args) ↔
        '\x00' ∈ (host.absolute arg).toList := by
      simp [Builtin.Raises]
    rw [hraises]
    simp only [cmd_rm]
    by_cases hnull : '\x00' ∈ (host.absolute arg).toList
    · have hcall : ∀ f : Dir → List String → Except Errno (FileSystem β),
          host.call (host.absolute arg) f = .error .null := fun f => if_pos hnull
      rw [hcall]
      simp [hnull]
    · refine iff_of_false ?_ hnull
      split
      · simp
      · simp
      · simp
      · next exc hos hnot hcall =>
        -- every other error is an `OSError`
        unfold Host.call at hcall
        rw [if_neg hnull] at hcall
        split at hcall
        · cases hcall
          exact absurd rfl (hos _)
        · split at hcall
          · cases hcall
          · cases hcall
            exact absurd rfl (hnot _ _)

theorem run_builtin_raises_iff {s : State β P C H W} {command : Builtin} {args : List String}
    (hown : command.own = true) :
    (run_builtin host s args command).2 = none ↔ command.Raises host s.sys.fs args := by
  cases command with
  | ls =>
    rw [← cmd_ls_raises_iff]
    exact Option.map_eq_none_iff
  | rm =>
    rw [← cmd_rm_raises_iff]
    exact Option.map_eq_none_iff
  | history =>
    show (cmd_history host s args).map some = none ↔ ∃ arg ∈ args.head?, _
    rw [Option.map_eq_none_iff]
    unfold cmd_history
    rw [Option.map_eq_none_iff]
    cases args with
    | nil => simp
    | cons arg args =>
      cases hdigit : host.isdigit arg with
      | true => simp [hdigit]
      | false => simp [hdigit]
  | cat => exact iff_of_false (by simp [run_builtin]) id
  | pwd => exact iff_of_false (by simp [run_builtin]) id
  | mkdir => exact iff_of_false (by simp [run_builtin]) id
  | write => exact iff_of_false (by simp [run_builtin]) id
  | echo => exact iff_of_false (by simp [run_builtin]) id
  | clear => exact iff_of_false (by simp [run_builtin]) id
  | exit => exact iff_of_false (by simp [run_builtin]) id
  | _ => cases hown

end Shell
