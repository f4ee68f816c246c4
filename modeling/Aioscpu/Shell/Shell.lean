import Aioscpu.Bridge.RootedPaths
import Aioscpu.Framework.Deque
import Aioscpu.Framework.Interpreter
import Aioscpu.Framework.OsCalls
import Aioscpu.Framework.TextFile
import Aioscpu.Kernel.EventBus

/-! # Shell

  `shell/__init__.py`: the table of the built-in commands, the dispatch of a line, the commands
  on files, the history and the loop that reads lines.

  The built-in commands that ask other services, the handlers of the plugins and `AURA.query` are
  functions of the host. They may change all of the system and raise, but none of them changes the
  fields of the shell. So may other threads change the system, between the steps of the loop.
-/

namespace Shell

open ModelManager (join isabs)
open StorageService (base)

/-- What the commands on files can raise. -/
inductive Exc where
  /-- An `OSError`, with the path that it names. -/
  | os (errno : Errno) (filename : String)
  /-- What `os.makedirs` raises for a path. -/
  | makedirs (path : String)
  /-- The `ValueError` for a null character. -/
  | null
  /-- The `UnicodeEncodeError` for a text. -/
  | unicode (text : String)

/-- The handlers that `_register_builtins` names. -/
inductive Builtin where
  | help | status | services | sysinfo | version | uname
  | device
  | model
  | build | repair | test
  | logs
  | ls | cat | pwd | mkdir | rm | write | echo
  | ps | clear | history | date | uptime | whoami
  | ping | net
  | pkg
  | web
  | exit
deriving DecidableEq, Repr

/-- `_register_builtins`. -/
def register_builtins : List (String × Builtin) :=
  [("help", .help), ("status", .status), ("services", .services), ("sysinfo", .sysinfo),
    ("version", .version), ("uname", .uname), ("device", .device), ("model", .model),
    ("build", .build), ("rebuild", .build), ("repair", .repair), ("test", .test), ("logs", .logs),
    ("ls", .ls), ("cat", .cat), ("pwd", .pwd), ("mkdir", .mkdir), ("rm", .rm), ("write", .write),
    ("echo", .echo), ("ps", .ps), ("clear", .clear), ("history", .history), ("date", .date),
    ("uptime", .uptime), ("whoami", .whoami), ("ping", .ping), ("net", .net), ("pkg", .pkg),
    ("web", .web), ("exit", .exit), ("quit", .exit)]

def HISTORY_LIMIT : Nat := 200

/-- What the commands read and write; `W` stands for all but the files and the bus. -/
structure System (β P C W : Type) where
  fs : FileSystem β
  bus : EventBus P C
  /-- `Event._counter`. -/
  counter : Nat
  world : W

/-- The shell, with the system. `H` is the type of the handlers of plugins. -/
structure State (β P C H W : Type) where
  running : Bool
  history : List String
  /-- What `_load_plugins` has added to the table. -/
  plugins : Dict String H
  sys : System β P C W

/-- What the shell is given. -/
structure Host (β P C H W : Type) where
  encoding : Encoding β
  /-- The directory of the process. -/
  getcwd : Dir
  /-- `os.path.expanduser`. -/
  expanduser : String → String
  /-- `str(exc)`. -/
  str : Exc → String
  lower : String → String
  isdigit : String → Bool
  /-- `int(s)`; `none` where it raises. -/
  int : String → Option Nat
  history_file : String
  shutdown_payload : P
  /-- The built-in commands that are not modelled. -/
  builtin : Builtin → State β P C H W → List String → System β P C W × Option (Option String)
  plugin : H → State β P C H W → List String → System β P C W × Option (Option String)
  /-- `AURA.query`. -/
  query : State β P C H W → String → System β P C W × Option (Option String)

variable {β P C H W : Type}

/-! ### Paths -/

/-- `self._cwd`. -/
def Host.cwd (host : Host β P C H W) : String := host.expanduser "~"

/-- A path, joined to the directory of the shell unless it is absolute. -/
def Host.absolute (host : Host β P C H W) (path : String) : String :=
  if isabs path then path else join host.cwd path

/-- The place that a path leads to. -/
def Host.place (host : Host β P C H W) (path : String) : Dir :=
  (base host.getcwd path).walk (PyStr.split path '/')

/-- A call of the system with a path. -/
def Host.call {α : Type} (host : Host β P C H W) (path : String)
    (f : Dir → List String → Except Errno α) : Except Exc α :=
  if '\x00' ∈ path.toList then .error .null
  else if path = "" then .error (.os .ENOENT path)
  else
    match f (base host.getcwd path) (PyStr.split path '/') with
    | .ok a => .ok a
    | .error e => .error (.os e path)

/-- `os.path.isdir`. -/
def Host.isdir (host : Host β P C H W) (fs : FileSystem β) (path : String) : Bool :=
  match host.call path fun dir steps => .ok (fs.isdirAt dir steps) with
  | .ok isdir => isdir
  | .error _ => false

/-! ### Commands on files -/

/-- `f"{n:,}"`. -/
def thousands (n : Nat) : String :=
  let rec group : List Char → List Char
    | a :: b :: c :: d :: digits => a :: b :: c :: ',' :: group (d :: digits)
    | digits => digits
  String.ofList (group (Nat.toDigits 10 n).reverse).reverse

/-- The line of `ls` for an entry of a directory. -/
def entry_line (host : Host β P C H W) (fs : FileSystem β) (d : Dir) (name : String) : String :=
  match fs.get (d.enter name) with
  | some (.file content) => name ++ "  (" ++ thousands (host.encoding.size content) ++ " B)"
  | _ => name ++ "/"

/-- `_cmd_ls`; `none` where it raises. -/
def cmd_ls (host : Host β P C H W) (fs : FileSystem β) (args : List String) : Option String :=
  let path := host.absolute (host.expanduser (args.headD host.cwd))
  match host.call path fs.listdir with
  | .ok entries =>
    some (if entries = [] then "(empty)"
      else "\n".intercalate ((entries.insertionSort (· ≤ ·)).map
        (entry_line host fs (host.place path))))
  | .error (.os .ENOENT _) => some ("ls: no such directory: " ++ path)
  | .error _ => none

/-- `_cmd_cat`. -/
def cmd_cat (host : Host β P C H W) (fs : FileSystem β) : List String → String
  | [] => "Usage: cat <file>"
  | arg :: _ =>
    let path := host.absolute arg
    match host.call path fs.openRead with
    | .ok content =>
      let content := host.encoding.read content
      if content = "" then "(empty file)" else content
    | .error (.os .ENOENT _) => "cat: no such file: " ++ path
    | .error exc => "cat: error: " ++ host.str exc

/-- `_cmd_mkdir`. -/
def cmd_mkdir (host : Host β P C H W) (fs : FileSystem β) : List String → FileSystem β × String
  | [] => (fs, "Usage: mkdir <directory>")
  | arg :: _ =>
    let path := host.absolute arg
    let made := fs.makedirs (base host.getcwd path) (PyStr.split path '/')
    (made.1, if made.2 then "Created: " ++ path else "mkdir: " ++ host.str (.makedirs path))

/-- `_cmd_rm`; `none` where it raises. -/
def cmd_rm (host : Host β P C H W) (fs : FileSystem β) :
    List String → FileSystem β × Option String
  | [] => (fs, some "Usage: rm <path>")
  | arg :: _ =>
    let path := host.absolute arg
    let isdir := host.isdir fs path
    match host.call path (if isdir then fs.rmdir else fs.unlink) with
    | .ok fs' => (fs', some ((if isdir then "Removed directory: " else "Removed: ") ++ path))
    | .error (.os .ENOENT _) => (fs, some ("rm: no such file or directory: " ++ path))
    | .error (.os e filename) => (fs, some ("rm: " ++ host.str (.os e filename)))
    -- `ValueError` is no `OSError`
    | .error _ => (fs, none)

/-- What `write` answers when the file is written. -/
def written (content path : String) : String :=
  "Written " ++ content.length.repr ++ " chars to " ++ path

/-- `_cmd_write`. -/
def cmd_write (host : Host β P C H W) (fs : FileSystem β) :
    List String → FileSystem β × String
  | arg :: word :: words =>
    let content := " ".intercalate (word :: words)
    let path := host.absolute arg
    let made := fs.makedirs Dir.top (host.place path).names.dropLast
    if made.2 then
      -- the file is cut when it is opened, and the text encoded when it is written
      let text := host.encoding.writes [content ++ "\n"]
      match host.call path fun dir steps => made.1.writeFile dir steps text.1 with
      | .ok fs' =>
        (fs', if text.2 then written content path
          else "write: " ++ host.str (.unicode (content ++ "\n")))
      | .error exc => (made.1, "write: " ++ host.str exc)
    else (made.1, "write: " ++ host.str (.makedirs path))
  | _ => (fs, "Usage: write <file> <content...>")

/-! ### History -/

/-- `_load_history`, into a new shell. -/
def load_history (host : Host β P C H W) (fs : FileSystem β) : List String :=
  match host.call host.history_file fs.openRead with
  | .ok content =>
    match host.encoding.lines content with
    | some ls => Deque.lastItems (ls.filter fun l => PyStr.strip l ≠ "") HISTORY_LIMIT
    | none => []
  | .error _ => []

/-- `_save_history`: the files after it. -/
def save_history (host : Host β P C H W) (history : List String) (fs : FileSystem β) :
    FileSystem β :=
  let dir := RootedPaths.dirname host.history_file
  -- `os.makedirs("")` raises
  if dir = "" then fs
  else
    let made := fs.makedirs (base host.getcwd dir) (PyStr.split dir '/')
    if made.2 then
      let lines := (Deque.lastItems history HISTORY_LIMIT).map (· ++ "\n")
      match host.call host.history_file fun dir steps =>
          made.1.writeFile dir steps (host.encoding.writes lines).1 with
      | .ok fs' => fs'
      | .error _ => made.1
    else made.1

/-- `stop`. -/
def stop (host : Host β P C H W) (s : State β P C H W) : State β P C H W :=
  { s with running := false, sys := { s.sys with fs := save_history host s.history s.sys.fs } }

/-- `f"  {i+1:>3}  {cmd}"`. -/
def history_line (i : Nat) (cmd : String) : String :=
  let number := (i + 1).repr
  "  " ++ String.ofList (List.replicate (3 - number.length) ' ') ++ number ++ "  " ++ cmd

/-- `_cmd_history`; `none` where it raises. -/
def cmd_history (host : Host β P C H W) (s : State β P C H W) (args : List String) :
    Option String :=
  let n : Option Nat :=
    match args with
    | arg :: _ => if host.isdigit arg then host.int arg else some 20
    | [] => some 20
  n.map fun n =>
    let items := Deque.lastItems s.history n
    if items = [] then "No history yet."
    else "\n".intercalate (items.zipIdx.map fun item => history_line item.2 item.1)

/-- `_cmd_exit`. -/
def cmd_exit (host : Host β P C H W) (s : State β P C H W) : State β P C H W × String :=
  let event := Event.create s.sys.counter "SHUTDOWN" host.shutdown_payload Priority.CRITICAL "shell"
  (stop host { s with sys := { s.sys with bus := s.sys.bus.publish event.1, counter := event.2 } },
    "Shutting down AURA-AIOSCPU...")

/-! ### Dispatch -/

/-- A built-in command. -/
def run_builtin (host : Host β P C H W) (s : State β P C H W) (args : List String) :
    Builtin → State β P C H W × Option (Option String)
  | .ls => (s, (cmd_ls host s.sys.fs args).map some)
  | .cat => (s, some (some (cmd_cat host s.sys.fs args)))
  | .pwd => (s, some (some host.cwd))
  | .mkdir =>
    let r := cmd_mkdir host s.sys.fs args
    ({ s with sys := { s.sys with fs := r.1 } }, some (some r.2))
  | .rm =>
    let r := cmd_rm host s.sys.fs args
    ({ s with sys := { s.sys with fs := r.1 } }, r.2.map some)
  | .write =>
    let r := cmd_write host s.sys.fs args
    ({ s with sys := { s.sys with fs := r.1 } }, some (some r.2))
  | .echo => (s, some (some (" ".intercalate args)))
  | .clear => (s, some (some "\x1b[2J\x1b[H"))
  | .history => (s, (cmd_history host s args).map some)
  | .exit =>
    let r := cmd_exit host s
    (r.1, some (some r.2))
  | other =>
    let r := host.builtin other s args
    ({ s with sys := r.1 }, r.2)

/-- What a line is dispatched to. -/
inductive Route (H : Type) where
  | nothing
  | builtin (command : Builtin) (args : List String)
  | plugin (handler : H) (args : List String)
  | aura
deriving DecidableEq, Repr

/-- The test and the lookup of `dispatch`. -/
def route (host : Host β P C H W) (plugins : Dict String H) (input_text : String) : Route H :=
  match PyStr.words input_text with
  | [] => .nothing
  | token :: args =>
    match register_builtins.lookup (host.lower token) with
    | some command => .builtin command args
    | none =>
      match plugins.get (host.lower token) with
      | some handler => .plugin handler args
      | none => .aura

/-- `dispatch`: the state after it, and what it returns; `none` where it raises. -/
def dispatch (host : Host β P C H W) (s : State β P C H W) (input_text : String) :
    State β P C H W × Option (Option String) :=
  match route host s.plugins input_text with
  | .nothing => (s, some (some ""))
  | .builtin command args => run_builtin host s args command
  | .plugin handler args =>
    let r := host.plugin handler s args
    ({ s with sys := r.1 }, r.2)
  | .aura =>
    let r := host.query s input_text
    ({ s with sys := r.1 }, r.2)

/-- The lines of a session, one after the other. -/
def interpreter (host : Host β P C H W) :
    Interpreter (State β P C H W) String (Option String) where
  exec := dispatch host

/-! ### The loop -/

/-- A line is remembered. -/
def remember (history : List String) (line : String) : List String :=
  let history := history ++ [line]
  if history.length > HISTORY_LIMIT then history.tail else history

/-- Where `run` stands. -/
inductive Pc where
  /-- At the test of `while self._running`. -/
  | testing
  /-- Inside `input(PROMPT)`. -/
  | prompting
  | ended
  /-- A command has raised. -/
  | raised
deriving DecidableEq, Repr

inductive Label (β P C W : Type) where
  /-- `run` goes on to its next `input`, or ends. -/
  | test
  /-- `input` returns a line. -/
  | line (text : String)
  /-- `input` raises `EOFError` or `KeyboardInterrupt`. -/
  | interrupt
  /-- Another thread calls `stop`. -/
  | stop
  /-- Other threads and processes go on. -/
  | others (sys : System β P C W)

inductive Obs where
  | printed (output : Option String)
  /-- A command has raised, with the line it was given. -/
  | raised (line : String)
deriving DecidableEq, Repr

/-- The loop of `run`, after `self._running = True`. -/
def machine (host : Host β P C H W) :
    Machine (State β P C H W × Pc) (Label β P C W) Obs where
  step := fun s l =>
    match l, s with
    | .test, (s, .testing) => some ((s, if s.running then .prompting else .ended), [])
    | .line text, (s, .prompting) =>
      let line := PyStr.strip text
      if line = "" then some ((s, .testing), [])
      else
        match dispatch host { s with history := remember s.history line } line with
        | (s', some output) => some ((s', .testing), [.printed output])
        | (s', none) => some ((s', .raised), [.raised line])
    | .interrupt, (s, .prompting) => some ((stop host s, .ended), [])
    | .stop, (s, pc) => some ((stop host s, pc), [])
    | .others sys, (s, pc) => some (({ s with sys }, pc), [])
    | _, _ => none

/-- `Shell.__init__` and the start of `run`, with these commands of plugins. -/
def start (host : Host β P C H W) (plugins : Dict String H) (sys : System β P C W) :
    State β P C H W where
  running := true
  history := load_history host sys.fs
  plugins := plugins
  sys := sys

end Shell
