import Aioscpu.Framework.ConfigParser
import Aioscpu.Framework.Template

/-! # Module Builder

  The services that `services/module_builder.py` scaffolds, and the descriptors that
  `services/registry.py` parses. Texts are lists of characters.

  `str.lower` and `float` are Python's, and so is `eval`, which
  `expand_format_exprs` calls for what stands in braces.
-/

open ConfigParser (Text strip)

/-- What is used of Python's own functions; `ρ` are the floats. -/
structure Python (ρ : Type) where
  lower : Text → Text
  lower_ascii : ∀ t, (∀ c ∈ t, c.toNat < 128) → lower t = t.map Char.toLower
  float : Text → Option ρ
  float_digits : ∀ t, t ≠ [] → (∀ c ∈ t, c.isDigit = true) → (float t).isSome = true

namespace ModuleBuilder

open Template

/-! ### Names -/

/-- `[a-z0-9_]`. -/
def isWord (c : Char) : Bool := c.isLower || c.isDigit || c = '_'

/-- `re.sub(r"_+", "_", t)`. -/
def underscores : Text → Text
  | [] => []
  | c :: t => if c = '_' ∧ t.head? = some '_' then underscores t else c :: underscores t

/-- `_sanitize`; `none` where it raises. -/
def sanitize (lower : Text → Text) (name : Text) : Option Text :=
  let name := strip (lower name)
  let name := name.map fun c => if isWord c then c else '_'
  let name := ((underscores name).dropWhile (· = '_')).rdropWhile (· = '_')
  if name = [] then none else some name

/-- `part.capitalize()`, for ASCII texts. -/
def capitalize : Text → Text
  | [] => []
  | c :: t => c.toUpper :: t.map Char.toLower

def to_class_name (snake : Text) : Text := (snake.splitOn '_').flatMap capitalize

/-! ### Templates -/

/-- A text of lines. -/
def unlines (lines : List String) : Text := lines.flatMap fun line => line.toList ++ ['\n']

/-- The lines of `_SERVICE_TEMPLATE`, down to the description in the class. -/
def SERVICE_TEMPLATE_HEAD : List String :=
  [ "\"\"\"",
    "AURA-AIOSCPU {class_name} Service",
    "\x7b\"=\" * (len(class_name) + 24)\x7d",
    "{description}",
    "",
    "Events published",
    "----------------",
    "  {UPPER_NAME}_STARTED   — service has started",
    "  {UPPER_NAME}_STOPPED   — service has stopped",
    "\"\"\"",
    "from __future__ import annotations",
    "",
    "import logging",
    "import threading",
    "import time",
    "",
    "logger = logging.getLogger(__name__)",
    "",
    "",
    "class {class_name}Service:",
    "    \"\"\"",
    "    {description}" ]

/-- The rest of its lines. -/
def SERVICE_TEMPLATE_BODY : List String :=
  [ "",
    "    Parameters",
    "    ----------",
    "    event_bus : EventBus | None",
    "        Kernel event bus for publishing events.",
    "    \"\"\"",
    "",
    "    def __init__(self, event_bus=None):",
    "        self._bus      = event_bus",
    "        self._running  = False",
    "        self._thread: threading.Thread | None = None",
    "",
    "    # ------------------------------------------------------------------",
    "    # Lifecycle",
    "    # ------------------------------------------------------------------",
    "",
    "    def start(self) -> None:",
    "        \"\"\"Start the service.\"\"\"",
    "        if self._running:",
    "            return",
    "        self._running = True",
    "        self._thread = threading.Thread(",
    "            target=self._run, daemon=True, name=\"{lower_name}-svc\"",
    "        )",
    "        self._thread.start()",
    "        self._publish(\"{UPPER_NAME}_STARTED\", \x7b\x7b\x7d\x7d)",
    "        logger.info(\"{class_name}Service: started\")",
    "",
    "    def stop(self) -> None:",
    "        \"\"\"Stop the service.\"\"\"",
    "        self._running = False",
    "        self._publish(\"{UPPER_NAME}_STOPPED\", \x7b\x7b\x7d\x7d)",
    "        logger.info(\"{class_name}Service: stopped\")",
    "",
    "    # ------------------------------------------------------------------",
    "    # Main loop",
    "    # ------------------------------------------------------------------",
    "",
    "    def _run(self) -> None:",
    "        while self._running:",
    "            time.sleep(1)",
    "            # TODO: implement service logic here",
    "",
    "    # ------------------------------------------------------------------",
    "    # Status",
    "    # ------------------------------------------------------------------",
    "",
    "    def status(self) -> dict:",
    "        return \x7b\x7b",
    "            \"running\": self._running,",
    "        \x7d\x7d",
    "",
    "    # ------------------------------------------------------------------",
    "    # Helpers",
    "    # ------------------------------------------------------------------",
    "",
    "    def _publish(self, event_type: str, payload: dict) -> None:",
    "        if self._bus is None:",
    "            return",
    "        try:",
    "            from kernel.event_bus import Event, Priority",
    "            self._bus.publish(Event(",
    "                event_type, payload=payload,",
    "                priority=Priority.NORMAL,",
    "                source=\"{lower_name}_service\",",
    "            ))",
    "        except Exception:",
    "            pass" ]

def SERVICE_TEMPLATE : Text := unlines (SERVICE_TEMPLATE_HEAD ++ SERVICE_TEMPLATE_BODY)

def SERVICE_DESCRIPTOR_TEMPLATE : Text :=
  unlines
    [ "[Service]",
      "Name={lower_name}",
      "Description={description}",
      "Module=services.{lower_name}_service:{class_name}Service",
      "AutoStart=true",
      "RestartPolicy=on-failure",
      "RestartDelay=5",
      "",
      "[Health]",
      "CheckInterval=30",
      "MaxFailures=3" ]

def TEST_TEMPLATE : Text :=
  unlines
    [ "\"\"\"Tests for {class_name}Service.\"\"\"",
      "import pytest",
      "from kernel.event_bus import EventBus",
      "from services.{lower_name}_service import {class_name}Service",
      "",
      "",
      "@pytest.fixture",
      "def bus():",
      "    return EventBus()",
      "",
      "",
      "@pytest.fixture",
      "def service(bus):",
      "    svc = {class_name}Service(bus)",
      "    yield svc",
      "    svc.stop()",
      "",
      "",
      "class Test{class_name}Service:",
      "    def test_start_stop(self, service):",
      "        service.start()",
      "        assert service.status()[\"running\"] is True",
      "        service.stop()",
      "",
      "    def test_status_dict(self, service):",
      "        s = service.status()",
      "        assert \"running\" in s",
      "",
      "    def test_start_idempotent(self, service):",
      "        service.start()",
      "        service.start()  # second call must not crash",
      "        assert service.status()[\"running\"] is True",
      "        service.stop()" ]

def PLUGIN_TEMPLATE : Text :=
  unlines
    [ "\"\"\"",
      "AURA-AIOSCPU Shell Plugin: {name}",
      "\x7b\"=\" * (len(name) + 28)\x7d",
      "{description}",
      "\"\"\"",
      "from __future__ import annotations",
      "",
      "import logging",
      "",
      "logger = logging.getLogger(__name__)",
      "",
      "",
      "def register(shell) -> None:",
      "    \"\"\"Register commands with the AURA shell.\"\"\"",
      "    shell.register(\"{lower_name}\", cmd_{lower_name})",
      "    logger.debug(\"{name} plugin registered\")",
      "",
      "",
      "def cmd_{lower_name}(args: list[str], shell) -> str:",
      "    \"\"\"",
      "    {description}",
      "",
      "    Usage:  {lower_name} [options]",
      "    \"\"\"",
      "    # TODO: implement command logic",
      "    return f\"{name} plugin — args: \x7b\x7bargs!r\x7d\x7d\"" ]

/-- `_expand_format_exprs`; `eval` is `none` where Python's raises. -/
def expand_format_exprs (eval : Text → Option Text) (src : Text) : Text :=
  subBraces (fun expr => (eval expr).getD (braces expr)) src

/-- `_SERVICE_TEMPLATE` as `_render_service` fills it in. -/
def filled_service (name class_name description : Text) : Text :=
  let upper := name.map Char.toUpper
  let tpl := SERVICE_TEMPLATE
  let tpl := replace (braces "class_name".toList) class_name tpl
  let tpl := replace (braces "lower_name".toList) name tpl
  let tpl := replace (braces "UPPER_NAME".toList) upper tpl
  replace (braces "description".toList) description tpl

def render_service (eval : Text → Option Text) (name class_name description : Text) : Text :=
  expand_format_exprs eval (filled_service name class_name description)

def render_descriptor (name class_name description : Text) : Text :=
  let tpl := SERVICE_DESCRIPTOR_TEMPLATE
  let tpl := replace (braces "lower_name".toList) name tpl
  let tpl := replace (braces "class_name".toList) class_name tpl
  replace (braces "description".toList) description tpl

def render_test (name class_name : Text) : Text :=
  let tpl := TEST_TEMPLATE
  let tpl := replace (braces "class_name".toList) class_name tpl
  replace (braces "lower_name".toList) name tpl

/-- `_PLUGIN_TEMPLATE` as `_render_plugin` fills it in. -/
def filled_plugin (name description : Text) : Text :=
  let tpl := PLUGIN_TEMPLATE
  let tpl := replace (braces "name".toList) (to_class_name name) tpl
  let tpl := replace (braces "lower_name".toList) name tpl
  replace (braces "description".toList) description tpl

def render_plugin (eval : Text → Option Text) (name description : Text) : Text :=
  expand_format_exprs eval (filled_plugin name description)

/-- What `scaffold_service` writes, and the names it writes it for. -/
structure Scaffold where
  name : Text
  class_name : Text
  description : Text
  /-- `services/<name>_service.py`. -/
  service : Text
  /-- `services.d/<name>.service`. -/
  descriptor : Text

/-- `scaffold_service`; `none` where it raises. -/
def scaffold_service (lower : Text → Text) (eval : Text → Option Text) (name description : Text) :
    Option Scaffold :=
  (sanitize lower name).map fun name =>
    let class_name := to_class_name name
    let description :=
      if description = [] then "AURA ".toList ++ class_name ++ " service.".toList else description
    { name := name, class_name := class_name, description := description,
      service := render_service eval name class_name description,
      descriptor := render_descriptor name class_name description }

end ModuleBuilder

/-! ### Descriptors -/

namespace ServiceRegistry

open ConfigParser

inductive RestartPolicy where
  | NEVER
  | ALWAYS
  | ON_FAILURE
deriving DecidableEq, Repr

/-- What `_parse_service_file` reads. -/
structure ParsedService (ρ : Type) where
  name : Text
  description : Text
  module : Text
  auto_start : Bool
  restart_policy : RestartPolicy
  restart_delay : ρ
  depends_on : List Text
  check_interval : ρ
  max_failures : Int

def policy_map (policy : Text) : Option RestartPolicy :=
  if policy = "never".toList then some .NEVER
  else if policy = "always".toList then some .ALWAYS
  else if policy = "on-failure".toList then some .ON_FAILURE
  else none

/-- `cp[sect].get(optname, fallback) if sect in cp else fallback`. -/
def getOr (lower : Text → Text) (cp : State) (sect optname fallback : Text) : Option Text :=
  if cp.sections.get sect = none then some fallback else cp.get lower sect optname fallback

/-- `_parse_service_file`, from the name of the file and its text; `none` where it raises. -/
def parse_service_file {ρ : Type} (py : Python ρ) (basename text : Text) :
    Option (ParsedService ρ) := do
  let cp ← read py.lower text
  let s := getOr py.lower cp "Service".toList
  let h := getOr py.lower cp "Health".toList
  let name ← s "Name".toList (Template.replace ".service".toList [] basename)
  let depends_raw ← s "DependsOn".toList []
  let depends := ((strip depends_raw).splitOn ',').map strip |>.filter (· ≠ [])
  let policy_raw ← s "RestartPolicy".toList "on-failure".toList
  let description ← s "Description".toList []
  let module ← s "Module".toList []
  let auto_start ← s "AutoStart".toList "true".toList
  let restart_delay ← py.float (← s "RestartDelay".toList "5".toList)
  let check_interval ← py.float (← h "CheckInterval".toList "30".toList)
  let max_failures ← PyStr.int (String.ofList (← h "MaxFailures".toList "3".toList))
  pure
    { name := name, description := description, module := module,
      auto_start := py.lower auto_start = "true".toList,
      restart_policy := (policy_map (strip policy_raw)).getD .ON_FAILURE,
      restart_delay := restart_delay, depends_on := depends, check_interval := check_interval,
      max_failures := max_failures }

end ServiceRegistry
