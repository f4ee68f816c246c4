import Aioscpu.Shell.FileCommands

/-! # Plugins

  `shell/plugin_loader.py` loads the modules of a directory, one after the other in the order of
  their names, and `Shell._load_plugins` adds their commands to the table. A module may fail to
  load, it may not be a plugin, and it may raise after its commands are registered; the loader
  goes on with the next one.

  Main result (`plugin_resolution`): which line goes to which handler.
-/

namespace Shell

variable {H : Type}

/-! ### Modules -/

/-- `PLUGIN_NAME` of a module. -/
inductive PluginName where
  /-- Absent, or false as a condition. -/
  | falsy
  /-- A value that can be no key. -/
  | unhashable
  | key (name : String)

/-- What the loader reads of a module. -/
structure PluginModule (H : Type) where
  name : PluginName
  /-- `COMMANDS`, if it is a dictionary. What cannot be called is `none`. -/
  commands : Option (Dict String (Option H))
  /-- `HELP`, which is empty by default; `none` if it has no items. -/
  help : Option (Dict String String)

/-- What `_import_plugin` does for a name. -/
inductive Import (H : Type) where
  /-- There is no such file. -/
  | absent
  | raises
  | loaded (m : PluginModule H)

structure PluginLoader (H : Type) where
  plugins : Dict String (PluginModule H)
  commands : Dict String H
  help : Dict String String

namespace PluginLoader

/-- `PluginLoader()`. -/
def init : PluginLoader H := ⟨.empty, .empty, .empty⟩

/-- `_register_plugin`, and what it returns; `none` where it raises. -/
def register_plugin (loader : PluginLoader H) (m : PluginModule H) :
    PluginLoader H × Option Bool :=
  match m.name, m.commands with
  | .falsy, _ => (loader, some false)
  | _, none => (loader, some false)
  | .unhashable, some _ => (loader, none)
  | .key name, some cmds =>
    let loader := { loader with
      plugins := loader.plugins.set name m
      commands := loader.commands.update (cmds.filterMap id).items }
    match m.help with
    | some help => ({ loader with help := loader.help.update help.items }, some true)
    -- the commands are already there
    | none => (loader, none)

/-- The file is taken for a plugin. -/
def loadable (fname : String) : Bool :=
  PyStr.endswith fname ".py" && !PyStr.startswith fname "_"

/-- `fname[:-3]`. -/
def module_name (fname : String) : String := String.ofList (fname.toList.rdrop 3)

/-- A round of the loop of `load_all`, and the name that it adds to `loaded`. -/
def load_file (imports : String → Import H) (loader : PluginLoader H) (fname : String) :
    PluginLoader H × List String :=
  if loadable fname then
    match imports (module_name fname) with
    | .loaded m =>
      let r := loader.register_plugin m
      (r.1,
        match r.2, m.name with
        | some true, .key name => [name]
        | _, _ => [])
    | _ => (loader, [])
  else (loader, [])

/-- The loop of `load_all`, with `loaded`. -/
def load (imports : String → Import H) (loader : PluginLoader H) :
    List String → PluginLoader H × List String
  | [] => (loader, [])
  | fname :: fnames =>
    let r := load_file imports loader fname
    let r' := load imports r.1 fnames
    (r'.1, r.2 ++ r'.2)

/-- `load_all` of a new loader. `listing` is what `os.listdir` returns, in any order; `none` where
    there is no directory. -/
def load_all (imports : String → Import H) (listing : Option (List String)) :
    PluginLoader H × List String :=
  load imports init ((listing.getD []).insertionSort (· ≤ ·))

end PluginLoader

/-- What `_load_plugins` adds to the table. -/
def load_plugins (imports : String → Import H) (listing : Option (List String)) : Dict String H :=
  (PluginLoader.load_all imports listing).1.commands.filterKeys fun cmd =>
    (register_builtins.lookup cmd).isNone

/-! ### Commands of the files -/

/-- The commands that a module registers. -/
def PluginModule.handlers (m : PluginModule H) : List (String × H) :=
  match m.name, m.commands with
  | .key _, some cmds => (cmds.filterMap id).items
  | _, _ => []

/-- The commands that a file of the directory registers. -/
def provided (imports : String → Import H) (fname : String) : List (String × H) :=
  if PluginLoader.loadable fname then
    match imports (PluginLoader.module_name fname) with
    | .loaded m => m.handlers
    | _ => []
  else []

theorem register_plugin_commands (loader : PluginLoader H) (m : PluginModule H) :
    (loader.register_plugin m).1.commands = loader.commands.update m.handlers := by
  obtain ⟨name, commands, help⟩ := m
  cases name with
  | falsy => rfl
  | unhashable => cases commands <;> rfl
  | key name =>
    cases commands with
    | none => rfl
    | some cmds => cases help <;> rfl

theorem load_file_commands (imports : String → Import H) (loader : PluginLoader H)
    (fname : String) :
    (PluginLoader.load_file imports loader fname).1.commands =
      loader.commands.update (provided imports fname) := by
  unfold PluginLoader.load_file provided
  split
  · split
    · exact register_plugin_commands ..
    · rfl
  · rfl

/-- What a file provides does not depend on the other files. -/
theorem load_commands (imports : String → Import H) (loader : PluginLoader H)
    (fnames : List String) :
    (PluginLoader.load imports loader fnames).1.commands =
      loader.commands.update (fnames.flatMap (provided imports)) := by
  induction fnames generalizing loader with
  | nil => rfl
  | cons fname fnames ih =>
    rw [List.flatMap_cons, Dict.update_append, ← load_file_commands]
    exact ih _

theorem provided_nodup (imports : String → Import H) (fname : String) :
    ((provided imports fname).map Prod.fst).Nodup := by
  unfold provided PluginModule.handlers
  split
  · split
    · split
      · next cmds _ _ => exact (cmds.filterMap id).nodup
      · exact List.nodup_nil
    · exact List.nodup_nil
  · exact List.nodup_nil

/-- The order in which the directory is listed does not matter. -/
theorem load_all_perm (imports : String → Import H) {names names' : List String}
    (h : names.Perm names') :
    PluginLoader.load_all imports (some names) = PluginLoader.load_all imports (some names') := by
  have hsorted : names.insertionSort (· ≤ ·) = names'.insertionSort (· ≤ ·) := by
    refine List.Perm.eq_of_pairwise' (r := (· ≤ ·)) ?_ (List.pairwise_insertionSort _ _) ?_
    · exact List.pairwise_insertionSort _ _
    · exact (List.perm_insertionSort _ names).trans
        (h.trans (List.perm_insertionSort _ names').symm)
  unfold PluginLoader.load_all
  rw [Option.getD_some, Option.getD_some, hsorted]

/-! ### Resolution -/

/-- A file provides a handler for a command, and no file after it provides any. -/
def LastProvides (imports : String → Import H) (fnames : List String) (cmd : String)
    (handler : H) : Prop :=
  ∃ before fname after,
    fnames = before ++ fname :: after ∧ (cmd, handler) ∈ provided imports fname ∧
    ∀ later ∈ after, ∀ h, (cmd, h) ∉ provided imports later

theorem lookup_reverse_eq_some_iff {items : List (String × H)}
    (hnodup : (items.map Prod.fst).Nodup) {cmd : String} {handler : H} :
    items.reverse.lookup cmd = some handler ↔ (cmd, handler) ∈ items := by
  have hnodup' : (items.reverse.map Prod.fst).Nodup := by
    rw [List.map_reverse]
    exact List.nodup_reverse.mpr hnodup
  have hget := Dict.get_eq_some_iff (d := ⟨items.reverse, hnodup'⟩) (k := cmd) (v := handler)
  exact hget.trans List.mem_reverse

theorem lookup_flatMap {α : Type} (f : α → List (String × H)) (l : List α) (cmd : String) :
    (l.flatMap f).lookup cmd = l.findSome? fun a => (f a).lookup cmd := by
  induction l with
  | nil => rfl
  | cons a l ih =>
    rw [List.flatMap_cons, List.lookup_append, List.findSome?_cons, ih]
    cases (f a).lookup cmd <;> rfl

/-- The newest handler is that of the last file that has one. -/
theorem lookup_provided_iff (imports : String → Import H) (fnames : List String) (cmd : String)
    (handler : H) :
    (fnames.flatMap (provided imports)).reverse.lookup cmd = some handler ↔
      LastProvides imports fnames cmd handler := by
  have hsome : ∀ fname h, ((provided imports fname).reverse.lookup cmd = some h ↔
      (cmd, h) ∈ provided imports fname) := fun fname _ =>
    lookup_reverse_eq_some_iff (provided_nodup imports fname)
  have hnone : ∀ fname, ((provided imports fname).reverse.lookup cmd = none ↔
      ∀ h, (cmd, h) ∉ provided imports fname) := by
    intro fname
    rw [Option.eq_none_iff_forall_ne_some]
    exact forall_congr' fun h => not_congr (hsome fname h)
  -- the newest handler is looked for from the last file on
  rw [List.reverse_flatMap, lookup_flatMap, List.findSome?_eq_some_iff]
  constructor
  · rintro ⟨after, fname, before, heq, hlookup, hafter⟩
    refine ⟨before.reverse, fname, after.reverse, ?_, (hsome fname handler).mp hlookup, ?_⟩
    · rw [← List.reverse_reverse fnames, heq]
      simp
    · exact fun later hlater => (hnone later).mp (hafter later (List.mem_reverse.mp hlater))
  · rintro ⟨before, fname, after, rfl, hprovided, hafter⟩
    refine ⟨after.reverse, fname, before.reverse, by simp, (hsome fname handler).mpr hprovided, ?_⟩
    exact fun later hlater => (hnone later).mpr (hafter later (List.mem_reverse.mp hlater))

variable {β P C W : Type}

theorem load_all_get (imports : String → Import H) (names : List String) (cmd : String) :
    (PluginLoader.load_all imports (some names)).1.commands.get cmd =
      ((names.insertionSort (· ≤ ·)).flatMap (provided imports)).reverse.lookup cmd := by
  unfold PluginLoader.load_all
  rw [load_commands, Dict.get_update, Option.getD_some]
  exact Option.or_none

/-- A line goes to a plugin if its first word is no built-in command. -/
theorem route_plugin_iff (host : Host β P C H W) (plugins : Dict String H) (line : String)
    (handler : H) (args : List String) :
    route host plugins line = .plugin handler args ↔
      ∃ token, PyStr.words line = token :: args ∧
        register_builtins.lookup (host.lower token) = none ∧
        plugins.get (host.lower token) = some handler := by
  unfold route
  cases hwords : PyStr.words line with
  | nil => simp
  | cons token rest =>
    cases hbuiltin : register_builtins.lookup (host.lower token) with
    | some command =>
      simp only [hbuiltin]
      refine iff_of_false (by simp) ?_
      rintro ⟨token', heq, hnone, -⟩
      cases heq
      cases hbuiltin.symm.trans hnone
    | none =>
      simp only [hbuiltin]
      cases hhandler : plugins.get (host.lower token) with
      | some handler' =>
        constructor
        · intro heq
          cases heq
          exact ⟨token, rfl, hbuiltin, hhandler⟩
        · rintro ⟨token', heq, -, hget⟩
          cases heq
          cases hhandler.symm.trans hget
          rfl
      | none =>
        refine iff_of_false (by simp) ?_
        rintro ⟨token', heq, -, hget⟩
        cases heq
        cases hhandler.symm.trans hget

/-- **Resolution**: a line goes to a handler of a plugin if and only if its first word is in lower
    case no built-in command, and the handler is the one of the last file, in the order of the
    names, that provides the word. The other files of the directory, the ones that raise or are
    no plugins and the order in which it is listed have no part in it. -/
theorem plugin_resolution (host : Host β P C H W) (imports : String → Import H)
    {names listing : List String} (hlisting : listing.Perm names) (line : String) (handler : H)
    (args : List String) :
    route host (load_plugins imports (some listing)) line = .plugin handler args ↔
      ∃ token, PyStr.words line = token :: args ∧
        register_builtins.lookup (host.lower token) = none ∧
        LastProvides imports (names.insertionSort (· ≤ ·)) (host.lower token) handler := by
  unfold load_plugins
  rw [load_all_perm imports hlisting, route_plugin_iff]
  refine exists_congr fun token => and_congr_right fun _ => and_congr_right fun hbuiltin => ?_
  -- only commands that are built in are left out of the plugins
  rw [Dict.get_filterKeys, hbuiltin, Option.isNone_none, if_pos rfl, load_all_get]
  exact lookup_provided_iff imports _ _ handler

/-- A directory with two plugins that share a command, of which the second breaks at its help. -/
def twoPlugins : String → Import Nat
  | "alpha" => .loaded ⟨.key "a", some ((Dict.empty.set "top" (some 1)).set "ls" (some 2)),
      some .empty⟩
  | "beta" => .loaded ⟨.key "b", some (Dict.empty.set "top" (some 3)), none⟩
  | _ => .raises

/-- The command is the one of the second, which is listed first. -/
theorem plugin_resolution_shadowed :
    route (plainHostWith Nat) (load_plugins twoPlugins
      (some ["beta.py", "_old.py", "gamma.py", "alpha.py"])) "TOP -n 5" =
        .plugin 3 ["-n", "5"] := by
  have hlisting : ["beta.py", "_old.py", "gamma.py", "alpha.py"].Perm
      ["_old.py", "alpha.py", "beta.py", "gamma.py"] := by decide
  rw [plugin_resolution (plainHostWith Nat) twoPlugins hlisting]
  refine ⟨"TOP", by decide +kernel, by decide +kernel, ["_old.py", "alpha.py"], "beta.py",
    ["gamma.py"], by decide +kernel, by decide +kernel, ?_⟩
  intro later hlater h
  rw [List.mem_singleton.mp hlater]
  have hnone : provided twoPlugins "gamma.py" = [] := by decide +kernel
  rw [hnone]
  exact List.not_mem_nil

end Shell
