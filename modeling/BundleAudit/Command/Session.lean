import BundleAudit.Command.Arguments
import BundleAudit.Module.Discovery
import BundleAudit.Scan

/-!
# BundleAudit.Command.Session

**Sessions.** A command works on a file tree and shows what it has to say on a console.
Where it fails, what was shown and written before stays. All commands begin by finding
modules and scanning them. What draws tables on a terminal is part of the environment.
-/

namespace BundleAudit.Command

/-- What a command finds around it. -/
structure Environment where
  /-- The home directories of users by their names; the user of the program has no name. -/
  homes : KeyedList Text Text
  /-- How many modules are scanned at a time if nothing else is said. -/
  threads : Int
  /-- When the command begins. -/
  started : Text
  /-- When its scan is finished. -/
  finished : Text
  /-- The order in which messages of modules that are scanned at a time are shown. -/
  arrange : Log → Log
  arrange_perm : ∀ log, (arrange log).Perm log
  /-- Why rows cannot be drawn as a table, if they cannot: what draws tables reads their cells as
  markup, and names may hold brackets. Messages and lines are drawn as they are. -/
  undrawn? : (rows : List (List Text)) → Option Failure

/-- The file tree and the console of a command. -/
structure Session where
  tree : Tree
  console : Console

/-- A part of a command. -/
abbrev Run := ExceptT Failure (StateM Session)

/-! ### The console -/

/-- Shows messages. -/
def sayAll (log : Log) : Run Unit :=
  modify fun x => { x with console := x.console.logAll log }

/-- Shows a message. -/
def say (m : Message) : Run Unit := sayAll [m]

/-- Changes the console. -/
def display (f : Console → Console) : Run Unit := modify fun x => { x with console := f x.console }

/-- Shows a table. It is a failure if it cannot be drawn. -/
def showTable (e : Environment) (title : Text) (headers : List Text) (rows : List (List Text)) :
    Run Unit :=
  match e.undrawn? rows with
  | some failure => throw failure
  | none => display fun c => c.add [.table title headers rows]

/-! ### The tree -/

/-- The file tree as it is. -/
def tree : Run Tree := do return (← get).tree

/-- Changes the file tree. -/
def change (f : Tree → Tree × Option Failure) : Run Unit := do
  let x ← get
  let (tree, failure) := f x.tree
  set { x with tree }
  match failure with
  | some failure => throw failure
  | none => pure ()

/-- A path with the home directory of a user in place of a tilde and the name of the user. -/
def Environment.expand (e : Environment) (p : Path) : Except Failure Path :=
  match p.isAbsolute, p.names with
  | false, (Code.tilde :: user) :: rest =>
    match e.homes.get? user with
    | some home => .ok ((Path.ofText home).join ⟨[], rest⟩)
    | none => .error .noHome
  | _, _ => .ok p

/-- The path that an argument stands for. -/
def pathOf (e : Environment) (argument : Text) : Run Path :=
  liftExcept (e.expand (Path.ofText argument))
where
  liftExcept : Except Failure Path → Run Path
    | .ok p => pure p
    | .error failure => throw failure

/-! ### Modules -/

/-- The settings of a command. -/
def ScanArguments.settings (a : ScanArguments) : Settings :=
  { Settings.standard with scanSecondaryCatalogs := a.allBundles }

/-- The root of the repository. -/
def ScanArguments.rootIn (e : Environment) (a : ScanArguments) (t : Tree) :
    Except Failure Location :=
  (e.expand (Path.ofText a.root)).bind t.resolve

/-- The modules of a repository, with what is said about finding them; none if there are none. -/
def modulesIn (t : Tree) (root : Location) (a : ScanArguments) :
    Except Failure (Option (List RepositoryModule) × Log) := do
  let text := root.toPath.toText
  if ← t.isDirectory text then
    let (modules, log) ←
      RepositoryModule.discover t root.toPath (splitDirectories a.topDirectories) a.moduleFilter
    if modules.isEmpty then return (none, log ++ [.error ("No modules found under " ++ text)])
    else return (some modules, log ++ [.info ("Modules: " ++ Text.ofNat modules.length)])
  else return (none, [.error ("Root folder not found: " ++ text)])

/-- Finds the modules of the repository; none if there are none. -/
def findModules (e : Environment) (a : ScanArguments) : Run (Option (List RepositoryModule)) := do
  let t ← tree
  match (a.rootIn e t).bind fun root => modulesIn t root a with
  | .error failure => throw failure
  | .ok (modules, log) =>
    sayAll log
    return modules

/-- Scans modules. -/
def scanModules (e : Environment) (a : ScanArguments) (modules : List RepositoryModule) :
    Run Scan := do
  let scan := Scan.ofModules a.settings (← tree) modules
  sayAll (e.arrange scan.log)
  return scan

end BundleAudit.Command
