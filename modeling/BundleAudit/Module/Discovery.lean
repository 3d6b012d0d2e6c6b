import BundleAudit.Module.Basic
import BundleAudit.Text.Blank

/-!
# BundleAudit.Module.Discovery

**Finding modules.** Modules are looked for in top directories and in the directories
just within them. A directory is a module if it has the manifest of a platform module
or else a project file. Its identity is its resolved path seen from the root of the
repository, so a module that is reached in several ways is found once.
-/

namespace BundleAudit.RepositoryModule

/-- The name of a manifest. -/
def manifestName : Text := "manifest.mf"

/-- The name of a project file. -/
def projectFileName : Text := "pom.xml"

/-- The source root of a platform module. -/
def platformSourceRoot : Path := Path.ofText "src"

/-- The source root of a module with a project file. -/
def projectSourceRoot : Path := Path.ofText "src/main/java"

/-- A location seen from a directory around it: a dot for the directory itself, and the whole path
of what is not within it. -/
def relativeTo (root l : Location) : Text :=
  match List.isPrefixOf? root l with
  | some names => Path.toText ⟨[], names⟩
  | none => l.toPath.toText

/-- The identity of a directory in a repository. A root that is no path at all has nothing within
it. -/
def identityOf (t : Tree) (root directory : Path) : Except Failure Text :=
  match t.resolve directory with
  | .error failure => .error failure
  | .ok l =>
    match t.resolve root with
    | .ok r => .ok (relativeTo r l)
    | .error .linkCircle => .error .linkCircle
    | .error .nestedTooDeep => .error .nestedTooDeep
    | .error _ => .ok l.toPath.toText

/-- The module in a directory, if it is one. -/
def ofDirectory (t : Tree) (root directory : Path) : Except Failure (Option RepositoryModule) := do
  let manifest := (directory.child manifestName).toText
  if ← t.isPlatformManifest manifest then
    return some
      { identity := ← identityOf t root directory
        root := directory.toText
        sourceRoot := (directory.join platformSourceRoot).toText
        manifest := some manifest }
  else if ← t.isFile (directory.child projectFileName).toText then
    return some
      { identity := ← identityOf t root directory
        root := directory.toText
        sourceRoot := (directory.join projectSourceRoot).toText }
  else return none

/-! ### Candidates -/

/-- The directories just within a directory, in ascending order. -/
def directoriesIn (t : Tree) (directory : Path) : List Text → Except Failure (List Path)
  | [] => .ok []
  | name :: rest => do
    let more ← directoriesIn t directory rest
    if ← t.isDirectory (directory.child name).toText then return directory.child name :: more
    else return more

/-- The candidates in a top directory: itself and the directories just within it. -/
def candidatesIn (t : Tree) (top : Location) : Except Failure (List Path) :=
  (directoriesIn t top.toPath (t.names top)).map (top.toPath :: ·)

/-- The candidates in the top directory of a name; one that is no directory has none, and the log
says so. -/
def candidates (t : Tree) (root : Path) (name : Text) : Except Failure (List Path × Log) :=
  match name.trim with
  | [] => .ok ([], [])
  | name => do
    let top ← t.resolve (root.join (Path.ofText name))
    if ← t.isDirectory top.toPath.toText then return (← candidatesIn t top, [])
    else return ([], [.warn ("Skipping missing top directory: " ++ top.toPath.toText)])

/-- Whether a filter lets a directory pass: its name holds the text of the filter. -/
def passes (filter : Option Text) (directory : Path) : Bool :=
  match filter with
  | none => true
  | some part => part.isEmpty || Text.includes directory.name part

/-! ### Modules -/

/-- Modules by their identities. -/
abbrev Found := KeyedList Text RepositoryModule

/-- Adds a module, unless its identity is known. -/
def Found.add (found : Found) (m : RepositoryModule) : Found :=
  if (KeyedList.get? m.identity found).isSome then found else found ++ [(m.identity, m)]

/-- Adds the modules among directories. One in which files cannot be looked at is left out, and the
log says so. -/
def addModules (t : Tree) (root : Path) (found : Found) : List Path → Except Failure (Found × Log)
  | [] => .ok (found, [])
  | directory :: rest =>
    match ofDirectory t root directory with
    | .ok none => addModules t root found rest
    | .ok (some m) => addModules t root (found.add m) rest
    | .error (.system cause path target) =>
      (addModules t root found rest).map fun (found, log) =>
        (found,
          .warn ("Skipping unreadable module directory: " ++ directory.toText ++ " ("
            ++ (Failure.system cause path target).message ++ ")") :: log)
    | .error failure => .error failure

/-- Adds the modules in top directories. -/
def addTops (t : Tree) (root : Path) (filter : Option Text) (found : Found) :
    List Text → Except Failure (Found × Log)
  | [] => .ok (found, [])
  | top :: rest => do
    let (directories, log) ← candidates t root top
    let (found, more) ← addModules t root found (directories.filter (passes filter))
    let (found, others) ← addTops t root filter found rest
    return (found, log ++ more ++ others)

/-- The modules in the top directories of a repository, in ascending order of their identities. -/
def discover (t : Tree) (root : Path) (tops : List Text) (filter : Option Text) :
    Except Failure (List RepositoryModule × Log) :=
  (addTops t root filter [] tops).map fun (found, log) =>
    ((found.mergeSort fun a b => a.1.le b.1).map Prod.snd, log)

end BundleAudit.RepositoryModule
