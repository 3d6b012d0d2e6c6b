import BundleAudit.FileKind
import BundleAudit.Files.Read

/-!
# BundleAudit.Module.Basic

**Modules of a repository.** A module has a directory, a source root within it, and a
manifest if it is a platform module. Its files are those below the source root whose
names have a kind, each in the package of its directory; links are left out, and so are
files whose paths are too long.
-/

namespace BundleAudit

/-- A file of a module. -/
structure ModuleFile where
  /-- The directories from the source root to the file, with slashes between them. -/
  package : Text
  path : Text
  kind : FileKind
  deriving DecidableEq, Repr

/-- A module of a repository. -/
structure RepositoryModule where
  /-- The name by which reports and tables know it. -/
  identity : Text
  root : Text
  sourceRoot : Text
  manifest : Option Text := none
  files : List ModuleFile := []
  deriving DecidableEq, Repr

namespace RepositoryModule

/-- The path to which names below a source root lead. -/
def pathBelow (sourceRoot : Path) (names : List Text) : Text := (sourceRoot.join ⟨[], names⟩).toText

/-- The file that names below a source root lead to, if it has a kind and its path is not too long.
-/
def file? (s : Settings) (sourceRoot : Path) (names : List Text) : Option ModuleFile :=
  if Tree.isOverlong (pathBelow sourceRoot names) then none
  else (FileKind.ofName? s (names.getLastD [])).map fun kind =>
    { package := List.intercalate [Code.slash] names.dropLast
      path := pathBelow sourceRoot names
      kind }

/-- The warning about a path that cannot be looked at. -/
def skipped (path : Text) (failure : Failure) : Message :=
  .warn ("Skipping unreadable path: " ++ path ++ " (" ++ failure.message ++ ")")

/-- The warnings about what stands below a source root and cannot be looked at. -/
def skippedBelow (t : Tree) (sourceRoot : Path) (names : List (List Text)) : Log :=
  names.filterMap fun names =>
    match t.lookAt (pathBelow sourceRoot names) with
    | .ok _ => none
    | .error failure => some (skipped (pathBelow sourceRoot names) failure)

/-- Why it is not possible to look into what stands at names below a source root, if it is a
directory and that is not possible: it has more than `depth` directories down to it, or its path is
too long. -/
def closed? (depth : Nat) (sourceRoot : Path) (names : List Text) : Entry → Option Failure
  | .directory =>
    if depth < names.length then some .nestedTooDeep
    else if Tree.isOverlong (pathBelow sourceRoot names) then
      some (.system .nameTooLong (pathBelow sourceRoot names) none)
    else none
  | _ => none

/-- Why it is not possible to look into all that stands below a source root, if it is not. -/
def closedBelow? (depth : Nat) (sourceRoot : Path) (entries : List (List Text × Entry)) :
    Option Failure := entries.findSome? fun (names, e) => closed? depth sourceRoot names e

/-- The files below a source root, with what is said about paths that cannot be looked at, and
about a source root that is no directory. It is a failure if a directory cannot be looked into. -/
def filesBelow (s : Settings) (t : Tree) (sourceRoot : Path) :
    Except Failure (List ModuleFile × Log) := do
  if ← t.isDirectory sourceRoot.toText then
    match t.place .target sourceRoot.toText with
    | .ok (.found l) =>
      let entries := t.entriesWithin l
      match closedBelow? t.depths.directories sourceRoot entries with
      | some failure => throw failure
      | none =>
        return ((t.filesWithin l).filterMap (file? s sourceRoot),
          skippedBelow t sourceRoot (entries.map Prod.fst))
    | _ => return ([], [])
  else return ([], [.debug ("No source root: " ++ sourceRoot.toText)])

/-- The module with the files below its source root. -/
def collectFiles (s : Settings) (t : Tree) (m : RepositoryModule) :
    Except Failure (RepositoryModule × Log) := do
  let (files, log) ← filesBelow s t (Path.ofText m.sourceRoot)
  return ({ m with files },
    log ++ [.debug (m.identity ++ ": " ++ Text.ofNat files.length ++ " files")])

end RepositoryModule

end BundleAudit
