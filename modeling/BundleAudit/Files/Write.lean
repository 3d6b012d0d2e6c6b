import BundleAudit.Files.Walk
import BundleAudit.Text.Lines

/-!
# BundleAudit.Files.Write

**Writing files.** A file is written next to its place, under its name with `.tmp`
added, and then renamed; so what stood at its place is there until the whole text is
written, and stays there if that fails. The directories around it are made as they
are needed, and the temporary file is taken away after a failure.

A change that fails may have been made in part, so each gives the tree as it is
afterwards, and the failure if there is one.
-/

namespace BundleAudit.Tree

/-! ### Directories -/

/-- Makes a directory at a path where nothing stands. -/
def makeDirectory (t : Tree) (path : Text) : Except SystemCause Tree :=
  match t.place .entry path with
  | .error cause => .error cause
  | .ok (.found _) => .error .entryExists
  | .ok (.missing directory name) => .ok (t.put (directory ++ [name]) .directory)

/-- What is left of the failure to make a directory: none if the path leads to one. -/
def unlessDirectory (t : Tree) (path : Text) (cause : SystemCause) : Option Failure :=
  match t.isDirectory path with
  | .ok true => none
  | .ok false => some (.system cause path none)
  | .error failure => some failure

/-- Makes the directory at a path, whose names are given from the last to the first, and those
around it, where there are none. -/
def makeDirectoriesFrom (root : Text) (t : Tree) : List Text → Tree × Option Failure
  | [] => (t, none)
  | name :: around =>
    let path := Path.toText ⟨root, (name :: around).reverse⟩
    match t.makeDirectory path with
    | .ok t => (t, none)
    | .error .noSuchEntry =>
      match makeDirectoriesFrom root t around with
      | (t, some failure) => (t, some failure)
      | (t, none) =>
        match t.makeDirectory path with
        | .ok t => (t, none)
        | .error .noSuchEntry => (t, some (.system .noSuchEntry path none))
        | .error cause => (t, t.unlessDirectory path cause)
    | .error cause => (t, t.unlessDirectory path cause)

/-- Makes the directory at a path and those around it, where there are none. -/
def makeDirectories (t : Tree) (path : Path) : Tree × Option Failure :=
  match notAPath? path.toText with
  | some failure => (t, some failure)
  | none => makeDirectoriesFrom path.root t path.names.reverse

/-! ### Files -/

/-- Makes the file at a path an empty one, and gives its location. -/
def openEmpty (t : Tree) (path : Text) : Except Failure (Tree × Location) :=
  match notAPath? path with
  | some failure => .error failure
  | none =>
    match t.place .writing path with
    | .error cause => .error (.system cause path none)
    | .ok (.missing directory name) =>
      .ok (t.put (directory ++ [name]) (.file []), directory ++ [name])
    | .ok (.found l) =>
      match t.entry? l with
      | some (.file _) => .ok (t.put l (.file []), l)
      | _ => .error (.system .isADirectory path none)

/-- Writes texts to the file at a path, one after the other. One that cannot be written ends the
file before it. -/
def writeInPlace (t : Tree) (path : Text) (texts : List Text) : Tree × Option Failure :=
  match t.openEmpty path with
  | .error failure => (t, some failure)
  | .ok (t, l) =>
    let written := texts.takeWhile (·.all Code.isScalar)
    (t.put l (.file (written.flatMap (·.flatMap Text.utf8Code))),
      if written.length = texts.length then none else some .unencodable)

/-- Moves the entry at a path to another path, in place of what stands there. -/
def rename (t : Tree) (path : Text) (target : Path) : Except Failure Tree :=
  let refused (cause : SystemCause) : Except Failure Tree :=
    .error (.system cause path (some target.toText))
  if isParent target.name then refused .busy
  else
    match t.place .entry path, t.place .entry target.toText with
    | .error cause, _ => refused cause
    | _, .error cause => refused cause
    | .ok (.missing _ _), _ => refused .noSuchEntry
    | .ok (.found l), .ok (.missing directory name) =>
      match t.entry? l with
      | some e => .ok ((t.put (directory ++ [name]) e).remove l)
      | none => refused .noSuchEntry
    | .ok (.found l), .ok (.found l') =>
      match t.entry? l, t.entry? l' with
      | _, some .directory => refused .isADirectory
      | some e, _ => .ok ((t.put l' e).remove l)
      | none, _ => refused .noSuchEntry

/-- Takes away the file or link at a path, if there is one. -/
def discard (t : Tree) (path : Text) : Tree × Option Failure :=
  match notAPath? path with
  | some failure => (t, some failure)
  | none =>
    match t.place .entry path with
    | .error .noSuchEntry => (t, none)
    | .error cause => (t, some (.system cause path none))
    | .ok (.missing _ _) => (t, none)
    | .ok (.found l) =>
      if t.entry? l = some .directory then (t, some (.system .isADirectory path none))
      else (t.remove l, none)

/-- Takes away a temporary file after a failure. -/
def giveUp (t : Tree) (temporary : Text) (failure : Failure) : Tree × Option Failure :=
  match t.discard temporary with
  | (t, some other) => (t, some other)
  | (t, none) => (t, some failure)

/-- Writes a text to a temporary path, and moves it to its place. -/
def writeThrough (t : Tree) (temporary : Text) (target : Path) (text : Text) :
    Tree × Option Failure :=
  match t.writeInPlace temporary [text] with
  | (t, some failure) => t.giveUp temporary failure
  | (t, none) =>
    match t.rename temporary target with
    | .ok t => (t, none)
    | .error failure => t.giveUp temporary failure

/-- What is added to the name of a file while it is being written. -/
def temporarySuffix : Text := ".tmp"

/-- Writes a text to the file at a path. -/
def writeText (t : Tree) (target : Path) (text : Text) : Tree × Option Failure :=
  match t.makeDirectories target.parent with
  | (t, some failure) => (t, some failure)
  | (t, none) =>
    match target.withSuffix (target.suffix ++ temporarySuffix) with
    | .error error => (t, some (.badSuffix error))
    | .ok temporary => t.writeThrough temporary.toText target text

/-- Writes lines to the file at a path, each with its line end. -/
def writeLines (t : Tree) (target : Path) (lines : List Text) : Tree × Option Failure :=
  t.writeText target (Text.ofLines lines)

end BundleAudit.Tree
