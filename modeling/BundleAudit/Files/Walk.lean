import BundleAudit.Failure
import BundleAudit.Files.Tree

/-!
# BundleAudit.Files.Walk

**Where a path leads.** The names of a path are followed one by one from the root or
the working directory; a link sends the walk on to its target. Asking for an entry
that need not exist has an answer in most cases; opening a file gives a failure with
its cause and the path as it was given.

A path is resolved without asking whether anything stands at its end: names at which
nothing stands are kept, and only links and double dots are replaced.
-/

namespace BundleAudit.Tree

/-! ### Walking -/

/-- Where a walk ends. -/
inductive Place
  | found (l : Location)
  /-- Nothing stands at a name in a directory. -/
  | missing (directory : Location) (name : Text)
  deriving DecidableEq, Repr

/-- What a walk is for. -/
inductive Purpose
  /-- Asking for the entry at the end, even if it is a link. -/
  | entry
  /-- Asking for what a link at the end leads to. -/
  | target
  /-- Writing a file there, or where a link at the end leads to. -/
  | writing
  deriving DecidableEq, Repr

/-- The names of a path as it is given. A slash at its end, which asks for a directory, leaves an
empty name. -/
def namesOf (path : Text) : List Text :=
  let names := (Text.splitOn Code.slash path).filter (!·.isEmpty)
  if path.getLast? = some Code.slash then names ++ [[]] else names

/-- Where the walk along a path starts. -/
def startOf (here : Location) (path : Text) : Location :=
  if path.head? = some Code.slash then [] else here

/-- Whether a name is one of the directory itself. -/
def isSame (name : Text) : Bool := name.isEmpty || name == [Code.dot]

/-- Whether a name is the one of the directory around. -/
def isParent (name : Text) : Bool := name == [Code.dot, Code.dot]

/-- The most bytes of a name. -/
def nameLimit : Nat := 255

/-- The most bytes of a path. -/
def pathLimit : Nat := 4095

/-- The number of bytes in which a text is written. -/
def byteLength (t : Text) : Nat := (t.flatMap Text.utf8Code).length

/-- Whether a path has more bytes than the file system takes. -/
def isOverlong (path : Text) : Bool := byteLength path > pathLimit

/-- Walks along names from a directory. `onward` goes on after a link, from a directory along other
names. -/
def walkNames (t : Tree) (purpose : Purpose)
    (onward : Location → List Text → Except SystemCause Place) (l : Location) :
    List Text → Except SystemCause Place
  | [] => .ok (.found l)
  | name :: rest =>
    if isSame name then walkNames t purpose onward l rest
    else if isParent name then walkNames t purpose onward l.dropLast rest
    else if purpose = .writing && rest = [[]] then .error .isADirectory
    else if byteLength name > nameLimit then .error .nameTooLong
    else
      match t.entry? (l ++ [name]) with
      | none => if rest.isEmpty then .ok (.missing l name) else .error .noSuchEntry
      | some .directory => walkNames t purpose onward (l ++ [name]) rest
      | some (.file _) =>
        if rest.isEmpty then .ok (.found (l ++ [name])) else .error .notADirectory
      | some (.link target) =>
        if rest.isEmpty && purpose = .entry then .ok (.found (l ++ [name]))
        else onward (startOf l target) (namesOf target ++ rest)

/-- Walks along names from a directory, through fewer than `links` links. -/
def walk (t : Tree) (purpose : Purpose) : (links : Nat) → Location → List Text →
    Except SystemCause Place
  | 0 => fun _ _ => .error .tooManyLinks
  | links + 1 => walkNames t purpose (walk t purpose links)

/-- Where a path leads. -/
def place (t : Tree) (purpose : Purpose) (path : Text) : Except SystemCause Place :=
  if path.isEmpty then .error .noSuchEntry
  else if byteLength path > pathLimit then .error .nameTooLong
  else walk t purpose (linkLimit + 1) (startOf t.here path) (namesOf path)

/-- Why a text is no path at all, if it is none. -/
def notAPath? (path : Text) : Option Failure :=
  if !path.all Code.isScalar then some .unencodable
  else if path.elem Code.nul then some .zeroInPath
  else none

/-! ### Asking -/

/-- What a path leads to, if it leads anywhere; names that are too long are a failure. -/
def lookAt (t : Tree) (path : Text) : Except Failure (Option Entry) :=
  if (notAPath? path).isSome then .ok none
  else
    match t.place .target path with
    | .ok (.found l) => .ok (t.entry? l)
    | .error .nameTooLong => .error (.system .nameTooLong path none)
    | _ => .ok none

/-- Whether a path leads to a file. -/
def isFile (t : Tree) (path : Text) : Except Failure Bool :=
  (t.lookAt path).map fun
    | some (.file _) => true
    | _ => false

/-- Whether a path leads to a directory. -/
def isDirectory (t : Tree) (path : Text) : Except Failure Bool :=
  (t.lookAt path).map (· == some .directory)

/-- Whether a path leads to anything. -/
def hasEntry (t : Tree) (path : Text) : Except Failure Bool := (t.lookAt path).map Option.isSome

/-! ### Reading -/

/-- The content of the file at a path. -/
def read (t : Tree) (path : Text) : Except Failure Bytes :=
  match notAPath? path with
  | some failure => .error failure
  | none =>
    match t.place .target path with
    | .error cause => .error (.system cause path none)
    | .ok (.missing _ _) => .error (.system .noSuchEntry path none)
    | .ok (.found l) =>
      match t.entry? l with
      | some (.file bytes) => .ok bytes
      | _ => .error (.system .isADirectory path none)

/-! ### Resolving -/

/-- What has been resolved of a path. -/
structure Resolved where
  location : Location
  /-- A link was met that leads back to itself. The names after it are taken as they are. -/
  circular : Bool := false
  deriving DecidableEq, Repr

/-- Adds a name as it is. -/
def Resolved.add (r : Resolved) (name : Text) : Resolved :=
  if isSame name then r
  else if isParent name then { r with location := r.location.dropLast }
  else { r with location := r.location ++ [name] }

/-- Follows names from a location, on the way to where the links `around` lead. It is a failure if
links lead to links more than `depth` deep. -/
def resolveNames (t : Tree) : (depth : Nat) → (around : List Location) → Location → List Text →
    Except Failure Resolved
  | 0, _, _, _ => .error .nestedTooDeep
  | depth + 1, around, l, names =>
    names.foldlM (fun r name =>
      if r.circular || isSame name || isParent name then return r.add name
      else
        match notAPath? name with
        | some failure => throw failure
        | none =>
          let next := r.add name
          match t.entry? next.location with
          | some (.link target) =>
            if next.location ∈ around then return { next with circular := true }
            else
              resolveNames t depth (next.location :: around) (startOf r.location target)
                (namesOf target)
          | _ => return next) ⟨l, false⟩

/-- Whether following the links along a path has no end. -/
def isEndless (t : Tree) (path : Text) : Bool :=
  match t.place .target path with
  | .error .tooManyLinks => true
  | _ => false

/-- The location that a path stands for, whether or not anything stands there. It is a failure if
the way there still leads through a link that leads back to itself. -/
def resolve (t : Tree) (path : Path) : Except Failure Location := do
  let r ← t.resolveNames t.depths.links [] (startOf t.here path.root) path.names
  let resolved := r.location.toPath.toText
  match notAPath? resolved with
  | some failure => throw failure
  | none =>
    if t.isEndless resolved then throw .linkCircle
    else return r.location

end BundleAudit.Tree
