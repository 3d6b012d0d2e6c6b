import BundleAudit.Text.Basic

/-!
# BundleAudit.Path

**Paths as written.** A path is a root, which may be absent, and the names between
its slashes. Empty names and names of a single dot mean nothing and are left out;
a name of two dots is kept, since only the file system knows where it leads.

Two leading slashes, and only two, are a root of their own.
-/

namespace BundleAudit

/-- A path without redundant parts. -/
structure Path where
  /-- One slash or two for an absolute path, empty for a relative one. -/
  root : Text
  names : List Text
  deriving DecidableEq, Repr

namespace Path

/-- Names that a path does not keep. -/
def isRedundant (name : Text) : Bool := name == [] || name == [Code.dot]

/-- The names between the slashes of a text. -/
def namesOf (t : Text) : List Text := (t.splitOn Code.slash).filter (!isRedundant ·)

/-- The path that a text denotes. -/
def ofText (t : Text) : Path :=
  let root : Text :=
    match (t.takeWhile (· == Code.slash)).length with
    | 0 => []
    | 2 => [Code.slash, Code.slash]
    | _ => [Code.slash]
  ⟨root, namesOf t⟩

/-- Whether a path starts at the root. -/
def isAbsolute (p : Path) : Bool := !p.root.isEmpty

/-- The text of a path; the empty relative path is a dot. -/
def toText (p : Path) : Text :=
  if p.root.isEmpty && p.names.isEmpty then [Code.dot]
  else p.root ++ List.intercalate [Code.slash] p.names

/-- The path `q` seen from `p`: `q` itself if it is absolute. -/
def join (p q : Path) : Path := if q.isAbsolute then q else ⟨p.root, p.names ++ q.names⟩

/-- The path to a name within a path. -/
def child (p : Path) (name : Text) : Path := ⟨p.root, p.names ++ [name]⟩

/-- The path without its last name. -/
def parent (p : Path) : Path := ⟨p.root, p.names.dropLast⟩

/-- The last name, empty if there is none. -/
def name (p : Path) : Text := p.names.getLastD []

/-! ### Stem and suffix of a name -/

/-- A name cut before its last dot, if that has something on both sides. -/
def splitName (name : Text) : Text × Text :=
  match name.cutLast? Code.dot with
  | some (before, after) =>
    if before.isEmpty || after.isEmpty then (name, []) else (before, Code.dot :: after)
  | none => (name, [])

/-- The last name without its suffix. -/
def stem (p : Path) : Text := (splitName p.name).1

/-- The suffix of the last name, with its dot; empty if there is none. -/
def suffix (p : Path) : Text := (splitName p.name).2

/-- Why a path cannot get another suffix. -/
inductive SuffixError
  /-- The suffix has a slash, no dot in front, or nothing but a dot. -/
  | invalidSuffix (suffix : Text)
  /-- The path has no name. -/
  | emptyName (path : Path)

/-- The path with another suffix in place of its own. -/
def withSuffix (p : Path) (suffix : Text) : Except SuffixError Path :=
  if suffix.elem Code.slash || (!suffix.isEmpty && suffix.head? != some Code.dot)
      || suffix == [Code.dot] then
    .error (.invalidSuffix suffix)
  else if p.name.isEmpty then .error (.emptyName p)
  else .ok ⟨p.root, p.names.dropLast ++ [p.stem ++ suffix]⟩

/-! ### Order -/

/-- The root, where there is one, and the names. -/
def parts (p : Path) : List Text := if p.root.isEmpty then p.names else p.root :: p.names

/-- Paths are ordered by their parts, from the first on. -/
def le (p q : Path) : Bool := Text.lexLe Text.le p.parts q.parts

end Path

end BundleAudit
