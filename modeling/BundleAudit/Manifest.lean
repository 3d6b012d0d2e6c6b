import BundleAudit.KeyedList
import BundleAudit.Text.Blank

/-!
# BundleAudit.Manifest

**Manifests** hold attributes, a name and a value around a colon. A line that begins
with a space goes on with the value of the line before it; a line without a colon is
left out, with the lines that go on with it.

From the attributes follow the package of the module's own catalog, its layer file, and
whether it is a platform module.
-/

namespace BundleAudit

namespace Manifest

/-- The attributes of a manifest, and the one that the next line may go on with. -/
structure Reading where
  attributes : KeyedList Text Text := []
  last : Option Text := none
  deriving DecidableEq, Repr

/-- Reads one more line. -/
def readLine (r : Reading) (line : Text) : Reading :=
  match line, r.last with
  | Code.space :: more, some name =>
    { r with attributes := r.attributes.alter name [] (· ++ more) }
  | _, _ =>
    match line.cut? Code.colon with
    | none => { r with last := none }
    | some (name, value) => ⟨r.attributes.set name.trim value.trim, some name.trim⟩

/-- The attributes of a manifest, in the order in which each was first named. -/
def attributes (lines : List Text) : KeyedList Text Text := (lines.foldl readLine {}).attributes

/-- The attribute that makes a module a platform module. -/
def platformName : Text := "OpenIDE-Module"

/-- The attribute that names the module's catalog. -/
def catalogName : Text := "OpenIDE-Module-Localizing-Bundle"

/-- The attribute that names the layer file. -/
def layerName : Text := "OpenIDE-Module-Layer"

end Manifest

/-- What a manifest says about its module. -/
structure Manifest where
  /-- The package of the module's catalog. -/
  catalogPackage : Option Text
  layerFile : Option Text
  isPlatformModule : Bool
  deriving DecidableEq, Repr

namespace Manifest

/-- The directory part of a path with slashes, empty if there is none. -/
def directoryPart (path : Text) : Text :=
  match path.cutLast? Code.slash with
  | some (before, _) => before
  | none => []

/-- The value of an attribute, unless it is empty. -/
def value? (name : Text) (attributes : KeyedList Text Text) : Option Text :=
  (attributes.get? name).filter (!·.isEmpty)

/-- Whether the attributes are those of a platform module. -/
def isPlatform (attributes : KeyedList Text Text) : Bool :=
  (attributes.get? platformName).isSome

/-- What the attributes say. -/
def ofAttributes (attributes : KeyedList Text Text) : Manifest where
  catalogPackage := (value? catalogName attributes).map fun catalog =>
    directoryPart (catalog.trim.replaceCode Code.backslash Code.slash)
  layerFile := (value? layerName attributes).map Text.trim
  isPlatformModule := isPlatform attributes

/-- What the lines of a manifest say. -/
def ofLines (lines : List Text) : Manifest := ofAttributes (attributes lines)

end Manifest

end BundleAudit
