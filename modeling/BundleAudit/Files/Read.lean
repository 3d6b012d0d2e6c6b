import BundleAudit.Files.Walk
import BundleAudit.Layer
import BundleAudit.Manifest
import BundleAudit.Table.Csv
import BundleAudit.Text.Encoding

/-!
# BundleAudit.Files.Read

**Reading files** as texts, lines, tables, manifests and layers. A file that is there
is always a text; it need not be a table or a layer.
-/

namespace BundleAudit.Tree

/-- The text of the file at a path. -/
def readText (t : Tree) (path : Text) : Except Failure Text := (t.read path).map Text.ofBytes

/-- The lines of the file at a path. -/
def readLines (t : Tree) (path : Text) : Except Failure (List Text) :=
  (t.read path).map Text.linesOfBytes

/-- The records of the table file at a path. -/
def readTable (t : Tree) (path : Text) : Except Failure (List (List Text)) :=
  (t.read path).bind Csv.ofBytes

/-- The manifest at a path. -/
def readManifest (t : Tree) (path : Text) : Except Failure Manifest :=
  (t.readLines path).map Manifest.ofLines

/-- Whether the manifest of a platform module stands at a path. -/
def isPlatformManifest (t : Tree) (path : Text) : Except Failure Bool := do
  if ← t.isFile path then return (← t.readManifest path).isPlatformModule
  else return false

/-- The references of the layer at a path, with the messages up to the end or to a failure. -/
def readLayer (t : Tree) (path : Text) : Log × Except Failure (List LayerReference) :=
  match t.read path with
  | .ok bytes => Layer.ofBytes t.depths.elements path bytes
  | .error failure => ([], .error failure)

end BundleAudit.Tree
