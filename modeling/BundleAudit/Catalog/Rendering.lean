import BundleAudit.KeyedList
import BundleAudit.Text.Escape

/-!
# BundleAudit.Catalog.Rendering

**The lines of a translated catalog:** a header, and one line for each key, in the order
of the keys.
-/

namespace BundleAudit.Catalog

/-- The header of a catalog that was made from a table. -/
def header (tool table : Text) : List Text :=
  ["# Generated by " ++ tool ++ " from " ++ table,
    "# Do not edit: changes are overwritten by the next import."]

/-- The name under which generated catalogs name their maker. -/
def toolName : Text := "i18ncheck"

/-- The line of an entry. -/
def entryLine (escape : Bool) (key value : Text) : Text :=
  key ++ Code.equals :: (if escape then value.encodeNonAscii else value)

/-- The lines of a catalog with these translations. -/
def render (header : List Text) (escape : Bool) (translations : KeyedList Text Text) :
    List Text :=
  header ++ (translations.mergeSort fun a b => a.1.le b.1).map fun (key, value) =>
    entryLine escape key value

end BundleAudit.Catalog
