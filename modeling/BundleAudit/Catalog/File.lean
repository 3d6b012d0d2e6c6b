import BundleAudit.Catalog.Basic
import BundleAudit.Files.Read
import BundleAudit.Report.Basic

/-!
# BundleAudit.Catalog.File

**Catalog files:** a path, the kind of catalog, and the entries once they are read. An
entry counts how often it was found in use; at the end of a scan those that never
were are findings, unless the catalog is a translation.
-/

namespace BundleAudit

/-- A catalog file. -/
structure Catalog where
  path : Text
  kind : FileKind
  entries : List CatalogEntry := []
  deriving DecidableEq, Repr

namespace Catalog

/-- The language of a translated catalog. -/
def language? (s : Settings) (c : Catalog) : Option Text :=
  if c.kind = .translatedCatalog then
    catalogLanguage? (Text.afterLast Code.slash (c.path.replaceCode Code.backslash Code.slash))
      s.catalogSuffix
  else none

/-- The catalog with the entries of its file, and the malformed lines of the file. -/
def read (s : Settings) (t : Tree) (c : Catalog) : Except Failure (Catalog × List MalformedLine) :=
  (t.readLines c.path).map fun lines =>
    let (entries, malformed) := CatalogEntry.ofLines s.intentionalMarker lines
    ({ c with entries }, malformed)

/-- The entry of a key. -/
def get? (key : Text) (c : Catalog) : Option CatalogEntry := c.entries.find? (·.key = key)

/-- Whether a key has an entry. -/
def hasKey (c : Catalog) (key : Text) : Bool := (c.get? key).isSome

/-- Counts one use of a key, if it has an entry. -/
def countUse (key : Text) (c : Catalog) : Catalog :=
  { c with
    entries := c.entries.map fun e => if e.key = key then { e with uses := e.uses + 1 } else e }

/-- Counts uses of keys, one after the other. -/
def countUses (keys : List Text) (c : Catalog) : Catalog :=
  keys.foldl (fun c key => c.countUse key) c

/-- The findings about a catalog: entries that nothing shows to be in use, if it is no translation.
-/
def findings (c : Catalog) : List Finding :=
  if c.kind = .translatedCatalog then []
  else (c.entries.filter (·.possiblyUnused)).map fun e =>
    ⟨.possiblyUnusedEntry, c.path, e.line, e.key⟩

/-- Adds a catalog to a report. -/
def report (c : Catalog) (r : Report) : Report := (r.countFile c.kind).addAll c.findings

end Catalog

end BundleAudit
