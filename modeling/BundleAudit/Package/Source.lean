import BundleAudit.Catalog.File
import BundleAudit.Occurrence
import BundleAudit.Token.Source

/-!
# BundleAudit.Package.Source

**Source files:** a path, and the occurrences of texts once the file is read. What
occurs is looked up in catalogs; what is in none of them is a finding unless it is
suppressed, and a suppression is a finding where it stands on its own at a text that
is in a catalog. Sources with a form beside them are generated, and their
suppressions are left alone.
-/

namespace BundleAudit

/-- A source file. -/
structure SourceFile where
  path : Text
  occurrences : List Occurrence := []
  deriving DecidableEq, Repr

namespace SourceFile

/-- The source with the occurrences of its file. -/
def read (s : Settings) (t : Tree) (f : SourceFile) : Except Failure SourceFile := do
  let text ← t.readText f.path
  let tokens ← Token.ofSource f.path text
  return { f with occurrences := Occurrence.ofTokens s tokens }

/-- The texts that occur. -/
def texts (f : SourceFile) : List Text := f.occurrences.map (·.text)

/-- Notes which occurrences are keys of some catalog. -/
def lookUp (catalogs : List Catalog) (f : SourceFile) : SourceFile :=
  { f with
    occurrences := f.occurrences.map fun o =>
      { o with inCatalog := o.inCatalog || catalogs.any (·.hasKey o.text) } }

/-- The finding about an occurrence in no catalog. -/
def missing? (path : Text) (o : Occurrence) : Option Finding :=
  if o.inCatalog || o.suppressed then none
  else some
    ⟨if o.nearLookup then .missingKey else .missingSuppressionOrKey, path, o.line, o.text⟩

/-- The findings about occurrences in no catalog. -/
def missing (f : SourceFile) : List Finding := f.occurrences.filterMap (missing? f.path)

/-- Whether an occurrence is the only one of its line. -/
def isAlone (f : SourceFile) (o : Occurrence) : Bool :=
  f.occurrences.countP (·.line == o.line) == 1

/-- The findings about suppressions without a purpose. -/
def redundant (f : SourceFile) : List Finding :=
  (f.occurrences.filter fun o => o.inCatalog && o.suppressed && f.isAlone o).map fun o =>
    ⟨.redundantSuppression, f.path, o.line, o.text⟩

/-- Whether a form stands beside the source. -/
def hasForm (s : Settings) (t : Tree) (f : SourceFile) : Except Failure Bool :=
  match (Path.ofText f.path).withSuffix s.formSuffix with
  | .error error => .error (.badSuffix error)
  | .ok form => t.hasEntry form.toText

/-- Adds a source to a report, as far as it can be told whether it has a form. -/
def report (s : Settings) (t : Tree) (f : SourceFile) (r : Report) : Report × Option Failure :=
  let r := (r.countFile .source).addAll f.missing
  match f.hasForm s t with
  | .error failure => (r, some failure)
  | .ok true => (r, none)
  | .ok false => (r.addAll f.redundant, none)

end SourceFile

end BundleAudit
