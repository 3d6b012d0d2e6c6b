import BundleAudit.FileKind
import BundleAudit.Finding
import BundleAudit.Json.Basic

/-!
# BundleAudit.Report.Basic

**The report on a module** holds its findings in the order in which they were made and
the kind of every file that was read. Counts, the lines shown and the summary follow
from these two lists.
-/

namespace BundleAudit

/-- What a scan found in one module. -/
structure Report where
  name : Text
  findings : List Finding := []
  /-- The kinds of the files read, one for each file. -/
  files : List FileKind := []
  deriving DecidableEq, Repr

namespace Report

/-- Adds a finding after those before. -/
def add (r : Report) (f : Finding) : Report := { r with findings := r.findings ++ [f] }

/-- Adds findings after those before. -/
def addAll (r : Report) (fs : List Finding) : Report := { r with findings := r.findings ++ fs }

/-- Counts a file that was read. -/
def countFile (r : Report) (k : FileKind) : Report := { r with files := r.files ++ [k] }

/-! ### Counts -/

/-- The findings of one kind. -/
def ofKind (r : Report) (k : Finding.Kind) : List Finding := r.findings.filter (·.kind = k)

/-- The number of findings of one kind. -/
def count (r : Report) (k : Finding.Kind) : Nat := (r.ofKind k).length

/-- The number of files of one kind that were read. -/
def fileCount (r : Report) (k : FileKind) : Nat := r.files.count k

/-- The number of findings. -/
def problems (r : Report) : Nat := r.findings.length

/-- The findings, kind by kind. -/
def byKind (r : Report) : List Finding := Finding.Kind.all.flatMap r.ofKind

/-- The kinds of the findings, in the order in which each was first found. -/
def kindsFound (r : Report) : List Finding.Kind := (r.findings.map (·.kind)).eraseDups

/-! ### Text -/

/-- The line that sums a module up. -/
def summaryLine (r : Report) : Text :=
  let secondary : Text :=
    match r.fileCount .secondaryCatalog with
    | 0 => []
    | n => ", " ++ Text.ofNat n ++ " secondary"
  "Scanned " ++ Text.ofNat (r.fileCount .source) ++ " sources, "
    ++ Text.ofNat (r.fileCount .primaryCatalog) ++ " primary"
    ++ secondary ++ " and " ++ Text.ofNat (r.fileCount .translatedCatalog)
    ++ " translated resource bundles. Found " ++ Text.ofNat r.problems ++ " potential problems."

/-- The lines about one kind of findings: its heading and the findings, if there are any. -/
def renderKind (r : Report) (k : Finding.Kind) : List Text :=
  match r.ofKind k with
  | [] => []
  | fs => k.description :: fs.map Finding.render

/-- The lines that are shown about a module. -/
def render (r : Report) (details : Bool) : List Text :=
  r.summaryLine :: if details then Finding.Kind.all.flatMap r.renderKind else []

/-- The kinds of files that were read, by name, and how many of each. -/
def fileSummary (r : Report) : List (Text × Json) :=
  (FileKind.all.filter (r.files.elem ·)).map fun k => (k.name, .number (r.fileCount k))

/-- The summary of a module. -/
def summary (r : Report) : Json :=
  .object
    [("module", .text r.name),
      ("problems", .number r.problems),
      ("files", .object r.fileSummary),
      ("findings", .object (r.kindsFound.map fun k => (k.name, .number (r.count k))))]

end Report

end BundleAudit
