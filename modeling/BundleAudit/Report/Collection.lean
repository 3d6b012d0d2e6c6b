import BundleAudit.KeyedList
import BundleAudit.Report.Basic

/-!
# BundleAudit.Report.Collection

**The reports of a run.** There is one report for each module name; what is added under
a name that is known is merged into its report, and reports are listed by name.
-/

namespace BundleAudit

/-- Appends what another report on the same module holds. -/
def Report.merge (r other : Report) : Report :=
  { r with findings := r.findings ++ other.byKind, files := r.files ++ other.files }

/-- Reports with different names, in the order in which the names came. -/
abbrev Reports := List Report

namespace Reports

/-- Adds a report, or merges it into the one of its name. -/
def add (r : Report) : Reports → Reports
  | [] => [r]
  | first :: rest => if first.name = r.name then first.merge r :: rest else first :: add r rest

/-- The reports, in ascending order of their names. -/
def ordered (rs : Reports) : Reports := rs.mergeSort fun a b => a.name.le b.name

/-- The report of a name. -/
def get? (name : Text) (rs : Reports) : Option Report := rs.find? fun r => r.name = name

/-- The number of findings in all reports. -/
def total (rs : Reports) : Nat := rs.foldl (fun n r => n + r.problems) 0

/-- How many findings of each kind there are. -/
def countByKind (rs : Reports) : List (Finding.Kind × Nat) :=
  Finding.Kind.all.map fun k => (k, rs.foldl (fun n r => n + r.count k) 0)

/-- The summary of a run; kinds without findings are left out. -/
def summary (rs : Reports) : Json :=
  let kinds := rs.countByKind.filter fun p => p.2 ≠ 0
  .object
    [("total_problems", .number rs.total),
      ("kinds", .object (kinds.map fun (k, n) => (k.name, .number n))),
      ("modules", .list (rs.ordered.map Report.summary))]

/-- The record of a finding, with the module it belongs to. -/
def record (name : Text) (f : Finding) : Json :=
  .object
    [("module", .text name),
      ("kind", .text f.kind.name),
      ("file", .text f.file),
      ("line", .number f.line),
      ("message", .text f.message)]

/-- The records of all findings, each a line: by module, by kind, and as they were found. -/
def records (rs : Reports) : List Text :=
  rs.ordered.flatMap fun r =>
    r.byKind.map fun f => Json.write .line (record r.name f) ++ [Code.lineFeed]

end Reports

end BundleAudit
