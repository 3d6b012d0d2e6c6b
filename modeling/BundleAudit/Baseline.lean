import BundleAudit.Catalog.Basic
import BundleAudit.Report.Collection
import BundleAudit.Text.Decimal

/-!
# BundleAudit.Baseline

**Baselines** allow modules a number of problems. A baseline is a catalog whose keys
are the names of modules and whose values are numbers; a module that it does not name
is allowed none.
-/

namespace BundleAudit

/-- The number of problems that each module is allowed. -/
abbrev Baseline := KeyedList Text Int

namespace Baseline

/-- The warning about an entry that is no number. -/
def notANumber (file : Text) (e : CatalogEntry) : Message :=
  .warn (file ++ ":" ++ Text.ofNat e.line ++ ": ignoring non-numeric baseline for " ++ e.key ++ ": "
    ++ e.value)

/-- The entries that are numbers, with a warning for each other one. -/
def ofEntries (file : Text) : List CatalogEntry → Baseline × Log
  | [] => ([], [])
  | e :: rest =>
    let (more, log) := ofEntries file rest
    match e.value.trim.toInt? with
    | some n => ((e.key, n) :: more, log)
    | none => (more, notANumber file e :: log)

/-- The baseline in a file. -/
def ofLines (file : Text) (lines : List Text) : Baseline × Log :=
  let (entries, malformed) := CatalogEntry.ofLines Settings.standard.intentionalMarker lines
  let (baseline, log) := ofEntries file entries
  (baseline, CatalogEntry.warnings file malformed ++ log)

/-- The number of problems that a module is allowed. -/
def allowed (b : Baseline) (name : Text) : Int := (KeyedList.get? name b).getD 0

/-- What is said about a module with more problems than it is allowed. -/
def excess (r : Report) (expected : Int) : Text :=
  "Module " ++ r.name ++ ": Found " ++ Text.ofNat r.problems ++ " errors in I18N (expected <= "
    ++ Text.ofInt expected ++ ")."

/-- What is said about the modules that have more problems than they are allowed. -/
def excesses (b : Baseline) (rs : Reports) : List Text :=
  (rs.ordered.filter fun r => b.allowed r.name < (r.problems : Int)).map fun r =>
    excess r (b.allowed r.name)

end Baseline

end BundleAudit
