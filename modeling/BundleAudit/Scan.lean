import BundleAudit.Module.Scan
import BundleAudit.Report.Collection

/-!
# BundleAudit.Scan

**Scanning modules.** Each module is scanned on its own, so the scans may be completed
in any order; what comes of them is collected in the order of their completion. A
module whose scan fails has a report that says so.
-/

namespace BundleAudit

/-- What came of the scans of modules. -/
structure Scan where
  reports : Reports := []
  /-- The completed scans by the identities of their modules. -/
  scans : KeyedList Text ModuleScan := []
  log : Log := []

namespace Scan

/-- The report on a module whose scan failed. -/
def failedReport (m : RepositoryModule) (failure : Failure) : Report where
  name := m.identity
  findings := [⟨.unreadableFile, m.root, 1, "Module scan failed: " ++ failure.message⟩]

/-- Adds what came of the scan of a module. -/
def add (x : Scan) (m : RepositoryModule) : Log × Except Failure ModuleScan → Scan
  | (log, .ok scan) =>
    { reports := x.reports.add scan.report
      scans := x.scans.set m.identity scan
      log := x.log ++ log ++
        [.debug ("Scanned " ++ m.identity ++ ": problems=" ++ Text.ofNat scan.report.problems)] }
  | (log, .error failure) =>
    { x with
      reports := x.reports.add (failedReport m failure)
      log := x.log ++ log ++
        [.warn ("Failed to scan " ++ m.identity ++ ": " ++ failure.message)] }

/-- Collects what comes of the scans of modules, in the order in which the scans are completed. -/
def collect (scan : RepositoryModule → Log × Except Failure ModuleScan)
    (modules : List RepositoryModule) : Scan :=
  modules.foldl (fun x m => x.add m (scan m)) {}

/-- Scans modules, and collects what comes of them in their order. -/
def ofModules (s : Settings) (t : Tree) (modules : List RepositoryModule) : Scan :=
  collect (ModuleScan.ofModule s t) modules

/-- The completed scans in ascending order of the identities of their modules. -/
def ordered (x : Scan) : List ModuleScan :=
  (x.scans.mergeSort fun a b => a.1.le b.1).map Prod.snd

end Scan

end BundleAudit
