import BundleAudit.Baseline
import BundleAudit.Command.Session
import BundleAudit.Files.Write

/-!
# BundleAudit.Command.Check

**The command that checks modules.** It shows the report of every module and a summary,
and writes both to a directory if it is asked to. Its exit code is 2 where there is
nothing to check or the baseline cannot be read, 1 where a module has more problems
than its baseline allows, or any module has one and that is to count, and else 0.
-/

namespace BundleAudit.Command

/-! ### The baseline -/

/-- Reads the baseline in a file; none if the file cannot be read. -/
def readBaseline (e : Environment) (argument : Text) : Run (Option Baseline) := do
  let path ← pathOf e argument
  match (← tree).readLines path.toText with
  | .ok lines =>
    let (baseline, log) := Baseline.ofLines path.toText lines
    sayAll log
    return some baseline
  | .error (.system cause path target) =>
    say (.error ("Failed to read baseline " ++ argument ++ ": "
      ++ (Failure.system cause path target).message))
    return none
  | .error failure => throw failure

/-! ### The reports -/

/-- Shows the report of a module. -/
def showReport (summaryOnly : Bool) (c : Console) (r : Report) : Console :=
  c.showSection ("Module " ++ r.name) (r.render (!summaryOnly))

/-- The row of a module in the summary. -/
def summaryRow (r : Report) : List Text :=
  [r.name,
    Text.ofNat (r.fileCount .source),
    Text.ofNat (r.fileCount .primaryCatalog + r.fileCount .secondaryCatalog),
    Text.ofNat (r.fileCount .translatedCatalog),
    Text.ofNat r.problems]

/-- Shows the summary of a run. -/
def showSummary (e : Environment) (rs : Reports) : Run Unit :=
  showTable e "I18N Summary" ["Module", "Sources", "Bundles", "Translated", "Problems"]
    (rs.ordered.map summaryRow)

/-! ### The result files -/

/-- What is written about a run itself. -/
def metadata (e : Environment) (a : ScanArguments) (root : Location)
    (modules : List RepositoryModule) : Json :=
  .object
    [("root", .text root.toPath.toText),
      ("top_dirs", .list ((splitDirectories a.topDirectories).map .text)),
      ("module_filter", (a.moduleFilter.map Json.text).getD .null),
      ("modules", .list (modules.map fun m => .text m.identity)),
      ("settings", .object
        [("threads", .number a.threads), ("all_bundles", .bool a.allBundles)]),
      ("started_at", .text e.started),
      ("finished_at", .text e.finished)]

/-- Writes the findings, the summary and what is said about the run itself to a directory. -/
def writeResults (e : Environment) (a : ScanArguments) (modules : List RepositoryModule)
    (rs : Reports) (argument : Text) : Run Unit := do
  match a.rootIn e (← tree) with
  | .error failure => throw failure
  | .ok root =>
    let directory ← pathOf e argument
    let file (name : Text) : Text := (directory.child name).toText
    change (·.makeDirectories directory)
    change (·.writeInPlace (file "findings.jsonl") rs.records)
    change (·.writeInPlace (file "summary.json") [Json.write .block rs.summary])
    change (·.writeInPlace (file "run_metadata.json")
      [Json.write .block (metadata e a root modules)])
    say (.done ("Results written to: " ++ directory.toText))

/-! ### The command -/

/-- Compares the reports with the baseline: whether no module has more problems than it allows. -/
def checkBaseline (baseline : Option Baseline) (rs : Reports) : Run Bool :=
  match baseline with
  | none => pure true
  | some b => do
    let excesses := b.excesses rs
    sayAll (excesses.map Message.error)
    if excesses.isEmpty then say (.done "No module exceeds its baseline.")
    return excesses.isEmpty

/-- Says how many problems there are. -/
def concludeCheck (rs : Reports) : Run Nat := do
  let warnings := (← get).console.count .warn
  if warnings ≠ 0 then say (.info (Text.ofNat warnings ++ " warnings while scanning."))
  say (.done ("Found " ++ Text.ofNat rs.total ++ " potential problems in " ++ Text.ofNat rs.length
    ++ " modules."))
  return 0

/-- Checks the modules of a repository. -/
def checkModules (e : Environment) (a : CheckArguments) (baseline : Option Baseline) :
    Run Nat := do
  match ← findModules e a.scan with
  | none => return 2
  | some modules =>
    let rs := (← scanModules e a.scan modules).reports
    display fun c => rs.ordered.foldl (showReport a.summaryOnly) c
    showSummary e rs
    match a.jsonOut with
    | none | some [] => pure ()
    | some argument => writeResults e a.scan modules rs argument
    if !(← checkBaseline baseline rs) then return 1
    else if a.failOnProblems && rs.total ≠ 0 then return 1
    else concludeCheck rs

/-- The command that checks modules. -/
def check (e : Environment) (a : CheckArguments) : Run Nat :=
  match a.baseline with
  | none | some [] => checkModules e a none
  | some argument => do
    match ← readBaseline e argument with
    | none => return 2
    | some baseline => checkModules e a (some baseline)

end BundleAudit.Command
