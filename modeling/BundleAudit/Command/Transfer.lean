import BundleAudit.Command.Session
import BundleAudit.Table.File

/-!
# BundleAudit.Command.Transfer

**The commands that write and read translation tables.** One writes the entries of all
primary catalogs with their translations to a table, the other one writes catalogs in
a language from a table. Their exit codes are 2 where the language is none, the table
cannot be read or there are no modules, 1 where a file cannot be written or the rows of
the table are not as they should be, and else 0.
-/

namespace BundleAudit.Command

/-- Whether a language can be the language of a catalog; if not, that is shown. -/
def checkLanguage (language : Text) : Run Bool := do
  if isLanguage language then return true
  else
    say (.error ("Invalid language suffix: " ++ language))
    return false

/-! ### Writing a table -/

/-- The rows of scanned modules, with what is said about them. -/
def exportedRows (s : Settings) (language : Text) : List ModuleScan → List TableRow × Log
  | [] => ([], [])
  | x :: rest =>
    let (more, log) := exportedRows s language rest
    let rows := x.exportRows s language
    (rows ++ more,
      .debug (x.module.identity ++ ": " ++ Text.ofNat rows.length ++ " rows") :: log)

/-- Writes rows to a table file. -/
def writeRows (path : Path) (rows : List TableRow) : Run Nat := do
  match Table.writeRecords (← tree) path true (rows.map (·.cells)) with
  | (t, .ok _) =>
    change fun _ => (t, none)
    say (.done ("Exported " ++ Text.ofNat rows.length ++ " entries to " ++ path.toText))
    return 0
  | (t, .error (.system cause at_ target)) =>
    change fun _ => (t, none)
    say (.error ("Failed to write " ++ path.toText ++ ": "
      ++ (Failure.system cause at_ target).message))
    return 1
  | (t, .error failure) =>
    change fun _ => (t, none)
    throw failure

/-- The command that writes a translation table. -/
def exportTable (e : Environment) (a : TransferArguments) : Run Nat := do
  if !(← checkLanguage a.language) then return 2
  match ← findModules e a.scan with
  | none => return 2
  | some modules =>
    let scan ← scanModules e a.scan modules
    let (rows, log) := exportedRows a.scan.settings a.language scan.ordered
    sayAll log
    writeRows (← pathOf e a.table) rows

/-! ### Reading a table -/

/-- What reading a table leads to. -/
inductive TableReading
  | read (table : Table)
  /-- There is no table, and the command ends with an exit code. -/
  | ended (exitCode : Nat)

/-- Reads a table file. -/
def readTableFile (path : Path) : Run TableReading := do
  match ((← tree).readTable path.toText).bind (Table.ofRows path.toText) with
  | .ok table => return .read table
  | .error (.system cause at_ target) =>
    say (.error ("Failed to read " ++ path.toText ++ ": "
      ++ (Failure.system cause at_ target).message))
    return .ended 2
  | .error (.wrongColumns source row expected cells) =>
    say (.error (Failure.wrongColumns source row expected cells).message)
    return .ended 1
  | .error failure => throw failure

/-- The warnings about modules of a table that are not in the repository. -/
def unknownModules (modules : List RepositoryModule) (table : Table) : Log :=
  (Text.sort ((KeyedList.keys table).filter fun name =>
    !modules.any (·.identity = name))).map fun name =>
      .warn ("Table names unknown module: " ++ name)

/-- The row of a catalog in the summary. -/
def catalogRow (header : List Text) (g : GeneratedCatalog) : List Text :=
  [g.module,
    if g.package.isEmpty then [Code.dot] else g.package,
    (Path.ofText g.path).name,
    Text.ofNat (g.lines.length - header.length)]

/-- Writes catalogs; with the failure that ended the writing, if one did. -/
def writeCatalogs : List GeneratedCatalog → Run (Option Failure)
  | [] => pure none
  | g :: rest => do
    match (← tree).writeLines (Path.ofText g.path) g.lines with
    | (t, some failure) =>
      change fun _ => (t, none)
      return some failure
    | (t, none) =>
      change fun _ => (t, none)
      say (.debug ("Wrote " ++ g.path))
      writeCatalogs rest

/-- Writes the catalogs that scanned modules get from a table, and gives them; with the failure that
ended the writing, if one did. -/
def writeTranslations (s : Settings) (language : Text) (header : List Text) (table : Table) :
    List ModuleScan → Run (List GeneratedCatalog × Option Failure)
  | [] => pure ([], none)
  | x :: rest => do
    let (catalogs, log) := x.generate s language header table
    sayAll log
    match ← writeCatalogs catalogs with
    | some failure => return (catalogs, some failure)
    | none =>
      let (more, failure) ← writeTranslations s language header table rest
      return (catalogs ++ more, failure)

/-- Writes the translated catalogs of scanned modules, and shows them when all are written. -/
def importInto (e : Environment) (a : TransferArguments) (path : Path) (table : Table)
    (scan : Scan) : Run Nat := do
  let header := Catalog.header Catalog.toolName path.name
  match ← writeTranslations a.scan.settings a.language header table scan.ordered with
  | (_, some (.system cause at_ target)) =>
    say (.error ("Failed to write translated bundle: "
      ++ (Failure.system cause at_ target).message))
    return 1
  | (_, some failure) => throw failure
  | (catalogs, none) =>
    showTable e "Imported Translations" ["Module", "Package", "Bundle", "Keys"]
      (catalogs.map (catalogRow header))
    say (.done ("Imported " ++ a.language ++ " translations from " ++ path.toText))
    return 0

/-- The command that reads a translation table. -/
def importTable (e : Environment) (a : TransferArguments) : Run Nat := do
  if !(← checkLanguage a.language) then return 2
  let path ← pathOf e a.table
  match ← readTableFile path with
  | .ended exitCode => return exitCode
  | .read table =>
    say (.info ("Translations in table: " ++ Text.ofNat table.size))
    match ← findModules e a.scan with
    | none => return 2
    | some modules =>
      sayAll (unknownModules modules table)
      importInto e a path table (← scanModules e a.scan modules)

end BundleAudit.Command
