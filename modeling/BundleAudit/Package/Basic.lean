import BundleAudit.Package.Source

/-!
# BundleAudit.Package.Basic

**Packages:** the catalogs and sources of one directory. Files that cannot be read are
findings, and the package goes on without them. The texts that occur in its sources
are looked up in its primary catalog and in its secondary ones; each time a catalog
has the text, that is a use of the entry.
-/

namespace BundleAudit

/-- The catalogs and sources of a directory. -/
structure Package where
  name : Text
  directory : Text
  primary : Option Catalog := none
  secondary : List Catalog := []
  translated : List Catalog := []
  /-- The sources by the names of their files. -/
  sources : KeyedList Text SourceFile := []

namespace Package

/-- Adds a file of a kind. There is only one primary catalog. -/
def add (kind : FileKind) (path : Text) (p : Package) : Except Failure Package :=
  match kind with
  | .primaryCatalog =>
    if p.primary.isSome then .error (.secondPrimaryCatalog p.directory)
    else .ok { p with primary := some { path, kind } }
  | .secondaryCatalog => .ok { p with secondary := p.secondary ++ [{ path, kind }] }
  | .translatedCatalog => .ok { p with translated := p.translated ++ [{ path, kind }] }
  | .source => .ok { p with sources := p.sources.set (Path.ofText path).name { path } }

/-- The sources, by their names in ascending order. -/
def orderedSources (p : Package) : List (Text × SourceFile) :=
  p.sources.mergeSort fun a b => a.1.le b.1

/-- Catalogs in ascending order of their paths. -/
def byPath (catalogs : List Catalog) : List Catalog :=
  catalogs.mergeSort fun a b => a.path.le b.path

/-! ### Reading -/

/-- The finding about a file that cannot be read. -/
def unreadable (path what : Text) (failure : Failure) : Finding :=
  ⟨.unreadableFile, path, 1, "Cannot read " ++ what ++ ": " ++ failure.message⟩

/-- The catalogs with the entries of their files, without those that cannot be read; findings about
these, and warnings about malformed lines. -/
def readCatalogs (s : Settings) (t : Tree) : List Catalog → List Catalog × List Finding × Log
  | [] => ([], [], [])
  | c :: rest =>
    let (catalogs, findings, log) := readCatalogs s t rest
    match c.read s t with
    | .ok (c, malformed) =>
      (c :: catalogs, findings, CatalogEntry.warnings c.path malformed ++ log)
    | .error failure =>
      (catalogs, unreadable c.path "resource bundle" failure :: findings, log)

/-- The sources with the occurrences of their files, without those that cannot be read, and findings
about these. -/
def readSources (s : Settings) (t : Tree) :
    List (Text × SourceFile) → List (Text × SourceFile) × List Finding
  | [] => ([], [])
  | (name, f) :: rest =>
    let (sources, findings) := readSources s t rest
    match f.read s t with
    | .ok f => ((name, f) :: sources, findings)
    | .error failure => (sources, unreadable f.path "source" failure :: findings)

/-- Reads all files of a package: the package without those that cannot be read, findings about
these, and warnings. -/
def read (s : Settings) (t : Tree) (p : Package) : Package × List Finding × Log :=
  let (primary, findings₁, log₁) := readCatalogs s t p.primary.toList
  let (secondary, findings₂, log₂) := readCatalogs s t p.secondary
  let (translated, findings₃, log₃) := readCatalogs s t p.translated
  let (sources, findings₄) := readSources s t p.orderedSources
  ({ p with primary := primary.head?, secondary, translated, sources },
    findings₁ ++ findings₂ ++ findings₃ ++ findings₄, log₁ ++ log₂ ++ log₃)

/-! ### Looking up -/

/-- The catalogs in which texts are looked up. -/
def lookupCatalogs (p : Package) : List Catalog := p.primary.toList ++ p.secondary

/-- All texts that occur in the sources. -/
def texts (p : Package) : List Text := p.sources.flatMap fun (_, f) => f.texts

/-- Looks the texts of all sources up, and counts the uses of entries. -/
def lookUp (p : Package) : Package :=
  { p with
    primary := p.primary.map (·.countUses p.texts)
    secondary := p.secondary.map (·.countUses p.texts)
    sources := p.sources.map fun (name, f) => (name, f.lookUp p.lookupCatalogs) }

/-- Whether the primary catalog has a key. -/
def hasPrimaryKey (p : Package) (key : Text) : Bool := p.primary.any (·.hasKey key)

/-- Counts one use of a key of the primary catalog. -/
def countUse (key : Text) (p : Package) : Package :=
  { p with primary := p.primary.map (·.countUse key) }

/-! ### Reporting -/

/-- Adds sources to a report, up to one of which it cannot be told whether it has a form. -/
def reportSources (s : Settings) (t : Tree) (r : Report) :
    List (Text × SourceFile) → Report × Option Failure
  | [] => (r, none)
  | (_, f) :: rest =>
    match f.report s t r with
    | (r, none) => reportSources s t r rest
    | (r, some failure) => (r, some failure)

/-- The catalogs in the order in which they are reported. -/
def reportedCatalogs (p : Package) : List Catalog :=
  p.primary.toList ++ byPath p.secondary ++ byPath p.translated

/-- Adds a package to a report. -/
def report (s : Settings) (t : Tree) (p : Package) (r : Report) : Report × Option Failure :=
  match reportSources s t r p.orderedSources with
  | (r, some failure) => (r, some failure)
  | (r, none) => (p.reportedCatalogs.foldl (fun r c => c.report r) r, none)

end Package

end BundleAudit
