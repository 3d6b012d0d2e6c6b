import BundleAudit.Module.Basic
import BundleAudit.Package.Translation

/-!
# BundleAudit.Module.Scan

**Scanning a module.** All packages are read and looked up; then, for a platform
module, what its manifest and its layer name is looked up, too; and only then entries
that were never used are told from the others.

A scan fails as a whole where a package has two primary catalogs, where it cannot be
told whether a source has a form, and where a layer declares a character set that is
not known or holds elements that are nested too deep.
-/

namespace BundleAudit

/-- A module after its scan. -/
structure ModuleScan where
  module : RepositoryModule
  /-- The packages in ascending order of their names. -/
  packages : List Package
  report : Report

namespace Failure

/-- Whether a failure concerns one file, and a scan can go on without it. -/
def isOfFile : Failure → Bool
  | .unknownCharset _ | .notACharset _ | .linkCircle | .nestedTooDeep => false
  | _ => true

end Failure

namespace ModuleScan

/-! ### Packages -/

/-- The directory of a package. -/
def directoryOf (m : RepositoryModule) (package : Text) : Text :=
  ((Path.ofText m.sourceRoot).join (Path.ofText package)).toText

/-- The packages of files, in the order in which they first come. -/
def packagesOf (m : RepositoryModule) : List ModuleFile → KeyedList Text Package →
    Except Failure (KeyedList Text Package)
  | [], packages => .ok packages
  | f :: rest, packages =>
    let package := (packages.get? f.package).getD
      { name := f.package, directory := directoryOf m f.package }
    match package.add f.kind f.path with
    | .ok package => packagesOf m rest (packages.set f.package package)
    | .error failure => .error failure

/-- A module with its packages, before anything is read. -/
def start (m : RepositoryModule) : Except Failure ModuleScan :=
  (packagesOf m m.files []).map fun packages =>
    { module := m
      packages := (packages.mergeSort fun a b => a.1.le b.1).map Prod.snd
      report := { name := m.identity } }

/-- The package of a name. -/
def package? (name : Text) (x : ModuleScan) : Option Package := x.packages.find? (·.name = name)

/-- Changes the package of a name. -/
def updatePackage (name : Text) (f : Package → Package) (x : ModuleScan) : ModuleScan :=
  { x with packages := x.packages.map fun p => if p.name = name then f p else p }

/-- Adds a finding to the report of a module. -/
def addFinding (f : Finding) (x : ModuleScan) : ModuleScan := { x with report := x.report.add f }

/-- Reads all packages and looks their texts up; with the warnings. -/
def readPackages (s : Settings) (t : Tree) (x : ModuleScan) : ModuleScan × Log :=
  let read := x.packages.map (·.read s t)
  ({ x with
      packages := read.map fun (p, _) => p.lookUp
      report := x.report.addAll (read.flatMap fun (_, findings, _) => findings) },
    read.flatMap fun (_, _, log) => log)

/-! ### The manifest -/

/-- What the manifest of a module says; one that cannot be read is a finding. -/
def readManifest (t : Tree) (x : ModuleScan) : ModuleScan × Option Manifest :=
  match x.module.manifest with
  | none => (x, none)
  | some [] => (x, none)
  | some path =>
    match t.readManifest path with
    | .ok manifest => (x, some manifest)
    | .error failure => (x.addFinding (Package.unreadable path "manifest" failure), none)

/-- The finding about a catalog that the manifest names and the module does not have. -/
def missingCatalog (m : RepositoryModule) : Finding :=
  ⟨.manifestCatalog, m.manifest.getD m.root, 1,
    "Missing resource bundle specified in module manifest"⟩

/-- The findings about mandatory keys that a catalog does not have. -/
def missingKeys (s : Settings) (c : Catalog) : List Finding :=
  (s.mandatoryModuleKeys.filter (!c.hasKey ·)).map fun key =>
    ⟨.manifestCatalog, c.path, 1, "Missing " ++ key ++ " NetBeans module bundle"⟩

/-- Looks up what the manifest says about the catalog of the module. -/
def checkCatalog (s : Settings) (manifest : Manifest) (x : ModuleScan) : ModuleScan :=
  match manifest.catalogPackage with
  | none => x
  | some name =>
    match (x.package? name).bind (·.primary) with
    | none => x.addFinding (missingCatalog x.module)
    | some catalog =>
      let keys := s.mandatoryModuleKeys ++ s.optionalModuleKeys
      let x := { x with report := x.report.addAll (missingKeys s catalog) }
      x.updatePackage name fun p => { p with primary := p.primary.map (·.countUses keys) }

/-! ### The layer -/

/-- The finding about a layer that the manifest names and the module does not have. -/
def missingLayer (path name : Text) : Finding :=
  ⟨.layerDefinition, path, 1, "Missing layer file specified in manifest " ++ name⟩

/-- The finding about a reference to a key that its catalog does not have. -/
def missingReference (path : Text) (r : LayerReference) : Finding :=
  ⟨.layerDefinition, path, 1,
    "Missing resource bundle key " ++ r.key ++ " specified in layer file: " ++ r.place⟩

/-- Looks up a reference of a layer; packages of other modules are left out. -/
def checkReference (path : Text) (x : ModuleScan) (r : LayerReference) : ModuleScan :=
  match x.package? r.package with
  | none => x
  | some p =>
    if p.hasPrimaryKey r.key then x.updatePackage r.package (·.countUse r.key)
    else x.addFinding (missingReference path r)

/-- Looks up what was read of the layer at a path. -/
def addLayer (path : Text) (layer : Except Failure (List LayerReference)) (x : ModuleScan) :
    Except Failure ModuleScan :=
  match layer with
  | .ok references => .ok (references.foldl (checkReference path) x)
  | .error failure =>
    if failure.isOfFile then .ok (x.addFinding (Package.unreadable path "layer" failure))
    else .error failure

/-- Looks up what the layer refers to; with the messages up to the end or to a failure. -/
def checkLayer (t : Tree) (manifest : Manifest) (x : ModuleScan) :
    Log × Except Failure ModuleScan :=
  match manifest.layerFile with
  | none => ([], .ok x)
  | some [] => ([], .ok x)
  | some name =>
    let path := ((Path.ofText x.module.sourceRoot).join (Path.ofText name)).toText
    match t.isFile path with
    | .error failure => ([], .error failure)
    | .ok false => ([], .ok (x.addFinding (missingLayer path name)))
    | .ok true =>
      let (log, layer) := t.readLayer path
      (log, x.addLayer path layer)

/-- Looks up what the manifest and the layer name, if the module is a platform module; with the
messages up to the end or to a failure. -/
def checkPlatform (s : Settings) (t : Tree) (x : ModuleScan) : Log × Except Failure ModuleScan :=
  match x.readManifest t with
  | (x, none) => ([], .ok x)
  | (x, some manifest) =>
    if manifest.isPlatformModule then (x.checkCatalog s manifest).checkLayer t manifest
    else ([], .ok x)

/-! ### Reporting -/

/-- Adds packages to a report. -/
def reportPackages (s : Settings) (t : Tree) (r : Report) : List Package → Except Failure Report
  | [] => .ok r
  | p :: rest =>
    match p.report s t r with
    | (r, none) => reportPackages s t r rest
    | (_, some failure) => .error failure

/-- Completes the report of a module. -/
def finish (s : Settings) (t : Tree) (x : ModuleScan) : Except Failure ModuleScan :=
  (reportPackages s t x.report x.packages).map fun report => { x with report }

/-! ### The scan -/

/-- Scans a module whose files are known; with the messages up to the end or to a failure. -/
def ofFiles (s : Settings) (t : Tree) (m : RepositoryModule) : Log × Except Failure ModuleScan :=
  match start m with
  | .error failure => ([], .error failure)
  | .ok x =>
    let (x, log) := x.readPackages s t
    let (more, x) := x.checkPlatform s t
    (log ++ more, x.bind (finish s t))

/-- Scans a module, and collects its files first if none are given. -/
def ofModule (s : Settings) (t : Tree) (m : RepositoryModule) : Log × Except Failure ModuleScan :=
  if m.files.isEmpty then
    match m.collectFiles s t with
    | .error failure => ([], .error failure)
    | .ok (m, log) =>
      let (more, scan) := ofFiles s t m
      (log ++ more, scan)
  else ofFiles s t m

/-! ### Translations -/

/-- The rows of all packages. -/
def exportRows (s : Settings) (language : Text) (x : ModuleScan) : List TableRow :=
  x.packages.flatMap (·.exportRows s language x.module.identity)

/-- The warning about a package of the table that the module does not have. -/
def noPackage (identity package : Text) : Message :=
  .warn (identity ++ ": no package " ++ package.quoted ++ " for imported translations")

/-- The catalogs that packages get from a table, with a warning for each package that the module
does not have. -/
def generateFrom (s : Settings) (language : Text) (header : List Text) (x : ModuleScan) :
    List (Text × KeyedList Text Text) → List GeneratedCatalog × Log
  | [] => ([], [])
  | (name, translations) :: rest =>
    let (catalogs, log) := generateFrom s language header x rest
    match x.package? name with
    | none => (catalogs, noPackage x.module.identity name :: log)
    | some p =>
      if translations.isEmpty then (catalogs, log)
      else (p.generate s language header translations x.module.identity :: catalogs, log)

/-- The catalogs that the packages of a module get from a table. -/
def generate (s : Settings) (language : Text) (header : List Text) (table : Table)
    (x : ModuleScan) : List GeneratedCatalog × Log :=
  x.generateFrom s language header
    ((table.forModule x.module.identity).mergeSort fun a b => a.1.le b.1)

end ModuleScan

end BundleAudit
