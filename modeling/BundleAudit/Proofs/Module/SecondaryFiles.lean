import BundleAudit.Proofs.Failure
import BundleAudit.Proofs.Module.Packages
import BundleAudit.Proofs.Package.SecondaryCatalogs

/-!
# BundleAudit.Proofs.Module.SecondaryFiles

**The setting that asks for secondary catalogs** decides which files are collected
(`collectFiles_withSecondary`), and nothing else: a scan of given files does not depend on it
(`ofFiles_withSecondary`). Without these files a module has the same packages, without
their secondary catalogs, except those that hold nothing else
(`flatMap_withoutSecondary`).
-/

namespace BundleAudit

/-- The settings with secondary catalogs scanned, or not. -/
def Settings.withSecondary (scanned : Bool) (s : Settings) : Settings :=
  { s with scanSecondaryCatalogs := scanned }

/-! ### The setting and the scan -/

namespace Package

variable (scanned : Bool) (s : Settings) (t : Tree)

theorem readCatalogs_withSecondary (cs : List Catalog) :
    readCatalogs (s.withSecondary scanned) t cs = readCatalogs s t cs := by
  induction cs with
  | nil => rfl
  | cons c rest ih =>
      rw [readCatalogs, readCatalogs, ih]
      rfl

theorem readSources_withSecondary (xs : List (Text × SourceFile)) :
    readSources (s.withSecondary scanned) t xs = readSources s t xs := by
  induction xs with
  | nil => rfl
  | cons x rest ih =>
      rw [readSources, readSources, ih]
      rfl

theorem read_withSecondary (p : Package) : p.read (s.withSecondary scanned) t = p.read s t := by
  unfold read
  simp only [readCatalogs_withSecondary, readSources_withSecondary]

theorem reportSources_withSecondary (r : Report) (xs : List (Text × SourceFile)) :
    reportSources (s.withSecondary scanned) t r xs = reportSources s t r xs := by
  induction xs generalizing r with
  | nil => rfl
  | cons x rest ih =>
      have hreport : x.2.report (s.withSecondary scanned) t r = x.2.report s t r := rfl
      rw [reportSources, reportSources, hreport]
      split
      · exact ih _
      · rfl

theorem report_withSecondary (p : Package) (r : Report) :
    p.report (s.withSecondary scanned) t r = p.report s t r := by
  unfold report
  rw [reportSources_withSecondary]

end Package

/-! ### The setting and the files -/

/-- A module without the files that are secondary catalogs. -/
def RepositoryModule.withoutSecondary (m : RepositoryModule) : RepositoryModule :=
  { m with files := m.files.filter (·.kind ≠ .secondaryCatalog) }

theorem FileKind.ofName?_withSecondary (s : Settings) (name : Text) :
    ofName? (s.withSecondary false) name =
      (ofName? (s.withSecondary true) name).filter (· ≠ .secondaryCatalog) := by
  show (if name = s.primaryCatalogName then _ else if s.catalogSuffix.isSuffixOf name then
      if (catalogLanguage? name s.catalogSuffix).isSome then _ else none
    else if s.sourceSuffixes.elem (Path.ofText name).suffix then _ else none) =
      (if name = s.primaryCatalogName then _ else if s.catalogSuffix.isSuffixOf name then
        if (catalogLanguage? name s.catalogSuffix).isSome then _ else _
      else if s.sourceSuffixes.elem (Path.ofText name).suffix then _ else none).filter _
  split
  · rfl
  · split
    · split <;> rfl
    · split <;> rfl

namespace RepositoryModule

variable {s : Settings} {t : Tree} {m m' : RepositoryModule} {log : Log}

theorem file?_withSecondary (s : Settings) (sourceRoot : Path) (names : List Text) :
    file? (s.withSecondary false) sourceRoot names =
      (file? (s.withSecondary true) sourceRoot names).filter (·.kind ≠ .secondaryCatalog) := by
  unfold file?
  split
  · rfl
  · rw [FileKind.ofName?_withSecondary]
    cases FileKind.ofName? (s.withSecondary true) (names.getLastD []) with
    | none => rfl
    | some kind => cases kind <;> rfl

theorem filesBelow_withSecondary (s : Settings) (t : Tree) (sourceRoot : Path) :
    filesBelow (s.withSecondary false) t sourceRoot =
      (filesBelow (s.withSecondary true) t sourceRoot).map fun r =>
        (r.1.filter (·.kind ≠ .secondaryCatalog), r.2) := by
  have hfiles : ∀ names : List (List Text),
      names.filterMap (file? (s.withSecondary false) sourceRoot) =
        (names.filterMap (file? (s.withSecondary true) sourceRoot)).filter
          (·.kind ≠ .secondaryCatalog) := by
    intro names
    rw [List.filter_filterMap]
    exact List.filterMap_congr fun names _ => file?_withSecondary s sourceRoot names
  unfold filesBelow
  simp only [hfiles, bind, Except.bind]
  cases t.isDirectory sourceRoot.toText with
  | error failure => rfl
  | ok isDirectory =>
      cases isDirectory with
      | false => rfl
      | true =>
          dsimp only
          rw [if_pos rfl, if_pos rfl]
          split
          · next l _ =>
              cases closedBelow? t.depths.directories sourceRoot (t.entriesWithin l) <;> rfl
          · rfl

/-- Without secondary catalogs the other files are collected. -/
theorem collectFiles_withSecondary (h : m.collectFiles (s.withSecondary true) t = .ok (m', log)) :
    ∃ log', m.collectFiles (s.withSecondary false) t = .ok (m'.withoutSecondary, log') := by
  obtain ⟨⟨files, more⟩, hfiles, h⟩ := Failure.bind_eq_ok_iff.1 h
  obtain ⟨rfl, rfl⟩ := Prod.mk.inj (Except.ok.inj h)
  rw [collectFiles, filesBelow_withSecondary, hfiles]
  exact ⟨_, rfl⟩

end RepositoryModule

namespace ModuleScan

variable {s : Settings} {t : Tree} {m : RepositoryModule} {x y : ModuleScan}

theorem reportPackages_withSecondary (scanned : Bool) (s : Settings) (t : Tree) (r : Report)
    (ps : List Package) :
    reportPackages (s.withSecondary scanned) t r ps = reportPackages s t r ps := by
  induction ps generalizing r with
  | nil => rfl
  | cons p rest ih =>
      rw [reportPackages, reportPackages, Package.report_withSecondary]
      split
      · exact ih _
      · rfl

/-- **The setting does not matter for a scan of files.** -/
theorem ofFiles_withSecondary (scanned : Bool) (s : Settings) (t : Tree) (m : RepositoryModule) :
    ofFiles (s.withSecondary scanned) t m = ofFiles s t m := by
  have hplatform : ∀ x : ModuleScan, x.checkPlatform (s.withSecondary scanned) t =
    x.checkPlatform s t :=
    fun _ => rfl
  unfold ofFiles readPackages finish
  simp only [Package.read_withSecondary, hplatform, reportPackages_withSecondary]

/-! ### The packages -/

theorem filesOf_withoutSecondary (name : Text) (m : RepositoryModule) :
    filesOf name m.withoutSecondary.files =
      (filesOf name m.files).filter (·.kind ≠ .secondaryCatalog) := List.filter_comm _ _ _

theorem packageOf_withoutSecondary (m : RepositoryModule) (name : Text) (files : List ModuleFile) :
    packageOf m name (files.filter (·.kind ≠ .secondaryCatalog)) =
      (packageOf m name files).withoutSecondary := by
  have hkeep : ∀ kind : FileKind, kind ≠ .secondaryCatalog →
      (files.filter (·.kind ≠ .secondaryCatalog)).filter (·.kind = kind) =
        files.filter (·.kind = kind) := by
    intro kind hkind
    rw [List.filter_filter]
    refine List.filter_congr fun f _ => ?_
    by_cases h : f.kind = kind <;> simp [h, hkind]
  have hsecondary :
      (files.filter (·.kind ≠ .secondaryCatalog)).filter (·.kind = .secondaryCatalog) =
        [] := by
    rw [List.filter_filter]
    refine List.filter_eq_nil_iff.2 fun f _ => ?_
    by_cases h : f.kind = .secondaryCatalog <;> simp [h]
  unfold packageOf Package.withoutSecondary
  rw [← List.head?_filter, ← List.head?_filter, hkeep .primaryCatalog (by decide), hsecondary,
    hkeep .translatedCatalog (by decide), hkeep .source (by decide)]
  rfl

/-- The packages that there are without secondary catalogs are those with another file. -/
theorem names_withoutSecondary (hx : start m.withoutSecondary = .ok x) (hy : start m = .ok y) :
    x.packages.map (·.name) =
      (y.packages.map (·.name)).filter (· ∈ m.withoutSecondary.files.map (·.package)) := by
  obtain ⟨-, -, hascending, -⟩ := of_start_eq_ok hx
  obtain ⟨-, -, hascending', -⟩ := of_start_eq_ok hy
  refine Text.eq_of_pairwise_lt hascending (hascending'.filter _) fun name => ?_
  rw [List.mem_filter, mem_names_iff hx, mem_names_iff hy, decide_eq_true_iff]
  refine ⟨fun h => ⟨?_, h⟩, fun h => h.2⟩
  obtain ⟨f, hf, rfl⟩ := List.mem_map.1 h
  exact List.mem_map_of_mem (List.mem_of_mem_filter hf)

/-- What is collected from the packages that there are without secondary catalogs is collected from
all packages, if an empty package has nothing of it. -/
theorem flatMap_withoutSecondary {β : Type} (hx : start m.withoutSecondary = .ok x)
    (hy : start m = .ok y) {f : Package → List β} (hempty : ∀ name, f (packageOf m name []) = []) :
    x.packages.flatMap f = y.packages.flatMap fun p => f p.withoutSecondary := by
  have hnone : ∀ name ∈ y.packages.map (·.name),
      decide (name ∈ m.withoutSecondary.files.map (·.package)) ≠ true →
        f (packageOf m name (filesOf name m.withoutSecondary.files)) = [] := by
    intro name _ hname
    rw [filesOf_eq_nil fun hmem => hname (decide_eq_true hmem), hempty]
  calc x.packages.flatMap f
      = (x.packages.map (·.name)).flatMap fun name =>
          f (packageOf m name (filesOf name m.withoutSecondary.files)) := flatMap_packages hx f
    _ = (y.packages.map (·.name)).flatMap fun name =>
          f (packageOf m name (filesOf name m.withoutSecondary.files)) := by
        rw [names_withoutSecondary hx hy]
        generalize y.packages.map (·.name) = names at hnone
        induction names with
        | nil => rfl
        | cons name rest ih =>
            have ih := ih fun n hn => hnone n (List.mem_cons_of_mem name hn)
            rw [List.filter_cons, List.flatMap_cons]
            split
            · rw [List.flatMap_cons, ih]
            · next hname => rw [hnone name List.mem_cons_self hname, List.nil_append, ih]
    _ = y.packages.flatMap fun p => f p.withoutSecondary := by
        rw [flatMap_packages hy]
        refine List.flatMap_congr fun name _ => ?_
        rw [filesOf_withoutSecondary, packageOf_withoutSecondary]

end ModuleScan

end BundleAudit
