import BundleAudit.Proofs.Module.Retranslation
import BundleAudit.Proofs.Table.Ordering

/-!
# BundleAudit.Proofs.Module.ExportedRows

**The rows that completed scans export.** They come scan by scan, package by package and
entry by entry, each with the text of the translation of its package
(`exportRows_eq`). No two of them have the same address, so nothing is lost in the table
that is made of them once all translations are filled in (`isExport_exportRows`).
-/

namespace BundleAudit

open RepositoryModule

/-- A module with its files, and what came of its scan. -/
structure CompletedScan where
  settings : Settings
  tree : Tree
  module : RepositoryModule
  result : ModuleScan
  isCompleted : (ModuleScan.ofFiles settings tree module).2 = .ok result

namespace CompletedScan

variable {c : CompletedScan} {language name : Text}

/-- The packages of a module, in ascending order. -/
def packageNames (c : CompletedScan) : List Text :=
  Text.sort (c.module.files.map (·.package)).dedup

/-- The translation of a package. -/
def translation? (c : CompletedScan) (language name : Text) : Option Catalog :=
  (c.result.package? name).bind (·.translation? c.settings language)

/-- The rows of a package: one for each entry of its primary catalog, if that can be read. -/
def packageRows (c : CompletedScan) (language name : Text) : List TableRow :=
  ((filesOf name c.module.files).filter (·.kind = .primaryCatalog)).flatMap fun f =>
    (entriesIn c.settings c.tree f.path).map fun e =>
      ⟨e.key, e.value, Catalog.textOf (c.translation? language name) e.key, c.module.identity, name⟩

/-- The rows of a module. -/
def rows (c : CompletedScan) (language : Text) : List TableRow :=
  c.packageNames.flatMap (c.packageRows language)

theorem hasOnePrimary (c : CompletedScan) : HasOnePrimary c.module.files :=
  let ⟨_, _, hstart, _⟩ := ModuleScan.of_ofFiles_eq_ok c.isCompleted
  ModuleScan.hasOnePrimary_of_start hstart

/-- A package has one primary catalog, or none. -/
theorem toList_find?_primary (c : CompletedScan) (name : Text) :
    ((filesOf name c.module.files).find? (·.kind = .primaryCatalog)).toList =
      (filesOf name c.module.files).filter (·.kind = .primaryCatalog) := by
  have hone : HasOnePrimary (filesOf name c.module.files) := c.hasOnePrimary.filter _
  exact ModuleScan.toList_find?_primary hone fun f hf => of_decide_eq_true (List.mem_filter.1 hf).2

theorem pairwise_packageNames (c : CompletedScan) :
    c.packageNames.Pairwise fun a b => a.lt b = true :=
  Text.pairwise_lt_sort (List.nodup_dedup _)

/-- The packages of the scan are those of the files. -/
theorem map_name_packages (c : CompletedScan) :
    c.result.packages.map (·.name) = c.packageNames := by
  have hascending := (ModuleScan.accounted_ofFiles c.isCompleted).ascending
  refine Text.eq_of_pairwise_lt hascending c.pairwise_packageNames fun name => ?_
  rw [packageNames, Text.mem_sort_iff, List.mem_dedup, List.mem_map, List.mem_map]
  exact ModuleScan.exists_mem_packages_iff c.isCompleted

/-- The rows of a package are those of its primary catalog, with the texts of its translation. -/
theorem exportRows_package {p : Package} (hp : p ∈ c.result.packages) :
    p.exportRows c.settings language c.module.identity = c.packageRows language p.name := by
  have htranslation : c.translation? language p.name = p.translation? c.settings language := by
    rw [translation?, (ModuleScan.package?_eq_some_iff c.isCompleted).2 ⟨hp, rfl⟩, Option.bind_some]
  rw [Package.exportRows_eq_withText, ModuleScan.untranslated_exportRows c.isCompleted hp,
    packageRows, htranslation, ← toList_find?_primary, List.map_flatMap]
  cases hfind : (filesOf p.name c.module.files).find? (·.kind = .primaryCatalog) with
  | none => simp [ModuleScan.packageOf, hfind]
  | some f =>
      simp only [ModuleScan.packageOf, hfind, Option.map_some, Option.toList_some,
        List.flatMap_singleton, catalogRows, List.map_map]
      rfl

/-- **A scan exports the rows of its packages,** in the order of their names. -/
theorem exportRows_eq (c : CompletedScan) (language : Text) :
    c.result.exportRows c.settings language = c.rows language := by
  rw [ModuleScan.exportRows, rows, ← map_name_packages, List.flatMap_map,
    ModuleScan.module_of_ofFiles_eq_ok c.isCompleted]
  exact List.flatMap_congr fun p hp => exportRows_package hp

/-! ### Addresses -/

theorem address_of_mem_packageRows {r : TableRow} (hr : r ∈ c.packageRows language name) :
    r.module = c.module.identity ∧ r.package = name := by
  obtain ⟨f, -, hr⟩ := List.mem_flatMap.1 hr
  obtain ⟨e, -, rfl⟩ := List.mem_map.1 hr
  exact ⟨rfl, rfl⟩

theorem address_of_mem_rows {r : TableRow} (hr : r ∈ c.rows language) :
    r.module = c.module.identity := by
  obtain ⟨name, -, hr⟩ := List.mem_flatMap.1 hr
  exact (address_of_mem_packageRows hr).1

/-- The keys of one catalog are distinct, and a package has only one primary catalog. -/
theorem nodup_packageRows (c : CompletedScan) (language name : Text) :
    ((c.packageRows language name).map (·.address)).Nodup := by
  rw [packageRows, ← toList_find?_primary]
  cases (filesOf name c.module.files).find? (·.kind = .primaryCatalog) with
  | none => exact List.nodup_nil
  | some f =>
      have hkeys := (ModuleScan.haveKeys_entriesIn c.settings c.tree f.path).nodup
      rw [Option.toList_some, List.flatMap_singleton, List.map_map]
      refine List.Nodup.of_map (fun address => address.2.2) ?_
      rwa [List.map_map]

theorem nodup_rows (c : CompletedScan) (language : Text) :
    ((c.rows language).map (·.address)).Nodup := by
  rw [rows, List.map_flatMap, List.nodup_flatMap]
  refine ⟨fun name _ => c.nodup_packageRows language name, ?_⟩
  refine c.pairwise_packageNames.imp fun {a b} hlt address ha hb => ?_
  obtain ⟨r, hr, rfl⟩ := List.mem_map.1 ha
  obtain ⟨r', hr', haddress⟩ := List.mem_map.1 hb
  have hpackage : r'.package = r.package := congrArg (fun address => address.2.1) haddress
  rw [(address_of_mem_packageRows hr).2, (address_of_mem_packageRows hr').2] at hpackage
  exact Text.ne_of_lt hlt hpackage.symm

/-- Rows of modules with distinct names have distinct addresses. -/
theorem nodup_flatMap_rows {scans : List CompletedScan}
    (h : (scans.map (·.module.identity)).Nodup) (language : Text) :
    ((scans.flatMap (·.rows language)).map (·.address)).Nodup := by
  rw [List.map_flatMap, List.nodup_flatMap]
  refine ⟨fun c _ => c.nodup_rows language, ?_⟩
  refine (List.pairwise_map.1 h).imp fun {c d} hne address hc hd => hne ?_
  obtain ⟨r, hr, rfl⟩ := List.mem_map.1 hc
  obtain ⟨r', hr', haddress⟩ := List.mem_map.1 hd
  have hmodule : r'.module = r.module := congrArg Prod.fst haddress
  rw [address_of_mem_rows hr, address_of_mem_rows hr'] at hmodule
  exact hmodule.symm

end CompletedScan

/-! ### Filled rows -/

/-- A row with a text for its translation. -/
def TableRow.filled (fill : TableRow → Text) (r : TableRow) : TableRow :=
  { r with translated := fill r }

theorem TableRow.isKept_filled {fill : TableRow → Text} {r : TableRow}
    (hblank : (fill r).isBlank = false) (hheader : r.filled fill ≠ header) :
    (r.filled fill).isKept = true := by
  refine isKept_iff.2 ⟨hheader, fun h => ?_⟩
  have htranslated : (fill r).isBlank = true := h.1
  rw [hblank] at htranslated
  cases htranslated

/-- A table holds the texts of rows: as many as there are rows, each at the address of its row. -/
structure Table.HoldsAll (fill : TableRow → Text) (rows : List TableRow) (t : Table) : Prop where
  size : t.size = rows.length
  find? : ∀ r ∈ rows, t.find? r.module r.package r.key = some (fill r).decodeEscapes

/-- Rows with distinct addresses keep all their texts in a table. -/
theorem Table.holdsAll_ofRows {rows : List TableRow} (h : (rows.map (·.address)).Nodup)
    {fill : TableRow → Text} (hblank : ∀ r ∈ rows, (fill r).isBlank = false)
    (hheader : ∀ r ∈ rows, r.filled fill ≠ TableRow.header) (source : Text) :
    ∃ t, Table.ofRows source ((rows.map (·.filled fill)).map (·.cells)) = .ok t ∧
      t.HoldsAll fill rows := by
  have hkept : (rows.map (·.filled fill)).filter (·.isKept) = rows.map (·.filled fill) := by
    refine List.filter_eq_self.2 (List.forall_mem_map.2 fun r hr => ?_)
    exact TableRow.isKept_filled (hblank r hr) (hheader r hr)
  have haddress : ((rows.map (·.filled fill)).map (·.address)) = rows.map (·.address) :=
    List.map_map
  have hnodup : (((rows.map (·.filled fill)).filter (·.isKept)).map (·.address)).Nodup := by
    rwa [hkept, haddress]
  refine ⟨_, Table.readRows_cells source 1 [] _, ?_, fun r hr => ?_⟩
  · rw [Table.size_foldl_addRow, hnodup.dedup, hkept, List.length_map, List.length_map]
  · rw [Table.find?_foldl_addRow, Table.lastText?_eq_some_iff_of_nodup hnodup]
    exact ⟨r.filled fill, List.mem_map_of_mem hr,
      TableRow.isKept_filled (hblank r hr) (hheader r hr), rfl, rfl⟩

/-! ### Exports -/

/-- The rows that scans export: those of each module and package in turn, no two of the same
address, so that all of them come into a table once they are filled. -/
structure IsExport (language : Text) (scans : List CompletedScan) (rows : List TableRow) :
    Prop where
  rows_eq : rows = scans.flatMap (·.rows language)
  nodup : (rows.map (·.address)).Nodup
  filled : ∀ (source : Text) (fill : TableRow → Text), (∀ r ∈ rows, (fill r).isBlank = false) →
    (∀ r ∈ rows, r.filled fill ≠ TableRow.header) →
    ∃ t, Table.ofRows source ((rows.map (·.filled fill)).map (·.cells)) = .ok t ∧
      t.HoldsAll fill rows

/-- **Modules with distinct names export each entry of their primary catalogs once,** with the text
of the translation of its package, and no filled row is lost in a table. -/
theorem isExport_exportRows {scans : List CompletedScan}
    (h : (scans.map (·.module.identity)).Nodup) (language : Text) :
    IsExport language scans (scans.flatMap fun c => c.result.exportRows c.settings language) := by
  have hrows : (scans.flatMap fun c => c.result.exportRows c.settings language) =
      scans.flatMap (·.rows language) :=
    List.flatMap_congr fun c _ => c.exportRows_eq language
  rw [hrows]
  have hnodup := CompletedScan.nodup_flatMap_rows h language
  exact ⟨rfl, hnodup, fun source fill hblank hheader =>
    Table.holdsAll_ofRows hnodup hblank hheader source⟩

/-- A scan of a module with a primary catalog, its translation and the translation of another one.
-/
theorem exists_completedScan (identity : Text) (rows : List TableRow)
    (h : (ModuleScan.ofFiles .standard (ModuleScan.catalogTree ModuleScan.bothNames)
      { ModuleScan.catalogModule ModuleScan.bothNames with identity }).2.toOption.map
        (·.exportRows .standard "de") = some rows) :
    ∃ c : CompletedScan, c.module.identity = identity ∧
      c.result.exportRows c.settings "de" = rows := by
  obtain ⟨x, hx, hrows⟩ := Option.map_eq_some_iff.1 h
  exact ⟨⟨_, _, _, x, Failure.eq_ok_of_toOption hx⟩, rfl, hrows⟩

theorem isExport_exportRows_sample :
    ∃ scans : List CompletedScan, (scans.map (·.module.identity)).Nodup ∧
      scans.flatMap (fun c => c.result.exportRows c.settings "de") =
        [⟨"k", "x", "x", "m", "p"⟩, ⟨"k", "x", "x", "n", "p"⟩] ∧
      IsExport "de" scans [⟨"k", "x", "x", "m", "p"⟩, ⟨"k", "x", "x", "n", "p"⟩] ∧
      ∃ t, Table.ofRows "t.csv" [["k", "x", "y", "m", "p"], ["k", "x", "y", "n", "p"]] = .ok t ∧
        t.size = 2 ∧ t.find? "n" "p" "k" = some "y" := by
  obtain ⟨c, hc, hrows⟩ := exists_completedScan "m" [⟨"k", "x", "x", "m", "p"⟩] (by decide +kernel)
  obtain ⟨d, hd, hrows'⟩ := exists_completedScan "n" [⟨"k", "x", "x", "n", "p"⟩] (by decide +kernel)
  have hnodup : ([c, d].map (·.module.identity)).Nodup := by
    rw [List.map_cons, List.map_singleton, hc, hd]
    decide
  have hall : [c, d].flatMap (fun c => c.result.exportRows c.settings "de") =
      [⟨"k", "x", "x", "m", "p"⟩, ⟨"k", "x", "x", "n", "p"⟩] := by
    rw [List.flatMap_cons, List.flatMap_singleton, hrows, hrows']
    rfl
  have hexport := isExport_exportRows hnodup "de"
  rw [hall] at hexport
  obtain ⟨t, htable, hholds⟩ := hexport.filled "t.csv" (fun _ => "y") (by decide) (by decide)
  exact ⟨[c, d], hnodup, hall, hexport, t, htable, hholds.size,
    hholds.find? _ (List.mem_cons_of_mem _ List.mem_cons_self)⟩

end BundleAudit
