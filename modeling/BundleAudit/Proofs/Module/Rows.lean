import BundleAudit.Proofs.Catalog.Reading
import BundleAudit.Proofs.Files.Refusal
import BundleAudit.Proofs.Module.Collection
import BundleAudit.Proofs.Text.Lines
import BundleAudit.Proofs.Text.Scalar
import Mathlib.Data.List.Pairwise

/-!
# BundleAudit.Proofs.Module.Rows

**A module has one row for each entry of a primary catalog.** Its packages have the
primary catalogs among its files, each of them once, whatever the order; and reading,
looking up and counting change no key and no text (`perm_exportRows`).
-/

namespace BundleAudit

/-- A row without its translation. -/
def TableRow.untranslated (r : TableRow) : TableRow := { r with translated := [] }

section

variable {files : List ModuleFile} {f g : ModuleFile}

/-- Two primary catalogs of one package are one. -/
theorem HasOnePrimary.eq (h : HasOnePrimary files) (hf : f ∈ files) (hg : g ∈ files)
    (hfkind : f.kind = .primaryCatalog) (hgkind : g.kind = .primaryCatalog)
    (hpackage : f.package = g.package) : f = g := by
  have hsymm : Std.Symm fun f g : ModuleFile =>
      f.kind = .primaryCatalog → g.kind = .primaryCatalog → f.package ≠ g.package :=
    ⟨fun _ _ h hg hf => (h hf hg).symm⟩
  by_contra hne
  exact List.Pairwise.forall h hf hg hne hfkind hgkind hpackage

theorem HasOnePrimary.nodup_packages (h : HasOnePrimary files) :
    ((files.filter (·.kind = .primaryCatalog)).map (·.package)).Nodup := by
  refine List.pairwise_map.2 ((h.filter _).imp_of_mem fun hf hg hne => ?_)
  exact hne (of_decide_eq_true (List.mem_filter.1 hf).2)
    (of_decide_eq_true (List.mem_filter.1 hg).2)

end

namespace RepositoryModule

/-- The files of a module, if they can be collected. -/
def filesIn (s : Settings) (t : Tree) (m : RepositoryModule) : List ModuleFile :=
  ((m.collectFiles s t).toOption.map (·.1.files)).getD []

/-- The entries of a catalog file, if it can be read. -/
def entriesIn (s : Settings) (t : Tree) (path : Text) : List CatalogEntry :=
  (CatalogEntry.ofLines s.intentionalMarker ((t.readLines path).toOption.getD [])).1

/-- The rows of a catalog file of a package, without translations. -/
def catalogRows (s : Settings) (t : Tree) (m : RepositoryModule) (package path : Text) :
    List TableRow :=
  (entriesIn s t path).map fun e => ⟨e.key, e.value, [], m.identity, package⟩

/-- The rows of all primary catalogs of a module, without translations. -/
def entryRows (s : Settings) (t : Tree) (m : RepositoryModule) : List TableRow :=
  ((filesIn s t m).filter (·.kind = .primaryCatalog)).flatMap fun f =>
    catalogRows s t m f.package f.path

end RepositoryModule

namespace ModuleScan

open RepositoryModule

variable {s : Settings} {t : Tree} {m m' : RepositoryModule} {x y : ModuleScan} {log : Log}
  {files : List ModuleFile} {language : Text}

/-! ### Primary catalogs -/

/-- The primary catalog of a package is the file of that kind. -/
theorem primary_packageOf_eq_some_iff (h : HasOnePrimary files) {name : Text} {c : Catalog} :
    (packageOf m name (filesOf name files)).primary = some c ↔
      ∃ f ∈ files, f.kind = .primaryCatalog ∧ f.package = name ∧ f.catalog = c := by
  show (List.find? _ (filesOf name files)).map _ = some c ↔ _
  rw [Option.map_eq_some_iff]
  constructor
  · rintro ⟨f, hfind, rfl⟩
    obtain ⟨hf, hname⟩ := List.mem_filter.1 (List.mem_of_find?_eq_some hfind)
    have hkind := List.find?_some hfind
    exact ⟨f, hf, of_decide_eq_true hkind, of_decide_eq_true hname, rfl⟩
  · rintro ⟨f, hf, hkind, rfl, rfl⟩
    have hmem : f ∈ filesOf f.package files := List.mem_filter.2 ⟨hf, decide_eq_true rfl⟩
    have hsome : ((filesOf f.package files).find? (·.kind = .primaryCatalog)).isSome :=
      List.find?_isSome.2 ⟨f, hmem, decide_eq_true hkind⟩
    obtain ⟨g, hfind⟩ := Option.isSome_iff_exists.1 hsome
    obtain ⟨hg, hname⟩ := List.mem_filter.1 (List.mem_of_find?_eq_some hfind)
    have hgkind := List.find?_some hfind
    refine ⟨g, hfind, ?_⟩
    rw [h.eq hg hf (of_decide_eq_true hgkind) hkind (of_decide_eq_true hname)]

/-- The primary catalogs of the packages are the files of that kind. -/
theorem perm_primary_packages (h : HasOnePrimary m.files) (hstart : start m = .ok x) :
    (x.packages.flatMap fun p => p.primary.toList.map fun c => (p.name, c.path)).Perm
      ((m.files.filter (·.kind = .primaryCatalog)).map fun f => (f.package, f.path)) := by
  obtain ⟨-, -, hascending, -⟩ := of_start_eq_ok hstart
  have hnames : ((x.packages.flatMap fun p => p.primary.toList.map fun c =>
      (p.name, c.path)).map Prod.fst).Sublist (x.packages.map (·.name)) := by
    induction x.packages with
    | nil => exact .slnil
    | cons p rest ih =>
        rw [List.flatMap_cons, List.map_append, List.map_cons]
        cases p.primary with
        | none => exact ih.cons p.name
        | some c => exact ih.cons_cons p.name
  refine (List.perm_ext_iff_of_nodup ?_ ?_).2 fun ⟨name, path⟩ => ?_
  · exact ((hascending.imp fun hlt => Text.ne_of_lt hlt).sublist hnames).of_map Prod.fst
      fun a b hne heq => hne (heq ▸ rfl)
  · refine List.Nodup.of_map Prod.fst ?_
    rw [List.map_map]
    exact h.nodup_packages
  · simp only [List.mem_flatMap, List.mem_map, Option.mem_toList, Prod.mk.injEq, List.mem_filter,
      decide_eq_true_eq, mem_packages_iff hstart]
    constructor
    · rintro ⟨p, ⟨f, hf, rfl⟩, c, hc, rfl, rfl⟩
      obtain ⟨g, hg, hkind, hpackage, rfl⟩ := (primary_packageOf_eq_some_iff h).1 hc
      exact ⟨g, ⟨hg, hkind⟩, hpackage, rfl⟩
    · rintro ⟨f, ⟨hf, hkind⟩, rfl, rfl⟩
      exact ⟨_, ⟨f, hf, rfl⟩, f.catalog,
        (primary_packageOf_eq_some_iff h).2 ⟨f, hf, hkind, rfl, rfl⟩, rfl, rfl⟩

/-! ### Rows -/

/-- The keys and texts of a catalog that was read and counted are those of its file. -/
theorem untranslated_exportRows_counted (n : Text → Nat) (p : Package) :
    ((counted s t n p).exportRows s language m.identity).map (·.untranslated) =
      p.primary.toList.flatMap fun c => catalogRows s t m p.name c.path := by
  have hprimary : (counted s t n p).primary = (p.primary.bind (Catalog.read? s t)).map fun c =>
      (c.countUses (p.read s t).1.texts).addUses n := by
    rw [counted, Package.read_fst]
    show ((p.primary.bind (Catalog.read? s t)).map _).map _ = _
    rw [Option.map_map]
    rfl
  unfold Package.exportRows
  rw [hprimary]
  cases p.primary with
  | none => rfl
  | some c =>
      rw [Option.bind_some, Option.toList_some, List.flatMap_singleton, catalogRows, entriesIn,
        Catalog.read?, Catalog.read]
      cases t.readLines c.path with
      | error failure => rfl
      | ok lines =>
          show ((Catalog.addUses n (Catalog.countUses _ _)).entries.map _).map _ = _
          rw [Catalog.countUses_eq, Catalog.addUses_addUses, Catalog.addUses, List.map_map,
            List.map_map]
          refine List.map_congr_left fun e _ => ?_
          simp only [Function.comp_apply, Package.exportRow, TableRow.untranslated, name_counted]

/-- **A module has one row for each entry of a primary catalog.** -/
theorem perm_exportRows (ht : t.IsSound) (hm : m.collectFiles s t = .ok (m', log))
    (hy : (ofFiles s t m').2 = .ok y) :
    ((y.exportRows s language).map (·.untranslated)).Perm (entryRows s t m) := by
  obtain ⟨files, rfl⟩ := collectFiles_eq_ok hm
  obtain ⟨x, -, hstart, hmodule, hpackages, -, -⟩ := of_ofFiles_eq_ok hy
  have hrows : (y.exportRows s language).map (·.untranslated) =
      (x.packages.flatMap fun p => p.primary.toList.map fun c => (p.name, c.path)).flatMap
        fun c => catalogRows s t m c.1 c.2 := by
    rw [exportRows, hmodule, hpackages, List.flatMap_map, List.map_flatMap, List.flatMap_assoc]
    refine List.flatMap_congr fun p _ => ?_
    rw [List.flatMap_map]
    exact untranslated_exportRows_counted (m := { m with files }) _ p
  have hperm := (perm_primary_packages (hasOnePrimary_collectFiles ht hm) hstart).flatMap_right
    fun c => catalogRows s t m c.1 c.2
  rw [hrows, entryRows, filesIn, hm]
  refine hperm.trans ?_
  rw [List.flatMap_map]
  exact .refl _

/-! ### Cells -/

/-- Keys and texts come from files, and the names of modules and packages from paths. -/
theorem all_isScalar_entryRows (ht : t.IsSound) (hidentity : Tree.notAPath? m.identity = none)
    {r : TableRow} (hr : r ∈ entryRows s t m) :
    ∀ cell ∈ r.cells, cell.all Code.isScalar = true := by
  obtain ⟨f, hf, hr⟩ := List.mem_flatMap.1 hr
  obtain ⟨e, he, rfl⟩ := List.mem_map.1 hr
  have hfiles := (List.mem_filter.1 hf).1
  have hpackage : Tree.notAPath? f.package = none := by
    unfold filesIn at hfiles
    cases hcollect : m.collectFiles s t with
    | error failure =>
        rw [hcollect] at hfiles
        cases hfiles
    | ok collected =>
        rw [hcollect] at hfiles
        obtain ⟨around, name, hstands, hentry⟩ := exists_standsAt ht hcollect hfiles
        rw [hstands.package, Tree.notAPath?_intercalate]
        exact fun n hn => (hentry n (List.mem_append_left _ hn)).isPath
  have hlines : ∀ line ∈ (t.readLines f.path).toOption.getD [], ∀ c ∈ line,
      Code.isScalar c = true := by
    cases hbytes : t.read f.path with
    | error failure =>
        rw [Tree.readLines, hbytes]
        exact nofun
    | ok bytes =>
        rw [Tree.readLines, hbytes]
        intro line hline c hc
        have hmem : c ∈ (Text.ofBytes bytes).lines.flatten := List.mem_flatten_of_mem hline hc
        rw [Text.flatten_lines] at hmem
        exact List.all_eq_true.1 (Text.all_isScalar_ofBytes bytes) c (List.mem_filter.1 hmem).1
  obtain ⟨hkey, hvalue⟩ := CatalogEntry.holds_ofLines hlines e he
  have hnone : ∀ {t : Text}, Tree.notAPath? t = none → t.all Code.isScalar = true := fun h =>
    (Tree.notAPath?_eq_none_iff.1 h).1
  simp only [TableRow.cells, List.forall_mem_cons]
  exact ⟨List.all_eq_true.2 hkey, List.all_eq_true.2 hvalue, rfl, hnone hidentity,
    hnone hpackage, nofun⟩

/-- Whether a row holds surrogates is decided by its translation. -/
theorem all_isScalar_cells_iff (ht : t.IsSound) (hidentity : Tree.notAPath? m.identity = none)
    (hm : m.collectFiles s t = .ok (m', log)) (hy : (ofFiles s t m').2 = .ok y) {r : TableRow}
    (hr : r ∈ y.exportRows s language) :
    (∀ cell ∈ r.cells, cell.all Code.isScalar = true) ↔ r.translated.all Code.isScalar = true := by
  have hmem := (perm_exportRows ht hm hy).subset (List.mem_map_of_mem hr)
  have hcells := all_isScalar_entryRows ht hidentity hmem
  simp only [TableRow.cells, TableRow.untranslated, List.forall_mem_cons] at hcells ⊢
  obtain ⟨hkey, hprimary, -, hmodule, hpackage, hnil⟩ := hcells
  exact ⟨fun h => h.2.2.1, fun h => ⟨hkey, hprimary, h, hmodule, hpackage, hnil⟩⟩

end ModuleScan

end BundleAudit
