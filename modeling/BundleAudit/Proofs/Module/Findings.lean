import BundleAudit.Proofs.Module.Enumeration
import BundleAudit.Proofs.Module.Platform

/-!
# BundleAudit.Proofs.Module.Findings

**Where the findings of a scan come from.** Findings about sources are those of the packages
(`filter_findings_ofSource`), findings about the manifest and the layer those of the
platform (`filter_findings_ofPlatform`), and findings about unused entries name catalogs,
which are files of the module and so tell whether the catalog is a primary one
(`filter_isOnPrimary`).
-/

namespace BundleAudit.ModuleScan

variable {s : Settings} {t : Tree} {m : RepositoryModule} {x X : ModuleScan} {p : Package}

/-! ### What a scan says of each kind -/

theorem filter_findings_ofSource (hx : start m = .ok x) (hX : (ofFiles s t m).2 = .ok X)
    {keep : Finding → Bool} (hkeep : ∀ f, keep f = true → f.kind.isOfSource = true) :
    X.report.findings.filter keep =
      X.packages.flatMap fun p => (Package.sourceFindings s t p.orderedSources).filter keep := by
  obtain ⟨fs, hfs, -, hfindings⟩ := findings_ofFiles hx hX
  have hread : (x.packages.flatMap fun p => (p.read s t).2.1).filter keep = [] := by
    refine List.filter_eq_nil_iff.2 fun f hf hkept => ?_
    obtain ⟨p, -, hf⟩ := List.mem_flatMap.1 hf
    have hsource := hkeep f hkept
    rw [Package.kind_of_mem_read hf] at hsource
    cases hsource
  have hplatform : fs.filter keep = [] := by
    refine List.filter_eq_nil_iff.2 fun f hf hkept => ?_
    have hsource := hkeep f hkept
    rcases kind_of_mem_platformFindings hfs hf with hkind | hkind | hkind
    all_goals
      rw [hkind] at hsource
      cases hsource
  have hcatalogs :
      ∀ p : Package, (p.reportedCatalogs.flatMap Catalog.findings).filter keep = [] := by
    intro p
    refine List.filter_eq_nil_iff.2 fun f hf hkept => ?_
    have hsource := hkeep f hkept
    rw [Package.kind_of_mem_flatMap_findings hf] at hsource
    cases hsource
  rw [hfindings, List.filter_append, List.filter_append, hread, hplatform, List.nil_append,
    List.filter_flatMap]
  refine List.flatMap_congr fun p _ => ?_
  rw [Package.findings, List.filter_append, hcatalogs, List.append_nil]

/-- Of the kinds of findings about the manifest and the layer there are no others. -/
theorem filter_findings_ofPlatform (hx : start m = .ok x) (hX : (ofFiles s t m).2 = .ok X)
    {kind : Finding.Kind} (hkind : kind = .manifestCatalog ∨ kind = .layerDefinition) :
    ∃ fs, (x.readPackages s t).1.platformFindings s t = .ok fs ∧
      X.report.ofKind kind = fs.filter (·.kind = kind) := by
  obtain ⟨fs, hfs, -, hfindings⟩ := findings_ofFiles hx hX
  have hread : (x.packages.flatMap fun p => (p.read s t).2.1).filter (·.kind = kind) = [] := by
    refine List.filter_eq_nil_iff.2 fun f hf hkept => ?_
    obtain ⟨p, -, hf⟩ := List.mem_flatMap.1 hf
    have heq := (Package.kind_of_mem_read hf).symm.trans (of_decide_eq_true hkept)
    rcases hkind with rfl | rfl <;> cases heq
  have hpackages : (X.packages.flatMap (·.findings s t)).filter (·.kind = kind) = [] := by
    refine List.filter_eq_nil_iff.2 fun f hf hkept => ?_
    obtain ⟨p, -, hf⟩ := List.mem_flatMap.1 hf
    rcases List.mem_append.1 hf with hf | hf
    · have hsource := Package.isOfSource_of_mem_sourceFindings hf
      rw [of_decide_eq_true hkept] at hsource
      rcases hkind with rfl | rfl <;> cases hsource
    · have heq := (Package.kind_of_mem_flatMap_findings hf).symm.trans (of_decide_eq_true hkept)
      rcases hkind with rfl | rfl <;> cases heq
  refine ⟨fs, hfs, ?_⟩
  rw [Report.ofKind, hfindings, List.filter_append, List.filter_append, hread, hpackages,
    List.nil_append, List.append_nil]

/-! ### The files of packages -/

/-- The paths of the sources that can be read are those of files of the package. -/
theorem exists_file_of_source (hx : start m = .ok x) {p : Package}
    (hp : p ∈ x.packages) {path : Text}
    (hpath : path ∈ (p.read s t).1.pathsOf .source) :
    ∃ f ∈ m.files, f.package = p.name ∧ f.path = path := by
  obtain ⟨g, -, rfl⟩ := (mem_packages_iff hx).1 hp
  rw [Package.read_fst] at hpath
  obtain ⟨z, hz, rfl⟩ := List.mem_map.1 hpath
  obtain ⟨w, hw, hread⟩ := List.mem_filterMap.1 hz
  obtain ⟨source, hsource, rfl⟩ := Option.map_eq_some_iff.1 hread
  obtain ⟨f, hf, -, hfpath⟩ := exists_of_mem_sources (List.mem_mergeSort.1 hw)
  obtain ⟨hf, hname⟩ := List.mem_filter.1 hf
  have hpath := SourceFile.path_of_read?_eq_some hsource
  exact ⟨f, hf, of_decide_eq_true hname, hfpath.symm.trans hpath.symm⟩

theorem pathsOf_source_counted (s : Settings) (t : Tree) (n : Text → Nat) (p : Package) :
    (counted s t n p).pathsOf .source = (p.read s t).1.pathsOf .source :=
  List.map_map

/-- Reading and counting change neither the paths nor the kinds of catalogs. -/
theorem exists_catalog_of_counted {n : Text → Nat} {p : Package} {c : Catalog}
    (hc : c ∈ (counted s t n p).reportedCatalogs) :
    ∃ a ∈ p.lookupCatalogs ++ p.translated, a.path = c.path ∧ a.kind = c.kind := by
  rw [counted, Package.read_fst] at hc
  rcases List.mem_append.1 hc with hc | hc
  · rcases List.mem_append.1 hc with hc | hc
    · obtain ⟨d, hd, rfl⟩ := Option.map_eq_some_iff.1 (Option.mem_toList.1 hc)
      obtain ⟨b, hb, rfl⟩ := Option.map_eq_some_iff.1 hd
      obtain ⟨a, ha, hread⟩ := Option.bind_eq_some_iff.1 hb
      obtain ⟨hpath, hkind, -⟩ := Catalog.of_read?_eq_some hread
      rw [Catalog.countUses_eq]
      exact ⟨a, by simp [Package.lookupCatalogs, ha], hpath.symm, hkind.symm⟩
    · have hc := (Text.perm_sortBy Catalog.path _).mem_iff.1 hc
      obtain ⟨b, hb, rfl⟩ := List.mem_map.1 hc
      obtain ⟨a, ha, hread⟩ := List.mem_filterMap.1 hb
      obtain ⟨hpath, hkind, -⟩ := Catalog.of_read?_eq_some hread
      rw [Catalog.countUses_eq]
      exact ⟨a, by simp [Package.lookupCatalogs, ha], hpath.symm, hkind.symm⟩
  · have hc := (Text.perm_sortBy Catalog.path _).mem_iff.1 hc
    obtain ⟨a, ha, hread⟩ := List.mem_filterMap.1 hc
    obtain ⟨hpath, hkind, -⟩ := Catalog.of_read?_eq_some hread
    exact ⟨a, by simp [Package.lookupCatalogs, ha], hpath.symm, hkind.symm⟩

/-- The catalogs that are reported are files of their kinds. -/
theorem exists_file_of_catalog (hx : start m = .ok x) {p : Package} (hp : p ∈ x.packages)
    {n : Text → Nat} {c : Catalog} (hc : c ∈ (counted s t n p).reportedCatalogs) :
    ∃ f ∈ m.files, f.path = c.path ∧ f.kind = c.kind := by
  obtain ⟨a, ha, hpath, hkind⟩ := exists_catalog_of_counted hc
  obtain ⟨g, -, rfl⟩ := (mem_packages_iff hx).1 hp
  obtain ⟨f, hf, -, rfl⟩ := exists_of_mem_catalogs ha
  exact ⟨f, List.mem_of_mem_filter hf, hpath, hkind⟩

/-- At distinct paths, a file is told by its path. -/
theorem eq_of_path_eq (hpaths : (m.files.map (·.path)).Nodup) {f g : ModuleFile} (hf : f ∈ m.files)
    (hg : g ∈ m.files) (h : f.path = g.path) : f = g := List.inj_on_of_nodup_map hpaths hf hg h

/-! ### Primary catalogs -/

theorem package?_start (h : start m = .ok x) (name : Text) :
    x.package? name = if name ∈ m.files.map (·.package) then
      some (packageOf m name (filesOf name m.files)) else none := by
  cases hpackage : x.package? name with
  | none =>
      rw [if_neg]
      rw [← mem_names_iff h, List.mem_map]
      rintro ⟨p, hp, hname⟩
      exact package?_eq_none_iff.1 hpackage p hp hname
  | some p =>
      obtain ⟨hp, rfl⟩ := package?_eq_some hpackage
      rw [if_pos ((mem_names_iff h).1 (List.mem_map_of_mem hp))]
      obtain ⟨f, -, rfl⟩ := (mem_packages_iff h).1 hp
      rfl

theorem primaryOf?_readPackages (h : start m = .ok x) (s : Settings) (t : Tree) (name : Text) :
    (x.readPackages s t).1.primaryOf? name =
      (x.package? name).map fun p => (counted s t (fun _ => 0) p).primary := by
  have hpred : (fun p : Package => decide (p.name = name)) ∘ counted s t (fun _ => 0) =
      fun p : Package => decide (p.name = name) :=
    funext fun p => by rw [Function.comp_apply, name_counted]
  unfold primaryOf? package?
  rw [(readPackages_fst h).2.1, List.find?_map, Option.map_map, hpred]
  rfl

/-- Whether a finding is about a primary catalog. -/
def isOnPrimary (x : ModuleScan) (f : Finding) : Bool :=
  x.packages.any fun p => (p.pathsOf .primaryCatalog).elem f.file

/-- The findings about unused entries of primary catalogs. -/
theorem filter_isOnPrimary (hx : start m = .ok x) (hX : (ofFiles s t m).2 = .ok X)
    (hpaths : (m.files.map (·.path)).Nodup) :
    (X.report.ofKind .possiblyUnusedEntry).filter X.isOnPrimary =
      X.packages.flatMap fun p => p.primary.toList.flatMap Catalog.findings := by
  obtain ⟨x', r, hstart, -, hpackages, hreport, hunused, -⟩ := of_ofFiles_eq_ok hX
  obtain rfl := Except.ok.inj (hx.symm.trans hstart)
  obtain ⟨-, -, -, hofFiles⟩ := of_start_eq_ok hx
  -- each catalog is a file of its kind
  have hfile : ∀ p ∈ X.packages, p.WellFormed ∧
      ∀ c ∈ p.reportedCatalogs, ∃ f ∈ m.files, f.path = c.path ∧ f.kind = c.kind := by
    intro p hp
    rw [hpackages] at hp
    obtain ⟨q, hq, rfl⟩ := List.mem_map.1 hp
    exact ⟨wellFormed_counted (hofFiles q hq) s t _, fun c hc => exists_file_of_catalog hx hq hc⟩
  rw [ofKind_reportPackages hreport, hunused, List.nil_append, List.filter_flatMap]
  refine List.flatMap_congr fun p hp => ?_
  obtain ⟨hkinds, hfiles⟩ := hfile p hp
  have hprimary : (p.primary.toList.flatMap Catalog.findings).filter X.isOnPrimary =
      p.primary.toList.flatMap Catalog.findings := by
    refine List.filter_eq_self.2 fun f hf => ?_
    obtain ⟨c, hc, hf⟩ := List.mem_flatMap.1 hf
    obtain ⟨line, message, rfl⟩ := Catalog.exists_of_mem_findings hf
    exact List.any_eq_true.2 ⟨p, hp, List.elem_iff.2 (List.mem_map_of_mem hc)⟩
  have hothers :
      ∀ cs : List Catalog, (∀ c ∈ cs, c ∈ p.reportedCatalogs ∧ c.kind ≠ .primaryCatalog) →
        (cs.flatMap Catalog.findings).filter X.isOnPrimary = [] := by
    intro cs hcs
    refine List.filter_eq_nil_iff.2 fun f hf hon => ?_
    obtain ⟨c, hc, hf⟩ := List.mem_flatMap.1 hf
    obtain ⟨line, message, rfl⟩ := Catalog.exists_of_mem_findings hf
    obtain ⟨q, hq, hon⟩ := List.any_eq_true.1 hon
    obtain ⟨d, hd, hpath⟩ := List.mem_map.1 (List.elem_iff.1 hon)
    obtain ⟨hqkinds, hqfiles⟩ := hfile q hq
    obtain ⟨hreported, hkind⟩ := hcs c hc
    -- the two catalogs would be one file
    obtain ⟨g, hg, hgpath, hgkind⟩ := hfiles c hreported
    obtain ⟨g', hg', hgpath', hgkind'⟩ := hqfiles d
      (List.mem_append_left _ (List.mem_append_left _ hd))
    have heq := eq_of_path_eq hpaths hg hg' (by rw [hgpath, hgpath', hpath])
    rw [← hgkind, heq, hgkind', hqkinds.primary d (Option.mem_toList.1 hd)] at hkind
    exact hkind rfl
  have hsecondary := hothers (Package.byPath p.secondary) fun c hc => by
    refine ⟨List.mem_append_left _ (List.mem_append_right _ hc), ?_⟩
    rw [hkinds.secondary c ((Text.perm_sortBy Catalog.path _).mem_iff.1 hc)]
    decide
  have htranslated := hothers (Package.byPath p.translated) fun c hc => by
    refine ⟨List.mem_append_right _ hc, ?_⟩
    rw [hkinds.translated c ((Text.perm_sortBy Catalog.path _).mem_iff.1 hc)]
    decide
  rw [Package.reportedCatalogs, List.flatMap_append, List.flatMap_append, List.filter_append,
    List.filter_append, hprimary, hsecondary, htranslated, List.append_nil, List.append_nil]

end BundleAudit.ModuleScan
