import BundleAudit.Proofs.Failure
import BundleAudit.Proofs.Module.Marking
import BundleAudit.Proofs.Module.Report

/-!
# BundleAudit.Proofs.Module.Usage

**What a scan of a module says about the use of entries.** The uses of an entry are
the occurrences of its key in the sources of its package and, for the primary catalog
of a platform module, what the manifest and the layer mark. All of that is counted
before anything is reported, so the findings about unused entries are just the entries
without any use (`accounted_ofFiles`).
-/

namespace BundleAudit.ModuleScan

/-- A package as it is after its files are read, its texts are looked up, and the platform has added
`n` uses for each key. -/
def counted (s : Settings) (t : Tree) (n : Text → Nat) (p : Package) : Package :=
  (p.read s t).1.lookUp.addUses n

/-- What a scan of a module says about the use of entries. -/
structure Accounted (s : Settings) (t : Tree) (m : RepositoryModule) (y : ModuleScan) : Prop where
  /-- The packages are those of the files of the module, read and looked up; what the platform adds
  are uses of entries of primary catalogs. -/
  packages : ∃ x, start m = .ok x ∧ y.packages = x.packages.map fun p =>
    counted s t (platformUses s t m p.name) p
  /-- Their names ascend, so each name is that of one package. -/
  ascending : (y.packages.map (·.name)).Pairwise fun a b => a.lt b = true
  primary : ∀ p ∈ y.packages, ∀ c, p.primary = some c → ∀ e ∈ c.entries,
    e.uses = p.texts.count e.key + platformUses s t m p.name e.key
  secondary : ∀ p ∈ y.packages, ∀ c ∈ p.secondary, ∀ e ∈ c.entries,
    e.uses = p.texts.count e.key
  /-- One finding for each entry of a primary or a secondary catalog that has no use and is not
  declared to be in use, and no other one. -/
  unused : y.report.ofKind .possiblyUnusedEntry = y.packages.flatMap fun p =>
    (p.primary.toList.flatMap
        (Catalog.unused fun key => p.texts.count key + platformUses s t m p.name key)) ++
      (Package.byPath p.secondary).flatMap (Catalog.unused p.texts.count)

/-! ### Counted packages -/

@[simp] theorem texts_lookUp (p : Package) : p.lookUp.texts = p.texts := by
  unfold Package.texts Package.lookUp
  rw [List.flatMap_map]
  congr 1
  funext x
  exact SourceFile.texts_lookUp _ x.2

theorem name_counted (s : Settings) (t : Tree) (n : Text → Nat) (p : Package) :
    (counted s t n p).name = p.name := by
  rw [counted, Package.read_fst]
  rfl

theorem directory_counted (s : Settings) (t : Tree) (n : Text → Nat) (p : Package) :
    (counted s t n p).directory = p.directory := by
  rw [counted, Package.read_fst]
  rfl

theorem translated_counted (s : Settings) (t : Tree) (n : Text → Nat) (p : Package) :
    (counted s t n p).translated = p.translated.filterMap (Catalog.read? s t) := by
  rw [counted, Package.read_fst]
  rfl

theorem texts_counted (s : Settings) (t : Tree) (n : Text → Nat) (p : Package) :
    (counted s t n p).texts = (p.read s t).1.texts := texts_lookUp (p.read s t).1

theorem wellFormed_counted {p : Package} (hp : p.OfFiles) (s : Settings) (t : Tree)
    (n : Text → Nat) : (counted s t n p).WellFormed := by
  have hlookUp := (hp.wellFormed.read s t).lookUp
  refine { hlookUp with primary := fun c hc => ?_ }
  obtain ⟨d, hd, rfl⟩ := Option.map_eq_some_iff.1 hc
  exact hlookUp.primary d hd

theorem uses_primary_counted {s : Settings} {t : Tree} {n : Text → Nat} {p : Package} {c : Catalog}
    (hc : (counted s t n p).primary = some c) :
    ∀ e ∈ c.entries, e.uses = (counted s t n p).texts.count e.key + n e.key := by
  -- back through the marking and the looking up to the entries as they were read
  obtain ⟨d, hd, rfl⟩ := Option.map_eq_some_iff.1 hc
  obtain ⟨b, hb, rfl⟩ := Option.map_eq_some_iff.1 hd
  rw [Package.read_fst] at hb
  obtain ⟨a, -, hread⟩ := Option.bind_eq_some_iff.1 hb
  have hfresh := (Catalog.of_read?_eq_some hread).2.2
  rw [texts_counted]
  exact Catalog.uses_addUses (n := (p.read s t).1.texts.count) (Catalog.uses_countUses hfresh)

theorem uses_secondary_counted {s : Settings} {t : Tree} {n : Text → Nat} {p : Package}
    {c : Catalog} (hc : c ∈ (counted s t n p).secondary) :
    ∀ e ∈ c.entries, e.uses = (counted s t n p).texts.count e.key := by
  obtain ⟨b, hb, rfl⟩ := List.mem_map.1 hc
  rw [Package.read_fst] at hb
  obtain ⟨a, -, hread⟩ := List.mem_filterMap.1 hb
  have hfresh := (Catalog.of_read?_eq_some hread).2.2
  rw [texts_counted]
  exact Catalog.uses_countUses hfresh

/-- What is reported of the catalogs of a package: the unused entries of the primary catalog and of
the secondary ones, by their paths. -/
theorem flatMap_findings_counted {p : Package} (hp : p.OfFiles) (s : Settings) (t : Tree)
    (n : Text → Nat) :
    (counted s t n p).reportedCatalogs.flatMap Catalog.findings =
      ((counted s t n p).primary.toList.flatMap
        (Catalog.unused fun key => (counted s t n p).texts.count key + n key)) ++
      (Package.byPath (counted s t n p).secondary).flatMap
        (Catalog.unused (counted s t n p).texts.count) := by
  have hkinds := wellFormed_counted hp s t n
  have hprimary : (counted s t n p).primary.toList.flatMap Catalog.findings =
      (counted s t n p).primary.toList.flatMap
        (Catalog.unused fun key => (counted s t n p).texts.count key + n key) := by
    refine List.flatMap_congr fun c hc => ?_
    rw [Option.mem_toList] at hc
    exact Catalog.findings_eq_unused (by rw [hkinds.primary c hc]; nofun) (uses_primary_counted hc)
  have hsecondary : (Package.byPath (counted s t n p).secondary).flatMap Catalog.findings =
      (Package.byPath (counted s t n p).secondary).flatMap
        (Catalog.unused (counted s t n p).texts.count) := by
    refine List.flatMap_congr fun c hc => ?_
    have hc := (Text.perm_sortBy Catalog.path _).mem_iff.1 hc
    exact Catalog.findings_eq_unused (by rw [hkinds.secondary c hc]; nofun)
      (uses_secondary_counted hc)
  have htranslated :
      (Package.byPath (counted s t n p).translated).flatMap Catalog.findings = [] := by
    refine List.flatMap_eq_nil_iff.2 fun c hc => ?_
    have hc := (Text.perm_sortBy Catalog.path _).mem_iff.1 hc
    exact Catalog.findings_eq_nil (hkinds.translated c hc)
  rw [Package.reportedCatalogs, List.flatMap_append, List.flatMap_append, hprimary, hsecondary,
    htranslated, List.append_nil]

/-! ### The scan -/

/-- After all packages are read and looked up, there is no finding about an unused entry. -/
theorem readPackages_fst {s : Settings} {t : Tree} {m : RepositoryModule} {x : ModuleScan}
    (h : start m = .ok x) :
    (x.readPackages s t).1.module = m ∧
      (x.readPackages s t).1.packages = x.packages.map (counted s t fun _ => 0) ∧
      (x.readPackages s t).1.report.ofKind .possiblyUnusedEntry = [] ∧
      (x.readPackages s t).1.report.name = m.identity := by
  obtain ⟨hmodule, hreport, -, -⟩ := of_start_eq_ok h
  have hfindings : x.report.findings = [] := by rw [hreport]
  refine ⟨hmodule, ?_, ?_, congrArg Report.name hreport⟩
  · show (x.packages.map (·.read s t)).map (fun r => r.1.lookUp) = _
    rw [List.map_map]
    refine List.map_congr_left fun p _ => ?_
    rw [counted, Package.addUses_zero]
    rfl
  · show (x.report.findings ++ (x.packages.map (·.read s t)).flatMap fun r => r.2.1).filter
      (·.kind = .possiblyUnusedEntry) = []
    rw [hfindings, List.nil_append, List.flatMap_map]
    refine List.filter_eq_nil_iff.2 fun f hf hkind => ?_
    obtain ⟨p, -, hf⟩ := List.mem_flatMap.1 hf
    rw [Package.kind_of_mem_read hf] at hkind
    cases of_decide_eq_true hkind

/-- Their names are distinct, so that marking finds the package of each name. -/
theorem nodup_names_readPackages {m : RepositoryModule} {x : ModuleScan} (h : start m = .ok x)
    (s : Settings) (t : Tree) : ((x.readPackages s t).1.packages.map (·.name)).Nodup := by
  obtain ⟨-, -, hascending, -⟩ := of_start_eq_ok h
  have hnames : (x.readPackages s t).1.packages.map (·.name) = x.packages.map (·.name) := by
    rw [(readPackages_fst h).2.1, List.map_map]
    exact List.map_congr_left fun p _ => name_counted s t _ p
  exact hnames ▸ hascending.imp fun hlt => Text.ne_of_lt hlt

/-- A scan of a module is reading, marking, and then the report. -/
theorem ofFiles_cases {s : Settings} {t : Tree} {m : RepositoryModule} {y : ModuleScan}
    (h : (ofFiles s t m).2 = .ok y) :
    ∃ x z report, start m = .ok x ∧ ((x.readPackages s t).1.checkPlatform s t).2 = .ok z ∧
      reportPackages s t z.report z.packages = .ok report ∧ y = { z with report } := by
  unfold ofFiles at h
  cases hstart : start m with
  | error failure =>
      rw [hstart] at h
      cases h
  | ok x =>
      rw [hstart] at h
      obtain ⟨z, hplatform, hfinish⟩ := Failure.bind_eq_ok_iff.1 h
      obtain ⟨report, hreport, rfl⟩ := Failure.map_eq_ok_iff.1 hfinish
      exact ⟨x, z, report, rfl, hplatform, hreport, rfl⟩

/-- What a complete scan has: the packages of the files of the module, counted, and the report on
them, which begins without findings about unused entries. -/
theorem of_ofFiles_eq_ok {s : Settings} {t : Tree} {m : RepositoryModule} {y : ModuleScan}
    (h : (ofFiles s t m).2 = .ok y) :
    ∃ x r, start m = .ok x ∧ y.module = m ∧
      (y.packages = x.packages.map fun p => counted s t (platformUses s t m p.name) p) ∧
      reportPackages s t r y.packages = .ok y.report ∧
      r.ofKind .possiblyUnusedEntry = [] ∧ r.name = m.identity := by
  obtain ⟨x, z, report, hstart, hplatform, hreport, rfl⟩ := ofFiles_cases h
  obtain ⟨hmodule, hpackages, hunused, hname⟩ := readPackages_fst (s := s) (t := t) hstart
  have hmarks := marks_checkPlatform (nodup_names_readPackages hstart s t) hplatform
  rw [hmodule] at hmarks
  refine ⟨x, z.report, hstart, hmarks.module.trans hmodule, ?_, hreport,
    hmarks.unused.trans hunused, hmarks.name.trans hname⟩
  show z.packages = _
  rw [hmarks.packages, hpackages, List.map_map]
  refine List.map_congr_left fun p _ => ?_
  rw [Function.comp_apply, name_counted, counted, Package.addUses_zero, counted]

/-- A complete scan is one of its module. -/
theorem module_of_ofFiles_eq_ok {s : Settings} {t : Tree} {m : RepositoryModule} {y : ModuleScan}
    (h : (ofFiles s t m).2 = .ok y) : y.module = m :=
  let ⟨_, _, _, hmodule, _⟩ := of_ofFiles_eq_ok h
  hmodule

/-- **The uses of entries are accounted for.** After a scan of a module, an entry of a primary
catalog has as many uses as its key occurs in the sources of the package and is marked by the
manifest and by the layer, an entry of a secondary catalog as many as its key occurs; and the
entries without any use that are not declared to be in use are just those that are reported. -/
theorem accounted_ofFiles {s : Settings} {t : Tree} {m : RepositoryModule} {y : ModuleScan}
    (h : (ofFiles s t m).2 = .ok y) : Accounted s t m y := by
  obtain ⟨x, r, hstart, -, hy, hreport, hunused, -⟩ := of_ofFiles_eq_ok h
  obtain ⟨-, -, hascending, hofFiles⟩ := of_start_eq_ok hstart
  -- each package of the result is a package of files, counted
  have hmem : ∀ p ∈ y.packages, ∃ q, q.OfFiles ∧ p.name = q.name ∧
      p = counted s t (platformUses s t m p.name) q := by
    intro p hp
    rw [hy] at hp
    obtain ⟨q, hq, rfl⟩ := List.mem_map.1 hp
    exact ⟨q, hofFiles q hq, name_counted s t _ q, by rw [name_counted]⟩
  have hnames : y.packages.map (·.name) = x.packages.map (·.name) := by
    rw [hy, List.map_map]
    exact List.map_congr_left fun p _ => name_counted s t _ p
  refine ⟨⟨x, hstart, hy⟩, hnames ▸ hascending, fun p hp c hc => ?_, fun p hp c hc => ?_, ?_⟩
  · obtain ⟨q, -, -, heq⟩ := hmem p hp
    rw [heq] at hc
    have huses := uses_primary_counted hc
    rwa [← heq] at huses
  · obtain ⟨q, -, -, heq⟩ := hmem p hp
    rw [heq] at hc
    have huses := uses_secondary_counted hc
    rwa [← heq] at huses
  · rw [ofKind_reportPackages hreport, hunused, List.nil_append]
    refine List.flatMap_congr fun p hp => ?_
    obtain ⟨q, hq, -, heq⟩ := hmem p hp
    have hfindings := flatMap_findings_counted hq s t (platformUses s t m p.name)
    rwa [← heq] at hfindings

/-- A tree with the files of a platform module. -/
def sampleTree : Tree :=
  { entries :=
      [([Text.ofString "manifest.mf"],
          .ofText ("OpenIDE-Module: m\nOpenIDE-Module-Localizing-Bundle: p/B.properties\n"
            ++ "OpenIDE-Module-Layer: l\n")),
        ([Text.ofString "src"], .directory),
        ([Text.ofString "src", Text.ofString "l"], .ofText "<a><b bundlevalue='p.B#two'/></a>"),
        ([Text.ofString "src", Text.ofString "p"], .directory),
        ([Text.ofString "src", Text.ofString "p", Text.ofString "A.java"],
          .ofText "a = \"one\"; // NOI18N\n"),
        ([Text.ofString "src", Text.ofString "p", Text.ofString "Bundle.properties"],
          .ofText "one=1\ntwo=2\nOpenIDE-Module-Name=3\nfour=4\n# YESI18N\nfive=5\n"),
        ([Text.ofString "src", Text.ofString "p", Text.ofString "Other.properties"],
          .ofText "one=1\ntwo=2\n")] }

/-- This module. Of its primary catalog a source uses `one`, the layer `two`, and the manifest the
name of the module. -/
def sampleModule : RepositoryModule where
  identity := "m"
  root := "/"
  sourceRoot := "/src"
  manifest := some "/manifest.mf"
  files :=
    [⟨"p", "/src/p/Bundle.properties", .primaryCatalog⟩,
      ⟨"p", "/src/p/Other.properties", .secondaryCatalog⟩, ⟨"p", "/src/p/A.java", .source⟩]

theorem accounted_ofFiles_sample :
    ∃ y, (ofFiles .standard sampleTree sampleModule).2 = .ok y ∧
      Accounted .standard sampleTree sampleModule y ∧
      y.report.ofKind .possiblyUnusedEntry =
        [⟨.possiblyUnusedEntry, "/src/p/Bundle.properties", 4, "four"⟩,
          ⟨.possiblyUnusedEntry, "/src/p/Other.properties", 2, "two"⟩] := by
  have hreport : (ofFiles .standard sampleTree sampleModule).2.toOption.map
      (·.report.ofKind .possiblyUnusedEntry) =
        some [⟨.possiblyUnusedEntry, "/src/p/Bundle.properties", 4, "four"⟩,
          ⟨.possiblyUnusedEntry, "/src/p/Other.properties", 2, "two"⟩] := by
    decide +kernel
  obtain ⟨y, hy, hunused⟩ := Option.map_eq_some_iff.1 hreport
  have hscan := Failure.eq_ok_of_toOption hy
  exact ⟨y, hscan, accounted_ofFiles hscan, hunused⟩

end BundleAudit.ModuleScan
