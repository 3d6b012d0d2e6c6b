import Mathlib.Data.List.Permutation
import BundleAudit.Proofs.Module.Findings
import BundleAudit.Proofs.Module.SecondaryFiles

/-!
# BundleAudit.Proofs.Module.SecondaryCatalogs

**Secondary catalogs only ever relieve sources.** A module that is scanned with them has the
findings of a scan without them, but for texts that are keys of a secondary catalog of their
package: these are no longer missing, and their suppressions may have no purpose. The entries
of primary catalogs have the same uses, and the layer may refer to packages that were not
there (`Relieves`).
-/

namespace BundleAudit.ModuleScan

variable {s : Settings} {t : Tree} {m : RepositoryModule} {x y X Y : ModuleScan}

/-! ### Primary catalogs -/

theorem counted_empty (s : Settings) (t : Tree) (n : Text → Nat)
    (m : RepositoryModule) (name : Text) :
    counted s t n (packageOf m name []) = packageOf m name [] := by
  rw [counted, Package.read_fst]
  simp [packageOf, Package.orderedSources, Package.lookUp, Package.addUses]

theorem primary_counted_withoutSecondary (s : Settings) (t : Tree) (n : Text → Nat) (p : Package) :
    (counted s t n p.withoutSecondary).primary = (counted s t n p).primary := by
  rw [counted, Package.read_withoutSecondary]
  rfl

/-- A package that there is for its secondary catalogs alone has no primary catalog. -/
theorem addsNoPrimary_withoutSecondary (hx : start m.withoutSecondary = .ok x)
    (hy : start m = .ok y)
    (s : Settings) (t : Tree) :
    AddsNoPrimary (x.readPackages s t).1 (y.readPackages s t).1 := by
  intro name
  have hprimary : (counted s t (fun _ => 0)
        (packageOf m.withoutSecondary name (filesOf name m.withoutSecondary.files))).primary =
      (counted s t (fun _ => 0) (packageOf m name (filesOf name m.files))).primary := by
    rw [filesOf_withoutSecondary]
    show (counted s t _ (packageOf m name ((filesOf name m.files).filter _))).primary = _
    rw [packageOf_withoutSecondary, primary_counted_withoutSecondary]
  rw [primaryOf?_readPackages hx, primaryOf?_readPackages hy, package?_start hx, package?_start hy]
  by_cases hmem : name ∈ m.withoutSecondary.files.map (·.package)
  · obtain ⟨f, hf, hname⟩ := List.mem_map.1 hmem
    have hall : name ∈ m.files.map (·.package) :=
      hname ▸ List.mem_map_of_mem (List.mem_of_mem_filter hf)
    rw [if_pos hmem, if_pos hall, Option.map_some, Option.map_some, hprimary]
    exact .inl rfl
  · rw [if_neg hmem]
    by_cases hall : name ∈ m.files.map (·.package)
    · rw [if_pos hall]
      refine .inr ⟨rfl, congrArg some (hprimary.symm.trans ?_)⟩
      rw [filesOf_eq_nil hmem, counted_empty]
      rfl
    · rw [if_neg hall]
      exact .inl rfl

/-! ### Relief -/

/-- Whether a finding is about a source of a package that has its text in a secondary catalog. -/
def isRelieved (x : ModuleScan) (f : Finding) : Bool :=
  x.packages.any fun p =>
    (p.pathsOf .source).elem f.file && p.secondary.any (·.hasKey f.message)

/-- The primary catalogs of a module, by the names of their packages. -/
def primaries (x : ModuleScan) : List (Text × Catalog) :=
  x.packages.flatMap fun p => p.primary.toList.map (p.name, ·)

/-- A scan `y` with secondary catalogs relieves the sources of a scan `x` without them, and does
nothing else but to add findings about the layer and about suppressions. -/
structure Relieves (x y : ModuleScan) : Prop where
  /-- Just the texts that are keys of a secondary catalog of their package are no longer missing. -/
  missing : y.report.findings.filter (·.kind.isMissing) =
    (x.report.findings.filter (·.kind.isMissing)).filter (!y.isRelieved ·)
  /-- The entries of primary catalogs have the same uses. -/
  primaries : y.primaries = x.primaries
  manifest : y.report.ofKind .manifestCatalog = x.report.ofKind .manifestCatalog
  unused : (y.report.ofKind .possiblyUnusedEntry).filter y.isOnPrimary =
    (x.report.ofKind .possiblyUnusedEntry).filter x.isOnPrimary
  redundant :
    (x.report.ofKind .redundantSuppression).Sublist (y.report.ofKind .redundantSuppression)
  layer : (x.report.ofKind .layerDefinition).Sublist (y.report.ofKind .layerDefinition)

/-- A finding about a source is relieved just by the secondary catalogs of the package of the
source. -/
theorem isRelieved_eq (hy : start m = .ok y) (hY : (ofFiles s t m).2 = .ok Y)
    (hpaths : (m.files.map (·.path)).Nodup) {p : Package} (hp : p ∈ y.packages) {f : Finding}
    (hf : f.file ∈ (p.read s t).1.pathsOf .source) :
    Y.isRelieved f = (p.read s t).1.secondary.any (·.hasKey f.message) := by
  obtain ⟨-, -, hpackages, -⟩ := findings_ofFiles hy hY
  obtain ⟨-, -, hascending, -⟩ := of_start_eq_ok hy
  have hnodup : (y.packages.map (·.name)).Nodup := hascending.imp fun hlt => Text.ne_of_lt hlt
  have hsecondary : ∀ (n : Text → Nat) (q : Package),
      (counted s t n q).secondary.any (·.hasKey f.message) =
        (q.read s t).1.secondary.any (·.hasKey f.message) := by
    intro n q
    have hkey : (fun c : Catalog => c.hasKey f.message) ∘
        (fun c : Catalog => c.countUses (q.read s t).1.texts) = fun c : Catalog =>
          c.hasKey f.message :=
      funext fun c => by rw [Function.comp_apply, Catalog.countUses_eq, Catalog.hasKey_addUses]
    show ((q.read s t).1.secondary.map _).any _ = _
    rw [List.any_map, hkey]
  unfold isRelieved
  rw [hpackages, List.any_map, Bool.eq_iff_iff, List.any_eq_true]
  simp only [Function.comp_apply, pathsOf_source_counted, hsecondary, Bool.and_eq_true,
    List.elem_iff]
  constructor
  · rintro ⟨q, hq, hqf, hkey⟩
    obtain ⟨g, hg, hgname, hgpath⟩ := exists_file_of_source hy hp hf
    obtain ⟨g', hg', hgname', hgpath'⟩ := exists_file_of_source hy hq hqf
    have heq := eq_of_path_eq hpaths hg hg' (hgpath.trans hgpath'.symm)
    have hname : p.name = q.name := by rw [← hgname, ← hgname', heq]
    rwa [List.inj_on_of_nodup_map hnodup hp hq hname]
  · exact fun hkey => ⟨p, hp, hf, hkey⟩

/-! ### Both scans -/

section

variable (hx : start m.withoutSecondary = .ok x) (hy : start m = .ok y)
  (hX : (ofFiles s t m.withoutSecondary).2 = .ok X) (hY : (ofFiles s t m).2 = .ok Y)

include hx hX in
/-- What there is of packages without secondary catalogs comes from the packages with them. -/
theorem flatMap_scan_withoutSecondary {β : Type} (hy : start m = .ok y) {f : Package → List β}
    (hempty : ∀ name, f (packageOf m name []) = []) :
    X.packages.flatMap f = y.packages.flatMap fun p =>
      f (counted s t (platformUses s t m p.name) p.withoutSecondary) := by
  obtain ⟨-, -, hpackages, -⟩ := findings_ofFiles hx hX
  rw [hpackages, List.flatMap_map]
  refine flatMap_withoutSecondary hx hy (f := fun p => f (counted s t _ p)) fun name => ?_
  rw [counted_empty, hempty]

include hy hY in
theorem flatMap_scan {β : Type} (f : Package → List β) :
    Y.packages.flatMap f = y.packages.flatMap fun p =>
      f (counted s t (platformUses s t m p.name) p) := by
  obtain ⟨-, -, hpackages, -⟩ := findings_ofFiles hy hY
  rw [hpackages, List.flatMap_map]

theorem orderedSources_counted_withoutSecondary (s : Settings) (t : Tree) (n : Text → Nat)
    (p : Package) : (counted s t n p.withoutSecondary).orderedSources =
      (p.read s t).1.withoutSecondary.lookUp.orderedSources := by
  rw [counted, Package.read_withoutSecondary]
  rfl

include hx hy hX hY in
theorem missing_withoutSecondary (hpaths : (m.files.map (·.path)).Nodup) :
    Y.report.findings.filter (·.kind.isMissing) =
      (X.report.findings.filter (·.kind.isMissing)).filter (!Y.isRelieved ·) := by
  have hsource : ∀ f : Finding, f.kind.isMissing = true → f.kind.isOfSource = true := fun f hf => by
    rw [Finding.Kind.isOfSource, hf, Bool.true_or]
  rw [filter_findings_ofSource hy hY hsource, filter_findings_ofSource hx hX hsource,
    flatMap_scan hy hY, flatMap_scan_withoutSecondary hx hX hy (fun name => by
      simp [packageOf, Package.orderedSources, Package.sourceFindings]), List.filter_flatMap]
  refine List.flatMap_congr fun p hp => ?_
  rw [orderedSources_counted_withoutSecondary]
  refine (Package.filter_isMissing_withoutSecondary s t (p.read s t).1).trans
    (List.filter_congr fun f hf => ?_)
  obtain ⟨z, hz, hfile⟩ := Package.exists_of_mem_sourceFindings (List.mem_of_mem_filter hf)
  rw [Package.orderedSources_lookUp] at hz
  obtain ⟨w, hw, rfl⟩ := List.mem_map.1 hz
  rw [isRelieved_eq hy hY hpaths hp]
  rw [hfile]
  exact List.mem_map.2 ⟨w, List.mem_mergeSort.1 hw, rfl⟩

include hx hy hX hY in
theorem sublist_redundant_withoutSecondary :
    (X.report.ofKind .redundantSuppression).Sublist (Y.report.ofKind .redundantSuppression) := by
  have hsource : ∀ f : Finding, decide (f.kind = .redundantSuppression) = true →
      f.kind.isOfSource = true := fun f hf => by
    rw [of_decide_eq_true hf]
    rfl
  unfold Report.ofKind
  rw [filter_findings_ofSource hy hY hsource, filter_findings_ofSource hx hX hsource,
    flatMap_scan hy hY, flatMap_scan_withoutSecondary hx hX hy (fun name => by
      simp [packageOf, Package.orderedSources, Package.sourceFindings])]
  refine List.Sublist.flatMap_right _ fun p _ => ?_
  rw [orderedSources_counted_withoutSecondary]
  exact Package.sublist_redundant_withoutSecondary s t (p.read s t).1

include hx hy hX hY in
theorem primaries_withoutSecondary : Y.primaries = X.primaries := by
  unfold primaries
  rw [flatMap_scan hy hY, flatMap_scan_withoutSecondary hx hX hy fun _ => rfl]
  refine List.flatMap_congr fun p _ => ?_
  rw [primary_counted_withoutSecondary, name_counted, name_counted]
  rfl

include hx hy hX hY in
theorem unused_withoutSecondary (hpaths : (m.files.map (·.path)).Nodup) :
    (Y.report.ofKind .possiblyUnusedEntry).filter Y.isOnPrimary =
      (X.report.ofKind .possiblyUnusedEntry).filter X.isOnPrimary := by
  have hpaths' : (m.withoutSecondary.files.map (·.path)).Nodup :=
    hpaths.sublist (List.filter_sublist.map _)
  rw [filter_isOnPrimary hy hY hpaths, filter_isOnPrimary hx hX hpaths', flatMap_scan hy hY,
    flatMap_scan_withoutSecondary hx hX hy fun _ => rfl]
  refine List.flatMap_congr fun p _ => ?_
  rw [primary_counted_withoutSecondary]

include hx hy hX hY in
theorem relieves_withoutSecondary (hpaths : (m.files.map (·.path)).Nodup) : Relieves X Y := by
  have hplatform : ∀ fs gs, (x.readPackages s t).1.platformFindings s t = .ok fs →
      (y.readPackages s t).1.platformFindings s t = .ok gs → fs.Sublist gs ∧
        gs.filter (·.kind = .manifestCatalog) = fs.filter (·.kind = .manifestCatalog) := by
    intro fs gs hfs hgs
    obtain ⟨hmodule, -, -, -⟩ := readPackages_fst (s := s) (t := t) hx
    obtain ⟨hmodule', -, -, -⟩ := readPackages_fst (s := s) (t := t) hy
    exact (addsNoPrimary_withoutSecondary hx hy s t).sublist_platformFindings
      (by rw [hmodule, hmodule']; rfl) (by rw [hmodule, hmodule']; rfl)
      (by rw [hmodule, hmodule']; rfl) hfs hgs
  refine
    { missing := missing_withoutSecondary hx hy hX hY hpaths
      primaries := primaries_withoutSecondary hx hy hX hY
      manifest := ?_
      unused := unused_withoutSecondary hx hy hX hY hpaths
      redundant := sublist_redundant_withoutSecondary hx hy hX hY
      layer := ?_ }
  · obtain ⟨fs, hfs, hX⟩ := filter_findings_ofPlatform hx hX (.inl rfl)
    obtain ⟨gs, hgs, hY⟩ := filter_findings_ofPlatform hy hY (.inl rfl)
    rw [hX, hY]
    exact (hplatform fs gs hfs hgs).2
  · obtain ⟨fs, hfs, hX⟩ := filter_findings_ofPlatform hx hX (.inr rfl)
    obtain ⟨gs, hgs, hY⟩ := filter_findings_ofPlatform hy hY (.inr rfl)
    rw [hX, hY]
    exact (hplatform fs gs hfs hgs).1.filter _

end

/-- Without secondary catalogs a scan is completed just if it is completed with them. -/
theorem exists_ofModule_withSecondary_iff (ht : t.IsSound) (hfiles : m.files = []) (s : Settings) :
    (∃ x, (ofModule (s.withSecondary false) t m).2 = .ok x) ↔
      ∃ y, (ofModule (s.withSecondary true) t m).2 = .ok y := by
  rw [exists_ofModule_iff ht hfiles, exists_ofModule_iff ht hfiles]
  -- whether a source has a form does not depend on the catalogs
  have hforms : ∀ m' : RepositoryModule, ∀ name,
      FormsSettled (s.withSecondary false) t
          (packageOf m'.withoutSecondary name (filesOf name m'.withoutSecondary.files)) ↔
        FormsSettled (s.withSecondary true) t (packageOf m' name (filesOf name m'.files)) := by
    intro m' name
    rw [filesOf_withoutSecondary]
    show FormsSettled _ t (packageOf m' name ((filesOf name m'.files).filter _)) ↔ _
    rw [packageOf_withoutSecondary]
    rfl
  constructor
  · rintro ⟨m₀, log₀, hcollect₀, hlayer, h⟩
    have henumerable := (RepositoryModule.exists_collectFiles_iff ht).1 ⟨_, hcollect₀⟩
    obtain ⟨⟨m', log⟩, hcollect⟩ :=
      (RepositoryModule.exists_collectFiles_iff (s := s.withSecondary true) ht).2 henumerable
    obtain ⟨log₀', hcollect₀'⟩ := RepositoryModule.collectFiles_withSecondary hcollect
    obtain ⟨rfl, rfl⟩ := Prod.mk.inj (Except.ok.inj (hcollect₀.symm.trans hcollect₀'))
    refine ⟨m', log, hcollect, hlayer, fun f hf z hz => ?_⟩
    -- a package with a source is there without secondary catalogs, too
    obtain ⟨g, hg, hkind, -⟩ := exists_of_mem_sources hz
    obtain ⟨hg, hname⟩ := List.mem_filter.1 hg
    have hkept : g ∈ m'.withoutSecondary.files :=
      List.mem_filter.2 ⟨hg, by rw [hkind]; decide⟩
    have hsettled := h g hkept
    rw [of_decide_eq_true hname] at hsettled
    exact (hforms m' f.package).1 hsettled z hz
  · rintro ⟨m', log, hcollect, hlayer, h⟩
    obtain ⟨log₀, hcollect₀⟩ := RepositoryModule.collectFiles_withSecondary hcollect
    exact ⟨_, _, hcollect₀, hlayer, fun f hf =>
      (hforms m' f.package).2 (h f (List.mem_of_mem_filter hf))⟩

/-- **Secondary catalogs only ever relieve sources.** A module is scanned to the end with secondary
catalogs just if it is without them, and then nothing changes but that texts in secondary catalogs
are no longer missing, that suppressions of such texts may have no purpose, and that the layer may
refer to packages that have no other files. -/
theorem ofModule_relieves (ht : t.IsSound) (hfiles : m.files = []) (s : Settings) :
    ((∃ x, (ofModule (s.withSecondary false) t m).2 = .ok x) ↔
        ∃ y, (ofModule (s.withSecondary true) t m).2 = .ok y) ∧
      ∀ x y, (ofModule (s.withSecondary false) t m).2 = .ok x →
        (ofModule (s.withSecondary true) t m).2 = .ok y → Relieves x y := by
  refine ⟨exists_ofModule_withSecondary_iff ht hfiles s, fun X Y hX hY => ?_⟩
  obtain ⟨m₀, log₀, hcollect₀, hX⟩ := of_ofModule_eq_ok hfiles hX
  obtain ⟨m', log, hcollect, hY⟩ := of_ofModule_eq_ok hfiles hY
  obtain ⟨log₀', hcollect₀'⟩ := RepositoryModule.collectFiles_withSecondary hcollect
  obtain ⟨rfl, rfl⟩ := Prod.mk.inj (Except.ok.inj (hcollect₀.symm.trans hcollect₀'))
  rw [ofFiles_withSecondary] at hX hY
  obtain ⟨x, hx⟩ := exists_start (hasOnePrimary_collectFiles ht hcollect₀)
  obtain ⟨y, hy⟩ := exists_start (hasOnePrimary_collectFiles ht hcollect)
  have henumerates := RepositoryModule.enumerates_of_collectFiles ht hcollect
  exact relieves_withoutSecondary hx hy hX hY henumerates.nodup

/-- A tree with a module of one package, in which a secondary catalog has two of the three texts
that occur. -/
def relievedTree : Tree :=
  { entries :=
      [([Text.ofString "p"], .directory),
        ([Text.ofString "p", Text.ofString "A.java"],
          .ofText "a = \"one\";\nb = \"two\"; // NOI18N\nc = \"three\";\n"),
        ([Text.ofString "p", Text.ofString "Bundle.properties"], .ofText "four=4\n"),
        ([Text.ofString "p", Text.ofString "Other.properties"], .ofText "one=1\ntwo=2\n")] }

/-- This module, whose files are not collected yet. -/
def relievedModule : RepositoryModule := { identity := "m", root := "/", sourceRoot := "/" }

/-- The module with its files, a secondary catalog among them. -/
def collectedModule : RepositoryModule :=
  { relievedModule with
    files :=
      [⟨"p", "/p/A.java", .source⟩, ⟨"p", "/p/Bundle.properties", .primaryCatalog⟩,
        ⟨"p", "/p/Other.properties", .secondaryCatalog⟩] }

/-- With the secondary catalog one text is no longer missing, and one suppression has no purpose. -/
theorem ofModule_relieves_sample :
    relievedTree.IsSound ∧
      ∃ x y, (ofModule (Settings.standard.withSecondary false) relievedTree
        relievedModule).2 = .ok x ∧
        (ofModule (Settings.standard.withSecondary true) relievedTree relievedModule).2 = .ok y ∧
        Relieves x y ∧
        x.report.findings =
          [⟨.missingSuppressionOrKey, "/p/A.java", 1, "one"⟩,
            ⟨.missingSuppressionOrKey, "/p/A.java", 3, "three"⟩,
            ⟨.possiblyUnusedEntry, "/p/Bundle.properties", 1, "four"⟩] ∧
        y.report.findings =
          [⟨.missingSuppressionOrKey, "/p/A.java", 3, "three"⟩,
            ⟨.redundantSuppression, "/p/A.java", 2, "two"⟩,
            ⟨.possiblyUnusedEntry, "/p/Bundle.properties", 1, "four"⟩] := by
  have hsound : relievedTree.IsSound := by decide +kernel
  have hcollect : (relievedModule.collectFiles (Settings.standard.withSecondary true)
      relievedTree).toOption.map Prod.fst = some collectedModule := by cbv
  obtain ⟨⟨_, log⟩, hcollect, rfl⟩ := Option.map_eq_some_iff.1 hcollect
  have hcollect := Failure.eq_ok_of_toOption hcollect
  obtain ⟨log', hcollect'⟩ := RepositoryModule.collectFiles_withSecondary hcollect
  have hwithout : (ofFiles .standard relievedTree collectedModule.withoutSecondary).2.toOption.map
      (·.report.findings) =
        some [⟨.missingSuppressionOrKey, "/p/A.java", 1, "one"⟩,
          ⟨.missingSuppressionOrKey, "/p/A.java", 3, "three"⟩,
          ⟨.possiblyUnusedEntry, "/p/Bundle.properties", 1, "four"⟩] := by
    decide +kernel
  have hwith : (ofFiles .standard relievedTree collectedModule).2.toOption.map (·.report.findings) =
      some [⟨.missingSuppressionOrKey, "/p/A.java", 3, "three"⟩,
        ⟨.redundantSuppression, "/p/A.java", 2, "two"⟩,
        ⟨.possiblyUnusedEntry, "/p/Bundle.properties", 1, "four"⟩] := by
    decide +kernel
  obtain ⟨x, hx, hxfindings⟩ := Option.map_eq_some_iff.1 hwithout
  obtain ⟨y, hy, hyfindings⟩ := Option.map_eq_some_iff.1 hwith
  have hX := Failure.eq_ok_of_toOption hx
  have hY := Failure.eq_ok_of_toOption hy
  rw [← ofFiles_withSecondary false, ← ofModule_of_collectFiles rfl hcollect'] at hX
  rw [← ofFiles_withSecondary true, ← ofModule_of_collectFiles rfl hcollect] at hY
  exact ⟨hsound, x, y, hX, hY, (ofModule_relieves hsound rfl .standard).2 x y hX hY, hxfindings,
    hyfindings⟩

end BundleAudit.ModuleScan
