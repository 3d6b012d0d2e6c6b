import BundleAudit.Proofs.Module.Packages
import BundleAudit.Proofs.Module.Platform
import BundleAudit.Proofs.Package.Alike

/-!
# BundleAudit.Proofs.Module.Rearrangement

**The order in which the files of a module are listed does not matter for its scan.** Files
in another order make up the same packages, but for the order of what these hold
(`forall₂_packages`), and this order shows neither in the report nor in the uses of
entries (`ofFiles_rearranged`). It would show among the files that cannot be read, and
where one file takes the place of another.
-/

namespace BundleAudit

/-- Files of which none takes the place of another in its package. -/
structure HasDistinctFiles (files : List ModuleFile) : Prop where
  onePrimary : HasOnePrimary files
  sources : files.Pairwise fun f g =>
    f.kind = .source → g.kind = .source → f.package = g.package → f.name ≠ g.name
  paths : (files.map (·.path)).Nodup

theorem HasDistinctFiles.perm {files files' : List ModuleFile} (h : HasDistinctFiles files)
    (hfiles : files.Perm files') : HasDistinctFiles files' where
  onePrimary := hfiles.pairwise h.onePrimary fun hne hkind hkind' => (hne hkind' hkind).symm
  sources := hfiles.pairwise h.sources fun hne hkind hkind' hpackage =>
    (hne hkind' hkind hpackage.symm).symm
  paths := (hfiles.map _).nodup_iff.1 h.paths

namespace ModuleScan

variable {s : Settings} {t : Tree} {m : RepositoryModule} {x y : ModuleScan}
  {files files' : List ModuleFile} {name : Text} {ps qs : List Package}

/-- Scans of which each found what the other one found. -/
structure SameResults (x y : ModuleScan) : Prop where
  /-- The findings and the files are the same, and come in the same order. -/
  report : x.report = y.report
  /-- The packages hold the same sources and catalogs, whose entries have the same uses. -/
  packages : List.Forall₂ Package.Alike x.packages y.packages

/-! ### The packages of rearranged files -/

/-- The names of the sources of a package are distinct. -/
theorem nodup_names_filesOf (h : HasDistinctFiles files) (name : Text) :
    (((filesOf name files).filter (·.kind = .source)).map (·.name)).Nodup := by
  rw [List.Nodup, List.pairwise_map]
  refine ((h.sources.filter _).filter _).imp_of_mem fun hf hg hne => ?_
  obtain ⟨hf, hfkind⟩ := List.mem_filter.1 hf
  obtain ⟨hg, hgkind⟩ := List.mem_filter.1 hg
  have hfname := of_decide_eq_true (List.mem_filter.1 hf).2
  have hgname := of_decide_eq_true (List.mem_filter.1 hg).2
  exact hne (of_decide_eq_true hfkind) (of_decide_eq_true hgkind) (hfname.trans hgname.symm)

/-- The files of a package make it up in whatever order they come. -/
theorem alike_packageOf (h : HasDistinctFiles files) (hfiles : files.Perm files') (name : Text) :
    Package.Alike (packageOf m name (filesOf name files))
      (packageOf m name (filesOf name files')) := by
  have h' : HasDistinctFiles files' := h.perm hfiles
  have hof : (filesOf name files).Perm (filesOf name files') := hfiles.filter _
  have hone : HasOnePrimary (filesOf name files) := h.onePrimary.filter _
  have hone' : HasOnePrimary (filesOf name files') := h'.onePrimary.filter _
  have hpackage : ∀ fs : List ModuleFile, ∀ f ∈ filesOf name fs, f.package = name := fun fs f hf =>
    of_decide_eq_true (List.mem_filter.1 hf).2
  have hprimary : (filesOf name files).find? (·.kind = .primaryCatalog) =
      (filesOf name files').find? (·.kind = .primaryCatalog) := by
    have hperm := hof.filter (·.kind = .primaryCatalog)
    rw [← toList_find?_primary hone (hpackage files),
      ← toList_find?_primary hone' (hpackage files')] at hperm
    cases hfind : (filesOf name files).find? (·.kind = .primaryCatalog) with
    | none =>
        rw [hfind] at hperm
        exact (Option.toList_eq_nil_iff.1 (List.nil_perm.1 hperm)).symm
    | some f =>
        rw [hfind] at hperm
        exact (Option.toList_eq_singleton_iff.1 (List.singleton_perm.1 hperm).symm).symm
  refine
    { name := rfl
      directory := rfl
      primary := congrArg (Option.map ModuleFile.catalog) hprimary
      secondary := (hof.filter _).map _
      translated := (hof.filter _).map _
      sources := ?_ }
  rw [sources_packageOf (nodup_names_filesOf h name),
    sources_packageOf (nodup_names_filesOf h' name)]
  exact (hof.filter _).map _

/-- Rearranged files make up the same packages. -/
theorem forall₂_packages (h : HasDistinctFiles m.files) (hfiles : m.files.Perm files)
    (hx : start m = .ok x) (hy : start { m with files } = .ok y) :
    List.Forall₂ Package.Alike x.packages y.packages := by
  obtain ⟨-, -, hascending, -⟩ := of_start_eq_ok hx
  obtain ⟨-, -, hascending', -⟩ := of_start_eq_ok hy
  have hnames : x.packages.map (·.name) = y.packages.map (·.name) := by
    refine Text.eq_of_pairwise_lt hascending hascending' fun name => ?_
    rw [mem_names_iff hx, mem_names_iff hy]
    exact (hfiles.map _).mem_iff
  rw [packages_eq hx, packages_eq hy, hnames, List.forall₂_map_left_iff, List.forall₂_map_right_iff,
    List.forall₂_same]
  exact fun name _ => alike_packageOf h hfiles name

/-! ### What is read and reported -/

/-- Files at distinct paths are distinct catalogs. -/
theorem hasDistinctCatalogs (h : (m.files.map (·.path)).Nodup) (hx : start m = .ok x) {p : Package}
    (hp : p ∈ x.packages) : p.HasDistinctCatalogs := by
  obtain ⟨g, -, rfl⟩ := (mem_packages_iff hx).1 hp
  have hpaths : ∀ kind : FileKind, ((((filesOf g.package m.files).filter (·.kind = kind)).map
      (·.catalog)).map (·.path)).Nodup := by
    intro kind
    rw [List.map_map]
    exact h.sublist ((List.filter_sublist.trans List.filter_sublist).map _)
  exact ⟨hpaths .secondaryCatalog, hpaths .translatedCatalog⟩

theorem alike_counted {p q : Package} (h : Package.Alike p q) (s : Settings) (t : Tree)
    (n : Text → Nat) : Package.Alike (counted s t n p) (counted s t n q) :=
  ((h.read s t).lookUp).addUses n

theorem primaryOf?_of_forall₂ (h : List.Forall₂ Package.Alike x.packages y.packages) (name : Text) :
    y.primaryOf? name = x.primaryOf? name := by
  unfold primaryOf? package?
  generalize x.packages = ps at h
  generalize y.packages = qs at h
  induction h with
  | nil => rfl
  | cons hpq _ ih =>
      rw [List.find?_cons, List.find?_cons, hpq.name]
      split
      · exact congrArg some hpq.primary.symm
      · exact ih

theorem reportPackages_of_forall₂
    (h : List.Forall₂ (fun p q => p.report s t = q.report s t) ps qs) (r : Report) :
    reportPackages s t r ps = reportPackages s t r qs := by
  induction h generalizing r with
  | nil => rfl
  | cons hpq _ ih =>
      rw [reportPackages, reportPackages, hpq]
      split
      · exact ih _
      · rfl

/-! ### The scan -/

section

variable (halike : List.Forall₂ Package.Alike x.packages y.packages)
include halike

/-- Alike packages, with the fact that they are the packages of a scan. -/
theorem forall₂_mem_and :
    List.Forall₂ (fun p q => p ∈ x.packages ∧ Package.Alike p q) x.packages y.packages :=
  (List.forall₂_and_left _ _).2 ⟨fun _ hp => hp, halike⟩

theorem findings_read_rearranged (hx : start m = .ok x)
    (hread : ∀ f ∈ m.files, f.kind ≠ .source → ∃ r, f.catalog.read s t = .ok r) :
    (x.packages.flatMap fun p => (p.read s t).2.1) =
      y.packages.flatMap fun p => (p.read s t).2.1 := by
  obtain ⟨-, -, -, hofFiles⟩ := of_start_eq_ok hx
  have heq : (x.packages.map fun p => (p.read s t).2.1) =
      y.packages.map fun p => (p.read s t).2.1 := by
    rw [← List.forall₂_eq_eq_eq, List.forall₂_map_left_iff, List.forall₂_map_right_iff]
    refine (forall₂_mem_and halike).imp fun p q ⟨hp, hpq⟩ => ?_
    refine hpq.findings_read_eq (hofFiles p hp).wellFormed fun c hc => ?_
    obtain ⟨g, -, rfl⟩ := (mem_packages_iff hx).1 hp
    obtain ⟨f, hf, hkind, rfl⟩ := exists_of_mem_catalogs
      (List.mem_append.2 ((List.mem_append.1 hc).imp_left (List.mem_append_right _)))
    exact hread f (List.mem_of_mem_filter hf) hkind
  exact congrArg List.flatten heq

theorem platformFindings_rearranged (hx : start m = .ok x) (hy : start { m with files } = .ok y) :
    (y.readPackages s t).1.platformFindings s t = (x.readPackages s t).1.platformFindings s t := by
  obtain ⟨hmodule, hpackages, -, -⟩ := readPackages_fst (s := s) (t := t) hx
  obtain ⟨hmodule', hpackages', -, -⟩ := readPackages_fst (s := s) (t := t) hy
  refine platformFindings_congr (by rw [hmodule, hmodule']) (by rw [hmodule, hmodule'])
    (by rw [hmodule, hmodule']) (primaryOf?_of_forall₂ ?_) s t
  rw [hpackages, hpackages', List.forall₂_map_left_iff, List.forall₂_map_right_iff]
  exact halike.imp fun p q hpq => alike_counted hpq s t _

theorem forall₂_counted (s : Settings) (t : Tree) (n : Text → Text → Nat) :
    List.Forall₂ Package.Alike (x.packages.map fun p => counted s t (n p.name) p)
      (y.packages.map fun p => counted s t (n p.name) p) := by
  rw [List.forall₂_map_left_iff, List.forall₂_map_right_iff]
  exact halike.imp fun p q hpq => hpq.name ▸ alike_counted hpq s t (n p.name)

theorem reportPackages_rearranged (hx : start m = .ok x) (hpaths : (m.files.map (·.path)).Nodup)
    (n : Text → Text → Nat) (r : Report) :
    reportPackages s t r (x.packages.map fun p => counted s t (n p.name) p) =
      reportPackages s t r (y.packages.map fun p => counted s t (n p.name) p) := by
  obtain ⟨-, -, -, hofFiles⟩ := of_start_eq_ok hx
  refine reportPackages_of_forall₂ ?_ r
  rw [List.forall₂_map_left_iff, List.forall₂_map_right_iff]
  refine (forall₂_mem_and halike).imp fun p q ⟨hp, hpq⟩ => ?_
  have hcounted : Package.Alike (counted s t (n p.name) p) (counted s t (n q.name) q) :=
    hpq.name ▸ alike_counted hpq s t (n p.name)
  have hdistinct := ((hasDistinctCatalogs hpaths hx hp).read s t).lookUp
  exact hcounted.report_eq (wellFormed_counted (hofFiles p hp) s t _)
    ⟨hdistinct.secondary, hdistinct.translated⟩ s t

end

/-- **The order in which files are listed does not matter.** The files of a module may be rearranged
if none takes the place of another and the catalogs can be read: its scan fails as before, or it is
completed with the same results. -/
theorem ofFiles_rearranged (h : HasDistinctFiles m.files) (hfiles : m.files.Perm files)
    (hread : ∀ f ∈ m.files, f.kind ≠ .source → ∃ r, f.catalog.read s t = .ok r) :
    (∀ failure, (ofFiles s t m).2 = .error failure ↔
        (ofFiles s t { m with files }).2 = .error failure) ∧
      ∀ x, (ofFiles s t m).2 = .ok x →
        ∃ y, (ofFiles s t { m with files }).2 = .ok y ∧ SameResults x y := by
  obtain ⟨x, hx⟩ := exists_start h.onePrimary
  obtain ⟨y, hy⟩ := exists_start (m := { m with files }) (h.perm hfiles).onePrimary
  have halike := forall₂_packages h hfiles hx hy
  -- how often the manifest and the layer mark a key does not depend on the files
  have huses : platformUses s t { m with files } = platformUses s t m := rfl
  rw [ofFiles_eq hx, ofFiles_eq hy, platformFindings_rearranged halike hx hy,
    findings_read_rearranged halike hx hread, huses]
  cases (x.readPackages s t).1.platformFindings s t with
  | error failure => exact ⟨fun _ => Iff.rfl, nofun⟩
  | ok fs =>
      dsimp only [Except.bind]
      rw [reportPackages_rearranged halike hx h.paths]
      cases reportPackages s t _ (y.packages.map _) with
      | error failure => exact ⟨fun _ => Iff.rfl, nofun⟩
      | ok report =>
          refine ⟨fun _ => iff_of_false nofun nofun, fun z hz => ?_⟩
          obtain rfl := Except.ok.inj hz
          exact ⟨_, rfl, rfl, forall₂_counted halike s t _⟩

/-- A module with a manifest, two catalogs and a source, listed from its end. -/
theorem ofFiles_rearranged_sample :
    HasDistinctFiles sampleModule.files ∧
      ∃ x y, (ofFiles .standard sampleTree sampleModule).2 = .ok x ∧
        (ofFiles .standard sampleTree { sampleModule with files := sampleModule.files.reverse }).2 =
          .ok y ∧
        SameResults x y ∧ x.report.problems = 4 := by
  have hdistinct : HasDistinctFiles sampleModule.files := ⟨by decide, by decide, by decide⟩
  have hread : ∀ f ∈ sampleModule.files, f.kind ≠ .source →
      ∃ r, f.catalog.read .standard sampleTree = .ok r := by
    have hcatalogs : ∀ f ∈ sampleModule.files, f.kind ≠ .source →
        (f.catalog.read .standard sampleTree).toOption.isSome = true := by decide +kernel
    intro f hf hkind
    obtain ⟨r, hr⟩ := Option.isSome_iff_exists.1 (hcatalogs f hf hkind)
    exact ⟨r, Failure.eq_ok_of_toOption hr⟩
  have hproblems : (ofFiles .standard sampleTree sampleModule).2.toOption.map (·.report.problems) =
      some 4 := by decide +kernel
  obtain ⟨x, hx, hproblems⟩ := Option.map_eq_some_iff.1 hproblems
  have hscan := Failure.eq_ok_of_toOption hx
  obtain ⟨y, hy, hsame⟩ :=
    (ofFiles_rearranged hdistinct (List.reverse_perm _).symm hread).2 x hscan
  exact ⟨hdistinct, x, y, hscan, hy, hsame, hproblems⟩

end ModuleScan

end BundleAudit
