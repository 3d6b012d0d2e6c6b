import BundleAudit.Proofs.KeyedList
import BundleAudit.Proofs.Module.Files
import BundleAudit.Proofs.Module.Start

/-!
# BundleAudit.Proofs.Module.Packages

**A package is what the files of its directory make it.** Sorting the files of a module
into packages gives each package just the files of its own, in their order
(`IsGrouped`); so there is one package for each directory with a file, and it does not
depend on the files elsewhere (`mem_packages_iff`). The sorting fails only where a
package has two primary catalogs.
-/

namespace BundleAudit

/-- The catalog of a file, before it is read. -/
def ModuleFile.catalog (f : ModuleFile) : Catalog := { path := f.path, kind := f.kind }

/-- The files of a package. -/
def filesOf (package : Text) (files : List ModuleFile) : List ModuleFile :=
  files.filter (·.package = package)

theorem filesOf_eq_nil {package : Text} {files : List ModuleFile}
    (h : package ∉ files.map (·.package)) : filesOf package files = [] := by
  refine List.filter_eq_nil_iff.2 fun f hf hpackage => h ?_
  exact of_decide_eq_true hpackage ▸ List.mem_map_of_mem hf

/-- No package has two primary catalogs. -/
def HasOnePrimary (files : List ModuleFile) : Prop :=
  files.Pairwise fun f g =>
    f.kind = .primaryCatalog → g.kind = .primaryCatalog → f.package ≠ g.package

instance (files : List ModuleFile) : Decidable (HasOnePrimary files) :=
  inferInstanceAs (Decidable (files.Pairwise _))

namespace ModuleScan

variable {m : RepositoryModule} {name : Text} {files more : List ModuleFile} {f : ModuleFile}
  {p : Package} {ps qs : KeyedList Text Package} {x : ModuleScan}

/-! ### One package -/

/-- The package of a name that some files make up. -/
def packageOf (m : RepositoryModule) (name : Text) (files : List ModuleFile) : Package where
  name
  directory := directoryOf m name
  primary := (files.find? (·.kind = .primaryCatalog)).map (·.catalog)
  secondary := (files.filter (·.kind = .secondaryCatalog)).map (·.catalog)
  translated := (files.filter (·.kind = .translatedCatalog)).map (·.catalog)
  sources := (files.filter (·.kind = .source)).foldl
    (fun sources f => KeyedList.set f.name { path := f.path } sources) []

theorem primary_packageOf_eq_none_iff :
    (packageOf m name files).primary = none ↔ ∀ g ∈ files, g.kind ≠ .primaryCatalog := by
  simp [packageOf]

/-- One more file makes up the package with that file; it must not be a second primary catalog. -/
theorem add_packageOf_eq_ok_iff :
    (packageOf m name files).add f.kind f.path = .ok p ↔
      (f.kind = .primaryCatalog → ∀ g ∈ files, g.kind ≠ .primaryCatalog) ∧
        p = packageOf m name (files ++ [f]) := by
  cases hkind : f.kind with
  | primaryCatalog =>
      by_cases hnone : ∀ g ∈ files, g.kind ≠ .primaryCatalog
      · have hprimary : (packageOf m name files).primary = none :=
          primary_packageOf_eq_none_iff.2 hnone
        have hfind : files.find? (·.kind = .primaryCatalog) = none := by simpa using hnone
        rw [Package.add, hprimary, Option.isSome_none, if_neg Bool.false_ne_true]
        refine ⟨fun h => ⟨fun _ => hnone, ?_⟩, fun h => ?_⟩
        · rw [← Except.ok.inj h]
          simp [packageOf, hkind, hfind, ModuleFile.catalog]
        · rw [h.2]
          simp [packageOf, hkind, hfind, ModuleFile.catalog]
      · have hsome : (packageOf m name files).primary.isSome = true :=
          Option.isSome_iff_ne_none.2 fun h => hnone (primary_packageOf_eq_none_iff.1 h)
        rw [Package.add, hsome, if_pos rfl]
        exact iff_of_false (by simp) fun h => hnone (h.1 rfl)
  | secondaryCatalog =>
      simp only [Package.add, Except.ok.injEq, reduceCtorEq, false_imp_iff, true_and]
      rw [eq_comm]
      simp [packageOf, hkind, ModuleFile.catalog]
  | translatedCatalog =>
      simp only [Package.add, Except.ok.injEq, reduceCtorEq, false_imp_iff, true_and]
      rw [eq_comm]
      simp [packageOf, hkind, ModuleFile.catalog]
  | source =>
      simp only [Package.add, Except.ok.injEq, reduceCtorEq, false_imp_iff, true_and]
      rw [eq_comm]
      simp [packageOf, hkind, ModuleFile.name]

/-- The catalogs in which the texts of a package are looked up are files of those kinds. -/
theorem exists_of_mem_lookupCatalogs {c : Catalog}
    (hc : c ∈ (packageOf m name files).lookupCatalogs) :
    ∃ f ∈ files, (f.kind = .primaryCatalog ∨ f.kind = .secondaryCatalog) ∧ c = f.catalog := by
  rcases List.mem_append.1 hc with hc | hc
  · obtain ⟨f, hf, rfl⟩ := Option.map_eq_some_iff.1 (Option.mem_toList.1 hc)
    exact ⟨f, List.mem_of_find?_eq_some hf, .inl (by simpa using List.find?_some hf), rfl⟩
  · obtain ⟨f, hf, rfl⟩ := List.mem_map.1 hc
    obtain ⟨hmem, hkind⟩ := List.mem_filter.1 hf
    exact ⟨f, hmem, .inr (of_decide_eq_true hkind), rfl⟩

theorem exists_of_mem_catalogs {c : Catalog}
    (hc : c ∈ (packageOf m name files).lookupCatalogs ++ (packageOf m name files).translated) :
    ∃ f ∈ files, f.kind ≠ .source ∧ c = f.catalog := by
  rcases List.mem_append.1 hc with hc | hc
  · obtain ⟨f, hf, hkind, heq⟩ := exists_of_mem_lookupCatalogs hc
    exact ⟨f, hf, by rcases hkind with hkind | hkind <;> simp [hkind], heq⟩
  · obtain ⟨f, hf, rfl⟩ := List.mem_map.1 hc
    obtain ⟨hmem, hkind⟩ := List.mem_filter.1 hf
    exact ⟨f, hmem, by simp [of_decide_eq_true hkind], rfl⟩

/-- The sources of a package are files of that kind. -/
theorem exists_of_mem_sources {x : Text × SourceFile}
    (hx : x ∈ (packageOf m name files).sources) :
    ∃ f ∈ files, f.kind = .source ∧ x.2.path = f.path := by
  have hall : ∀ (fs : List ModuleFile) (sources : KeyedList Text SourceFile),
      x ∈ fs.foldl (fun sources f => KeyedList.set f.name { path := f.path } sources) sources →
        x ∈ sources ∨ ∃ f ∈ fs, x.2.path = f.path := by
    intro fs
    induction fs with
    | nil => exact fun _ hmem => .inl hmem
    | cons f rest ih =>
        intro sources hmem
        rcases ih _ hmem with hmem | ⟨g, hg, hpath⟩
        · rcases KeyedList.mem_of_mem_set hmem with rfl | hmem
          · exact .inr ⟨f, List.mem_cons_self, rfl⟩
          · exact .inl hmem
        · exact .inr ⟨g, List.mem_cons_of_mem _ hg, hpath⟩
  rcases hall _ _ hx with hnone | ⟨f, hf, hpath⟩
  · cases hnone
  · obtain ⟨hmem, hkind⟩ := List.mem_filter.1 hf
    exact ⟨f, hmem, of_decide_eq_true hkind, hpath⟩

/-- Of the files of a package at most one is its primary catalog. -/
theorem toList_find?_primary (hone : HasOnePrimary files)
    (hpackage : ∀ f ∈ files, f.package = name) :
    (files.find? (·.kind = .primaryCatalog)).toList = files.filter (·.kind = .primaryCatalog) := by
  have hpairwise : (files.filter (·.kind = .primaryCatalog)).Pairwise _ := hone.filter _
  have hmem : ∀ f ∈ files.filter (·.kind = .primaryCatalog),
      f.kind = .primaryCatalog ∧ f.package = name := fun f hf =>
    ⟨of_decide_eq_true (List.mem_filter.1 hf).2, hpackage f (List.mem_of_mem_filter hf)⟩
  rw [← List.head?_filter]
  generalize files.filter (·.kind = .primaryCatalog) = primary at hpairwise hmem
  match primary with
  | [] => rfl
  | [f] => rfl
  | f :: g :: more =>
      obtain ⟨hf, hfname⟩ := hmem f (by simp)
      obtain ⟨hg, hgname⟩ := hmem g (by simp)
      exact absurd (hfname.trans hgname.symm)
        ((List.pairwise_cons.1 hpairwise).1 g List.mem_cons_self hf hg)

/-- No source of a package takes the place of another if their names are distinct. -/
theorem sources_packageOf (h : ((files.filter (·.kind = .source)).map (·.name)).Nodup) :
    (packageOf m name files).sources =
      (files.filter (·.kind = .source)).map fun f => (f.name, { path := f.path }) := by
  have hnodup : (KeyedList.keys ([] : KeyedList Text SourceFile) ++
      ((files.filter (·.kind = .source)).map fun f =>
        (f.name, ({ path := f.path } : SourceFile))).map Prod.fst).Nodup := by
    rwa [KeyedList.keys, List.map_nil, List.nil_append, List.map_map]
  have hsources := KeyedList.setAll_of_nodup hnodup
  rwa [KeyedList.setAll, List.foldl_map] at hsources

/-! ### All packages -/

/-- The package of a name; a new one if there is none. -/
def packageAt (m : RepositoryModule) (name : Text) (ps : KeyedList Text Package) : Package :=
  (ps.get? name).getD { name, directory := directoryOf m name }

theorem packageAt_set (m : RepositoryModule) (name other : Text) (p : Package)
    (ps : KeyedList Text Package) :
    packageAt m other (KeyedList.set name p ps) =
      if other = name then p else packageAt m other ps := by
  rw [packageAt, KeyedList.get?_set]
  split <;> rfl

/-- Files sorted into packages: one for each name, made up by the files of that name. -/
structure IsGrouped (m : RepositoryModule) (files : List ModuleFile)
    (ps : KeyedList Text Package) : Prop where
  nodup : ps.keys.Nodup
  mem_keys_iff : ∀ name, name ∈ ps.keys ↔ ∃ f ∈ files, f.package = name
  packageAt_eq : ∀ name, packageAt m name ps = packageOf m name (filesOf name files)

theorem IsGrouped.nil (m : RepositoryModule) : IsGrouped m [] [] :=
  ⟨List.nodup_nil, fun _ => ⟨nofun, fun ⟨_, h, _⟩ => nomatch h⟩, fun _ => rfl⟩

theorem filesOf_concat (name : Text) (files : List ModuleFile) (f : ModuleFile) :
    filesOf name (files ++ [f]) =
      if f.package = name then filesOf name files ++ [f] else filesOf name files := by
  rw [filesOf, List.filter_append, List.filter_singleton]
  by_cases h : f.package = name <;> simp [filesOf, h]

/-- One more file goes to its package, and changes no other one. -/
theorem IsGrouped.set (h : IsGrouped m files ps)
    (hadd : (packageAt m f.package ps).add f.kind f.path = .ok p) :
    IsGrouped m (files ++ [f]) (KeyedList.set f.package p ps) := by
  rw [h.packageAt_eq] at hadd
  obtain ⟨-, rfl⟩ := add_packageOf_eq_ok_iff.1 hadd
  refine ⟨KeyedList.nodup_keys_set h.nodup, fun name => ?_, fun name => ?_⟩
  · have hold := h.mem_keys_iff name
    have hnew : (∃ g ∈ files ++ [f], g.package = name) ↔
        (∃ g ∈ files, g.package = name) ∨ f.package = name := by
      simp only [List.mem_append, List.mem_singleton, or_and_right, exists_or, exists_eq_left]
    rw [KeyedList.keys_set, hnew, ← hold]
    split
    · next hmem => exact ⟨.inl, fun h => h.elim id fun heq => heq ▸ hmem⟩
    · rw [List.mem_append, List.mem_singleton, eq_comm (a := name)]
  · rw [packageAt_set, filesOf_concat]
    by_cases heq : name = f.package
    · rw [if_pos heq, if_pos heq.symm, heq]
    · rw [if_neg heq, if_neg (Ne.symm heq), h.packageAt_eq]

theorem IsGrouped.packagesOf (h : IsGrouped m files ps)
    (hpackages : packagesOf m more ps = .ok qs) : IsGrouped m (files ++ more) qs := by
  induction more generalizing files ps with
  | nil => rwa [List.append_nil, ← Except.ok.inj hpackages]
  | cons f rest ih =>
      simp only [ModuleScan.packagesOf] at hpackages
      split at hpackages
      · next hadd =>
          rw [List.append_cons]
          exact ih (h.set hadd) hpackages
      · cases hpackages

/-- Without a second primary catalog the sorting does not fail. -/
theorem IsGrouped.exists_packagesOf (h : IsGrouped m files ps)
    (hone : HasOnePrimary (files ++ more)) : ∃ qs, ModuleScan.packagesOf m more ps = .ok qs := by
  induction more generalizing files ps with
  | nil => exact ⟨ps, rfl⟩
  | cons f rest ih =>
      have hnew : f.kind = .primaryCatalog →
          ∀ g ∈ filesOf f.package files, g.kind ≠ .primaryCatalog := by
        intro hkind g hg hprimary
        have hbefore := (List.pairwise_append.1 hone).2.2 g (List.mem_of_mem_filter hg) f
          List.mem_cons_self
        exact hbefore hprimary hkind (of_decide_eq_true (List.mem_filter.1 hg).2)
      have hadd : (packageOf m f.package (filesOf f.package files)).add f.kind f.path =
          .ok (packageOf m f.package (filesOf f.package files ++ [f])) :=
        add_packageOf_eq_ok_iff.2 ⟨hnew, rfl⟩
      rw [← h.packageAt_eq] at hadd
      rw [List.append_cons] at hone
      obtain ⟨qs, hqs⟩ := ih (h.set hadd) hone
      refine ⟨qs, ?_⟩
      rw [packageAt] at hadd
      simp only [ModuleScan.packagesOf, hadd, hqs]

/-- A module without a second primary catalog in a package has a start. -/
theorem exists_start (h : HasOnePrimary m.files) : ∃ x, start m = .ok x := by
  obtain ⟨ps, hps⟩ := (IsGrouped.nil m).exists_packagesOf h
  exact ⟨_, by rw [start, hps]; rfl⟩

/-- Sorting fails at a second primary catalog of a package. -/
theorem IsGrouped.hasOnePrimary (h : IsGrouped m files ps) (hone : HasOnePrimary files)
    (hpackages : ModuleScan.packagesOf m more ps = .ok qs) : HasOnePrimary (files ++ more) := by
  induction more generalizing files ps with
  | nil => rwa [List.append_nil]
  | cons f rest ih =>
      simp only [ModuleScan.packagesOf] at hpackages
      split at hpackages
      · next hadd =>
          rw [List.append_cons]
          refine ih (h.set hadd) ?_ hpackages
          have hof := h.packageAt_eq f.package
          rw [packageAt] at hof
          rw [hof] at hadd
          obtain ⟨hnew, -⟩ := add_packageOf_eq_ok_iff.1 hadd
          refine List.pairwise_append.2 ⟨hone, List.pairwise_singleton _ _, ?_⟩
          intro g hg f' hf' hgkind hkind hpackage
          obtain rfl := List.mem_singleton.1 hf'
          exact hnew hkind g (List.mem_filter.2 ⟨hg, decide_eq_true hpackage⟩) hgkind
      · cases hpackages

/-- A module that has a start has no second primary catalog in a package. -/
theorem hasOnePrimary_of_start (h : start m = .ok x) : HasOnePrimary m.files := by
  obtain ⟨ps, hps, -⟩ := exists_of_start_eq_ok h
  exact (IsGrouped.nil m).hasOnePrimary .nil hps

/-- **The packages of a module are those of its files,** each with the files of its directory. -/
theorem mem_packages_iff (h : start m = .ok x) :
    p ∈ x.packages ↔
      ∃ f ∈ m.files, p = packageOf m f.package (filesOf f.package m.files) := by
  obtain ⟨ps, hps, rfl⟩ := exists_of_start_eq_ok h
  have hgrouped := (IsGrouped.nil m).packagesOf hps
  rw [List.nil_append] at hgrouped
  have hat : ∀ name ∈ ps.keys, KeyedList.get? name ps =
      some (packageOf m name (filesOf name m.files)) := by
    intro name hname
    obtain ⟨y, hy, rfl⟩ := List.mem_map.1 hname
    have hget := KeyedList.get?_eq_some hgrouped.nodup hy
    have heq := hgrouped.packageAt_eq y.1
    rw [packageAt, hget, Option.getD_some] at heq
    rw [hget, heq]
  have hmem : p ∈ (Text.sortBy Prod.fst ps).map Prod.snd ↔ ∃ y ∈ ps, y.2 = p := by
    rw [List.mem_map]
    exact exists_congr fun y => and_congr_left' (Text.perm_sortBy Prod.fst ps).mem_iff
  rw [hmem]
  constructor
  · rintro ⟨y, hy, rfl⟩
    have hkey : y.1 ∈ ps.keys := List.mem_map_of_mem hy
    obtain ⟨f, hf, hname⟩ := (hgrouped.mem_keys_iff y.1).1 hkey
    have hget := KeyedList.get?_eq_some hgrouped.nodup hy
    rw [hat y.1 hkey] at hget
    exact ⟨f, hf, by rw [hname, Option.some.inj hget]⟩
  · rintro ⟨f, hf, rfl⟩
    have hkey := (hgrouped.mem_keys_iff f.package).2 ⟨f, hf, rfl⟩
    exact ⟨_, KeyedList.mem_of_get?_eq_some (hat f.package hkey), rfl⟩

/-- A package is what the files of its name make it. -/
theorem packages_eq (h : start m = .ok x) :
    x.packages = (x.packages.map (·.name)).map fun name =>
      packageOf m name (filesOf name m.files) := by
  rw [List.map_map]
  refine (List.map_id _).symm.trans (List.map_congr_left fun p hp => ?_)
  obtain ⟨f, -, rfl⟩ := (mem_packages_iff h).1 hp
  rfl

theorem flatMap_packages {β : Type} (h : start m = .ok x) (f : Package → List β) :
    x.packages.flatMap f =
      (x.packages.map (·.name)).flatMap fun name => f
      (packageOf m name (filesOf name m.files)) := by
  conv_lhs => rw [packages_eq h]
  rw [List.flatMap_map]

theorem mem_names_iff (h : start m = .ok x) :
    name ∈ x.packages.map (·.name) ↔ name ∈ m.files.map (·.package) := by
  rw [List.mem_map, List.mem_map]
  constructor
  · rintro ⟨p, hp, rfl⟩
    obtain ⟨f, hf, rfl⟩ := (mem_packages_iff h).1 hp
    exact ⟨f, hf, rfl⟩
  · rintro ⟨f, hf, rfl⟩
    exact ⟨_, (mem_packages_iff h).2 ⟨f, hf, rfl⟩, rfl⟩

end ModuleScan

end BundleAudit
