import BundleAudit.Proofs.Module.Layer
import Mathlib.Data.List.Flatten

/-!
# BundleAudit.Proofs.Module.Platform

**What the manifest and the layer are found to lack.** Marking changes no key of a
catalog, so all that the manifest and the layer name can be looked up in the packages
as they are before: the findings are settled then (`platformFindings`), and so is the
whole scan (`ofFiles_eq`). What is found depends on the primary catalogs alone
(`platformFindings_congr`).
-/

namespace BundleAudit.ModuleScan

variable {s : Settings} {t : Tree} {m : RepositoryModule} {x y : ModuleScan} {manifest : Manifest}
  {n : Text → Text → Nat} {path : Text}

/-! ### Findings -/

/-- The primary catalog of the package of a name, if there is such a package. -/
def primaryOf? (name : Text) (x : ModuleScan) : Option (Option Catalog) :=
  (x.package? name).map (·.primary)

/-- The findings about the catalog that a manifest names. -/
def catalogFindings (s : Settings) (manifest : Manifest) (x : ModuleScan) : List Finding :=
  match manifest.catalogPackage with
  | none => []
  | some name =>
    match (x.primaryOf? name).bind id with
    | none => [missingCatalog x.module]
    | some c => missingKeys s c

/-- The finding about a reference of a layer, if its key is not there. -/
def referenceFindings (path : Text) (x : ModuleScan) (r : LayerReference) : List Finding :=
  match x.primaryOf? r.package with
  | none => []
  | some primary => if primary.any (·.hasKey r.key) then [] else [missingReference path r]

/-- What a look into a layer gives: findings about the file, or its path and the references in it.
-/
inductive LayerContent
  | findings (fs : List Finding)
  | references (path : Text) (rs : List LayerReference)

/-- What was read of the layer at a path. -/
def contentOf (path : Text) (layer : Except Failure (List LayerReference)) :
    Except Failure LayerContent :=
  match layer with
  | .ok references => .ok (.references path references)
  | .error failure =>
    if failure.isOfFile then .ok (.findings [Package.unreadable path "layer" failure])
    else .error failure

/-- What is in the layer that a manifest names. -/
def layerContent (t : Tree) (manifest : Manifest) (m : RepositoryModule) :
    Except Failure LayerContent :=
  match manifest.layerFile with
  | none => .ok (.findings [])
  | some [] => .ok (.findings [])
  | some name => do
    let path := ((Path.ofText m.sourceRoot).join (Path.ofText name)).toText
    if ← t.isFile path then contentOf path (t.readLayer path).2
    else return .findings [missingLayer path name]

/-- The findings about what is in a layer. -/
def contentFindings (x : ModuleScan) : LayerContent → List Finding
  | .findings fs => fs
  | .references path rs => rs.flatMap (referenceFindings path x)

/-- The findings about the layer that a manifest names. -/
def layerFindings (t : Tree) (manifest : Manifest) (x : ModuleScan) :
    Except Failure (List Finding) :=
  (layerContent t manifest x.module).map x.contentFindings

/-- All findings about the manifest of a module and what it names. -/
def platformFindings (s : Settings) (t : Tree) (x : ModuleScan) : Except Failure (List Finding) :=
  match x.module.manifest with
  | none => .ok []
  | some [] => .ok []
  | some path =>
    match t.readManifest path with
    | .error failure => .ok [Package.unreadable path "manifest" failure]
    | .ok manifest =>
      if manifest.isPlatformModule then
        (x.layerFindings t manifest).map (x.catalogFindings s manifest ++ ·)
      else .ok []

/-! ### Marking changes no findings -/

theorem primaryOf?_of_packages (h : y.packages = x.packages.map fun p => p.addUses (n p.name))
    (name : Text) :
    y.primaryOf? name = (x.primaryOf? name).map fun primary =>
      primary.map (·.addUses (n name)) := by
  have hpred : (fun q : Package => decide (q.name = name)) ∘
      (fun p : Package => p.addUses (n p.name)) = fun q : Package => decide (q.name = name) := rfl
  unfold primaryOf? package?
  rw [h, List.find?_map, hpred]
  cases hfind : x.packages.find? (·.name = name) with
  | none => rfl
  | some p =>
      have hname : p.name = name := by simpa using List.find?_some hfind
      rw [← hname]
      rfl

theorem referenceFindings_of_packages
    (h : y.packages = x.packages.map fun p => p.addUses (n p.name)) (path : Text)
    (r : LayerReference) : referenceFindings path y r = referenceFindings path x r := by
  unfold referenceFindings
  rw [primaryOf?_of_packages h]
  cases x.primaryOf? r.package with
  | none => rfl
  | some primary =>
      rw [Option.map_some]
      dsimp only
      rw [Option.any_map]
      simp only [Catalog.hasKey_addUses]

theorem layerFindings_of_packages
    (h : y.packages = x.packages.map fun p => p.addUses (n p.name))
    (hmodule : y.module = x.module) :
    y.layerFindings t manifest = x.layerFindings t manifest := by
  have hcontent : y.contentFindings = x.contentFindings := by
    funext content
    cases content with
    | findings fs => rfl
    | references path rs =>
        exact congrArg rs.flatMap (funext (referenceFindings_of_packages h path))
  rw [layerFindings, layerFindings, hmodule, hcontent]

/-! ### What is added to the report -/

theorem report_checkCatalog (s : Settings) (manifest : Manifest) (x : ModuleScan) :
    (x.checkCatalog s manifest).report = x.report.addAll (x.catalogFindings s manifest) := by
  have hlook : ∀ name, (x.primaryOf? name).bind id = (x.package? name).bind (·.primary) := by
    intro name
    rw [primaryOf?, Option.bind_map]
    rfl
  unfold checkCatalog catalogFindings
  cases manifest.catalogPackage with
  | none => simp [Report.addAll]
  | some name =>
      dsimp only
      rw [hlook]
      cases (x.package? name).bind (·.primary) <;> rfl

theorem report_checkReference (path : Text) (x : ModuleScan) (r : LayerReference) :
    (checkReference path x r).report = x.report.addAll (referenceFindings path x r) := by
  unfold checkReference referenceFindings primaryOf?
  cases x.package? r.package with
  | none => simp [Report.addAll]
  | some p =>
      rw [Option.map_some]
      dsimp only
      show _ = x.report.addAll (if p.hasPrimaryKey r.key then [] else [missingReference path r])
      split
      · simp [updatePackage, Report.addAll]
      · rfl

theorem report_references (path : Text) (rs : List LayerReference)
    (hx : (x.packages.map (·.name)).Nodup) :
    (rs.foldl (checkReference path) x).report =
      x.report.addAll (rs.flatMap (referenceFindings path x)) := by
  induction rs generalizing x with
  | nil => simp [Report.addAll]
  | cons r rest ih =>
      have hstep := marks_checkReference path r hx
      rw [List.foldl_cons, ih (hstep.names ▸ hx), report_checkReference,
        funext (referenceFindings_of_packages hstep.packages path), List.flatMap_cons]
      simp only [Report.addAll, List.append_assoc]

theorem report_addLayer (path : Text) (layer : Except Failure (List LayerReference))
    (hx : (x.packages.map (·.name)).Nodup) :
    (x.addLayer path layer).map (·.report) =
      (contentOf path layer).map fun content => x.report.addAll (x.contentFindings content) := by
  cases layer with
  | ok references => exact congrArg Except.ok (report_references path references hx)
  | error failure =>
      rw [addLayer, contentOf]
      cases failure.isOfFile <;> rfl

theorem report_checkLayer (hx : (x.packages.map (·.name)).Nodup) :
    (x.checkLayer t manifest).2.map (·.report) =
      (x.layerFindings t manifest).map x.report.addAll := by
  have hnone : x.report.addAll [] = x.report := by simp [Report.addAll]
  unfold checkLayer layerFindings layerContent
  cases manifest.layerFile with
  | none => exact congrArg Except.ok hnone.symm
  | some name =>
      cases name with
      | nil => exact congrArg Except.ok hnone.symm
      | cons c rest =>
          simp only [bind, Except.bind]
          generalize ((Path.ofText x.module.sourceRoot).join
            (Path.ofText (c :: rest))).toText = path
          cases t.isFile path with
          | error failure => rfl
          | ok isFile =>
              cases isFile with
              | false => rfl
              | true =>
                  dsimp only
                  rw [report_addLayer path _ hx, if_pos rfl]
                  cases contentOf path (t.readLayer path).2 <;> rfl

/-- What the manifest and the layer name adds its findings to the report. -/
theorem report_checkPlatform (hx : (x.packages.map (·.name)).Nodup) :
    (x.checkPlatform s t).2.map (·.report) =
      (x.platformFindings s t).map x.report.addAll := by
  have hnone : x.report.addAll [] = x.report := by simp [Report.addAll]
  unfold checkPlatform platformFindings readManifest
  cases x.module.manifest with
  | none => exact congrArg Except.ok hnone.symm
  | some path =>
      cases path with
      | nil => exact congrArg Except.ok hnone.symm
      | cons c rest =>
          dsimp only
          cases t.readManifest (c :: rest) with
          | error failure => rfl
          | ok manifest =>
              dsimp only
              split
              · have hmarks := marks_checkCatalog s manifest hx
                rw [report_checkLayer (hmarks.names ▸ hx), report_checkCatalog,
                  layerFindings_of_packages hmarks.packages hmarks.module]
                cases x.layerFindings t manifest with
                | error failure => rfl
                | ok fs => simp [Except.map, Report.addAll]
              · exact congrArg Except.ok hnone.symm

/-- **The platform marks keys and adds findings,** both settled by the packages before. -/
theorem checkPlatform_eq (hx : (x.packages.map (·.name)).Nodup) :
    (x.checkPlatform s t).2 = (x.platformFindings s t).map fun fs =>
      { x with
        packages := x.packages.map fun p => p.addUses (platformUses s t x.module p.name)
        report := x.report.addAll fs } := by
  have hreport := report_checkPlatform (s := s) (t := t) hx
  cases hplatform : (x.checkPlatform s t).2 with
  | error failure =>
      rw [hplatform] at hreport
      cases hfindings : x.platformFindings s t with
      | error failure' =>
          rw [hfindings] at hreport
          exact congrArg Except.error (Except.error.inj hreport)
      | ok fs =>
          rw [hfindings] at hreport
          cases hreport
  | ok z =>
      have hmarks := marks_checkPlatform hx hplatform
      rw [hplatform] at hreport
      cases hfindings : x.platformFindings s t with
      | error failure =>
          rw [hfindings] at hreport
          cases hreport
      | ok fs =>
          rw [hfindings] at hreport
          obtain ⟨module, packages, report⟩ := z
          obtain rfl := hmarks.module
          obtain rfl := hmarks.packages
          obtain rfl := Except.ok.inj hreport
          rfl

/-- What is found depends on the primary catalogs of the packages alone. -/
theorem platformFindings_congr (hmanifest : y.module.manifest = x.module.manifest)
    (hroot : y.module.root = x.module.root)
    (hsourceRoot : y.module.sourceRoot = x.module.sourceRoot)
    (h : ∀ name, y.primaryOf? name = x.primaryOf? name) (s : Settings) (t : Tree) :
    y.platformFindings s t = x.platformFindings s t := by
  have hreferences : ∀ path, referenceFindings path y = referenceFindings path x := by
    intro path
    funext r
    unfold referenceFindings
    rw [h]
  unfold platformFindings layerFindings layerContent contentFindings catalogFindings missingCatalog
  simp only [hmanifest, hroot, hsourceRoot, hreferences, h]

/-! ### Kinds of findings -/

theorem kind_of_mem_catalogFindings {f : Finding} (h : f ∈ x.catalogFindings s manifest) :
    f.kind = .manifestCatalog := by
  unfold catalogFindings at h
  split at h
  · cases h
  · split at h
    · rw [List.mem_singleton.1 h]
      rfl
    · exact kind_of_mem_missingKeys h

theorem kind_of_mem_referenceFindings {r : LayerReference} {f : Finding}
    (h : f ∈ referenceFindings path x r) : f.kind = .layerDefinition := by
  unfold referenceFindings at h
  split at h
  · cases h
  · split at h
    · cases h
    · rw [List.mem_singleton.1 h]
      rfl

theorem kind_of_mem_layerContent {m : RepositoryModule} {fs : List Finding}
    (h : layerContent t manifest m = .ok (.findings fs)) {f : Finding} (hf : f ∈ fs) :
    f.kind = .layerDefinition ∨ f.kind = .unreadableFile := by
  unfold layerContent at h
  split at h
  · cases h
    cases hf
  · cases h
    cases hf
  · obtain ⟨isFile, -, h⟩ := Failure.bind_eq_ok_iff.1 h
    split at h
    · unfold contentOf at h
      split at h
      · cases h
      · split at h
        · cases h
          exact .inr (List.mem_singleton.1 hf ▸ rfl)
        · cases h
    · cases h
      exact .inl (List.mem_singleton.1 hf ▸ rfl)

theorem kind_of_mem_layerFindings {fs : List Finding} (h : x.layerFindings t manifest = .ok fs)
    {f : Finding} (hf : f ∈ fs) : f.kind = .layerDefinition ∨ f.kind = .unreadableFile := by
  obtain ⟨content, hcontent, rfl⟩ := Failure.map_eq_ok_iff.1 h
  cases content with
  | findings fs => exact kind_of_mem_layerContent hcontent hf
  | references path rs =>
      obtain ⟨r, -, hf⟩ := List.mem_flatMap.1 hf
      exact .inl (kind_of_mem_referenceFindings hf)

/-- What is found about the manifest and the layer is of other kinds than what is found about
sources and catalogs. -/
theorem kind_of_mem_platformFindings {fs : List Finding} (h : x.platformFindings s t = .ok fs)
    {f : Finding} (hf : f ∈ fs) :
    f.kind = .manifestCatalog ∨ f.kind = .layerDefinition ∨ f.kind = .unreadableFile := by
  unfold platformFindings at h
  split at h
  · cases h
    cases hf
  · cases h
    cases hf
  · split at h
    · cases h
      exact .inr (.inr (List.mem_singleton.1 hf ▸ rfl))
    · split at h
      · obtain ⟨gs, hlayer, rfl⟩ := Failure.map_eq_ok_iff.1 h
        rcases List.mem_append.1 hf with hf | hf
        · exact .inl (kind_of_mem_catalogFindings hf)
        · exact .inr (kind_of_mem_layerFindings hlayer hf)
      · cases h
        cases hf

/-! ### Packages without a primary catalog -/

/-- The packages of `y` have the primary catalogs of those of `x`, and there may be more packages
that have none. -/
def AddsNoPrimary (x y : ModuleScan) : Prop :=
  ∀ name, y.primaryOf? name = x.primaryOf? name ∨
    x.primaryOf? name = none ∧ y.primaryOf? name = some none

theorem AddsNoPrimary.sublist_referenceFindings (h : AddsNoPrimary x y) (path : Text)
    (rs : List LayerReference) :
    (rs.flatMap (referenceFindings path x)).Sublist (rs.flatMap (referenceFindings path y)) := by
  refine List.Sublist.flatMap_right rs fun r _ => ?_
  unfold referenceFindings
  rcases h r.package with heq | ⟨hnone, -⟩
  · rw [heq]
  · rw [hnone]
    exact List.nil_sublist _

theorem AddsNoPrimary.catalogFindings_eq (h : AddsNoPrimary x y)
    (hmanifest : y.module.manifest = x.module.manifest) (hroot : y.module.root = x.module.root) :
    y.catalogFindings s manifest = x.catalogFindings s manifest := by
  have hprimary : ∀ name, (y.primaryOf? name).bind id = (x.primaryOf? name).bind id := by
    intro name
    rcases h name with heq | ⟨hnone, hsome⟩
    · rw [heq]
    · rw [hnone, hsome]
      rfl
  unfold catalogFindings missingCatalog
  simp only [hprimary, hmanifest, hroot]

theorem AddsNoPrimary.sublist_contentFindings (h : AddsNoPrimary x y) (content : LayerContent) :
    (x.contentFindings content).Sublist (y.contentFindings content) := by
  cases content with
  | findings fs => exact .refl fs
  | references path rs => exact h.sublist_referenceFindings path rs

theorem AddsNoPrimary.sublist_layerFindings (h : AddsNoPrimary x y)
    (hsourceRoot : y.module.sourceRoot = x.module.sourceRoot) {fs gs : List Finding}
    (hx : x.layerFindings t manifest = .ok fs) (hy : y.layerFindings t manifest = .ok gs) :
    fs.Sublist gs := by
  have hcontents : layerContent t manifest y.module = layerContent t manifest x.module := by
    unfold layerContent
    rw [hsourceRoot]
  obtain ⟨content, hcontent, rfl⟩ := Failure.map_eq_ok_iff.1 hx
  rw [layerFindings, hcontents, hcontent] at hy
  obtain rfl := Except.ok.inj hy
  exact h.sublist_contentFindings content

/-- With such packages there may be more references to keys that are not there; nothing else about
the platform is found, and nothing is lost. -/
theorem AddsNoPrimary.sublist_platformFindings (h : AddsNoPrimary x y)
    (hmanifest : y.module.manifest = x.module.manifest) (hroot : y.module.root = x.module.root)
    (hsourceRoot : y.module.sourceRoot = x.module.sourceRoot) {fs gs : List Finding}
    (hx : x.platformFindings s t = .ok fs) (hy : y.platformFindings s t = .ok gs) :
    fs.Sublist gs ∧
      gs.filter (·.kind = .manifestCatalog) = fs.filter (·.kind = .manifestCatalog) := by
  have hsame : fs = gs → fs.Sublist gs ∧
      gs.filter (·.kind = .manifestCatalog) = fs.filter (·.kind = .manifestCatalog) := by
    rintro rfl
    exact ⟨.refl _, rfl⟩
  unfold platformFindings at hx hy
  rw [hmanifest] at hy
  -- both look at the same manifest
  rcases hpath : x.module.manifest with _ | ⟨_ | ⟨c, rest⟩⟩ <;> rw [hpath] at hx hy
  · exact hsame (Except.ok.inj (hx.symm.trans hy))
  · exact hsame (Except.ok.inj (hx.symm.trans hy))
  · dsimp only at hx hy
    cases hread : t.readManifest (c :: rest) with
    | error failure =>
        rw [hread] at hx hy
        exact hsame (Except.ok.inj (hx.symm.trans hy))
    | ok manifest =>
        rw [hread] at hx hy
        dsimp only at hx hy
        by_cases hplatform : manifest.isPlatformModule = true
        · rw [if_pos hplatform] at hx hy
          obtain ⟨ks, hks, rfl⟩ := Failure.map_eq_ok_iff.1 hx
          obtain ⟨ls, hls, rfl⟩ := Failure.map_eq_ok_iff.1 hy
          -- nothing about the layer is a finding about the catalog
          have hnone : ∀ {z : ModuleScan} {fs : List Finding}, z.layerFindings t manifest = .ok fs →
              fs.filter (·.kind = .manifestCatalog) = [] := by
            intro z fs hlayer
            refine List.filter_eq_nil_iff.2 fun f hf hkind => ?_
            rcases kind_of_mem_layerFindings hlayer hf with heq | heq <;>
              cases heq.symm.trans (of_decide_eq_true hkind)
          rw [h.catalogFindings_eq hmanifest hroot]
          refine ⟨(h.sublist_layerFindings hsourceRoot hks hls).append_left _, ?_⟩
          rw [List.filter_append, List.filter_append, hnone hks, hnone hls]
        · rw [if_neg hplatform] at hx hy
          exact hsame (Except.ok.inj (hx.symm.trans hy))

/-! ### The scan -/

/-- **A scan from its start:** what is found in the files, what the manifest and the layer are
found to lack, and the report on the packages. -/
theorem ofFiles_eq (h : start m = .ok x) :
    (ofFiles s t m).2 = ((x.readPackages s t).1.platformFindings s t).bind fun fs =>
      (reportPackages s t
          { name := m.identity, findings := (x.packages.flatMap fun p => (p.read s t).2.1) ++ fs }
          (x.packages.map fun p => counted s t (platformUses s t m p.name) p)).map fun report =>
        { module := m
          packages := x.packages.map fun p => counted s t (platformUses s t m p.name) p
          report } := by
  obtain ⟨hmodule, hpackages, -, -⟩ := readPackages_fst (s := s) (t := t) h
  have hreport : (x.readPackages s t).1.report =
      { name := m.identity, findings := x.packages.flatMap fun p => (p.read s t).2.1 } := by
    show x.report.addAll ((x.packages.map (·.read s t)).flatMap fun r => r.2.1) = _
    rw [(of_start_eq_ok h).2.1, List.flatMap_map]
    rfl
  have hplatform := checkPlatform_eq (s := s) (t := t) (nodup_names_readPackages h s t)
  have hcounted : ((x.readPackages s t).1.packages.map fun p =>
      p.addUses (platformUses s t m p.name)) =
        x.packages.map fun p => counted s t (platformUses s t m p.name) p := by
    rw [hpackages, List.map_map]
    refine List.map_congr_left fun p _ => ?_
    rw [Function.comp_apply, name_counted, counted, Package.addUses_zero, counted]
  rw [hmodule, hreport, hcounted] at hplatform
  rw [ofFiles, h]
  show ((x.readPackages s t).1.checkPlatform s t).2.bind (finish s t) = _
  rw [hplatform]
  cases (x.readPackages s t).1.platformFindings s t <;> rfl

/-- What a complete scan has found: what was found while its files were read, what the manifest and
the layer lack, and what is reported of each package. -/
theorem findings_ofFiles (hx : start m = .ok x) (hy : (ofFiles s t m).2 = .ok y) :
    ∃ fs, (x.readPackages s t).1.platformFindings s t = .ok fs ∧
      y.packages = x.packages.map (fun p => counted s t (platformUses s t m p.name) p) ∧
      y.report.findings = (x.packages.flatMap fun p => (p.read s t).2.1) ++ fs ++
        y.packages.flatMap (·.findings s t) := by
  rw [ofFiles_eq hx] at hy
  obtain ⟨fs, hfindings, hy⟩ := Failure.bind_eq_ok_iff.1 hy
  obtain ⟨report, hreport, rfl⟩ := Failure.map_eq_ok_iff.1 hy
  exact ⟨fs, hfindings, rfl, congrArg Report.findings (reportPackages_eq_ok hreport)⟩

end BundleAudit.ModuleScan
