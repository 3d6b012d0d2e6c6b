import BundleAudit.Proofs.Layer
import BundleAudit.Proofs.Module.Findings
import BundleAudit.Proofs.Module.Outcome

/-!
# BundleAudit.Proofs.Module.Requirements

**What the manifest and the layer require of catalogs.** A complete scan reports just the
keys that are required and not there (`reportsMissing_of_ofFiles`). They are looked up
in primary catalogs whose uses have been counted, but counting changes no key, so what
is reported can be told from the files alone (`exists_primaryOf?`) and sources have no
part in it.

A scan is complete if it can be told whether the layer is there, its elements are not
nested too deep, and it can be told which sources have a form (`reportsExactly_iff`). A
layer whose name is too long for the file system ends it (`overlong_layer_ends_scan`).
-/

namespace BundleAudit

namespace ModuleScan

variable {s : Settings} {t t' : Tree} {m m' : RepositoryModule} {x X X' : ModuleScan}
  {manifest : Manifest}

/-! ### What is required -/

/-- The primary catalog that the files of a package have, as it is read. -/
def primaryCatalog? (s : Settings) (t : Tree) (m : RepositoryModule) (name : Text) :
    Option Catalog :=
  ((filesOf name m.files).find? (·.kind = .primaryCatalog)).bind (·.catalog.read? s t)

/-- Whether a reference is to a package of the module in which the key is not there. -/
def isUnresolved (s : Settings) (t : Tree) (m : RepositoryModule) (r : LayerReference) : Bool :=
  m.files.any (·.package = r.package) &&
    !(primaryCatalog? s t m r.package).any fun c => c.entries.any (·.key = r.key)

/-- A scan reports what the manifest and the layer of its module require and is not there, and
nothing else about them. -/
structure ReportsMissing (s : Settings) (t : Tree) (m : RepositoryModule) (X : ModuleScan) :
    Prop where
  /-- Without the manifest of a platform module that can be read nothing is required. -/
  nothing : platformManifest? t m = none →
    X.report.ofKind .manifestCatalog = [] ∧ X.report.ofKind .layerDefinition = []
  noCatalogNamed : ∀ manifest, platformManifest? t m = some manifest →
    manifest.catalogPackage = none → X.report.ofKind .manifestCatalog = []
  /-- One finding against the manifest for a package that is not one of the module or has no primary
  catalog. -/
  noCatalog : ∀ manifest name path, m.manifest = some path →
    platformManifest? t m = some manifest → manifest.catalogPackage = some name →
      primaryCatalog? s t m name = none → X.report.ofKind .manifestCatalog =
        [⟨.manifestCatalog, path, 1, "Missing resource bundle specified in module manifest"⟩]
  /-- One finding for each mandatory key that the catalog does not have, in the order of the
  settings; none for the optional keys. -/
  keys : ∀ manifest name c, platformManifest? t m = some manifest →
    manifest.catalogPackage = some name → primaryCatalog? s t m name = some c →
      X.report.ofKind .manifestCatalog =
        (s.mandatoryModuleKeys.filter fun key => !c.entries.any (·.key = key)).map fun key =>
          ⟨.manifestCatalog, c.path, 1, "Missing " ++ key ++ " NetBeans module bundle"⟩
  noLayerNamed : ∀ manifest, platformManifest? t m = some manifest →
    layerPath? m manifest = none → X.report.ofKind .layerDefinition = []
  /-- One finding for a layer that is no file. -/
  noLayer : ∀ manifest name path, platformManifest? t m = some manifest →
    manifest.layerFile = some name → layerPath? m manifest = some path →
      t.isFile path = .ok false → X.report.ofKind .layerDefinition = [missingLayer path name]
  /-- One finding for each reference that is not resolved, in the order of the document. -/
  references : ∀ manifest path bytes root, platformManifest? t m = some manifest →
    layerPath? m manifest = some path → t.read path = .ok bytes →
      Xml.Element.ofBytes bytes = .ok root → X.report.ofKind .layerDefinition =
        (((Layer.bundleValues [] root).filterMap Layer.reference?).filter
          (isUnresolved s t m)).map (missingReference path)

/-- Another state of a module, with the same packages, primary catalogs, manifest and layer. The
other files, its sources among them, may have gone, come and changed. -/
structure KeepsRequirements (t : Tree) (m : RepositoryModule) (t' : Tree) (m' : RepositoryModule) :
    Prop where
  manifest : m'.manifest = m.manifest
  sourceRoot : m'.sourceRoot = m.sourceRoot
  packages : ∀ name, name ∈ m'.files.map (·.package) ↔ name ∈ m.files.map (·.package)
  primary : m'.files.filter (·.kind = .primaryCatalog) = m.files.filter (·.kind = .primaryCatalog)
  alike : ∀ path, (m.manifest = some path ∨
      (platformManifest? t m).bind (layerPath? m) = some path ∨
      ∃ f ∈ m.files, f.kind = .primaryCatalog ∧ f.path = path) →
    t'.read path = t.read path ∧ t'.isFile path = t.isFile path

/-- It can be told whether the layer that a platform module names is a file. -/
def LayerTold (t : Tree) (m : RepositoryModule) : Prop :=
  ∀ path, (platformManifest? t m).bind (layerPath? m) = some path →
    ∃ isFile, t.isFile path = .ok isFile

/-- The layer that a platform module names is a document, if it is a file. -/
def LayerWellFormed (t : Tree) (m : RepositoryModule) : Prop :=
  ∀ path, (platformManifest? t m).bind (layerPath? m) = some path → t.isFile path = .ok true →
    ∃ bytes root, t.read path = .ok bytes ∧ Xml.Element.ofBytes bytes = .ok root

/-- No element of the layer that a platform module names is nested too deep, if it is a document. -/
def LayerFollowed (t : Tree) (m : RepositoryModule) : Prop :=
  ∀ path, (platformManifest? t m).bind (layerPath? m) = some path → ∀ bytes root,
    t.read path = .ok bytes → Xml.Element.ofBytes bytes = .ok root →
      root.IsWithin t.depths.elements

/-! ### Looking up in the files -/

theorem hasKey_eq_any (c : Catalog) (key : Text) :
    c.hasKey key = c.entries.any (·.key = key) := List.isSome_find?

theorem primaryCatalog?_eq_none {name : Text} (h : name ∉ m.files.map (·.package)) :
    primaryCatalog? s t m name = none := by
  rw [primaryCatalog?, filesOf_eq_nil h]
  rfl

/-- **Before the platform is looked at,** the packages have the primary catalogs of their files, up
to the uses that were counted. -/
theorem exists_primaryOf? (h : start m = .ok x) (s : Settings) (t : Tree) (name : Text) :
    ∃ n, (x.readPackages s t).1.primaryOf? name =
      if name ∈ m.files.map (·.package) then
        some ((primaryCatalog? s t m name).map (·.addUses n)) else none := by
  rw [primaryOf?_readPackages h, package?_start h]
  split
  · -- looking up counts the texts of the sources, and the platform has added nothing yet
    refine ⟨((packageOf m name (filesOf name m.files)).read s t).1.texts.count, ?_⟩
    have hprimary : ((packageOf m name (filesOf name m.files)).read s t).1.primary =
        primaryCatalog? s t m name := by
      rw [Package.read_fst, primaryCatalog?, packageOf]
      cases (filesOf name m.files).find? (·.kind = .primaryCatalog) <;> rfl
    rw [Option.map_some, ← hprimary, counted, Package.addUses_zero]
    exact congrArg some (Option.map_congr fun c _ => Catalog.countUses_eq _ c)
  · exact ⟨fun _ => 0, rfl⟩

theorem missingKeys_eq (s : Settings) (c : Catalog) :
    missingKeys s c =
      (s.mandatoryModuleKeys.filter fun key => !c.entries.any (·.key = key)).map fun key =>
        ⟨.manifestCatalog, c.path, 1, "Missing " ++ key ++ " NetBeans module bundle"⟩ := by
  unfold missingKeys
  simp only [hasKey_eq_any]

theorem missingKeys_addUses (s : Settings) (n : Text → Nat) (c : Catalog) :
    missingKeys s (c.addUses n) = missingKeys s c := by
  unfold missingKeys
  simp only [Catalog.hasKey_addUses, Catalog.path_addUses]

/-- The catalog that a manifest names is looked up among the files. -/
theorem catalogFindings_readPackages {name : Text} (h : start m = .ok x)
    (hname : manifest.catalogPackage = some name) :
    (x.readPackages s t).1.catalogFindings s manifest =
      match primaryCatalog? s t m name with
      | none => [missingCatalog m]
      | some c => missingKeys s c := by
  obtain ⟨n, hprimary⟩ := exists_primaryOf? h s t name
  have hlook : ((x.readPackages s t).1.primaryOf? name).bind id =
      (primaryCatalog? s t m name).map (·.addUses n) := by
    rw [hprimary]
    split
    · rfl
    · next hpackage =>
        rw [primaryCatalog?_eq_none hpackage]
        rfl
  unfold catalogFindings
  rw [hname, (readPackages_fst h).1]
  dsimp only
  rw [hlook]
  cases primaryCatalog? s t m name with
  | none => rfl
  | some c => exact missingKeys_addUses s n c

/-- A reference of a layer is looked up among the files. -/
theorem referenceFindings_readPackages (h : start m = .ok x) (path : Text) (r : LayerReference) :
    referenceFindings path (x.readPackages s t).1 r =
      if isUnresolved s t m r then [missingReference path r] else [] := by
  obtain ⟨n, hprimary⟩ := exists_primaryOf? h s t r.package
  have hpackage : m.files.any (·.package = r.package) =
      decide (r.package ∈ m.files.map (·.package)) := by
    rw [Bool.eq_iff_iff, List.any_eq_true, decide_eq_true_iff, List.mem_map]
    simp only [decide_eq_true_eq]
  unfold referenceFindings isUnresolved
  rw [hprimary, hpackage]
  by_cases hmem : r.package ∈ m.files.map (·.package)
  · have hkey : ((primaryCatalog? s t m r.package).map (·.addUses n)).any (·.hasKey r.key) =
        (primaryCatalog? s t m r.package).any fun c => c.entries.any (·.key = r.key) := by
      rw [Option.any_map]
      simp only [Catalog.hasKey_addUses]
      simp only [hasKey_eq_any]
    rw [if_pos hmem, decide_eq_true hmem, Bool.true_and]
    dsimp only
    rw [hkey]
    cases (primaryCatalog? s t m r.package).any fun c => c.entries.any (·.key = r.key) <;> rfl
  · rw [if_neg hmem, decide_eq_false hmem]
    rfl

theorem flatMap_referenceFindings (h : start m = .ok x) (path : Text) (rs : List LayerReference) :
    rs.flatMap (referenceFindings path (x.readPackages s t).1) =
      (rs.filter (isUnresolved s t m)).map (missingReference path) := by
  induction rs with
  | nil => rfl
  | cons r rest ih =>
      rw [List.flatMap_cons, ih, referenceFindings_readPackages h, List.filter_cons]
      split <;> rfl

/-! ### What a scan reports -/

theorem exists_path_of_platformManifest? (h : platformManifest? t m = some manifest) :
    ∃ path, m.manifest = some path := by
  unfold platformManifest? at h
  split at h
  · cases h
  · cases h
  · next path _ hpath => exact ⟨path, hpath⟩

theorem platformFindings_of_none (h : platformManifest? t x.module = none) :
    ∃ fs, x.platformFindings s t = .ok fs ∧ ∀ f ∈ fs, f.kind = .unreadableFile := by
  unfold platformManifest? at h
  unfold platformFindings
  split
  · exact ⟨[], rfl, by simp⟩
  · exact ⟨[], rfl, by simp⟩
  · next path hne hpath =>
      split
      · next failure _ =>
          refine ⟨_, rfl, fun f hf => ?_⟩
          rw [List.mem_singleton.1 hf]
          rfl
      · next manifest hread =>
          simp only [hpath, hread, Except.toOption, Option.filter_some] at h
          rw [if_neg (by simpa using h)]
          exact ⟨[], rfl, by simp⟩

theorem platformFindings_of_some (h : platformManifest? t x.module = some manifest) :
    x.platformFindings s t = (x.layerFindings t manifest).map
      (x.catalogFindings s manifest ++ ·) := by
  unfold platformManifest? at h
  unfold platformFindings
  rcases hpath : x.module.manifest with _ | ⟨_ | ⟨c, rest⟩⟩ <;> rw [hpath] at h
  · cases h
  · cases h
  · obtain ⟨hread, hplatform⟩ := Option.filter_eq_some_iff.1 h
    dsimp only
    rw [Failure.eq_ok_of_toOption hread]
    exact if_pos hplatform

theorem ofKind_of_none (hx : start m = .ok x) (hX : (ofFiles s t m).2 = .ok X)
    (h : platformManifest? t m = none) {kind : Finding.Kind}
    (hkind : kind = .manifestCatalog ∨ kind = .layerDefinition) : X.report.ofKind kind = [] := by
  obtain ⟨fs, hfs, hfindings⟩ := filter_findings_ofPlatform hx hX hkind
  obtain ⟨gs, hgs, hunreadable⟩ := platformFindings_of_none (s := s)
    (((congrArg (platformManifest? t) (readPackages_fst hx).1)).trans h)
  obtain rfl := Except.ok.inj (hfs.symm.trans hgs)
  rw [hfindings]
  refine List.filter_eq_nil_iff.2 fun f hf hkept => ?_
  have heq := (hunreadable f hf).symm.trans (of_decide_eq_true hkept)
  rcases hkind with rfl | rfl <;> cases heq

/-- With the manifest of a platform module, the findings of the one kind are about the catalog, and
those of the other about the layer. -/
theorem ofKind_of_some (hx : start m = .ok x) (hX : (ofFiles s t m).2 = .ok X)
    (h : platformManifest? t m = some manifest) :
    X.report.ofKind .manifestCatalog = (x.readPackages s t).1.catalogFindings s manifest ∧
      ∃ fs, (x.readPackages s t).1.layerFindings t manifest = .ok fs ∧
        X.report.ofKind .layerDefinition = fs.filter (·.kind = .layerDefinition) := by
  have hmanifest : platformManifest? t (x.readPackages s t).1.module = some manifest := by
    rw [(readPackages_fst hx).1, h]
  have hfilter : ∀ kind, kind = .manifestCatalog ∨ kind = .layerDefinition →
      ∃ fs, (x.readPackages s t).1.layerFindings t manifest = .ok fs ∧
        X.report.ofKind kind =
          ((x.readPackages s t).1.catalogFindings s manifest).filter (·.kind = kind) ++
            fs.filter (·.kind = kind) := by
    intro kind hkind
    obtain ⟨gs, hgs, hfindings⟩ := filter_findings_ofPlatform hx hX hkind
    rw [platformFindings_of_some hmanifest] at hgs
    obtain ⟨fs, hfs, rfl⟩ := Failure.map_eq_ok_iff.1 hgs
    exact ⟨fs, hfs, by rw [hfindings, List.filter_append]⟩
  constructor
  · obtain ⟨fs, hfs, heq⟩ := hfilter .manifestCatalog (.inl rfl)
    have hall : ((x.readPackages s t).1.catalogFindings s manifest).filter
        (·.kind = .manifestCatalog) = (x.readPackages s t).1.catalogFindings s manifest :=
      List.filter_eq_self.2 fun f hf => decide_eq_true (kind_of_mem_catalogFindings hf)
    have hnone : fs.filter (·.kind = .manifestCatalog) = [] := by
      refine List.filter_eq_nil_iff.2 fun f hf hkept => ?_
      rcases kind_of_mem_layerFindings hfs hf with hkind | hkind <;>
        cases hkind.symm.trans (of_decide_eq_true hkept)
    rw [heq, hall, hnone, List.append_nil]
  · obtain ⟨fs, hfs, heq⟩ := hfilter .layerDefinition (.inr rfl)
    have hnone : ((x.readPackages s t).1.catalogFindings s manifest).filter
        (·.kind = .layerDefinition) = [] := by
      refine List.filter_eq_nil_iff.2 fun f hf hkept => ?_
      cases (kind_of_mem_catalogFindings hf).symm.trans (of_decide_eq_true hkept)
    rw [hnone, List.nil_append] at heq
    exact ⟨fs, hfs, heq⟩

/-! ### The layer -/

theorem layerFindings_of_none (h : layerPath? x.module manifest = none) :
    x.layerFindings t manifest = .ok [] := by
  unfold layerPath? at h
  unfold layerFindings layerContent
  rcases hname : manifest.layerFile with _ | ⟨_ | ⟨c, rest⟩⟩
  · rfl
  · rfl
  · rw [hname] at h
    cases h

theorem layerContent_of_not_file {name path : Text} (hname : manifest.layerFile = some name)
    (hpath : layerPath? m manifest = some path) (hfile : t.isFile path = .ok false) :
    layerContent t manifest m = .ok (.findings [missingLayer path name]) := by
  obtain ⟨c, rest, hlayer, rfl⟩ := exists_of_layerPath? hpath
  obtain rfl := Option.some.inj (hname.symm.trans hlayer)
  unfold layerContent
  rw [hlayer]
  simp only [bind, Except.bind, hfile]
  rfl

/-- A layer that is a document has its references, or it is nested too deep. -/
theorem readLayer_of_document {path : Text} {bytes : Bytes} {root : Xml.Element}
    (hread : t.read path = .ok bytes) (hdocument : Xml.Element.ofBytes bytes = .ok root) :
    (root.IsWithin t.depths.elements ∧
      (t.readLayer path).2 = .ok ((Layer.bundleValues [] root).filterMap Layer.reference?)) ∨
    (¬root.IsWithin t.depths.elements ∧ (t.readLayer path).2 = .error .nestedTooDeep) := by
  rw [Tree.readLayer_eq hread, Layer.ofBytes, hdocument]
  rcases Layer.ofDocument_cases t.depths.elements path root with ⟨hwithin, heq⟩ | ⟨hdeep, hcut⟩
  · rw [heq, Layer.references_eq]
    exact .inl ⟨hwithin, rfl⟩
  · exact .inr ⟨hdeep, hcut.failure⟩

theorem layerContent_of_document {path : Text} {bytes : Bytes} {root : Xml.Element}
    {content : LayerContent} (hpath : layerPath? m manifest = some path)
    (hread : t.read path = .ok bytes) (hdocument : Xml.Element.ofBytes bytes = .ok root)
    (hcontent : layerContent t manifest m = .ok content) :
    content = .references path ((Layer.bundleValues [] root).filterMap Layer.reference?) := by
  obtain ⟨c, rest, hlayer, rfl⟩ := exists_of_layerPath? hpath
  unfold layerContent at hcontent
  rw [hlayer] at hcontent
  simp only [bind, Except.bind, Tree.isFile_of_read hread, if_true] at hcontent
  rcases readLayer_of_document hread hdocument with ⟨-, heq⟩ | ⟨-, heq⟩
  · rw [heq] at hcontent
    exact (Except.ok.inj hcontent).symm
  · rw [heq] at hcontent
    cases hcontent

/-! ### Complete scans -/

/-- **A complete scan reports what is required and not there.** -/
theorem reportsMissing_of_ofFiles (hx : start m = .ok x) (hX : (ofFiles s t m).2 = .ok X) :
    ReportsMissing s t m X := by
  have hmodule := (readPackages_fst (s := s) (t := t) hx).1
  -- about the layer there is found just what is in it
  have hlayer : ∀ {manifest}, platformManifest? t m = some manifest →
      ∃ content, layerContent t manifest m = .ok content ∧ X.report.ofKind .layerDefinition =
        ((x.readPackages s t).1.contentFindings content).filter (·.kind = .layerDefinition) := by
    intro manifest h
    obtain ⟨-, fs, hfs, heq⟩ := ofKind_of_some hx hX h
    obtain ⟨content, hcontent, rfl⟩ := Failure.map_eq_ok_iff.1 hfs
    exact ⟨content, hmodule ▸ hcontent, heq⟩
  constructor
  case nothing =>
    intro h
    exact ⟨ofKind_of_none hx hX h (.inl rfl), ofKind_of_none hx hX h (.inr rfl)⟩
  case noCatalogNamed =>
    intro manifest h hname
    rw [(ofKind_of_some hx hX h).1, catalogFindings, hname]
  case noCatalog =>
    intro manifest name path hpath h hname hnone
    rw [(ofKind_of_some hx hX h).1, catalogFindings_readPackages hx hname, hnone]
    dsimp only
    rw [missingCatalog, hpath, Option.getD_some]
  case keys =>
    intro manifest name c h hname hc
    rw [(ofKind_of_some hx hX h).1, catalogFindings_readPackages hx hname, hc]
    exact missingKeys_eq s c
  case noLayerNamed =>
    intro manifest h hnone
    obtain ⟨-, fs, hfs, heq⟩ := ofKind_of_some hx hX h
    rw [layerFindings_of_none (by rw [hmodule, hnone])] at hfs
    rw [heq, ← Except.ok.inj hfs]
    rfl
  case noLayer =>
    intro manifest name path h hname hpath hfile
    obtain ⟨content, hcontent, heq⟩ := hlayer h
    obtain rfl :=
      Except.ok.inj ((layerContent_of_not_file hname hpath hfile).symm.trans hcontent)
    exact heq
  case references =>
    intro manifest path bytes root h hpath hread hdocument
    obtain ⟨content, hcontent, heq⟩ := hlayer h
    obtain rfl := layerContent_of_document hpath hread hdocument hcontent
    rw [heq, contentFindings, flatMap_referenceFindings hx]
    refine List.filter_eq_self.2 fun f hf => ?_
    obtain ⟨r, -, rfl⟩ := List.mem_map.1 hf
    rfl

/-! ### Other files -/

namespace KeepsRequirements

theorem platformManifest?_eq (h : KeepsRequirements t m t' m') :
    platformManifest? t' m' = platformManifest? t m := by
  have hread : ∀ path, m.manifest = some path → t'.readManifest path = t.readManifest path := by
    intro path hpath
    rw [Tree.readManifest, Tree.readManifest, Tree.readLines, Tree.readLines,
      (h.alike path (.inl hpath)).1]
  unfold platformManifest?
  rw [h.manifest]
  split
  · rfl
  · rfl
  · next path _ hpath => rw [hread path hpath]

theorem layerPath?_eq (h : KeepsRequirements t m t' m') (manifest : Manifest) :
    layerPath? m' manifest = layerPath? m manifest := by
  unfold layerPath?
  rw [h.sourceRoot]

theorem primaryCatalog?_eq (h : KeepsRequirements t m t' m') (s : Settings) (name : Text) :
    primaryCatalog? s t' m' name = primaryCatalog? s t m name := by
  have hfind : ∀ files : List ModuleFile,
      (filesOf name files).find? (·.kind = .primaryCatalog) =
        (files.filter (·.kind = .primaryCatalog)).find? (·.package = name) := by
    intro files
    rw [filesOf, List.find?_filter, List.find?_filter]
    exact congrArg (List.find? · files) (funext fun f => decide_eq_decide.2 and_comm)
  unfold primaryCatalog?
  rw [hfind, hfind, h.primary]
  refine Option.bind_congr fun f hf => ?_
  obtain ⟨hmem, hkind⟩ := List.mem_filter.1 (List.mem_of_find?_eq_some hf)
  have hread := (h.alike f.path (.inr (.inr ⟨f, hmem, of_decide_eq_true hkind, rfl⟩))).1
  simp only [Catalog.read?, Catalog.read, Tree.readLines, ModuleFile.catalog, hread]

theorem isUnresolved_eq (h : KeepsRequirements t m t' m') (s : Settings) :
    isUnresolved s t' m' = isUnresolved s t m := by
  have hpackages : ∀ name, m'.files.any (·.package = name) = m.files.any (·.package = name) := by
    intro name
    have hname := h.packages name
    rw [List.mem_map, List.mem_map] at hname
    rw [Bool.eq_iff_iff, List.any_eq_true, List.any_eq_true]
    simpa only [decide_eq_true_eq] using hname
  funext r
  rw [isUnresolved, isUnresolved, hpackages, h.primaryCatalog?_eq]

end KeepsRequirements

/-- The reports on two scans say the same of the manifest and the layer. -/
def SaysSame (X X' : ModuleScan) : Prop :=
  X'.report.ofKind .manifestCatalog = X.report.ofKind .manifestCatalog ∧
    X'.report.ofKind .layerDefinition = X.report.ofKind .layerDefinition

/-- What is reported does not depend on other files. -/
theorem ReportsMissing.saysSame (hX : ReportsMissing s t m X) (hX' : ReportsMissing s t' m' X')
    (h : KeepsRequirements t m t' m') (htold : LayerTold t m) (hlayer : LayerWellFormed t m) :
    SaysSame X X' := by
  have hplatform := h.platformManifest?_eq
  cases hmanifest : platformManifest? t m with
  | none =>
      obtain ⟨hcatalog, hdefinition⟩ := hX.nothing hmanifest
      obtain ⟨hcatalog', hdefinition'⟩ := hX'.nothing (hplatform.trans hmanifest)
      exact ⟨hcatalog'.trans hcatalog.symm, hdefinition'.trans hdefinition.symm⟩
  | some manifest =>
      have hmanifest' := hplatform.trans hmanifest
      constructor
      · cases hname : manifest.catalogPackage with
        | none =>
            rw [hX.noCatalogNamed manifest hmanifest hname,
              hX'.noCatalogNamed manifest hmanifest' hname]
        | some name =>
            have hprimary := h.primaryCatalog?_eq s name
            cases hc : primaryCatalog? s t m name with
            | none =>
                obtain ⟨path, hpath⟩ := exists_path_of_platformManifest? hmanifest
                rw [hX.noCatalog manifest name path hpath hmanifest hname hc,
                  hX'.noCatalog manifest name path (h.manifest.trans hpath) hmanifest' hname
                    (hprimary.trans hc)]
            | some c =>
                rw [hX.keys manifest name c hmanifest hname hc,
                  hX'.keys manifest name c hmanifest' hname (hprimary.trans hc)]
      · cases hpath : layerPath? m manifest with
        | none =>
            rw [hX.noLayerNamed manifest hmanifest hpath,
              hX'.noLayerNamed manifest hmanifest' ((h.layerPath?_eq manifest).trans hpath)]
        | some path =>
            have hpath' := (h.layerPath?_eq manifest).trans hpath
            have hnamed : (platformManifest? t m).bind (layerPath? m) = some path := by
              rw [hmanifest, Option.bind_some, hpath]
            obtain ⟨hread, hisFile⟩ := h.alike path (.inr (.inl hnamed))
            obtain ⟨isFile, hfile⟩ := htold path hnamed
            cases isFile with
            | false =>
                obtain ⟨c, rest, hname, -⟩ := exists_of_layerPath? hpath
                rw [hX.noLayer manifest _ path hmanifest hname hpath hfile,
                  hX'.noLayer manifest _ path hmanifest' hname hpath' (hisFile.trans hfile)]
            | true =>
                obtain ⟨bytes, root, hbytes, hdocument⟩ := hlayer path hnamed hfile
                rw [hX.references manifest path bytes root hmanifest hpath hbytes hdocument,
                  hX'.references manifest path bytes root hmanifest' hpath' (hread.trans hbytes)
                    hdocument, h.isUnresolved_eq]

/-! ### The scan -/

/-- A scan reports what is required and not there, whatever its other files are and hold. -/
structure ReportsExactly (s : Settings) (t : Tree) (m : RepositoryModule) (X : ModuleScan) : Prop
    extends ReportsMissing s t m X where
  others : ∀ t' m' X', KeepsRequirements t m t' m' → (ofFiles s t' m').2 = .ok X' → SaysSame X X'

/-- A layer that is a document, if it is a file, ends a scan only if it cannot be told whether it is
one, or if it is nested too deep. -/
theorem layerSettled_iff (h : LayerWellFormed t m) :
    LayerSettled t m ↔ LayerTold t m ∧ LayerFollowed t m := by
  rw [LayerSettled, LayerTold, LayerFollowed, ← forall₂_and]
  refine forall₂_congr fun path hpath => ?_
  constructor
  · intro hsettled
    rcases hsettled with hfile | ⟨hfile, hfailure⟩
    · refine ⟨⟨false, hfile⟩, fun bytes root hread _ => ?_⟩
      cases hfile.symm.trans (Tree.isFile_of_read hread)
    · refine ⟨⟨true, hfile⟩, fun bytes root hread hdocument => ?_⟩
      rcases readLayer_of_document hread hdocument with ⟨hwithin, -⟩ | ⟨-, hdeep⟩
      · exact hwithin
      · cases hfailure _ hdeep
  · intro htold
    obtain ⟨⟨isFile, hfile⟩, hfollowed⟩ := htold
    cases isFile with
    | false => exact .inl hfile
    | true =>
        obtain ⟨bytes, root, hread, hdocument⟩ := h path hpath hfile
        refine .inr ⟨hfile, fun f hf => ?_⟩
        rcases readLayer_of_document hread hdocument with ⟨-, heq⟩ | ⟨hdeep, -⟩
        · cases heq.symm.trans hf
        · exact absurd (hfollowed bytes root hread hdocument) hdeep

/-- **What the manifest and the layer require is reported exactly,** if the layer is a document or
no file, just where it can be told whether it is a file, its elements are not nested too deep, and
it can be told which sources have a form; else the scan fails. Catalogs that cannot be read count
as none. -/
theorem reportsExactly_iff (hx : start m = .ok x) (hlayer : LayerWellFormed t m) :
    (∃ X, (ofFiles s t m).2 = .ok X ∧ ReportsExactly s t m X) ↔
      LayerTold t m ∧ LayerFollowed t m ∧ ∀ p ∈ x.packages, FormsSettled s t p := by
  have hcomplete := exists_ofFiles_iff (s := s) (t := t) hx
  rw [layerSettled_iff hlayer, and_assoc] at hcomplete
  rw [← hcomplete]
  constructor
  · intro h
    obtain ⟨X, hX, -⟩ := h
    exact ⟨X, hX⟩
  · intro h
    obtain ⟨X, hX⟩ := h
    have hmissing := reportsMissing_of_ofFiles hx hX
    refine ⟨X, hX, hmissing, fun t' m' X' hkeeps hX' => ?_⟩
    obtain ⟨x', -, hx', -⟩ := of_ofFiles_eq_ok hX'
    exact hmissing.saysSame (reportsMissing_of_ofFiles hx' hX') hkeeps
      (hcomplete.1 ⟨X, hX⟩).1 hlayer

/-- A tree with the files of a platform module that names a layer. -/
def requiringTree (layer : Text) : Tree :=
  { entries :=
      [([Text.ofString "manifest.mf"],
          .ofText ("OpenIDE-Module: m\nOpenIDE-Module-Localizing-Bundle: p/B.properties\n"
            ++ "OpenIDE-Module-Layer: " ++ layer ++ "\n")),
        ([Text.ofString "src"], .directory),
        ([Text.ofString "src", Text.ofString "l"],
          .ofText ("<a bundlevalue='p.B#two'><b name='c' bundlevalue='p.B#three'/>"
            ++ "<d bundlevalue='q.B#one'/></a>")),
        ([Text.ofString "src", Text.ofString "p"], .directory),
        ([Text.ofString "src", Text.ofString "p", Text.ofString "Bundle.properties"],
          .ofText "one=1\ntwo=2\nOpenIDE-Module-Name=3\n")] }

/-- This module. Its layer refers to a key that is there, to one that is not, and to another
module. -/
def requiringModule : RepositoryModule where
  identity := "m"
  root := "/"
  sourceRoot := "/src"
  manifest := some "/manifest.mf"
  files := [⟨"p", "/src/p/Bundle.properties", .primaryCatalog⟩]

theorem exists_start_requiringModule : ∃ x, start requiringModule = .ok x :=
  exists_start (by decide)

theorem reportsExactly_iff_sample :
    ∃ x X, start requiringModule = .ok x ∧ LayerWellFormed (requiringTree "l") requiringModule ∧
      (ofFiles .standard (requiringTree "l") requiringModule).2 = .ok X ∧
      ReportsExactly .standard (requiringTree "l") requiringModule X ∧
      X.report.ofKind .manifestCatalog =
        [⟨.manifestCatalog, "/src/p/Bundle.properties", 1,
          "Missing OpenIDE-Module-Display-Category NetBeans module bundle"⟩] ∧
      X.report.ofKind .layerDefinition =
        [⟨.layerDefinition, "/src/l", 1,
          "Missing resource bundle key three specified in layer file: /c/bundlevalue"⟩] := by
  obtain ⟨x, hx⟩ := exists_start_requiringModule
  have hpath : (platformManifest? (requiringTree "l") requiringModule).bind
      (layerPath? requiringModule) = some "/src/l" := by decide +kernel
  have hlayer : LayerWellFormed (requiringTree "l") requiringModule := by
    intro path hnamed _
    obtain rfl := Option.some.inj (hpath.symm.trans hnamed)
    have hdocument : (((requiringTree "l").read "/src/l").toOption.bind fun bytes =>
        (Xml.Element.ofBytes bytes).toOption).isSome = true := by decide +kernel
    obtain ⟨root, hroot⟩ := Option.isSome_iff_exists.1 hdocument
    obtain ⟨bytes, hbytes, hroot⟩ := Option.bind_eq_some_iff.1 hroot
    refine ⟨bytes, root, Failure.eq_ok_of_toOption hbytes, ?_⟩
    cases hresult : Xml.Element.ofBytes bytes with
    | error fault =>
        rw [hresult] at hroot
        cases hroot
    | ok root' =>
        rw [hresult] at hroot
        exact congrArg Except.ok (Option.some.inj hroot)
  have hreport : (ofFiles .standard (requiringTree "l") requiringModule).2.toOption.map
      (fun X => (X.report.ofKind .manifestCatalog, X.report.ofKind .layerDefinition)) =
        some ([⟨.manifestCatalog, "/src/p/Bundle.properties", 1,
            "Missing OpenIDE-Module-Display-Category NetBeans module bundle"⟩],
          [⟨.layerDefinition, "/src/l", 1,
            "Missing resource bundle key three specified in layer file: /c/bundlevalue"⟩]) := by
    decide +kernel
  obtain ⟨Y, hY, hfindings⟩ := Option.map_eq_some_iff.1 hreport
  obtain ⟨hsettled, hforms⟩ := (exists_ofFiles_iff hx).1 ⟨Y, Failure.eq_ok_of_toOption hY⟩
  obtain ⟨htold, hfollowed⟩ := (layerSettled_iff hlayer).1 hsettled
  obtain ⟨X, hX, hexactly⟩ := (reportsExactly_iff hx hlayer).2 ⟨htold, hfollowed, hforms⟩
  obtain rfl := Except.ok.inj (hX.symm.trans (Failure.eq_ok_of_toOption hY))
  exact ⟨x, X, hx, hlayer, hX, hexactly, congrArg Prod.fst hfindings, congrArg Prod.snd hfindings⟩

/-- A layer whose name is too long for the file system is no file, but it is not reported as
missing: the scan fails. -/
theorem overlong_layer_ends_scan :
    ∃ x path, start requiringModule = .ok x ∧
      (platformManifest? (requiringTree Tree.overlongName) requiringModule).bind
        (layerPath? requiringModule) = some path ∧
      (∀ bytes, (requiringTree Tree.overlongName).read path ≠ .ok bytes) ∧
      LayerWellFormed (requiringTree Tree.overlongName) requiringModule ∧
      ¬∃ X, (ofFiles .standard (requiringTree Tree.overlongName) requiringModule).2 = .ok X ∧
        ReportsExactly .standard (requiringTree Tree.overlongName) requiringModule X := by
  have hpath : (platformManifest? (requiringTree Tree.overlongName) requiringModule).bind
      (layerPath? requiringModule) = some ("/src/" ++ Tree.overlongName) := by decide +kernel
  have htold : ∀ isFile, (requiringTree Tree.overlongName).isFile ("/src/" ++ Tree.overlongName) ≠
      .ok isFile := by
    intro isFile hfile
    have hnone :
        ((requiringTree Tree.overlongName).isFile ("/src/" ++ Tree.overlongName)).toOption =
          none := by decide +kernel
    rw [hfile] at hnone
    cases hnone
  have hlayer : LayerWellFormed (requiringTree Tree.overlongName) requiringModule := by
    intro path hnamed hfile
    obtain rfl := Option.some.inj (hpath.symm.trans hnamed)
    exact absurd hfile (htold true)
  obtain ⟨x, hx⟩ := exists_start_requiringModule
  refine ⟨x, _, hx, hpath, fun bytes hread => htold true (Tree.isFile_of_read hread), hlayer,
    fun h => ?_⟩
  obtain ⟨X, hX, -⟩ := h
  have hsettled := ((exists_ofFiles_iff hx).1 ⟨X, hX⟩).1
  obtain ⟨isFile, hfile⟩ := ((layerSettled_iff hlayer).1 hsettled).1 _ hpath
  exact htold isFile hfile

end ModuleScan

end BundleAudit
