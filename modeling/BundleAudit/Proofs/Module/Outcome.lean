import BundleAudit.Proofs.Module.Packages
import BundleAudit.Proofs.Module.Usage

/-!
# BundleAudit.Proofs.Module.Outcome

**When the scan of a module is completed.** Reading never fails as a whole; so beside a
second primary catalog there are two things left that end a scan: a layer of which it
cannot be told whether it is there, which declares a character set that is not known,
or whose elements are nested too deep, and a source of which it cannot be told whether
it has a form (`exists_ofFiles_iff`).
-/

namespace BundleAudit.ModuleScan

variable {s : Settings} {t : Tree} {m : RepositoryModule} {x : ModuleScan} {manifest : Manifest}
  {p : Package}

/-! ### The layer -/

/-- The path of the layer that a manifest names. -/
def layerPath? (m : RepositoryModule) (manifest : Manifest) : Option Text :=
  match manifest.layerFile with
  | none => none
  | some [] => none
  | some name => some ((Path.ofText m.sourceRoot).join (Path.ofText name)).toText

/-- A layer that is named has a name that is not empty, below the source root. -/
theorem exists_of_layerPath? {path : Text} (h : layerPath? m manifest = some path) :
    ∃ c rest, manifest.layerFile = some (c :: rest) ∧
      ((Path.ofText m.sourceRoot).join (Path.ofText (c :: rest))).toText = path := by
  unfold layerPath? at h
  split at h
  · cases h
  · cases h
  · next name hne hname =>
      cases name with
      | nil => exact absurd rfl hne
      | cons c rest => exact ⟨c, rest, hname, Option.some.inj h⟩

/-- A layer does not end a scan: it can be told whether it is a file, and if it is one, its
character set is known and no element in it is nested too deep. -/
def IsSettled (t : Tree) (path : Text) : Prop :=
  t.isFile path = .ok false ∨
    t.isFile path = .ok true ∧ ∀ f, (t.readLayer path).2 = .error f → f.isOfFile = true

/-- The layer of a platform module, if it has one, does not end its scan. -/
def LayerSettled (t : Tree) (m : RepositoryModule) : Prop :=
  ∀ path, (platformManifest? t m).bind (layerPath? m) = some path → IsSettled t path

theorem exists_addLayer_iff {path : Text} {layer : Except Failure (List LayerReference)} :
    (∃ y, x.addLayer path layer = .ok y) ↔ ∀ f, layer = .error f → f.isOfFile = true := by
  cases layer with
  | ok references => exact iff_of_true ⟨_, rfl⟩ (by simp)
  | error failure =>
      rw [addLayer]
      cases hof : failure.isOfFile with
      | true => exact iff_of_true ⟨_, rfl⟩ (by simp [hof])
      | false => exact iff_of_false (by simp) (by simp [hof])

theorem exists_checkLayer_iff :
    (∃ y, (x.checkLayer t manifest).2 = .ok y) ↔
      ∀ path, layerPath? x.module manifest = some path → IsSettled t path := by
  unfold checkLayer layerPath?
  cases manifest.layerFile with
  | none => exact iff_of_true ⟨_, rfl⟩ (by simp)
  | some name =>
      cases name with
      | nil => exact iff_of_true ⟨_, rfl⟩ (by simp)
      | cons c rest =>
          simp only [Option.some.injEq, forall_eq']
          generalize ((Path.ofText x.module.sourceRoot).join
            (Path.ofText (c :: rest))).toText = path
          unfold IsSettled
          cases hfile : t.isFile path with
          | error failure => simp
          | ok isFile =>
              cases isFile with
              | false => exact ⟨fun _ => .inl rfl, fun _ => ⟨_, rfl⟩⟩
              | true => simpa using exists_addLayer_iff

theorem exists_checkPlatform_iff :
    (∃ y, (x.checkPlatform s t).2 = .ok y) ↔ LayerSettled t x.module := by
  obtain ⟨hmanifest, hplatform⟩ := marks_readManifest t x
  unfold checkPlatform LayerSettled
  rw [hplatform]
  split
  · next z hread =>
      rw [hread]
      exact iff_of_true ⟨_, rfl⟩ (by simp)
  · next z manifest hread =>
      rw [hread] at hmanifest ⊢
      rw [Option.filter_some]
      split
      · have hmodule : (z.checkCatalog s manifest).module = x.module := by
          rw [← hmanifest.module]
          unfold checkCatalog
          split
          · rfl
          · split <;> rfl
        rw [exists_checkLayer_iff, hmodule, Option.bind_some]
      · exact iff_of_true ⟨_, rfl⟩ (by simp)

/-! ### The forms -/

/-- It can be told of each source of a package that can be read whether it has a form. -/
def FormsSettled (s : Settings) (t : Tree) (p : Package) : Prop :=
  ∀ f ∈ p.sources, (f.2.read? s t).isSome → ∃ form, f.2.hasForm s t = .ok form

theorem formsKnown_counted_iff {n : Text → Nat} :
    Package.FormsKnown s t (counted s t n p).orderedSources ↔ FormsSettled s t p := by
  have hsources : (counted s t n p).sources =
      ((p.orderedSources.filterMap fun x => (x.2.read? s t).map (x.1, ·)).map fun x =>
        (x.1, x.2.lookUp (p.read s t).1.lookupCatalogs)) := by
    rw [counted, Package.read_fst]
    rfl
  unfold Package.FormsKnown FormsSettled
  simp only [Package.orderedSources, List.mem_mergeSort, hsources, List.mem_map,
    List.mem_filterMap]
  constructor
  · intro h f hf hread
    obtain ⟨g, hg⟩ := Option.isSome_iff_exists.1 hread
    obtain ⟨form, hform⟩ := h _ ⟨_, ⟨f, hf, Option.map_eq_some_iff.2 ⟨g, hg, rfl⟩⟩, rfl⟩
    refine ⟨form, ?_⟩
    have hpath := SourceFile.path_of_read?_eq_some hg
    rw [SourceFile.hasForm, ← hpath]
    exact hform
  · rintro h _ ⟨_, ⟨f, hf, hread⟩, rfl⟩
    obtain ⟨g, hg, rfl⟩ := Option.map_eq_some_iff.1 hread
    obtain ⟨form, hform⟩ := h f hf (Option.isSome_of_eq_some hg)
    refine ⟨form, ?_⟩
    have hpath := SourceFile.path_of_read?_eq_some hg
    rw [SourceFile.hasForm, SourceFile.path_lookUp, hpath]
    exact hform

theorem exists_reportPackages_iff {r : Report} {ps : List Package} :
    (∃ r', reportPackages s t r ps = .ok r') ↔
      ∀ p ∈ ps, Package.FormsKnown s t p.orderedSources := by
  induction ps generalizing r with
  | nil => exact iff_of_true ⟨r, rfl⟩ (by simp)
  | cons p rest ih =>
      have hp := Package.report_snd_eq_none s t p r
      rw [reportPackages, List.forall_mem_cons, ← hp]
      split
      · next r₁ hreport =>
          rw [hreport, ih]
          exact ⟨fun h => ⟨rfl, h⟩, fun h => h.2⟩
      · next failure hreport =>
          rw [hreport]
          exact iff_of_false (by simp) (by simp)

/-! ### The scan -/

/-- The packages after the platform was looked at are those of the files, counted. -/
theorem packages_of_checkPlatform (h : start m = .ok x) {z : ModuleScan}
    (hz : ((x.readPackages s t).1.checkPlatform s t).2 = .ok z) :
    z.packages = x.packages.map fun p => counted s t (platformUses s t m p.name) p := by
  obtain ⟨hmodule, hpackages, -, -⟩ := readPackages_fst (s := s) (t := t) h
  have hmarks := marks_checkPlatform (nodup_names_readPackages h s t) hz
  rw [hmarks.packages, hmodule, hpackages, List.map_map]
  refine List.map_congr_left fun p _ => ?_
  rw [Function.comp_apply, name_counted, counted, Package.addUses_zero, counted]

/-- **What ends a scan:** a layer of which it cannot be told whether it is there, whose character
set is not known, or that is nested too deep, and a source of which it cannot be told whether it
has a form. -/
theorem exists_ofFiles_iff (h : start m = .ok x) :
    (∃ y, (ofFiles s t m).2 = .ok y) ↔
      LayerSettled t m ∧ ∀ p ∈ x.packages, FormsSettled s t p := by
  have hlayer := exists_checkPlatform_iff (s := s) (t := t) (x := (x.readPackages s t).1)
  rw [(readPackages_fst h).1] at hlayer
  have hforms : ∀ {z : ModuleScan}, ((x.readPackages s t).1.checkPlatform s t).2 = .ok z →
      ((∃ report, reportPackages s t z.report z.packages = .ok report) ↔
        ∀ p ∈ x.packages, FormsSettled s t p) := by
    intro z hz
    rw [exists_reportPackages_iff, packages_of_checkPlatform h hz, List.forall_mem_map]
    exact forall₂_congr fun p _ => formsKnown_counted_iff
  constructor
  · intro h'
    obtain ⟨y, hy⟩ := h'
    obtain ⟨x', z, report, hstart, hplatform, hreport, -⟩ := ofFiles_cases hy
    obtain rfl : x = x' := Except.ok.inj (h.symm.trans hstart)
    exact ⟨hlayer.1 ⟨_, hplatform⟩, (hforms hplatform).1 ⟨report, hreport⟩⟩
  · intro h'
    obtain ⟨hsettled, hknown⟩ := h'
    obtain ⟨z, hplatform⟩ := hlayer.2 hsettled
    obtain ⟨report, hreport⟩ := (hforms hplatform).2 hknown
    refine ⟨{ z with report }, ?_⟩
    rw [ofFiles, h]
    exact Failure.bind_eq_ok_iff.2 ⟨z, hplatform, Failure.map_eq_ok_iff.2 ⟨report, hreport, rfl⟩⟩

end BundleAudit.ModuleScan
