import BundleAudit.Proofs.Module.Start
import BundleAudit.Proofs.Package.Reporting
import Mathlib.Data.List.Nodup

/-!
# BundleAudit.Proofs.Module.Marking

**What the manifest and the layer mark as used.** Each step of `checkPlatform` adds
uses to entries of primary catalogs and findings of other kinds than that of unused
entries (`Marks`). One reference of a layer marks one key of one package; by induction
a whole layer marks as many as it has references (`marks_references`).
-/

namespace BundleAudit

namespace ModuleScan

/-! ### Marking -/

/-- `y` is `x` with more uses of entries of primary catalogs, as many as `n` says for the name of
the package and the key, and with more findings, but none about unused entries. -/
structure Marks (n : Text → Text → Nat) (x y : ModuleScan) : Prop where
  module : y.module = x.module
  packages : y.packages = x.packages.map fun p => p.addUses (n p.name)
  unused : y.report.ofKind .possiblyUnusedEntry = x.report.ofKind .possiblyUnusedEntry
  name : y.report.name = x.report.name

variable {n m : Text → Text → Nat} {x y z : ModuleScan}

theorem Marks.refl (x : ModuleScan) : Marks (fun _ _ => 0) x x := ⟨rfl, by simp, rfl, rfl⟩

theorem Marks.trans (hxy : Marks n x y) (hyz : Marks m y z) :
    Marks (fun package key => n package key + m package key) x z := by
  refine ⟨hyz.module.trans hxy.module, ?_, hyz.unused.trans hxy.unused, hyz.name.trans hxy.name⟩
  rw [hyz.packages, hxy.packages, List.map_map]
  refine List.map_congr_left fun p _ => ?_
  rw [Function.comp_apply, Package.name_addUses, Package.addUses_addUses]

/-- Only the numbers for keys that are there matter. -/
theorem Marks.congr (h : Marks n x y)
    (hnm : ∀ p ∈ x.packages, ∀ key, p.hasPrimaryKey key = true → n p.name key = m p.name key) :
    Marks m x y := by
  refine ⟨h.module, ?_, h.unused, h.name⟩
  rw [h.packages]
  exact List.map_congr_left fun p hp => Package.addUses_congr (hnm p hp)

theorem Marks.names (h : Marks n x y) : y.packages.map (·.name) = x.packages.map (·.name) := by
  rw [h.packages, List.map_map]
  rfl

theorem marks_addAll {fs : List Finding} (h : ∀ f ∈ fs, f.kind ≠ .possiblyUnusedEntry)
    (x : ModuleScan) : Marks (fun _ _ => 0) x { x with report := x.report.addAll fs } := by
  refine ⟨rfl, by simp, ?_, rfl⟩
  have hnone : fs.filter (·.kind = .possiblyUnusedEntry) = [] :=
    List.filter_eq_nil_iff.2 fun f hf => by simpa using h f hf
  simp only [Report.ofKind, Report.addAll, List.filter_append, hnone, List.append_nil]

theorem marks_addFinding {f : Finding} (h : f.kind ≠ .possiblyUnusedEntry) (x : ModuleScan) :
    Marks (fun _ _ => 0) x (x.addFinding f) :=
  marks_addAll (fun _ hg => List.mem_singleton.1 hg ▸ h) x

theorem marks_updatePackage (name : Text) (k : Text → Nat) (x : ModuleScan) :
    Marks (fun package key => if package = name then k key else 0) x
      (x.updatePackage name (·.addUses k)) := by
  refine ⟨rfl, List.map_congr_left fun p _ => ?_, rfl, rfl⟩
  by_cases h : p.name = name
  · simp only [if_pos h]
  · simp only [if_neg h, Package.addUses_zero]

/-! ### Packages of a name -/

theorem package?_eq_none_iff {name : Text} :
    x.package? name = none ↔ ∀ p ∈ x.packages, p.name ≠ name := by
  simp [package?]

/-- Where names are distinct, there is one package of a name. -/
theorem package?_eq_some {name : Text} {p : Package} (h : x.package? name = some p) :
    p ∈ x.packages ∧ p.name = name :=
  ⟨List.mem_of_find?_eq_some h, by simpa using List.find?_some h⟩

theorem eq_of_package?_eq_some (hx : (x.packages.map (·.name)).Nodup) {name : Text} {p q : Package}
    (h : x.package? name = some p) (hq : q ∈ x.packages) (hname : q.name = name) : q = p := by
  obtain ⟨hp, hpname⟩ := package?_eq_some h
  exact List.inj_on_of_nodup_map hx hq hp (hname.trans hpname.symm)

theorem primary_eq_none (hx : (x.packages.map (·.name)).Nodup) {name : Text} {p : Package}
    (h : (x.package? name).bind (·.primary) = none) (hp : p ∈ x.packages) (hname : p.name = name) :
    p.primary = none := by
  cases hpackage : x.package? name with
  | none => exact absurd hname (package?_eq_none_iff.1 hpackage p hp)
  | some q =>
      rw [hpackage, ← eq_of_package?_eq_some hx hpackage hp hname] at h
      exact h

/-! ### The manifest -/

/-- How often a manifest marks a key of a package: as often as it stands among the mandatory and the
optional keys, if the package is that of the catalog of the module. -/
def manifestUses (s : Settings) (manifest : Manifest) (package key : Text) : Nat :=
  if manifest.catalogPackage = some package then
    s.mandatoryModuleKeys.count key + s.optionalModuleKeys.count key
  else 0

theorem kind_of_mem_missingKeys {s : Settings} {c : Catalog} {f : Finding}
    (h : f ∈ missingKeys s c) : f.kind = .manifestCatalog := by
  obtain ⟨key, -, rfl⟩ := List.mem_map.1 h
  rfl

theorem marks_checkCatalog (s : Settings) (manifest : Manifest)
    (hx : (x.packages.map (·.name)).Nodup) :
    Marks (manifestUses s manifest) x (x.checkCatalog s manifest) := by
  unfold checkCatalog
  split
  · next hcatalog =>
      refine (Marks.refl x).congr fun p _ key _ => ?_
      rw [manifestUses, hcatalog, if_neg (Option.some_ne_none _).symm]
  · next name hcatalog =>
      split
      · next hnone =>
          refine (marks_addFinding (by simp [missingCatalog]) x).congr fun p hp key hkey => ?_
          rw [manifestUses, hcatalog, if_neg]
          -- a package of that name would have no primary catalog, and so no key
          intro hname
          have hprimary := primary_eq_none hx hnone hp (Option.some.inj hname).symm
          rw [Package.hasPrimaryKey, hprimary] at hkey
          cases hkey
      · next c _ =>
          -- first the findings about missing keys are added, and then the uses of both lists
          have hfindings : Marks (fun _ _ => 0) x
              { x with report := x.report.addAll (missingKeys s c) } := by
            refine marks_addAll (fun f hf => ?_) x
            rw [kind_of_mem_missingKeys hf]
            decide
          have hupdate := marks_updatePackage name
            (s.mandatoryModuleKeys ++ s.optionalModuleKeys).count
            { x with report := x.report.addAll (missingKeys s c) }
          have hcount : (fun p : Package => { p with
                primary := p.primary.map
                  (·.countUses (s.mandatoryModuleKeys ++ s.optionalModuleKeys)) }) =
              (·.addUses (s.mandatoryModuleKeys ++ s.optionalModuleKeys).count) := by
            funext p
            simp only [Catalog.countUses_eq, Package.addUses]
          rw [← hcount] at hupdate
          refine (hfindings.trans hupdate).congr fun p _ key _ => ?_
          rw [manifestUses, hcatalog, Nat.zero_add, List.count_append]
          by_cases hname : p.name = name
          · rw [if_pos hname, if_pos (congrArg some hname.symm)]
          · rw [if_neg hname, if_neg fun h => hname (Option.some.inj h).symm]

/-! ### The layer -/

/-- How many references there are to a key of a package. -/
def referenceUses (rs : List LayerReference) (package key : Text) : Nat :=
  rs.countP fun r => r.package = package ∧ r.key = key

/-- A reference marks the key that it names, if the key is there. -/
theorem marks_checkReference (path : Text) (r : LayerReference)
    (hx : (x.packages.map (·.name)).Nodup) :
    Marks (referenceUses [r]) x (checkReference path x r) := by
  have hsingle : ∀ package key, referenceUses [r] package key =
      if r.package = package ∧ r.key = key then 1 else 0 := by
    intro package key
    by_cases h : r.package = package ∧ r.key = key
    · simp [referenceUses, h]
    · simp [referenceUses, h]
  unfold checkReference
  split
  · next hnone =>
      refine (Marks.refl x).congr fun p hp key _ => ?_
      rw [hsingle, if_neg fun h => package?_eq_none_iff.1 hnone p hp h.1.symm]
  · next p hpackage =>
      split
      · next hkey =>
          have hcount : (fun p : Package => p.countUse r.key) =
              (·.addUses fun key => if key = r.key then 1 else 0) :=
            funext (Package.countUse_eq r.key)
          have hupdate := marks_updatePackage r.package (fun key => if key = r.key then 1 else 0) x
          rw [← hcount] at hupdate
          refine hupdate.congr fun q _ key _ => ?_
          rw [hsingle]
          by_cases hname : q.name = r.package
          · simp [hname, eq_comm]
          · simp [hname, Ne.symm hname]
      · next hkey =>
          refine (marks_addFinding (by simp [missingReference]) x).congr fun q hq key hqkey => ?_
          rw [hsingle, if_neg]
          -- the one package of that name does not have the key
          rintro ⟨hname, rfl⟩
          rw [eq_of_package?_eq_some hx hpackage hq hname.symm] at hqkey
          exact hkey hqkey

/-- References mark keys one after the other. -/
theorem marks_references (path : Text) (rs : List LayerReference)
    (hx : (x.packages.map (·.name)).Nodup) :
    Marks (referenceUses rs) x (rs.foldl (checkReference path) x) := by
  induction rs generalizing x with
  | nil => exact Marks.refl x
  | cons r rest ih =>
      -- marking keeps the names, so they are distinct for the references that follow
      have hstep := marks_checkReference path r hx
      have hrun := ih (hstep.names ▸ hx)
      refine (hstep.trans hrun).congr fun p _ key _ => ?_
      unfold referenceUses
      rw [← List.countP_append]
      rfl

/-- The references of the layer that a manifest names; none if there is no such layer or it cannot
be read. -/
def layerReferences (t : Tree) (m : RepositoryModule) (manifest : Manifest) :
    List LayerReference :=
  match manifest.layerFile with
  | none => []
  | some [] => []
  | some name =>
    let path := ((Path.ofText m.sourceRoot).join (Path.ofText name)).toText
    match t.isFile path, (t.readLayer path).2 with
    | .ok true, .ok references => references
    | _, _ => []

/-- What was read of a layer marks what its references name; if it was not read, it marks nothing.
-/
theorem marks_addLayer {path : Text} {layer : Except Failure (List LayerReference)}
    (hx : (x.packages.map (·.name)).Nodup) (h : x.addLayer path layer = .ok y) :
    Marks (referenceUses (layer.toOption.getD [])) x y := by
  cases layer with
  | ok references =>
      cases h
      exact marks_references path references hx
  | error failure =>
      simp only [addLayer] at h
      split at h
      · cases h
        exact marks_addFinding (by simp [Package.unreadable]) x
      · cases h

theorem marks_checkLayer {t : Tree} {manifest : Manifest}
    (hx : (x.packages.map (·.name)).Nodup) (h : (x.checkLayer t manifest).2 = .ok y) :
    Marks (referenceUses (layerReferences t x.module manifest)) x y := by
  unfold checkLayer at h
  unfold layerReferences
  cases hfile : manifest.layerFile with
  | none =>
      rw [hfile] at h
      cases h
      exact Marks.refl x
  | some name =>
      cases name with
      | nil =>
          rw [hfile] at h
          cases h
          exact Marks.refl x
      | cons c rest =>
          simp only [hfile] at h ⊢
          -- what stands at the path decides both sides in the same way
          generalize ((Path.ofText x.module.sourceRoot).join (Path.ofText (c :: rest))).toText =
            path at h ⊢
          cases hisFile : t.isFile path with
          | error failure =>
              rw [hisFile] at h
              cases h
          | ok isFile =>
              cases isFile with
              | false =>
                  rw [hisFile] at h
                  cases h
                  exact marks_addFinding (by simp [missingLayer]) x
              | true =>
                  rw [hisFile] at h
                  have hmarks := marks_addLayer hx h
                  cases hread : (t.readLayer path).2 with
                  | error failure =>
                      rw [hread] at hmarks
                      exact hmarks
                  | ok references =>
                      rw [hread] at hmarks
                      exact hmarks

/-! ### The platform -/

/-- The manifest of a platform module, if there is one that can be read. -/
def platformManifest? (t : Tree) (m : RepositoryModule) : Option Manifest :=
  match m.manifest with
  | none => none
  | some [] => none
  | some path => (t.readManifest path).toOption.filter (·.isPlatformModule)

theorem marks_readManifest (t : Tree) (x : ModuleScan) :
    Marks (fun _ _ => 0) x (x.readManifest t).1 ∧
      platformManifest? t x.module = (x.readManifest t).2.filter (·.isPlatformModule) := by
  unfold readManifest platformManifest?
  cases x.module.manifest with
  | none => exact ⟨Marks.refl x, rfl⟩
  | some path =>
      cases path with
      | nil => exact ⟨Marks.refl x, rfl⟩
      | cons c rest =>
          cases hread : t.readManifest (c :: rest) with
          | error failure =>
              simp only [hread]
              exact ⟨marks_addFinding (fun h => by cases h) x, rfl⟩
          | ok manifest =>
              simp only [hread]
              exact ⟨Marks.refl x, rfl⟩

/-- How often the manifest and the layer of a platform module mark a key of a package. -/
def platformUses (s : Settings) (t : Tree) (m : RepositoryModule) (package key : Text) : Nat :=
  match platformManifest? t m with
  | none => 0
  | some manifest =>
    manifestUses s manifest package key + referenceUses (layerReferences t m manifest) package key

theorem marks_checkPlatform {s : Settings} {t : Tree}
    (hx : (x.packages.map (·.name)).Nodup) (h : (x.checkPlatform s t).2 = .ok y) :
    Marks (platformUses s t x.module) x y := by
  obtain ⟨hmanifest, hplatform⟩ := marks_readManifest t x
  unfold checkPlatform at h
  unfold platformUses
  split at h
  · next z hread =>
      cases h
      rw [hread] at hmanifest hplatform
      rw [hplatform]
      exact hmanifest
  · next z manifest hread =>
      rw [hread] at hmanifest hplatform
      split at h
      · next hisPlatform =>
          have hcatalog := marks_checkCatalog s manifest (hmanifest.names ▸ hx)
          have hlayer := marks_checkLayer (hcatalog.names ▸ hmanifest.names ▸ hx) h
          rw [hcatalog.module, hmanifest.module] at hlayer
          have hsome : platformManifest? t x.module = some manifest := by
            rw [hplatform, Option.filter_some, if_pos hisPlatform]
          rw [hsome]
          -- reading the manifest marks nothing, so the sum has two parts
          refine (hmanifest.trans (hcatalog.trans hlayer)).congr fun p _ key _ => ?_
          exact Nat.zero_add _
      · next hisPlatform =>
          cases h
          rw [hplatform, Option.filter_some, if_neg hisPlatform]
          exact hmanifest

end ModuleScan

end BundleAudit
