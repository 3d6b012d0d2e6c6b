import BundleAudit.Proofs.Files.Content
import BundleAudit.Proofs.Module.Outcome
import BundleAudit.Proofs.Module.Report

/-!
# BundleAudit.Proofs.Module.Layer

**What the layer of a module decides in its scan.** Everything else is read and looked up
before (`beforeLayer`), and only the reports on the packages come after; so a scan can
be compared with the one that would find some references in the layer
(`withReferences`). A layer that is not read adds no references and at most one
finding, unless its failure ends the scan (`brokenLayer_cases`).
-/

namespace BundleAudit

namespace Layer

/-- What the fault of a layer is for a scan; that a layer is malformed is no failure. -/
def failure? : Xml.Fault → Option Failure
  | .malformed => none
  | .unknownCharset name => some (.unknownCharset name)
  | .notACharset name => some (.notACharset name)
  | .multiByteCharset => some .multiByteCharset

/-- A layer that is no document has no references, or reading it fails. -/
theorem ofBytes_cases (depth : Nat) (source : Text) {bytes : Bytes} {fault : Xml.Fault}
    (h : Xml.Element.ofBytes bytes = .error fault) :
    (failure? fault = none ∧ (ofBytes depth source bytes).2 = .ok []) ∨
      ∃ failure, failure? fault = some failure ∧
        ofBytes depth source bytes = ([], .error failure) := by
  rw [ofBytes, h]
  cases fault with
  | malformed => exact .inl ⟨rfl, rfl⟩
  | unknownCharset name => exact .inr ⟨_, rfl, rfl⟩
  | notACharset name => exact .inr ⟨_, rfl, rfl⟩
  | multiByteCharset => exact .inr ⟨_, rfl, rfl⟩

end Layer

theorem Tree.readLayer_eq {t : Tree} {path : Text} {bytes : Bytes} (h : t.read path = .ok bytes) :
    t.readLayer path = Layer.ofBytes t.depths.elements path bytes := by
  rw [readLayer, h]

/-- One report holds what another one does, and perhaps one more finding, about a file that cannot
be read. -/
structure Report.KeepsAll (path : Text) (r r' : Report) : Prop where
  name : r'.name = r.name
  files : r'.files = r.files
  findings : ∃ before more after, r.findings = before ++ after ∧
    r'.findings = before ++ more ++ after ∧ more.length ≤ 1 ∧
    ∀ x ∈ more, x.kind = .unreadableFile ∧ x.file = path

theorem Report.KeepsAll.refl (path : Text) (r : Report) : r.KeepsAll path r :=
  ⟨rfl, rfl, [], [], r.findings, rfl, rfl, Nat.zero_le 1, by simp⟩

namespace ModuleScan

variable {s : Settings} {t : Tree} {m m' : RepositoryModule} {x : ModuleScan} {path : Text}

/-! ### Up to the layer -/

/-- A module with its files: those that it has, or else those that are collected. -/
def withFiles (s : Settings) (t : Tree) (m : RepositoryModule) : Except Failure RepositoryModule :=
  if m.files.isEmpty then (m.collectFiles s t).map Prod.fst else .ok m

theorem ofModule_snd (s : Settings) (t : Tree) (m : RepositoryModule) :
    (ofModule s t m).2 = (withFiles s t m).bind fun m => (ofFiles s t m).2 := by
  unfold ofModule withFiles
  split
  · cases m.collectFiles s t <;> rfl
  · rfl

/-- Files are all that a module gets. -/
theorem withFiles_eq_ok (h : withFiles s t m = .ok m') : ∃ files, m' = { m with files } := by
  unfold withFiles at h
  split at h
  · obtain ⟨⟨m', log⟩, hcollect, rfl⟩ := Failure.map_eq_ok_iff.1 h
    obtain ⟨⟨files, more⟩, -, h⟩ := Failure.bind_eq_ok_iff.1 hcollect
    exact ⟨files, (congrArg Prod.fst (Except.ok.inj h)).symm⟩
  · exact ⟨m.files, (Except.ok.inj h).symm⟩

/-- Looks up what the manifest of a platform module says about its catalog. -/
def checkManifest (s : Settings) (t : Tree) (x : ModuleScan) : ModuleScan :=
  match x.readManifest t with
  | (x, none) => x
  | (x, some manifest) => if manifest.isPlatformModule then x.checkCatalog s manifest else x

/-- A module when its layer is about to be read. -/
def beforeLayer (s : Settings) (t : Tree) (m : RepositoryModule) : Except Failure ModuleScan :=
  (withFiles s t m).bind fun m => (start m).map fun x => (x.readPackages s t).1.checkManifest s t

/-- The scan that finds some references in the layer at a path. -/
def withReferences (path : Text) (references : List LayerReference) (s : Settings) (t : Tree)
    (m : RepositoryModule) : Except Failure ModuleScan :=
  (beforeLayer s t m).bind fun x => (references.foldl (checkReference path) x).finish s t

theorem module_readManifest (t : Tree) (x : ModuleScan) : (x.readManifest t).1.module = x.module :=
  (marks_readManifest t x).1.module

theorem module_checkCatalog (s : Settings) (manifest : Manifest) (x : ModuleScan) :
    (x.checkCatalog s manifest).module = x.module := by
  unfold checkCatalog
  split
  · rfl
  · split <;> rfl

/-- A layer that is a file is looked up as it was read. -/
theorem checkLayer_eq_addLayer {manifest : Manifest}
    (hlayer : layerPath? x.module manifest = some path)
    (hfile : t.isFile path = .ok true) :
    (x.checkLayer t manifest).2 = x.addLayer path (t.readLayer path).2 := by
  obtain ⟨c, rest, hname, rfl⟩ := exists_of_layerPath? hlayer
  rw [checkLayer, hname]
  simp only [hfile]

/-- The layer of a platform module is looked up after all that the manifest says. -/
theorem checkPlatform_eq_addLayer
    (hlayer : (platformManifest? t x.module).bind (layerPath? x.module) = some path)
    (hfile : t.isFile path = .ok true) :
    (x.checkPlatform s t).2 = (x.checkManifest s t).addLayer path (t.readLayer path).2 := by
  have hmodule := module_readManifest t x
  rw [(marks_readManifest t x).2] at hlayer
  unfold checkPlatform checkManifest
  cases hread : x.readManifest t with
  | mk z manifest? =>
      rw [hread] at hlayer hmodule
      cases manifest? with
      | none => cases hlayer
      | some manifest =>
          rw [Option.filter_some] at hlayer
          dsimp only
          cases hplatform : manifest.isPlatformModule with
          | false =>
              rw [hplatform] at hlayer
              cases hlayer
          | true =>
              rw [hplatform, if_pos rfl, Option.bind_some, ← hmodule,
                ← module_checkCatalog s manifest] at hlayer
              exact checkLayer_eq_addLayer hlayer hfile

/-- **A scan looks the layer up after everything else,** and then reports. -/
theorem ofModule_eq_addLayer
    (hlayer : (platformManifest? t m).bind (layerPath? m) = some path)
    (hfile : t.isFile path = .ok true) :
    (ofModule s t m).2 = (beforeLayer s t m).bind fun x =>
      (x.addLayer path (t.readLayer path).2).bind (finish s t) := by
  rw [ofModule_snd, beforeLayer]
  cases hfiles : withFiles s t m with
  | error failure => rfl
  | ok m' =>
      obtain ⟨files, rfl⟩ := withFiles_eq_ok hfiles
      show (ofFiles s t { m with files }).2 = ((start { m with files }).map _).bind _
      cases hstart : start { m with files } with
      | error failure =>
          rw [ofFiles, hstart]
          rfl
      | ok x =>
          have hpath : (platformManifest? t (x.readPackages s t).1.module).bind
              (layerPath? (x.readPackages s t).1.module) = some path := by
            rw [(readPackages_fst hstart).1]
            exact hlayer
          have hplatform := checkPlatform_eq_addLayer (s := s) hpath hfile
          show _ = (((x.readPackages s t).1.checkManifest s t).addLayer path _).bind _
          rw [ofFiles, hstart, ← hplatform]

/-! ### Broken layers -/

/-- How the last step ends, and what it adds to a report, does not depend on the report. -/
theorem finish_cases (s : Settings) (t : Tree) (x : ModuleScan) :
    (∃ failure, ∀ r, finish s t { x with report := r } = .error failure) ∨
      ∃ fs ks, ∀ r, finish s t { x with report := r } =
        .ok { x with report := r.extend fs ks } := by
  rcases reportPackages_cases s t x.packages with ⟨failure, h⟩ | h
  · exact .inl ⟨failure, fun r => congrArg (Except.map _) (h r)⟩
  · refine .inr ⟨x.packages.flatMap (·.findings s t), x.packages.flatMap (·.files), fun r => ?_⟩
    rw [finish, h]
    rfl

/-- **What becomes of a broken layer.** Either the scan is the one without references, or just one
finding about the layer is added to its report, or reading it is a failure that ends the scan. -/
theorem brokenLayer_cases {bytes : Bytes} {fault : Xml.Fault}
    (hlayer : (platformManifest? t m).bind (layerPath? m) = some path)
    (hread : t.read path = .ok bytes) (hfault : Xml.Element.ofBytes bytes = .error fault) :
    (Layer.failure? fault = none ∧ (ofModule s t m).2 = withReferences path [] s t m) ∨
    ∃ failure, Layer.failure? fault = some failure ∧
      (ofModule s t m).2 = (beforeLayer s t m).bind fun x =>
        if failure.isOfFile then (x.addFinding (Package.unreadable path "layer" failure)).finish s t
        else .error failure := by
  rw [ofModule_eq_addLayer hlayer (Tree.isFile_of_read hread), Tree.readLayer_eq hread]
  rcases Layer.ofBytes_cases t.depths.elements path hfault with
    ⟨hnone, hbytes⟩ | ⟨failure, hsome, hbytes⟩
  · refine .inl ⟨hnone, ?_⟩
    rw [hbytes]
    rfl
  · refine .inr ⟨failure, hsome, ?_⟩
    rw [hbytes]
    congr 1
    funext x
    unfold addLayer
    dsimp only
    cases failure.isOfFile <;> rfl

end ModuleScan

end BundleAudit
