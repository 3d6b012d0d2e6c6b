import BundleAudit.Proofs.Module.Layer
import BundleAudit.Proofs.Scan.Completion
import BundleAudit.Proofs.Xml.Charset

/-!
# BundleAudit.Proofs.Scan.Layer

**A broken layer hides nothing else,** as long as its failure does not end the scan of its
module: the report on the module is the one that there would be if the layer held no
references, but for at most one finding about the layer (`keepsAll_brokenLayer`). A
declared character set that is not known ends the scan, and the report then holds
nothing of the module.
-/

namespace BundleAudit.Scan

variable {s : Settings} {t : Tree} {m : RepositoryModule} {x : ModuleScan} {path : Text}

/-- The report on a module of a run is the one on its own scan. -/
theorem get?_ofModules {modules : List RepositoryModule}
    (hdistinct : (modules.map (·.identity)).Nodup) (hm : m ∈ modules) :
    (ofModules s t modules).reports.get? m.identity =
      some (reportOn m ([], (ModuleScan.ofModule s t m).2)) := by
  have hscans : ReportsByIdentity (interrupted s t fun _ => none) := reportsByIdentity_interrupted
  exact get?_collect hscans hdistinct hm

/-- The reports that a scan gives with one more finding about a file that cannot be read. -/
theorem keepsAll_finish_addFinding (s : Settings) (t : Tree) (m : RepositoryModule) (x : ModuleScan)
    {f : Finding} (hkind : f.kind = .unreadableFile) (hfile : f.file = path) :
    (reportOn m ([], x.finish s t)).KeepsAll path
    (reportOn m ([], (x.addFinding f).finish s t)) := by
  rcases x.finish_cases s t with ⟨failure, h⟩ | ⟨fs, ks, h⟩
  · have hx : x.finish s t = .error failure := h x.report
    have hadded : (x.addFinding f).finish s t = .error failure := h (x.report.add f)
    rw [hx, hadded]
    exact .refl path _
  · have hx : x.finish s t = .ok { x with report := x.report.extend fs ks } := h x.report
    have hadded : (x.addFinding f).finish s t =
        .ok { x with report := (x.report.add f).extend fs ks } := h (x.report.add f)
    rw [hx, hadded]
    exact ⟨rfl, rfl, x.report.findings, [f], fs, rfl, rfl, Nat.le_refl 1, by simp [hkind, hfile]⟩

/-- **A broken layer hides nothing else, unless its character set is not known.** Of the reports of
a run, the one on a module whose layer is no document is the one without references, with perhaps
one finding about the layer; or the failure of the layer ends the scan of the module, and is all
that is reported of a module that could else be scanned. -/
theorem keepsAll_brokenLayer {modules : List RepositoryModule}
    (hdistinct : (modules.map (·.identity)).Nodup) (hm : m ∈ modules)
    (hlayer : (ModuleScan.platformManifest? t m).bind (ModuleScan.layerPath? m) = some path)
    {bytes : Bytes} {fault : Xml.Fault} (hread : t.read path = .ok bytes)
    (hfault : Xml.Element.ofBytes bytes = .error fault) :
    ∃ r, (ofModules s t modules).reports.get? m.identity = some r ∧
      ((∀ failure, Layer.failure? fault = some failure → failure.isOfFile = true) →
        (reportOn m ([], ModuleScan.withReferences path [] s t m)).KeepsAll path r) ∧
      ∀ failure, Layer.failure? fault = some failure → failure.isOfFile = false →
        (∃ y, ModuleScan.withReferences path [] s t m = .ok y) → r = failedReport m failure := by
  refine ⟨_, get?_ofModules hdistinct hm, ?_⟩
  rcases ModuleScan.brokenLayer_cases (s := s) hlayer hread hfault with
    ⟨hnone, hscan⟩ | ⟨failure, hsome, hscan⟩
  · rw [hscan, hnone]
    exact ⟨fun _ => .refl path _, by simp⟩
  · rw [hscan, hsome, ModuleScan.withReferences]
    cases ModuleScan.beforeLayer s t m with
    | error failure =>
        refine ⟨fun _ => .refl path _, ?_⟩
        rintro _ - - ⟨y, hy⟩
        cases hy
    | ok x =>
        constructor
        · intro hof
          show Report.KeepsAll path (reportOn m ([], x.finish s t)) (reportOn m ([], ite _ _ _))
          rw [if_pos (hof failure rfl)]
          exact keepsAll_finish_addFinding s t m x rfl rfl
        · intro _ heq hnot _
          obtain rfl := Option.some.inj heq
          show reportOn m ([], ite _ _ _) = _
          rw [if_neg (by rw [hnot]; exact Bool.false_ne_true)]
          rfl

/-! ### A layer that hides findings -/

/-- A tree with the files of a platform module: a manifest, a catalog and a layer. -/
def layerTree (layer : Text) : Tree :=
  { entries :=
      [([Text.ofString "manifest.mf"],
          .ofText "OpenIDE-Module: m\nOpenIDE-Module-Layer: layer.xml\n"),
        ([Text.ofString "src"], .directory),
        ([Text.ofString "src", Text.ofString "Bundle.properties"], .ofText "k=x\n"),
        ([Text.ofString "src", Text.ofString "layer.xml"], .ofText layer)] }

/-- This module. -/
def layerModule : RepositoryModule where
  identity := "m"
  root := "/"
  sourceRoot := "/src"
  manifest := some "/manifest.mf"
  files := [⟨[], "/src/Bundle.properties", .primaryCatalog⟩]

/-- A layer that declares a character set. -/
def layerIn (charset : Text) : Text :=
  "<?xml version='1.0' encoding='" ++ charset ++ "'?><a/>"

/-- Its bytes. -/
def bytesIn (charset : Text) : Bytes := (layerIn charset).flatMap Text.utf8Code

theorem fault_big5 : Xml.Element.ofBytes (bytesIn "big5") = .error .multiByteCharset := by
  have hname : Text.ofString "big5" = [98, 105, 103, 53] := by decide +kernel
  have hset : Xml.Charset.ofName? [98, 105, 103, 53] = some .multiByte := by
    refine Xml.Charset.ofName?_eq_multiByte (by decide) ?_ (by decide) ?_
    · unfold Xml.Charset.asciiNames Xml.Charset.latinNames Xml.Charset.holds
      simp only [List.forall_mem_cons, List.not_mem_nil, false_imp_iff, implies_true, and_true]
      and_intros
      all_goals
        repeat rewrite [Text.ofString_append]
        repeat rewrite [Text.ofString_ofList]
        decide +kernel
    · unfold Xml.Charset.multiByteNames Xml.Charset.holds
      repeat rewrite [Text.ofString_append]
      repeat rewrite [Text.ofString_ofList]
      decide +kernel
  rw [hname]
  exact Xml.ofBytes_of_multiByte ⟨by decide, by decide +kernel⟩ hset
    (.of_map (by decide +kernel) (by decide +kernel))

theorem fault_foo : Xml.Element.ofBytes (bytesIn "foo") = .error (.unknownCharset "foo") := by
  have hname : Text.ofString "foo" = [102, 111, 111] := by decide +kernel
  have hset : Xml.Charset.ofName? [102, 111, 111] = none := by
    refine Xml.Charset.ofName?_eq_none (by decide) (by decide) ?_ ?_
    · unfold Xml.Charset.asciiNames Xml.Charset.latinNames Xml.Charset.multiByteNames
        Xml.Charset.foreignNames Xml.Charset.holds
      simp only [List.forall_mem_cons, List.not_mem_nil, false_imp_iff, implies_true, and_true]
      and_intros
      all_goals
        repeat rewrite [Text.ofString_append]
        repeat rewrite [Text.ofString_ofList]
        decide +kernel
    · unfold Xml.Charset.tables Xml.Charset.holds
      simp only [List.forall_mem_cons, List.not_mem_nil, false_imp_iff, implies_true, and_true]
      and_intros
      all_goals
        repeat rewrite [Text.ofString_append]
        repeat rewrite [Text.ofString_ofList]
        decide +kernel
  have hconversion : Xml.Charset.isConversion [102, 111, 111] = false := by
    rw [Xml.Charset.isConversion, Xml.Charset.named_eq_holds (by decide) (by decide)]
    unfold Xml.Charset.conversionNames Xml.Charset.holds
    repeat rewrite [Text.ofString_append]
    repeat rewrite [Text.ofString_ofList]
    decide +kernel
  rw [hname]
  refine (Xml.ofBytes_of_unknown ⟨by decide, by decide +kernel⟩ hset
    (.of_map (by decide +kernel) (by decide +kernel))).trans ?_
  rw [Xml.restInCharset.unknown, hconversion]
  rfl

/-- Of a layer in a character set of several bytes all else is reported. -/
theorem keepsAll_brokenLayer_sample :
    ([layerModule].map (·.identity)).Nodup ∧
      (layerTree (layerIn "big5")).read "/src/layer.xml" = .ok (bytesIn "big5") ∧
      Xml.Element.ofBytes (bytesIn "big5") = .error .multiByteCharset ∧
      ∃ r r', reportOn layerModule ([], ModuleScan.withReferences "/src/layer.xml" [] .standard
          (layerTree (layerIn "big5")) layerModule) = r ∧
        (ofModules .standard (layerTree (layerIn "big5")) [layerModule]).reports.get?
          layerModule.identity = some r' ∧
        r = ⟨"m", [⟨.possiblyUnusedEntry, "/src/Bundle.properties", 1, "k"⟩], [.primaryCatalog]⟩ ∧
        r.KeepsAll "/src/layer.xml" r' := by
  have hdistinct : ([layerModule].map (·.identity)).Nodup := by decide
  have hread : (layerTree (layerIn "big5")).read "/src/layer.xml" = .ok (bytesIn "big5") :=
    Failure.eq_ok_of_toOption (by decide +kernel)
  obtain ⟨r, hget, hkeeps, -⟩ := keepsAll_brokenLayer (s := .standard) hdistinct
    List.mem_cons_self (by decide +kernel) hread fault_big5
  refine ⟨hdistinct, hread, fault_big5, _, r, rfl, hget, by decide +kernel, ?_⟩
  refine hkeeps fun failure hfailure => ?_
  cases hfailure
  rfl

/-- A layer that declares a character set that is not known hides what else is found in its module.
-/
theorem unknownCharset_hides_findings :
    (layerTree (layerIn "foo")).read "/src/layer.xml" = .ok (bytesIn "foo") ∧
      Xml.Element.ofBytes (bytesIn "foo") = .error (.unknownCharset "foo") ∧
      ∃ r r', reportOn layerModule ([], ModuleScan.withReferences "/src/layer.xml" [] .standard
          (layerTree (layerIn "foo")) layerModule) = r ∧
        (ofModules .standard (layerTree (layerIn "foo")) [layerModule]).reports.get?
          layerModule.identity = some r' ∧
        r = ⟨"m", [⟨.possiblyUnusedEntry, "/src/Bundle.properties", 1, "k"⟩], [.primaryCatalog]⟩ ∧
        r'.findings = [⟨.unreadableFile, "/", 1, "Module scan failed: unknown encoding: foo"⟩] ∧
        ¬r.KeepsAll "/src/layer.xml" r' := by
  have hread : (layerTree (layerIn "foo")).read "/src/layer.xml" = .ok (bytesIn "foo") :=
    Failure.eq_ok_of_toOption (by decide +kernel)
  have hlayer : (layerTree (layerIn "foo")).readLayer "/src/layer.xml" =
      ([], .error (.unknownCharset "foo")) := by
    rw [Tree.readLayer_eq hread, Layer.ofBytes, fault_foo]
    rfl
  have hscan : (ModuleScan.ofModule .standard (layerTree (layerIn "foo")) layerModule).2 =
      .error (.unknownCharset "foo") := by
    have hpath : (ModuleScan.platformManifest? (layerTree (layerIn "foo")) layerModule).bind
        (ModuleScan.layerPath? layerModule) = some "/src/layer.xml" := by decide +kernel
    rw [ModuleScan.ofModule_eq_addLayer hpath (Tree.isFile_of_read hread), hlayer]
    have hbefore : (ModuleScan.beforeLayer .standard (layerTree (layerIn "foo"))
        layerModule).toOption.isSome = true := by decide +kernel
    obtain ⟨x, hx⟩ := Option.isSome_iff_exists.1 hbefore
    rw [Failure.eq_ok_of_toOption hx]
    rfl
  have hreport : reportOn layerModule ([], ModuleScan.withReferences "/src/layer.xml" [] .standard
      (layerTree (layerIn "foo")) layerModule) =
        ⟨"m", [⟨.possiblyUnusedEntry, "/src/Bundle.properties", 1, "k"⟩], [.primaryCatalog]⟩ := by
    decide +kernel
  have hdistinct : ([layerModule].map (·.identity)).Nodup := by decide
  have hget := get?_ofModules (s := .standard) (t := layerTree (layerIn "foo")) hdistinct
    List.mem_cons_self
  rw [hscan] at hget
  refine ⟨hread, fault_foo, _, _, hreport, hget, rfl, by decide +kernel, fun hkeeps => ?_⟩
  cases hkeeps.files

end BundleAudit.Scan
