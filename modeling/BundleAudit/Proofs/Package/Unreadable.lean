import BundleAudit.Proofs.Package.Alike
import BundleAudit.Proofs.Package.Classification

/-!
# BundleAudit.Proofs.Package.Unreadable

**A file that cannot be read costs one finding and nothing else.** Such files are left
out before anything is looked up, so a package goes on as the one that is made without
them (`IsRest.read_eq`); what it reports begins with one finding for each of them
(`differsBy_check`).

A package that was made of files holds catalogs and sources that were not read yet
(`ofFiles_iff`), so any of its files make up a package again (`exists_isRest`).
-/

namespace BundleAudit

namespace Package

variable {s : Settings} {t : Tree} {p q : Package} {kind : FileKind} {path : Text}
  {paths : List Text} {cs : List Catalog} {xs : List (Text × SourceFile)}

/-! ### Packages and their files -/

/-- A catalog that was not read yet. -/
def newCatalog (kind : FileKind) (path : Text) : Catalog := { path, kind }

/-- A source that was not read yet, under its name. -/
def newSource (path : Text) : Text × SourceFile := ((Path.ofText path).name, { path })

/-- Nothing of a package was read yet, and no two of its sources have one name. -/
structure IsNew (p : Package) : Prop where
  primary : ∀ c ∈ p.primary, c = newCatalog .primaryCatalog c.path
  secondary : ∀ c ∈ p.secondary, c = newCatalog .secondaryCatalog c.path
  translated : ∀ c ∈ p.translated, c = newCatalog .translatedCatalog c.path
  sources : ∀ x ∈ p.sources, x = newSource x.2.path
  nodup : p.sources.keys.Nodup

theorem IsNew.add (hp : p.IsNew) (h : p.add kind path = .ok q) : q.IsNew := by
  rcases add_cases h with ⟨rfl, -, rfl⟩ | ⟨rfl, rfl⟩ | ⟨rfl, rfl⟩ | ⟨rfl, rfl⟩
  · refine { hp with primary := fun c hc => ?_ }
    rw [← Option.some.inj hc]
    rfl
  · refine { hp with secondary := fun c hc => ?_ }
    rcases List.mem_append.1 hc with hc | hc
    · exact hp.secondary c hc
    · rw [List.mem_singleton.1 hc]
      rfl
  · refine { hp with translated := fun c hc => ?_ }
    rcases List.mem_append.1 hc with hc | hc
    · exact hp.translated c hc
    · rw [List.mem_singleton.1 hc]
      rfl
  · refine { hp with sources := fun x hx => ?_, nodup := KeyedList.nodup_keys_set hp.nodup }
    rcases KeyedList.mem_of_mem_set hx with rfl | hx
    · rfl
    · exact hp.sources x hx

/-- Catalogs of a kind that a package takes at the end of those it has are added one after the
other. -/
theorem OfFiles.append (put : List Catalog → Package)
    (hadd : ∀ before path,
      (put before).add kind path = .ok (put (before ++ [newCatalog kind path])))
    {before : List Catalog} (hp : (put before).OfFiles) (h : ∀ c ∈ cs, c = newCatalog kind c.path) :
    (put (before ++ cs)).OfFiles := by
  induction cs generalizing before with
  | nil => rwa [List.append_nil]
  | cons c rest ih =>
      obtain ⟨hc, hrest⟩ := List.forall_mem_cons.1 h
      have hall := ih (hp.add kind c.path (hadd before c.path)) hrest
      rw [List.append_assoc, ← hc] at hall
      exact hall

theorem OfFiles.sources (hp : p.OfFiles) (h : ∀ x ∈ xs, x = newSource x.2.path)
    (hnodup : (p.sources.keys ++ xs.map Prod.fst).Nodup) :
    OfFiles { p with sources := p.sources ++ xs } := by
  induction xs generalizing p with
  | nil => rwa [List.append_nil]
  | cons x rest ih =>
      obtain ⟨hx, hrest⟩ := List.forall_mem_cons.1 h
      have hkey : x.1 ∉ p.sources.keys := fun hmem =>
        (List.nodup_append.1 hnodup).2.2 x.1 hmem x.1 List.mem_cons_self rfl
      have hset : p.sources.set (Path.ofText x.2.path).name { path := x.2.path } =
          p.sources ++ [x] := by
        have hname : (Path.ofText x.2.path).name = x.1 := (congrArg Prod.fst hx).symm
        rw [hname, KeyedList.set_of_not_mem hkey]
        exact congrArg (p.sources ++ [·]) (hx ▸ rfl)
      have hadd := hp.add .source x.2.path rfl
      rw [hset] at hadd
      have hall := ih hadd hrest (by
        rw [KeyedList.keys, List.map_append, List.append_assoc]
        exact hnodup)
      rwa [List.append_assoc] at hall

/-- **A package was made of files if nothing of it was read yet.** -/
theorem ofFiles_iff : p.OfFiles ↔ p.IsNew := by
  constructor
  · intro h
    induction h with
    | start name directory => constructor <;> simp [KeyedList.keys]
    | add kind path _ hadd ih => exact ih.add hadd
  · intro h
    have hstart : OfFiles { name := p.name, directory := p.directory, primary := p.primary } := by
      cases hprimary : p.primary with
      | none => exact .start _ _
      | some c =>
          rw [h.primary c hprimary]
          exact .add .primaryCatalog c.path (.start _ _) rfl
    have hsecondary := OfFiles.append
      (fun cs => { p with secondary := cs, translated := [], sources := [] }) (fun _ _ => rfl)
      hstart h.secondary
    have htranslated := OfFiles.append (fun cs => { p with translated := cs, sources := [] })
      (fun _ _ => rfl) hsecondary h.translated
    exact htranslated.sources h.sources h.nodup

theorem map_newCatalog (h : ∀ c ∈ cs, c = newCatalog kind c.path) :
    (cs.map (·.path)).map (newCatalog kind) = cs := by
  rw [List.map_map]
  exact (List.map_congr_left fun c hc => (h c hc).symm).trans (List.map_id cs)

/-! ### Files that cannot be read -/

/-- Why the file of a kind at a path cannot be read, if it cannot. -/
def readFailure? (s : Settings) (t : Tree) (kind : FileKind) (path : Text) : Option Failure :=
  match kind with
  | .source =>
    match (newSource path).2.read s t with
    | .ok _ => none
    | .error failure => some failure
  | kind =>
    match (newCatalog kind path).read s t with
    | .ok _ => none
    | .error failure => some failure

/-- Whether the file of a kind at a path can be read. -/
def isReadable (s : Settings) (t : Tree) (kind : FileKind) (path : Text) : Bool :=
  (readFailure? s t kind path).isNone

/-- The findings about those of the paths of a kind at which no file can be read, one for each. -/
def unreadableFiles (s : Settings) (t : Tree) (kind : FileKind) (paths : List Text) :
    List Finding :=
  paths.filterMap fun path => (readFailure? s t kind path).map
    (unreadable path (if kind = .source then "source" else "resource bundle"))

/-- The paths of the sources, in ascending order of their names. -/
def sourcePaths (p : Package) : List Text :=
  Text.sortBy (fun path => (Path.ofText path).name) (p.pathsOf .source)

/-- The findings about the files of a package that cannot be read: the primary catalog, the
secondary and the translated ones in their order, and the sources by their names. -/
def unreadableFindings (s : Settings) (t : Tree) (p : Package) : List Finding :=
  unreadableFiles s t .primaryCatalog (p.pathsOf .primaryCatalog) ++
    unreadableFiles s t .secondaryCatalog (p.pathsOf .secondaryCatalog) ++
    unreadableFiles s t .translatedCatalog (p.pathsOf .translatedCatalog) ++
    unreadableFiles s t .source p.sourcePaths

theorem readFailure?_of_ne_source (hkind : kind ≠ .source) (path : Text) :
    readFailure? s t kind path =
      match (newCatalog kind path).read s t with
      | .ok _ => none
      | .error failure => some failure := by
  cases kind with
  | source => exact absurd rfl hkind
  | primaryCatalog => rfl
  | secondaryCatalog => rfl
  | translatedCatalog => rfl

/-- Reading catalogs keeps those that can be read, and there is a finding about each of the others.
-/
theorem readCatalogs_map_newCatalog (kind : FileKind) (hkind : kind ≠ .source)
    (paths : List Text) :
    (readCatalogs s t (paths.map (newCatalog kind))).2.1 = unreadableFiles s t kind paths ∧
      readCatalogs s t ((paths.filter (isReadable s t kind)).map (newCatalog kind)) =
        ((readCatalogs s t (paths.map (newCatalog kind))).1, [],
          (readCatalogs s t (paths.map (newCatalog kind))).2.2) := by
  induction paths with
  | nil => exact ⟨rfl, rfl⟩
  | cons path rest ih =>
      obtain ⟨hfindings, hrest⟩ := ih
      have hfailure := readFailure?_of_ne_source (s := s) (t := t) hkind path
      rw [List.map_cons, readCatalogs, unreadableFiles, List.filterMap_cons, List.filter_cons,
        isReadable]
      cases hread : (newCatalog kind path).read s t with
      | error failure =>
          rw [hread] at hfailure
          rw [hfailure, if_neg hkind]
          exact ⟨congrArg (_ :: ·) (by rw [hfindings, unreadableFiles, if_neg hkind]), hrest⟩
      | ok r =>
          rw [hread] at hfailure
          rw [hfailure]
          refine ⟨hfindings, ?_⟩
          rw [Option.isNone_none, if_pos rfl, List.map_cons, readCatalogs, hrest, hread]

/-- Reading sources keeps those that can be read, and there is a finding about each of the others.
-/
theorem readSources_map_newSource (paths : List Text) :
    (readSources s t (paths.map newSource)).2 = unreadableFiles s t .source paths ∧
      readSources s t ((paths.filter (isReadable s t .source)).map newSource) =
        ((readSources s t (paths.map newSource)).1, []) := by
  induction paths with
  | nil => exact ⟨rfl, rfl⟩
  | cons path rest ih =>
      obtain ⟨hfindings, hrest⟩ := ih
      rw [List.map_cons, readSources, unreadableFiles, List.filterMap_cons, List.filter_cons,
        isReadable, readFailure?]
      cases hread : (newSource path).2.read s t with
      | error failure => exact ⟨congrArg (_ :: ·) hfindings, hrest⟩
      | ok r =>
          refine ⟨hfindings, ?_⟩
          rw [Option.isNone_none, if_pos rfl, List.map_cons, readSources, hrest, hread]

/-! ### The rest of a package -/

/-- A package is made of those files of another one that can be read. The catalogs were added in the
same order. -/
structure IsRest (s : Settings) (t : Tree) (p q : Package) : Prop where
  ofFiles : q.OfFiles
  name : q.name = p.name
  directory : q.directory = p.directory
  catalogs : ∀ kind, kind ≠ .source →
    q.pathsOf kind = (p.pathsOf kind).filter (isReadable s t kind)
  sources : (q.pathsOf .source).Perm ((p.pathsOf .source).filter (isReadable s t .source))

/-- The files that can be read make up a package. -/
theorem exists_isRest (hp : p.OfFiles) (s : Settings) (t : Tree) : ∃ q, IsRest s t p q := by
  have hnew := ofFiles_iff.1 hp
  refine ⟨{ p with
      primary := p.primary.filter fun c => isReadable s t .primaryCatalog c.path
      secondary := p.secondary.filter fun c => isReadable s t .secondaryCatalog c.path
      translated := p.translated.filter fun c => isReadable s t .translatedCatalog c.path
      sources := p.sources.filter fun x => isReadable s t .source x.2.path },
    ofFiles_iff.2 ⟨fun c hc => hnew.primary c (Option.mem_filter_iff.1 hc).1,
      fun c hc => hnew.secondary c (List.mem_filter.1 hc).1,
      fun c hc => hnew.translated c (List.mem_filter.1 hc).1,
      fun x hx => hnew.sources x (List.mem_filter.1 hx).1,
      hnew.nodup.sublist (List.filter_sublist.map _)⟩, rfl, rfl, fun kind hkind => ?_, ?_⟩
  · cases kind with
    | source => exact absurd rfl hkind
    | primaryCatalog =>
        simp only [pathsOf, List.filter_map]
        cases p.primary with
        | none => rfl
        | some c => cases h : isReadable s t .primaryCatalog c.path <;> simp [h, Option.filter]
    | secondaryCatalog =>
        simp only [pathsOf, List.filter_map]
        rfl
    | translatedCatalog =>
        simp only [pathsOf, List.filter_map]
        rfl
  · simp only [pathsOf, List.filter_map]
    exact List.Perm.refl _

theorem primary_eq (hp : p.IsNew) :
    p.primary.toList = (p.pathsOf .primaryCatalog).map (newCatalog .primaryCatalog) :=
  (map_newCatalog fun c hc => hp.primary c (Option.mem_toList.1 hc)).symm

theorem secondary_eq (hp : p.IsNew) :
    p.secondary = (p.pathsOf .secondaryCatalog).map (newCatalog .secondaryCatalog) :=
  (map_newCatalog hp.secondary).symm

theorem translated_eq (hp : p.IsNew) :
    p.translated = (p.pathsOf .translatedCatalog).map (newCatalog .translatedCatalog) :=
  (map_newCatalog hp.translated).symm

theorem sources_eq (hp : p.IsNew) : p.sources = (p.pathsOf .source).map newSource := by
  rw [pathsOf, List.map_map]
  exact ((List.map_congr_left fun x hx => (hp.sources x hx).symm).trans (List.map_id _)).symm

theorem orderedSources_eq (hp : p.IsNew) : p.orderedSources = p.sourcePaths.map newSource := by
  have hsorted := Text.sortBy_map Prod.fst newSource (p.pathsOf .source)
  rw [← sources_eq hp] at hsorted
  exact hsorted

theorem nodup_names_pathsOf (hp : p.IsNew) :
    ((p.pathsOf .source).map fun path => (Path.ofText path).name).Nodup := by
  have hnodup := hp.nodup
  rw [sources_eq hp, KeyedList.keys, List.map_map] at hnodup
  exact hnodup

theorem IsRest.sourcePaths (h : IsRest s t p q) (hp : p.IsNew) :
    q.sourcePaths = p.sourcePaths.filter (isReadable s t .source) := by
  rw [Package.sourcePaths, Package.sourcePaths, ← Text.sortBy_filter (nodup_names_pathsOf hp)]
  exact Text.sortBy_eq_of_perm h.sources (nodup_names_pathsOf (ofFiles_iff.1 h.ofFiles))

/-- **What is read of a package is what is read of the rest of it,** with a finding for each file
that cannot be read. -/
theorem IsRest.read_eq (h : IsRest s t p q) (hp : p.IsNew) :
    p.read s t = ((q.read s t).1, unreadableFindings s t p, (q.read s t).2.2) ∧
      (q.read s t).2.1 = [] := by
  have hq := ofFiles_iff.1 h.ofFiles
  obtain ⟨hprimary, hprimary'⟩ := readCatalogs_map_newCatalog (s := s) (t := t)
    .primaryCatalog (by decide) (p.pathsOf .primaryCatalog)
  obtain ⟨hsecondary, hsecondary'⟩ := readCatalogs_map_newCatalog (s := s) (t := t)
    .secondaryCatalog (by decide) (p.pathsOf .secondaryCatalog)
  obtain ⟨htranslated, htranslated'⟩ := readCatalogs_map_newCatalog (s := s) (t := t)
    .translatedCatalog (by decide) (p.pathsOf .translatedCatalog)
  obtain ⟨hsources, hsources'⟩ := readSources_map_newSource (s := s) (t := t) p.sourcePaths
  unfold Package.read
  rw [primary_eq hp, secondary_eq hp, translated_eq hp, orderedSources_eq hp, primary_eq hq,
    secondary_eq hq, translated_eq hq, orderedSources_eq hq, h.catalogs _ (by decide),
    h.catalogs _ (by decide), h.catalogs _ (by decide), h.sourcePaths hp, hprimary', hsecondary',
    htranslated', hsources', h.name, h.directory]
  refine ⟨?_, rfl⟩
  rw [unreadableFindings, ← hprimary, ← hsecondary, ← htranslated, ← hsources]

/-! ### Checking -/

/-- What is reported on sources does not depend on what was reported before, also where the report
ends at a form. -/
theorem exists_reportSources_eq (s : Settings) (t : Tree) (xs : List (Text × SourceFile)) :
    ∃ findings files failure, (∀ x ∈ findings, x.kind.isOfSource = true) ∧
      ∀ r, reportSources s t r xs = (r.extend findings files, failure) := by
  induction xs with
  | nil => exact ⟨[], [], none, nofun, fun r => congrArg (·, none) r.extend_nil.symm⟩
  | cons x rest ih =>
      obtain ⟨name, f⟩ := x
      obtain ⟨findings, files, failure, hkinds, hrest⟩ := ih
      cases hform : f.hasForm s t with
      | error failed =>
          refine ⟨f.missing, [.source], some failed, fun x hx => ?_, fun r => ?_⟩
          · have hfinding : x ∈ f.findings true := List.mem_append_left _ hx
            exact SourceFile.isOfSource_of_mem_findings hfinding
          · rw [reportSources, SourceFile.report_eq, hform]
            rfl
      | ok form =>
          refine ⟨f.findings form ++ findings, .source :: files, failure,
            fun x hx => ?_, fun r => ?_⟩
          · rcases List.mem_append.1 hx with hx | hx
            · exact SourceFile.isOfSource_of_mem_findings hx
            · exact hkinds x hx
          · rw [reportSources, SourceFile.report_eq_extend hform]
            dsimp only
            rw [hrest, Report.extend_extend]
            rfl

/-- Nor does what is reported on a package, and none of it is about a file that cannot be read. -/
theorem exists_report_eq (s : Settings) (t : Tree) (p : Package) :
    ∃ findings files failure, (∀ x ∈ findings, x.kind ≠ .unreadableFile) ∧
      ∀ r, p.report s t r = (r.extend findings files, failure) := by
  obtain ⟨findings, files, failure, hkinds, hsources⟩ :=
    exists_reportSources_eq s t p.orderedSources
  have hfindings : ∀ x ∈ findings, x.kind ≠ .unreadableFile := fun x hx heq => by
    have hkind := hkinds x hx
    rw [heq] at hkind
    cases hkind
  cases failure with
  | some failure =>
      refine ⟨findings, files, some failure, hfindings, fun r => ?_⟩
      rw [report, hsources]
  | none =>
      refine ⟨findings ++ p.reportedCatalogs.flatMap Catalog.findings,
        files ++ p.reportedCatalogs.map (·.kind), none, fun x hx => ?_, fun r => ?_⟩
      · rcases List.mem_append.1 hx with hx | hx
        · exact hfindings x hx
        · rw [kind_of_mem_flatMap_findings hx]
          decide
      · rw [report, hsources]
        dsimp only
        rw [foldl_report_eq, Report.extend_extend]

/-- The check of a package differs from that of another one by findings that come first: all other
findings, the files that are counted, the occurrences, the uses of entries and the warnings are the
same, and whether the check comes to its end. -/
structure DiffersBy (s : Settings) (t : Tree) (r : Report) (p q : Package) (first : List Finding) :
    Prop where
  findings : ∃ others, (p.check s t r).1.findings = r.findings ++ first ++ others ∧
    (q.check s t r).1.findings = r.findings ++ others ∧ ∀ x ∈ others, x.kind ≠ .unreadableFile
  files : (p.check s t r).1.files = (q.check s t r).1.files
  failure : (p.check s t r).2 = (q.check s t r).2
  checked : p.checked s t = q.checked s t
  warnings : (p.read s t).2.2 = (q.read s t).2.2

/-- **A file that cannot be read costs one finding and nothing else.** A package of files, any of
which may not be read, is checked as the package that is made without these. -/
theorem differsBy_check (hp : p.OfFiles) (s : Settings) (t : Tree) (r : Report) :
    (∃ q, IsRest s t p q) ∧
      ∀ q, IsRest s t p q → DiffersBy s t r p q (unreadableFindings s t p) := by
  refine ⟨exists_isRest hp s t, fun q h => ?_⟩
  obtain ⟨hread, hnone⟩ := h.read_eq (ofFiles_iff.1 hp)
  have hchecked : p.checked s t = q.checked s t := by rw [checked, checked, hread]
  obtain ⟨findings, files, failure, hkinds, hreport⟩ := exists_report_eq s t (q.checked s t)
  have hcheck : p.check s t r =
      ((r.addAll (unreadableFindings s t p)).extend findings files, failure) := by
    rw [check, hchecked, hread, hreport]
  have hcheck' : q.check s t r = ((r.addAll []).extend findings files, failure) := by
    rw [check, hnone, hreport]
  refine ⟨⟨findings, by rw [hcheck]; rfl, ?_, hkinds⟩, by rw [hcheck, hcheck']; rfl,
    by rw [hcheck, hcheck'], hchecked, by rw [hread]⟩
  rw [hcheck', Report.addAll, List.append_nil]
  rfl

/-- A package with files that are not there, and with one that is no source. -/
def incompletePackage : Package where
  name := []
  directory := "/"
  primary := some (newCatalog .primaryCatalog "/Bundle.properties")
  secondary := [newCatalog .secondaryCatalog "/Gone.properties",
    newCatalog .secondaryCatalog "/Other.properties"]
  sources := [newSource "/Z.java", newSource "/A.java", newSource "/notes.txt"]

theorem differsBy_check_sample :
    incompletePackage.OfFiles ∧
      (unreadableFindings .standard sampleTree incompletePackage).map (·.file) =
        [Text.ofString "/Gone.properties", Text.ofString "/Z.java", Text.ofString "/notes.txt"] ∧
      ∀ q, IsRest .standard sampleTree incompletePackage q →
        DiffersBy .standard sampleTree { name := [] } incompletePackage q
          (unreadableFindings .standard sampleTree incompletePackage) := by
  have hfiles : incompletePackage.OfFiles := ofFiles_iff.2 (by
    constructor <;> decide +kernel)
  have hsources : incompletePackage.sourcePaths =
      [Text.ofString "/A.java", Text.ofString "/Z.java", Text.ofString "/notes.txt"] :=
    (Text.sortBy_eq_of_perm (.swap _ _ _) (by decide +kernel)).trans
      (Text.sortBy_eq_self (by decide +kernel))
  have hunreadable : (unreadableFindings .standard sampleTree incompletePackage).map (·.file) =
      [Text.ofString "/Gone.properties", Text.ofString "/Z.java", Text.ofString "/notes.txt"] := by
    rw [unreadableFindings, hsources]
    decide +kernel
  exact ⟨hfiles, hunreadable, (differsBy_check hfiles .standard sampleTree { name := [] }).2⟩

end Package

end BundleAudit
