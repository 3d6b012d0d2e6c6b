import BundleAudit.Proofs.Package.Reporting

/-!
# BundleAudit.Proofs.Package.Classification

**Every occurrence is classified once.** `Package.check` reads a package, looks its
texts up and reports. Of each occurrence it says whether a catalog of the package has
the text, and the findings about the sources are the verdicts on their occurrences,
source by source in the order of their names (`classified_check`).
-/

namespace BundleAudit.Package

/-- The package after its files are read and its texts are looked up. -/
def checked (s : Settings) (t : Tree) (p : Package) : Package := (p.read s t).1.lookUp

/-- Reads a package, looks its texts up, and adds what is found to a report. -/
def check (s : Settings) (t : Tree) (r : Report) (p : Package) : Report × Option Failure :=
  (p.checked s t).report s t (r.addAll (p.read s t).2.1)

/-- What a check says about the sources of a package and their occurrences. -/
structure Classified (s : Settings) (t : Tree) (r : Report) (p : Package) : Prop where
  /-- The sources come in ascending order of their names, and each has a path of its own. -/
  ascending : ((p.checked s t).sources.map Prod.fst).Pairwise fun a b => a.lt b = true
  nodup_paths : ((p.checked s t).sources.map (·.2.path)).Nodup
  /-- They are all sources of the package that can be read, with the occurrences of their files. -/
  mem_sources : ∀ name h, (name, h) ∈ (p.checked s t).sources ↔
    ∃ f g, (name, f) ∈ p.sources ∧ f.read s t = .ok g ∧
      h = g.lookUp (p.read s t).1.lookupCatalogs
  /-- An occurrence is in the catalogs if its text is a key of the primary catalog or of a secondary
  one, as they are read. -/
  inCatalog_iff : ∀ x ∈ (p.checked s t).sources, ∀ o ∈ x.2.occurrences,
    o.inCatalog = true ↔ ∃ c ∈ p.lookupCatalogs, ∃ d malformed,
      c.read s t = .ok (d, malformed) ∧ d.hasKey o.text = true
  /-- The report is complete if it can be told of all sources whether there is a form. -/
  complete_iff : (p.check s t r).2 = none ↔ FormsKnown s t (p.checked s t).sources
  /-- A complete report has one finding for each occurrence with a verdict, and no other finding
  about occurrences: source by source, and of a source first those about missing entries and then
  those about redundant suppressions, both in the order of the occurrences. -/
  findings : (p.check s t r).2 = none →
    ∃ added, (p.check s t r).1.findings = r.findings ++ added ∧
      added.filter (·.kind.isOfSource) = (p.checked s t).sources.flatMap fun x =>
        x.2.verdicts (x.2.hasKnownForm s t) Finding.Kind.isMissing ++
          x.2.verdicts (x.2.hasKnownForm s t) Finding.Kind.isRedundant

/-! ### Looking up -/

theorem any_hasKey_read (s : Settings) (t : Tree) (p : Package) (key : Text) :
    (p.read s t).1.lookupCatalogs.any (·.hasKey key) = true ↔
      ∃ c ∈ p.lookupCatalogs, ∃ d malformed,
        c.read s t = .ok (d, malformed) ∧ d.hasKey key = true := by
  rw [lookupCatalogs_read, List.any_eq_true]
  constructor
  · rintro ⟨d, hd, hkey⟩
    obtain ⟨c, hc, hread⟩ := List.mem_filterMap.1 hd
    obtain ⟨malformed, hread⟩ := Catalog.read?_eq_some_iff.1 hread
    exact ⟨c, hc, d, malformed, hread, hkey⟩
  · rintro ⟨c, hc, d, malformed, hread, hkey⟩
    exact ⟨d, List.mem_filterMap.2 ⟨c, hc, Catalog.read?_eq_some_iff.2 ⟨malformed, hread⟩⟩, hkey⟩

/-- Looking up adds to a source which texts are in catalogs, and keeps its name. -/
theorem mem_sources_lookUp {p : Package} {name : Text} {h : SourceFile} :
    (name, h) ∈ p.lookUp.sources ↔ ∃ g, (name, g) ∈ p.sources ∧ h = g.lookUp p.lookupCatalogs := by
  constructor
  · intro hmem
    obtain ⟨⟨_, g⟩, hg, heq⟩ := List.mem_map.1 hmem
    cases heq
    exact ⟨g, hg, rfl⟩
  · rintro ⟨g, hg, rfl⟩
    exact List.mem_map_of_mem hg

/-- A source was read if it is one of the package and its file can be read. -/
theorem mem_sources_read {s : Settings} {t : Tree} {p : Package} {name : Text} {g : SourceFile} :
    (name, g) ∈ (p.read s t).1.sources ↔ ∃ f, (name, f) ∈ p.sources ∧ f.read s t = .ok g := by
  have hperm := Text.perm_sortBy Prod.fst p.sources
  rw [read_fst]
  constructor
  · intro hmem
    obtain ⟨⟨_, f⟩, hf, hread⟩ := List.mem_filterMap.1 hmem
    obtain ⟨g, hread, heq⟩ := Option.map_eq_some_iff.1 hread
    cases heq
    exact ⟨f, hperm.mem_iff.1 hf, SourceFile.read?_eq_some_iff.1 hread⟩
  · rintro ⟨f, hf, hread⟩
    refine List.mem_filterMap.2 ⟨(name, f), hperm.mem_iff.2 hf, ?_⟩
    exact Option.map_eq_some_iff.2 ⟨g, SourceFile.read?_eq_some_iff.2 hread, rfl⟩

/-- An occurrence is found just in the catalogs that can be read and have its text. -/
theorem inCatalog_checked {s : Settings} {t : Tree} {p : Package} {x : Text × SourceFile}
    (hx : x ∈ (p.checked s t).sources) {o : Occurrence} (ho : o ∈ x.2.occurrences) :
    o.inCatalog = (p.read s t).1.lookupCatalogs.any (·.hasKey o.text) := by
  obtain ⟨g, hg, heq⟩ := mem_sources_lookUp.1 hx
  obtain ⟨f, -, hread⟩ := mem_sources_read.1 hg
  obtain ⟨tokens, rfl⟩ := SourceFile.of_read_eq_ok hread
  rw [heq] at ho
  exact SourceFile.inCatalog_lookUp (fun o ho => Occurrence.inCatalog_of_mem_ofTokens ho) ho

/-! ### The order of the sources -/

theorem WellFormed.pairwise_names_checked {p : Package} (hp : p.WellFormed) (s : Settings)
    (t : Tree) : ((p.checked s t).sources.map Prod.fst).Pairwise fun a b => a.lt b = true := by
  have hnames : (p.checked s t).sources.map Prod.fst = (p.read s t).1.sources.map Prod.fst := by
    unfold checked Package.lookUp
    rw [List.map_map]
    rfl
  rw [hnames]
  exact hp.pairwise_names_read s t

theorem orderedSources_checked {p : Package} (hp : p.WellFormed) (s : Settings) (t : Tree) :
    (p.checked s t).orderedSources = (p.checked s t).sources :=
  Text.sortBy_eq_self (hp.pairwise_names_checked s t)

/-! ### The check -/

/-- The findings about occurrences among all that a check adds. -/
theorem filter_isOfSource_check (s : Settings) (t : Tree) (p : Package)
    (xs : List (Text × SourceFile)) (cs : List Catalog) :
    ((p.read s t).2.1 ++ (sourceFindings s t xs ++ cs.flatMap Catalog.findings)).filter
        (·.kind.isOfSource) = sourceFindings s t xs := by
  have hread : (p.read s t).2.1.filter (·.kind.isOfSource) = [] := by
    refine List.filter_eq_nil_iff.2 fun x hx => ?_
    rw [kind_of_mem_read hx]
    exact Bool.false_ne_true
  have hcatalogs : (cs.flatMap Catalog.findings).filter (·.kind.isOfSource) = [] := by
    refine List.filter_eq_nil_iff.2 fun x hx => ?_
    rw [kind_of_mem_flatMap_findings hx]
    exact Bool.false_ne_true
  have hsources : (sourceFindings s t xs).filter (·.kind.isOfSource) = sourceFindings s t xs :=
    List.filter_eq_self.2 fun x hx => isOfSource_of_mem_sourceFindings hx
  rw [List.filter_append, List.filter_append, hread, hcatalogs, hsources, List.append_nil,
    List.nil_append]

/-- **Every occurrence is classified once.** A check of a package that was made of files finds just
the occurrences whose texts are keys of its catalogs, and reports just the verdicts on the
occurrences. -/
theorem classified_check {p : Package} (hp : p.OfFiles) (s : Settings) (t : Tree) (r : Report) :
    Classified s t r p where
  ascending := hp.wellFormed.pairwise_names_checked s t
  nodup_paths := (hp.wellFormed.read s t).lookUp.nodup_paths
  mem_sources name h := by
    rw [checked, mem_sources_lookUp]
    constructor
    · rintro ⟨g, hg, rfl⟩
      obtain ⟨f, hf, hread⟩ := mem_sources_read.1 hg
      exact ⟨f, g, hf, hread, rfl⟩
    · rintro ⟨f, g, hf, hread, rfl⟩
      exact ⟨g, mem_sources_read.2 ⟨f, hf, hread⟩, rfl⟩
  inCatalog_iff x hx o ho := by
    rw [inCatalog_checked hx ho]
    exact any_hasKey_read s t p o.text
  complete_iff := by
    rw [check, report_snd_eq_none, orderedSources_checked hp.wellFormed]
  findings := by
    intro hcomplete
    rw [check, report_snd_eq_none] at hcomplete
    refine ⟨_, ?_, (filter_isOfSource_check s t p (p.checked s t).sources
      (p.checked s t).reportedCatalogs).trans (sourceFindings_eq_verdicts s t _)⟩
    rw [check, findings_report hcomplete, orderedSources_checked hp.wellFormed]
    exact List.append_assoc ..

/-- A source with a text of the primary catalog, one of a secondary catalog, and two of none. -/
def sampleText : Text :=
  "a = \"one\"; // NOI18N\nb = \"two\";\nc = NbBundle.get(\"three\");\nd = \"four\";\n"

/-- A tree that holds the files of a package. -/
def sampleTree : Tree :=
  { entries :=
      [([Text.ofString "A.java"], .ofText sampleText),
        ([Text.ofString "Bundle.properties"], .ofText "one=1\n"),
        ([Text.ofString "Other.properties"], .ofText "two=2\n")] }

/-- The package of these files. -/
def samplePackage : Package where
  name := []
  directory := "/"
  primary := some { path := "/Bundle.properties", kind := .primaryCatalog }
  secondary := [{ path := "/Other.properties", kind := .secondaryCatalog }]
  sources := [(Text.ofString "A.java", { path := "/A.java" })]

theorem classified_check_sample :
    samplePackage.OfFiles ∧
    Classified .standard sampleTree { name := [] } samplePackage ∧
    (samplePackage.check .standard sampleTree { name := [] }).1.findings =
      [⟨.missingKey, "/A.java", 3, "three"⟩, ⟨.missingSuppressionOrKey, "/A.java", 4, "four"⟩,
        ⟨.redundantSuppression, "/A.java", 1, "one"⟩] := by
  have hfiles : samplePackage.OfFiles :=
    .add .source "/A.java" (.add .secondaryCatalog "/Other.properties"
      (.add .primaryCatalog "/Bundle.properties" (.start [] "/") rfl) rfl) rfl
  refine ⟨hfiles, classified_check hfiles .standard sampleTree { name := [] }, ?_⟩
  decide +kernel

end BundleAudit.Package
