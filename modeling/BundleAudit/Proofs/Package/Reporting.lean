import BundleAudit.Proofs.Package.Reading

/-!
# BundleAudit.Proofs.Package.Reporting

**The report on a package.** It is complete if it can be told of every source whether
there is a form beside it. Then it extends what was reported before by the findings
about the sources, in the order of the names, and by those about the catalogs after
them (`report_cases`); the first are about occurrences, the others about entries
without a use. None of this depends on what was reported before.
-/

namespace BundleAudit

/-- A report with more findings and more files. -/
def Report.extend (findings : List Finding) (files : List FileKind) (r : Report) : Report :=
  { r with findings := r.findings ++ findings, files := r.files ++ files }

theorem Report.extend_extend (fs gs : List Finding) (ks ls : List FileKind) (r : Report) :
    (r.extend fs ks).extend gs ls = r.extend (fs ++ gs) (ks ++ ls) := by
  simp only [extend, List.append_assoc]

theorem Report.extend_nil (r : Report) : r.extend [] [] = r := by
  simp only [extend, List.append_nil]

/-- Whether there is a form beside a source, as far as that can be told. -/
def SourceFile.hasKnownForm (s : Settings) (t : Tree) (f : SourceFile) : Bool :=
  match f.hasForm s t with
  | .ok form => form
  | .error _ => false

theorem SourceFile.hasKnownForm_eq {s : Settings} {t : Tree} {f : SourceFile} {form : Bool}
    (h : f.hasForm s t = .ok form) : f.hasKnownForm s t = form := by
  rw [hasKnownForm, h]

theorem SourceFile.report_eq_extend {s : Settings} {t : Tree} {f : SourceFile} {form : Bool}
    (h : f.hasForm s t = .ok form) (r : Report) :
    f.report s t r = (r.extend (f.findings form) [.source], none) := by
  rw [report_eq, h]
  rfl

/-- Findings about a catalog are about its entries without a use. -/
theorem Catalog.exists_of_mem_findings {c : Catalog} {x : Finding} (h : x ∈ c.findings) :
    ∃ line message, x = ⟨.possiblyUnusedEntry, c.path, line, message⟩ := by
  unfold findings at h
  split at h
  · cases h
  · obtain ⟨e, -, rfl⟩ := List.mem_map.1 h
    exact ⟨e.line, e.key, rfl⟩

theorem Catalog.report_eq_extend (c : Catalog) (r : Report) :
    c.report r = r.extend c.findings [c.kind] := rfl

namespace Package

variable {s : Settings} {t : Tree} {p : Package} {xs : List (Text × SourceFile)} {x : Finding}

/-! ### Sources -/

/-- It can be told of all these sources whether there is a form. -/
def FormsKnown (s : Settings) (t : Tree) (xs : List (Text × SourceFile)) : Prop :=
  ∀ x ∈ xs, ∃ form, x.2.hasForm s t = .ok form

/-- All findings about sources, one source after the other. -/
def sourceFindings (s : Settings) (t : Tree) (xs : List (Text × SourceFile)) : List Finding :=
  xs.flatMap fun x => x.2.findings (x.2.hasKnownForm s t)

/-- Reporting sources ends at a form that is not known, or it goes through all of them. -/
theorem reportSources_cases (s : Settings) (t : Tree) (xs : List (Text × SourceFile)) :
    (¬FormsKnown s t xs ∧ ∃ failure, ∀ r, (reportSources s t r xs).2 = some failure) ∨
      FormsKnown s t xs ∧ ∀ r, reportSources s t r xs =
        (r.extend (sourceFindings s t xs) (xs.map fun _ => .source), none) := by
  unfold FormsKnown
  induction xs with
  | nil =>
      refine .inr ⟨by simp, fun r => ?_⟩
      rw [reportSources]
      exact congrArg (·, none) r.extend_nil.symm
  | cons x rest ih =>
      obtain ⟨name, f⟩ := x
      rw [List.forall_mem_cons]
      cases hform : f.hasForm s t with
      | error failure =>
          refine .inl ⟨by simp, failure, fun r => ?_⟩
          rw [reportSources, SourceFile.report_eq, hform]
      | ok form =>
          have hreport := SourceFile.report_eq_extend hform
          have hknown := SourceFile.hasKnownForm_eq hform
          rcases ih with ⟨hnot, failure, hrest⟩ | ⟨hforms, hrest⟩
          · refine .inl ⟨fun h => hnot h.2, failure, fun r => ?_⟩
            rw [reportSources, hreport]
            exact hrest _
          · refine .inr ⟨⟨⟨form, rfl⟩, hforms⟩, fun r => ?_⟩
            rw [reportSources, hreport]
            dsimp only
            rw [hrest, Report.extend_extend, sourceFindings, sourceFindings, List.flatMap_cons,
              hknown]
            rfl

theorem isOfSource_of_mem_sourceFindings (h : x ∈ sourceFindings s t xs) :
    x.kind.isOfSource = true := by
  obtain ⟨y, -, hx⟩ := List.mem_flatMap.1 h
  exact SourceFile.isOfSource_of_mem_findings hx

/-- The findings about sources are the verdicts on their occurrences. -/
theorem sourceFindings_eq_verdicts (s : Settings) (t : Tree) (xs : List (Text × SourceFile)) :
    sourceFindings s t xs = xs.flatMap fun x =>
      x.2.verdicts (x.2.hasKnownForm s t) Finding.Kind.isMissing ++
        x.2.verdicts (x.2.hasKnownForm s t) Finding.Kind.isRedundant := by
  unfold sourceFindings
  congr 1
  funext x
  exact SourceFile.findings_eq_verdicts _ x.2

/-! ### Catalogs -/

theorem foldl_report_eq (cs : List Catalog) (r : Report) :
    cs.foldl (fun r c => c.report r) r =
      r.extend (cs.flatMap Catalog.findings) (cs.map (·.kind)) := by
  induction cs generalizing r with
  | nil => exact r.extend_nil.symm
  | cons c rest ih => rw [List.foldl_cons, ih, Catalog.report_eq_extend, Report.extend_extend]; rfl

theorem kind_of_mem_flatMap_findings {cs : List Catalog} (h : x ∈ cs.flatMap Catalog.findings) :
    x.kind = .possiblyUnusedEntry := by
  obtain ⟨c, -, hx⟩ := List.mem_flatMap.1 h
  obtain ⟨line, message, rfl⟩ := Catalog.exists_of_mem_findings hx
  rfl

/-! ### The package -/

/-- The findings about the sources and the catalogs of a package. -/
def findings (s : Settings) (t : Tree) (p : Package) : List Finding :=
  sourceFindings s t p.orderedSources ++ p.reportedCatalogs.flatMap Catalog.findings

/-- The kinds of the files of a package. -/
def files (p : Package) : List FileKind :=
  p.orderedSources.map (fun _ => .source) ++ p.reportedCatalogs.map (·.kind)

/-- **What is reported on a package does not depend on what was reported before.** -/
theorem report_cases (s : Settings) (t : Tree) (p : Package) :
    (¬FormsKnown s t p.orderedSources ∧ ∃ failure, ∀ r, (p.report s t r).2 = some failure) ∨
      FormsKnown s t p.orderedSources ∧
        ∀ r, p.report s t r = (r.extend (p.findings s t) p.files, none) := by
  rcases reportSources_cases s t p.orderedSources with ⟨hnot, failure, h⟩ | ⟨hforms, h⟩
  · refine .inl ⟨hnot, failure, fun r => ?_⟩
    rw [report]
    split
    · next hr => rw [← h r, hr]
    · next hr => rw [← h r, hr]
  · refine .inr ⟨hforms, fun r => ?_⟩
    rw [report, h]
    dsimp only
    rw [foldl_report_eq, Report.extend_extend]
    rfl

/-- A report on a package is complete if it can be told of all sources whether there is a form. -/
theorem report_snd_eq_none (s : Settings) (t : Tree) (p : Package) (r : Report) :
    (p.report s t r).2 = none ↔ FormsKnown s t p.orderedSources := by
  rcases p.report_cases s t with ⟨hnot, failure, h⟩ | ⟨hforms, h⟩
  · exact iff_of_false (by simp [h r]) hnot
  · exact iff_of_true (by rw [h r]) hforms

/-- What a complete report on a package adds. -/
theorem findings_report (h : FormsKnown s t p.orderedSources) (r : Report) :
    (p.report s t r).1.findings =
      r.findings ++ (sourceFindings s t p.orderedSources ++
        p.reportedCatalogs.flatMap Catalog.findings) := by
  rcases p.report_cases s t with ⟨hnot, -⟩ | ⟨-, hreport⟩
  · exact absurd h hnot
  · rw [hreport]
    rfl

end Package

end BundleAudit
