import BundleAudit.Module.Scan
import BundleAudit.Proofs.Package.Reporting

/-!
# BundleAudit.Proofs.Module.Report

**What is reported on packages** does not depend on what a report holds already: either
the packages cannot be reported at all, or the report is extended by the findings about
each package and by the kinds of its files (`reportPackages_cases`).
-/

namespace BundleAudit.ModuleScan

variable {s : Settings} {t : Tree} {ps : List Package} {r r' : Report}

/-- **What is reported on packages does not depend on what a report holds already.** -/
theorem reportPackages_cases (s : Settings) (t : Tree) (ps : List Package) :
    (∃ failure, ∀ r, reportPackages s t r ps = .error failure) ∨
      ∀ r, reportPackages s t r ps =
        .ok (r.extend (ps.flatMap (·.findings s t)) (ps.flatMap (·.files))) := by
  induction ps with
  | nil => exact .inr fun r => congrArg Except.ok r.extend_nil.symm
  | cons p rest ih =>
      rcases p.report_cases s t with ⟨-, failure, hp⟩ | ⟨-, hp⟩
      · refine .inl ⟨failure, fun r => ?_⟩
        rw [reportPackages]
        split
        · next hr => cases (hp r).symm.trans (congrArg Prod.snd hr)
        · next hr => rw [Option.some.inj ((hp r).symm.trans (congrArg Prod.snd hr))]
      · rcases ih with ⟨failure, hrest⟩ | hrest
        · refine .inl ⟨failure, fun r => ?_⟩
          rw [reportPackages, hp]
          exact hrest _
        · refine .inr fun r => ?_
          rw [reportPackages, hp]
          dsimp only
          rw [hrest, Report.extend_extend, List.flatMap_cons, List.flatMap_cons]

/-- What a complete report on packages holds. -/
theorem reportPackages_eq_ok (h : reportPackages s t r ps = .ok r') :
    r' = r.extend (ps.flatMap (·.findings s t)) (ps.flatMap (·.files)) := by
  rcases reportPackages_cases s t ps with ⟨failure, hps⟩ | hps
  · cases h.symm.trans (hps r)
  · exact Except.ok.inj (h.symm.trans (hps r))

/-- What a complete report adds about unused entries. -/
theorem ofKind_reportPackages (h : reportPackages s t r ps = .ok r') :
    r'.ofKind .possiblyUnusedEntry =
      r.ofKind .possiblyUnusedEntry ++
        ps.flatMap fun p => p.reportedCatalogs.flatMap Catalog.findings := by
  rw [reportPackages_eq_ok h]
  show (r.findings ++ ps.flatMap (·.findings s t)).filter _ = _
  rw [List.filter_append, List.filter_flatMap]
  refine congrArg (_ ++ ·) (List.flatMap_congr fun p _ => ?_)
  -- of what one package adds, just the findings about its catalogs are of this kind
  have hsources : (Package.sourceFindings s t p.orderedSources).filter
      (·.kind = .possiblyUnusedEntry) = [] := by
    refine List.filter_eq_nil_iff.2 fun x hx hkind => ?_
    have hsource := Package.isOfSource_of_mem_sourceFindings hx
    rw [of_decide_eq_true hkind] at hsource
    cases hsource
  have hcatalogs : (p.reportedCatalogs.flatMap Catalog.findings).filter
      (·.kind = .possiblyUnusedEntry) = p.reportedCatalogs.flatMap Catalog.findings :=
    List.filter_eq_self.2 fun x hx => decide_eq_true (Package.kind_of_mem_flatMap_findings hx)
  rw [Package.findings, List.filter_append, hsources, hcatalogs, List.nil_append]

end BundleAudit.ModuleScan
