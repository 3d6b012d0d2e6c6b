import BundleAudit.Proofs.Package.Reporting
import Mathlib.Data.List.Flatten

/-!
# BundleAudit.Proofs.Package.SecondaryCatalogs

**A package with and without its secondary catalogs.** The more catalogs a text is looked
up in, the less is missing: just the findings about texts that are keys of the additional
catalogs go (`missing_lookUp_append`), and a suppression that had no purpose still has
none (`sublist_redundant_lookUp`). So secondary catalogs relieve the sources of their package
(`filter_isMissing_withoutSecondary`) and change nothing about its primary catalog.
-/

namespace BundleAudit

namespace SourceFile

variable {f : SourceFile} {x : Finding}

/-! ### More catalogs -/

theorem isMissing_of_mem_missing (h : x ∈ f.missing) : x.kind.isMissing = true := by
  obtain ⟨o, -, ho⟩ := List.mem_filterMap.1 h
  unfold missing? at ho
  split at ho
  · cases ho
  · cases ho
    cases o.nearLookup <;> rfl

theorem kind_of_mem_redundant (h : x ∈ f.redundant) : x.kind = .redundantSuppression := by
  obtain ⟨o, -, rfl⟩ := List.mem_map.1 h
  rfl

theorem filter_isMissing_findings (form : Bool) (f : SourceFile) :
    (f.findings form).filter (·.kind.isMissing) = f.missing := by
  have hmissing : f.missing.filter (·.kind.isMissing) = f.missing :=
    List.filter_eq_self.2 fun x hx => isMissing_of_mem_missing hx
  have hredundant : f.redundant.filter (·.kind.isMissing) = [] := by
    refine List.filter_eq_nil_iff.2 fun x hx => ?_
    rw [kind_of_mem_redundant hx]
    decide
  rw [findings, List.filter_append, hmissing]
  cases form with
  | true => exact List.append_nil _
  | false => rw [if_neg Bool.false_ne_true, hredundant, List.append_nil]

theorem filter_redundant_findings (form : Bool) (f : SourceFile) :
    (f.findings form).filter (·.kind = .redundantSuppression) =
      if form then [] else f.redundant := by
  have hmissing : f.missing.filter (·.kind = .redundantSuppression) = [] := by
    refine List.filter_eq_nil_iff.2 fun x hx hkind => ?_
    have hmissing := isMissing_of_mem_missing hx
    rw [of_decide_eq_true hkind] at hmissing
    cases hmissing
  have hredundant : f.redundant.filter (·.kind = .redundantSuppression) = f.redundant :=
    List.filter_eq_self.2 fun x hx => decide_eq_true (kind_of_mem_redundant hx)
  rw [findings, List.filter_append, hmissing, List.nil_append]
  cases form with
  | true => rfl
  | false => rw [if_neg Bool.false_ne_true, hredundant]

/-- Of what is missing, additional catalogs provide what they have as keys. -/
theorem missing_lookUp_append (cs ds : List Catalog) (f : SourceFile) :
    (f.lookUp (cs ++ ds)).missing =
      (f.lookUp cs).missing.filter fun x => !ds.any (·.hasKey x.message) := by
  unfold missing lookUp
  rw [List.filter_filterMap, List.filterMap_map, List.filterMap_map]
  refine List.filterMap_congr fun o _ => ?_
  simp only [Function.comp_apply, missing?, List.any_append]
  cases o.inCatalog <;> cases o.suppressed <;> cases cs.any (·.hasKey o.text) <;>
    cases h : ds.any (·.hasKey o.text) <;> simp [h, Option.filter_some]

/-- A suppression without a purpose has none if there are more catalogs. -/
theorem sublist_redundant_lookUp (cs ds : List Catalog) (f : SourceFile) :
    (f.lookUp cs).redundant.Sublist (f.lookUp (cs ++ ds)).redundant := by
  have halone : ∀ (catalogs : List Catalog) (o : Occurrence),
      (f.lookUp catalogs).isAlone o = f.isAlone o := by
    intro catalogs o
    unfold isAlone lookUp
    rw [List.countP_map]
    rfl
  have hredundant : ∀ catalogs : List Catalog, (f.lookUp catalogs).redundant =
      (f.occurrences.filter fun o =>
        (o.inCatalog || catalogs.any (·.hasKey o.text)) && o.suppressed && f.isAlone o).map fun o =>
        ⟨.redundantSuppression, f.path, o.line, o.text⟩ := by
    intro catalogs
    unfold redundant
    simp only [halone]
    rw [lookUp, List.filter_map, List.map_map]
    rfl
  rw [hredundant, hredundant]
  refine List.Sublist.map _ (List.monotone_filter_right _ fun o ho => ?_)
  simp only [List.any_append, Bool.and_eq_true, Bool.or_eq_true] at ho ⊢
  exact ⟨⟨ho.1.1.imp_right .inl, ho.1.2⟩, ho.2⟩

end SourceFile

namespace Package

variable {s : Settings} {t : Tree} {p : Package} {xs : List (Text × SourceFile)}

/-- A package without its secondary catalogs. -/
def withoutSecondary (p : Package) : Package := { p with secondary := [] }

/-! ### Reading and looking up -/

theorem read_withoutSecondary (s : Settings) (t : Tree) (p : Package) :
    (p.withoutSecondary.read s t).1 = (p.read s t).1.withoutSecondary := by
  rw [read_fst, read_fst]
  rfl

theorem orderedSources_lookUp (p : Package) :
    p.lookUp.orderedSources = p.orderedSources.map fun x => (x.1, x.2.lookUp p.lookupCatalogs) :=
  Text.sortBy_map Prod.fst _ p.sources

theorem lookupCatalogs_eq (p : Package) :
    p.lookupCatalogs = p.withoutSecondary.lookupCatalogs ++ p.secondary := by
  unfold lookupCatalogs withoutSecondary
  rw [List.append_nil]

/-! ### Sources -/

theorem filter_isMissing_sourceFindings (s : Settings) (t : Tree) (xs : List (Text × SourceFile)) :
    (sourceFindings s t xs).filter (·.kind.isMissing) = xs.flatMap (·.2.missing) := by
  rw [sourceFindings, List.filter_flatMap]
  exact List.flatMap_congr fun x _ => SourceFile.filter_isMissing_findings _ x.2

theorem filter_redundant_sourceFindings (s : Settings) (t : Tree) (xs : List (Text × SourceFile)) :
    (sourceFindings s t xs).filter (·.kind = .redundantSuppression) =
      xs.flatMap fun x => if x.2.hasKnownForm s t then [] else x.2.redundant := by
  rw [sourceFindings, List.filter_flatMap]
  exact List.flatMap_congr fun x _ => SourceFile.filter_redundant_findings _ x.2

theorem exists_of_mem_sourceFindings {f : Finding} (h : f ∈ sourceFindings s t xs) :
    ∃ x ∈ xs, f.file = x.2.path := by
  obtain ⟨x, hx, hf⟩ := List.mem_flatMap.1 h
  rw [SourceFile.findings_eq_verdicts] at hf
  rcases List.mem_append.1 hf with hf | hf
  · exact ⟨x, hx, (SourceFile.of_mem_verdicts hf).2⟩
  · exact ⟨x, hx, (SourceFile.of_mem_verdicts hf).2⟩

/-- **Secondary catalogs relieve the sources of their package,** and just of the texts that they
have. -/
theorem filter_isMissing_withoutSecondary (s : Settings) (t : Tree) (p : Package) :
    (sourceFindings s t p.lookUp.orderedSources).filter (·.kind.isMissing) =
      ((sourceFindings s t p.withoutSecondary.lookUp.orderedSources).filter
        (·.kind.isMissing)).filter fun x => !p.secondary.any (·.hasKey x.message) := by
  rw [filter_isMissing_sourceFindings, filter_isMissing_sourceFindings, orderedSources_lookUp,
    orderedSources_lookUp, List.flatMap_map, List.flatMap_map, List.filter_flatMap,
      lookupCatalogs_eq p]
  exact List.flatMap_congr fun x _ => SourceFile.missing_lookUp_append _ _ x.2

theorem sublist_redundant_withoutSecondary (s : Settings) (t : Tree) (p : Package) :
    ((sourceFindings s t p.withoutSecondary.lookUp.orderedSources).filter
        (·.kind = .redundantSuppression)).Sublist
      ((sourceFindings s t p.lookUp.orderedSources).filter (·.kind = .redundantSuppression)) := by
  rw [filter_redundant_sourceFindings, filter_redundant_sourceFindings, orderedSources_lookUp,
    orderedSources_lookUp, List.flatMap_map, List.flatMap_map, lookupCatalogs_eq p]
  refine List.Sublist.flatMap_right _ fun x _ => ?_
  show List.Sublist (if x.2.hasKnownForm s t then [] else _)
    (if x.2.hasKnownForm s t then [] else _)
  split
  · exact .slnil
  · exact SourceFile.sublist_redundant_lookUp _ _ x.2

end Package

end BundleAudit
