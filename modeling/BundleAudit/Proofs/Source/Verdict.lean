import BundleAudit.Package.Source
import BundleAudit.Proofs.Occurrence.Suppression

/-!
# BundleAudit.Proofs.Source.Verdict

**What an occurrence is reported as.** `Occurrence.verdict?` decides it from four
facts: whether a catalog has the text, whether it is suppressed, whether it is the
only occurrence of its line, and whether the source has a form. The report on a
source holds the occurrences with a verdict, first those that miss an entry and then
those with a suppression that has no purpose, each part in the order of the
occurrences (`findings_eq_verdicts`), so no occurrence is reported twice.
-/

namespace BundleAudit

/-- What an occurrence is reported as. -/
def Occurrence.verdict? (alone form : Bool) (o : Occurrence) : Option Finding.Kind :=
  match o.inCatalog, o.suppressed with
  | false, false => some (if o.nearLookup then .missingKey else .missingSuppressionOrKey)
  | true, true => if alone && !form then some .redundantSuppression else none
  | _, _ => none

/-- The finding of a kind about an occurrence. -/
def Occurrence.finding (path : Text) (kind : Finding.Kind) (o : Occurrence) : Finding :=
  ⟨kind, path, o.line, o.text⟩

/-- Whether findings of a kind are about texts that want an entry or a suppression. -/
def Finding.Kind.isMissing : Finding.Kind → Bool
  | .missingKey | .missingSuppressionOrKey => true
  | _ => false

/-- Whether findings of a kind are about suppressions without a purpose. -/
def Finding.Kind.isRedundant : Finding.Kind → Bool
  | .redundantSuppression => true
  | _ => false

/-- Whether findings of a kind are about occurrences. -/
def Finding.Kind.isOfSource (k : Finding.Kind) : Bool := k.isMissing || k.isRedundant

namespace SourceFile

/-! ### Reading and looking up -/

/-- A source that can be read gets the occurrences of its tokens. -/
theorem read_eq_ok {s : Settings} {t : Tree} {f : SourceFile} {text : Text}
    {tokens : List Token} (htext : t.readText f.path = .ok text)
    (htokens : Token.ofSource f.path text = .ok tokens) :
    f.read s t = .ok { f with occurrences := Occurrence.ofTokens s tokens } := by
  rw [SourceFile.read, htext]
  change (Token.ofSource f.path text).bind _ = _
  rw [htokens]
  rfl

/-- What is read of a source are the occurrences of some tokens. -/
theorem of_read_eq_ok {s : Settings} {t : Tree} {f g : SourceFile} (h : f.read s t = .ok g) :
    ∃ tokens, g = { f with occurrences := Occurrence.ofTokens s tokens } := by
  rw [SourceFile.read] at h
  cases htext : t.readText f.path with
  | error failure => simp [htext, bind, Except.bind] at h
  | ok text =>
      cases htokens : Token.ofSource f.path text with
      | error failure => simp [htext, htokens, bind, Except.bind] at h
      | ok tokens =>
          simp only [htext, htokens, bind, Except.bind, pure, Except.pure, Except.ok.injEq] at h
          exact ⟨tokens, h.symm⟩

@[simp] theorem path_lookUp (catalogs : List Catalog) (f : SourceFile) :
    (f.lookUp catalogs).path = f.path := rfl

@[simp] theorem texts_lookUp (catalogs : List Catalog) (f : SourceFile) :
    (f.lookUp catalogs).texts = f.texts := by
  simp [texts, lookUp, Function.comp_def]

/-- Of occurrences that were in no catalog, those are noted whose text is a key. -/
theorem inCatalog_lookUp {catalogs : List Catalog} {f : SourceFile}
    (hfresh : ∀ o ∈ f.occurrences, o.inCatalog = false) {o : Occurrence}
    (h : o ∈ (f.lookUp catalogs).occurrences) :
    o.inCatalog = catalogs.any (·.hasKey o.text) := by
  obtain ⟨x, hx, rfl⟩ := List.mem_map.1 h
  simp [hfresh x hx]

/-! ### The report on a source -/

/-- The findings about a source, of which it is known whether it has a form. -/
def findings (form : Bool) (f : SourceFile) : List Finding :=
  f.missing ++ if form then [] else f.redundant

/-- The report gets all findings about a source if it can be told whether there is a form, and else
those about missing entries. -/
theorem report_eq (s : Settings) (t : Tree) (f : SourceFile) (r : Report) :
    f.report s t r =
      match f.hasForm s t with
      | .ok form => ((r.countFile .source).addAll (f.findings form), none)
      | .error failure => ((r.countFile .source).addAll f.missing, some failure) := by
  unfold report findings
  split
  · next h => rw [h]
  · next h => simp [h]
  · next h => simp [h, Report.addAll]

/-- The verdicts of the wanted kinds, as findings in the order of the occurrences. -/
def verdicts (form : Bool) (wanted : Finding.Kind → Bool) (f : SourceFile) : List Finding :=
  f.occurrences.filterMap fun o =>
    ((o.verdict? (f.isAlone o) form).filter wanted).map (o.finding f.path ·)

/-- A verdict is wanted if its finding is. -/
theorem of_mem_verdicts {form : Bool} {wanted : Finding.Kind → Bool} {f : SourceFile} {x : Finding}
    (h : x ∈ f.verdicts form wanted) : wanted x.kind = true ∧ x.file = f.path := by
  obtain ⟨o, -, hx⟩ := List.mem_filterMap.1 h
  obtain ⟨kind, hkind, rfl⟩ := Option.map_eq_some_iff.1 hx
  exact ⟨(Option.filter_eq_some_iff.1 hkind).2, rfl⟩

/-- A finding about a missing entry is a verdict of that sort. -/
theorem missing?_eq (path : Text) (alone form : Bool) (o : Occurrence) :
    missing? path o =
      ((o.verdict? alone form).filter Finding.Kind.isMissing).map (o.finding path ·) := by
  -- neither the form nor other occurrences of the line matter here
  unfold missing? Occurrence.verdict? Occurrence.finding
  cases o.inCatalog <;> cases o.suppressed <;> cases o.nearLookup <;> cases alone <;>
    cases form <;> rfl

/-- The occurrences whose suppressions have no purpose are those of that verdict. -/
theorem redundant_eq (f : SourceFile) :
    f.redundant = f.verdicts false Finding.Kind.isRedundant := by
  rw [redundant, ← List.filterMap_eq_map, List.filterMap_filter, verdicts]
  congr 1
  funext o
  unfold Occurrence.verdict? Occurrence.finding
  cases o.inCatalog <;> cases o.suppressed <;> cases o.nearLookup <;> cases f.isAlone o <;> rfl

/-- Where there is a form, no suppression is reported. -/
theorem verdicts_form_isRedundant (f : SourceFile) :
    f.verdicts true Finding.Kind.isRedundant = [] := by
  refine List.filterMap_eq_nil_iff.2 fun o _ => ?_
  unfold Occurrence.verdict?
  cases o.inCatalog <;> cases o.suppressed <;> cases o.nearLookup <;> cases f.isAlone o <;> rfl

/-- The findings about a source are the verdicts on its occurrences. -/
theorem findings_eq_verdicts (form : Bool) (f : SourceFile) :
    f.findings form =
      f.verdicts form Finding.Kind.isMissing ++ f.verdicts form Finding.Kind.isRedundant := by
  have hmissing : f.missing = f.verdicts form Finding.Kind.isMissing := by
    rw [missing, verdicts]
    congr 1
    funext o
    exact missing?_eq f.path (f.isAlone o) form o
  rw [findings, hmissing]
  cases form with
  | true => rw [if_pos rfl, verdicts_form_isRedundant]
  | false => rw [if_neg Bool.false_ne_true, redundant_eq]

/-- All findings about a source are about its occurrences. -/
theorem isOfSource_of_mem_findings {form : Bool} {f : SourceFile} {x : Finding}
    (h : x ∈ f.findings form) : x.kind.isOfSource = true := by
  rw [findings_eq_verdicts] at h
  unfold Finding.Kind.isOfSource
  rcases List.mem_append.1 h with h | h
  · rw [(of_mem_verdicts h).1, Bool.true_or]
  · rw [(of_mem_verdicts h).1, Bool.or_true]

end SourceFile

end BundleAudit
