import BundleAudit.Proofs.Occurrence.Comments
import BundleAudit.Proofs.Source.Suppression
import BundleAudit.Proofs.Token.JavaCut

/-!
# BundleAudit.Proofs.Source.Unmarking

**A suppression without a purpose can be taken away.** The line comment of a line on
which a `.java` source has such a finding can be cut out of the text: the source then
has the same findings but this one, and the same texts to count as uses
(`unmarking_safe`). For what the comment hid is one occurrence, and that one is in a
catalog.
-/

namespace BundleAudit.SourceFile

variable {s : Settings} {t : Tree} {f : SourceFile} {text : Text}

/-! ### A line that is no longer suppressed -/

/-- An occurrence after the mark on a line is gone. -/
def unmark (line : Nat) (o : Occurrence) : Occurrence :=
  if o.line = line then o.withSuppressed false else o

/-- A source without the mark on a line. -/
def unmarked (line : Nat) (f : SourceFile) : SourceFile :=
  { f with occurrences := f.occurrences.map (unmark line) }

theorem line_unmark (line : Nat) (o : Occurrence) : (unmark line o).line = o.line := by
  unfold unmark
  split <;> rfl

theorem text_unmark (line : Nat) (o : Occurrence) : (unmark line o).text = o.text := by
  unfold unmark
  split <;> rfl

theorem unmark_of_ne {line : Nat} {o : Occurrence} (h : o.line ≠ line) : unmark line o = o :=
  if_neg h

theorem texts_unmarked (line : Nat) (f : SourceFile) : (f.unmarked line).texts = f.texts := by
  simp [texts, unmarked, text_unmark]

theorem lookUp_unmarked (catalogs : List Catalog) (line : Nat) (f : SourceFile) :
    (f.unmarked line).lookUp catalogs = (f.lookUp catalogs).unmarked line := by
  simp only [lookUp, unmarked, List.map_map]
  congr 1
  refine List.map_congr_left fun o _ => ?_
  simp only [Function.comp_apply, unmark]
  split <;> rfl

/-- The number of occurrences of a line does not depend on marks. -/
theorem isAlone_unmarked (line : Nat) (f : SourceFile) (o : Occurrence) :
    (f.unmarked line).isAlone o = f.isAlone o := by
  simp [isAlone, unmarked, List.countP_map, Function.comp_def, line_unmark]

/-- An occurrence that is the only one of its line. -/
theorem exists_append_of_isAlone {o : Occurrence} (h : o ∈ f.occurrences)
    (halone : f.isAlone o = true) :
    ∃ before after, f.occurrences = before ++ o :: after ∧
      (∀ x ∈ before, x.line ≠ o.line) ∧ ∀ x ∈ after, x.line ≠ o.line := by
  obtain ⟨before, after, hsplit⟩ := List.append_of_mem h
  have hcount : f.occurrences.countP (·.line == o.line) = 1 := by simpa [isAlone] using halone
  rw [hsplit, List.countP_append, List.countP_cons_of_pos (by simp)] at hcount
  have hnone : ∀ {os : List Occurrence}, os.countP (·.line == o.line) = 0 →
      ∀ x ∈ os, x.line ≠ o.line := by
    intro os hos x hx
    simpa using List.countP_eq_zero.1 hos x hx
  exact ⟨before, after, hsplit, hnone (by omega), hnone (by omega)⟩

/-- The findings about suppressions without a purpose, occurrence by occurrence. -/
theorem redundant_eq_map (f : SourceFile) :
    f.redundant = (f.occurrences.filter fun o => o.inCatalog && o.suppressed && f.isAlone o).map
      (Occurrence.finding f.path .redundantSuppression) := rfl

theorem exists_of_mem_redundant {x : Finding} (h : x ∈ f.redundant) :
    ∃ o ∈ f.occurrences, o.inCatalog = true ∧ o.suppressed = true ∧ f.isAlone o = true ∧
      x = o.finding f.path .redundantSuppression := by
  rw [redundant_eq_map] at h
  obtain ⟨o, ho, rfl⟩ := List.mem_map.1 h
  obtain ⟨hmem, hall⟩ := List.mem_filter.1 ho
  simp only [Bool.and_eq_true] at hall
  exact ⟨o, hmem, hall.1.1, hall.1.2, hall.2, rfl⟩

theorem kind_of_mem_missing {x : Finding} (h : x ∈ f.missing) : x.kind ≠ .redundantSuppression := by
  obtain ⟨o, -, ho⟩ := List.mem_filterMap.1 h
  unfold missing? at ho
  split at ho
  · cases ho
  · cases ho
    cases o.nearLookup <;> simp

/-- Without the mark on the line of an occurrence that is alone there and in a catalog, the findings
about missing entries stay, and of the suppressions without a purpose one is gone. -/
theorem findings_unmarked {o : Occurrence} (h : o ∈ f.occurrences) (hfound : o.inCatalog = true)
    (hsuppressed : o.suppressed = true) (halone : f.isAlone o = true) :
    (f.unmarked o.line).missing = f.missing ∧
      ∃ before after,
        f.redundant = before ++ o.finding f.path .redundantSuppression :: after ∧
          (f.unmarked o.line).redundant = before ++ after := by
  obtain ⟨before, after, hsplit, hbefore, hafter⟩ := exists_append_of_isAlone h halone
  have hstays : ∀ {os : List Occurrence}, (∀ x ∈ os, x.line ≠ o.line) →
      os.map (unmark o.line) = os := fun hos =>
    (List.map_congr_left fun x hx => unmark_of_ne (hos x hx)).trans (List.map_id _)
  have hsplit' : (f.unmarked o.line).occurrences =
      before ++ o.withSuppressed false :: after := by
    rw [unmarked, hsplit, List.map_append, List.map_cons, hstays hbefore, hstays hafter, unmark,
      if_pos rfl]
  constructor
  · -- what is in a catalog misses nothing
    have hnone : missing? f.path o = none := by simp [missing?, hfound]
    have hnone' : missing? f.path (o.withSuppressed false) = none := by
      simp [missing?, Occurrence.withSuppressed, hfound]
    show (f.unmarked o.line).occurrences.filterMap (missing? f.path) = _
    rw [hsplit', missing, hsplit]
    simp [hnone, hnone']
  · refine ⟨(before.filter fun x => x.inCatalog && x.suppressed && f.isAlone x).map
        (Occurrence.finding f.path .redundantSuppression),
      (after.filter fun x => x.inCatalog && x.suppressed && f.isAlone x).map
        (Occurrence.finding f.path .redundantSuppression), ?_, ?_⟩
    · rw [redundant_eq_map, hsplit]
      simp [hfound, hsuppressed, halone]
    · rw [redundant_eq_map]
      simp only [isAlone_unmarked]
      rw [hsplit']
      simp [Occurrence.withSuppressed, unmarked]

/-! ### The text without the comment -/

/-- What is read of a `.java` source from which the line comment of a line with an occurrence was
cut out. -/
theorem read_uncommented {t' : Tree} {g : SourceFile} {pre comment post : Text} {o : Occurrence}
    (hjava : Token.Source.ofPath f.path = .ok .java)
    (htext : t.readText f.path = .ok (pre ++ comment ++ post))
    (hend : (pre ++ comment ++ post).getLast? = some Code.lineFeed) (hread : f.read s t = .ok g)
    (ho : o ∈ g.occurrences) (hcomment : Token.Java.IsLineComment pre comment post o.line)
    (htext' : t'.readText f.path = .ok (pre ++ post)) :
    f.read s t' = .ok (g.unmarked o.line) := by
  have htokens : ∀ text : Text, Token.ofSource f.path text = .ok (Token.Java.tokens text) := by
    intro text
    rw [Token.ofSource, hjava]
    rfl
  have hordered := Token.Java.pairwise_precedes_tokens (pre ++ comment ++ post)
  rw [read_eq_ok htext (htokens _)] at hread
  obtain rfl := Except.ok.inj hread
  obtain ⟨k, hk, hcode, hline⟩ := Occurrence.exists_isCode_of_mem_ofTokens hordered ho
  obtain ⟨ks, ks', hsplit, hless⟩ := Token.Java.tokens_uncommented hcomment hend
  rw [hsplit] at hordered hk
  -- the token of the occurrence stands before the comment, as nothing stands behind it on the line
  have hbefore : k ∈ ks := by
    rcases List.mem_append.1 hk with hk | hk
    · exact hk
    · rcases List.mem_cons.1 hk with rfl | hk
      · simp [Occurrence.isCode] at hcode
      · have hpair := (List.pairwise_append.1 hordered).2.1
        have := (List.rel_of_pairwise_cons hpair hk).2 rfl
        simp only at this
        omega
  rw [read_eq_ok htext' (htokens _), hless ⟨k, hbefore, hline⟩, hsplit,
    Occurrence.ofTokens_remove rfl hordered]
  rfl

theorem hasForm_congr {g : SourceFile} (h : g.path = f.path) : g.hasForm s t = f.hasForm s t := by
  rw [hasForm, hasForm, h]

/-- What a report says of a source depends on the tree only by whether there is a form. -/
theorem exists_report_eq (s : Settings) (t : Tree) (f : SourceFile) :
    ∃ form failure, ∀ (g : SourceFile) (t' : Tree) (r : Report),
      g.hasForm s t' = f.hasForm s t →
        g.report s t' r = ((r.countFile .source).addAll (g.findings form), failure) := by
  cases hform : f.hasForm s t with
  | error failure =>
      refine ⟨true, some failure, fun g t' r hg => ?_⟩
      rw [report_eq, hg, findings, if_pos rfl, List.append_nil]
  | ok form =>
      refine ⟨form, none, fun g t' r hg => ?_⟩
      rw [report_eq, hg]

theorem mem_redundant_of_mem_findings {form : Bool} {x : Finding} (h : x ∈ f.findings form)
    (hkind : x.kind = .redundantSuppression) : form = false ∧ x ∈ f.redundant := by
  rcases List.mem_append.1 h with h | h
  · exact absurd hkind (kind_of_mem_missing h)
  · cases form with
    | true => simp at h
    | false => exact ⟨rfl, h⟩

/-- **A suppression without a purpose can be taken away.** Where a `.java` source whose text ends
in a line feed has a finding about one, the line has a line comment. Without the text of this
comment the source is read again with the same texts, and so with the same uses, and its report is
the same but for this finding. -/
theorem unmarking_safe (s : Settings) (t : Tree) (catalogs : List Catalog) (r : Report)
    {f : SourceFile} {text : Text} (hjava : Token.Source.ofPath f.path = .ok .java)
    (htext : t.readText f.path = .ok text) (hend : text.getLast? = some Code.lineFeed) :
    ∃ g added, f.read s t = .ok g ∧
      ((g.lookUp catalogs).report s t r).1.findings = r.findings ++ added ∧
      ∀ x ∈ added, x.kind = .redundantSuppression →
        ∃ line : Nat, x.line = line ∧
          (∃ pre comment post, text = pre ++ comment ++ post ∧
            Token.Java.IsLineComment pre comment post line) ∧
          ∀ pre comment post, text = pre ++ comment ++ post →
            Token.Java.IsLineComment pre comment post line →
            ∀ t' : Tree, t'.readText f.path = .ok (pre ++ post) →
              f.hasForm s t' = f.hasForm s t →
              ∃ g' before after, f.read s t' = .ok g' ∧ g'.texts = g.texts ∧
                added = before ++ x :: after ∧
                (g'.lookUp catalogs).report s t' r =
                  ({ ((g.lookUp catalogs).report s t r).1 with
                      findings := r.findings ++ (before ++ after) },
                    ((g.lookUp catalogs).report s t r).2) := by
  have htokens : Token.ofSource f.path text = .ok (Token.Java.tokens text) := by
    rw [Token.ofSource, hjava]
    rfl
  have hread := read_eq_ok (s := s) htext htokens
  generalize hg : ({ f with occurrences := Occurrence.ofTokens s (Token.Java.tokens text) } :
    SourceFile) = g at hread
  have hform : ∀ t', (g.lookUp catalogs).hasForm s t' = f.hasForm s t' := fun t' =>
    hasForm_congr (by rw [← hg]; rfl)
  obtain ⟨form, failure, hreport⟩ := exists_report_eq s t f
  refine ⟨g, (g.lookUp catalogs).findings form, hread, ?_, fun x hx hkind => ?_⟩
  · rw [hreport _ t r (hform t)]
    rfl
  · obtain ⟨rfl, hmem⟩ := mem_redundant_of_mem_findings hx hkind
    obtain ⟨o, ho, hfound, hsuppressed, halone, rfl⟩ := exists_of_mem_redundant hmem
    obtain ⟨o', ho', hline⟩ : ∃ o' ∈ g.occurrences, o'.line = o.line := by
      obtain ⟨o', ho', rfl⟩ := List.mem_map.1 ho
      exact ⟨o', ho', rfl⟩
    refine ⟨o.line, rfl, ?_, ?_⟩
    · -- the mark that suppresses the occurrence
      rw [← hg] at ho
      rw [suppressed_lookUp ho] at hsuppressed
      obtain ⟨k, hk, hcomment, -, hkline⟩ := Occurrence.isMarked_iff.1 hsuppressed
      obtain ⟨pre, post, hsplit, hcomment⟩ := Token.Java.exists_isLineComment hk hcomment
      exact ⟨pre, k.text, post, hsplit, hkline ▸ hcomment⟩
    · rintro pre comment post rfl hcomment t' htext' hform'
      have hread' := read_uncommented hjava htext hend hread ho' (hline ▸ hcomment) htext'
      obtain ⟨hmissing, before, after, hredundant, hredundant'⟩ :=
        findings_unmarked ho hfound hsuppressed halone
      refine ⟨g.unmarked o'.line, (g.lookUp catalogs).missing ++ before, after, hread',
        texts_unmarked _ g, ?_, ?_⟩
      · rw [findings, if_neg Bool.false_ne_true, hredundant, List.append_assoc]
      · have hunmarked : ((g.unmarked o'.line).lookUp catalogs).hasForm s t' = f.hasForm s t :=
          (hasForm_congr rfl).trans ((hform t').trans hform')
        rw [hreport _ t r (hform t), hreport _ t' r hunmarked, lookUp_unmarked, hline, findings,
          if_neg Bool.false_ne_true, hmissing, hredundant', ← List.append_assoc]
        rfl

/-- A line whose only literal is a key, up to a comment. -/
def codeText : Text := "a = \"key\"; "

/-- The comment of that line, which is a mark. -/
def commentText : Text := "// NOI18N"

/-- The end of the line, and another one. -/
def restText : Text := "\r\nb = 1;\n"

/-- A tree that holds a source. -/
def treeWith (text : Text) : Tree := { entries := [([Text.ofString "A.java"], .ofText text)] }

/-- A catalog with this key. -/
def keyCatalog : Catalog :=
  { path := [], kind := .primaryCatalog, entries := [{ key := "key", value := [], line := 1 }] }

theorem unmarking_safe_sample :
    Token.Source.ofPath markedSource.path = .ok .java ∧
    (treeWith (codeText ++ commentText ++ restText)).readText markedSource.path =
      .ok (codeText ++ commentText ++ restText) ∧
    (codeText ++ commentText ++ restText).getLast? = some Code.lineFeed ∧
    ∃ g g', markedSource.read .standard (treeWith (codeText ++ commentText ++ restText)) = .ok g ∧
      markedSource.read .standard (treeWith (codeText ++ restText)) = .ok g' ∧ g'.texts = g.texts ∧
      ((g.lookUp [keyCatalog]).report .standard (treeWith (codeText ++ commentText ++ restText))
        { name := [] }).1.findings = [⟨.redundantSuppression, markedSource.path, 1, "key"⟩] ∧
      ((g'.lookUp [keyCatalog]).report .standard (treeWith (codeText ++ restText))
        { name := [] }).1.findings = [] := by
  have hjava : Token.Source.ofPath markedSource.path = .ok .java := by rfl
  have htext : (treeWith (codeText ++ commentText ++ restText)).readText markedSource.path =
      .ok (codeText ++ commentText ++ restText) := Failure.eq_ok_of_toOption (by decide +kernel)
  have htext' : (treeWith (codeText ++ restText)).readText markedSource.path =
      .ok (codeText ++ restText) := Failure.eq_ok_of_toOption (by decide +kernel)
  have htokens : Token.ofSource markedSource.path (codeText ++ commentText ++ restText) =
      .ok (Token.Java.tokens (codeText ++ commentText ++ restText)) := by
    rw [Token.ofSource, hjava]
    rfl
  have hcomment : Token.Java.IsLineComment codeText commentText restText 1 :=
    ⟨⟨(Token.Java.segments (codeText ++ commentText ++ restText).normalizeNewlines).take 7,
      (Token.Java.segments (codeText ++ commentText ++ restText).normalizeNewlines).drop 8,
      by decide +kernel, by decide +kernel⟩, by decide +kernel⟩
  obtain ⟨g, added, hread, hreport, hsafe⟩ :=
    unmarking_safe .standard _ [keyCatalog] { name := [] } hjava htext (by decide)
  have hg := Except.ok.inj (hread.symm.trans (read_eq_ok htext htokens))
  have hadded : added = [⟨.redundantSuppression, markedSource.path, 1, "key"⟩] := by
    have hform : (g.lookUp [keyCatalog]).hasForm .standard
        (treeWith (codeText ++ commentText ++ restText)) = .ok false := by
      rw [hg]
      rfl
    rw [report_eq, hform, hg] at hreport
    exact hreport.symm.trans (by decide +kernel)
  obtain ⟨line, hline, -, hsafe⟩ := hsafe ⟨.redundantSuppression, markedSource.path, 1, "key"⟩
    (by simp [hadded]) rfl
  obtain rfl : line = 1 := (Int.ofNat.inj hline).symm
  obtain ⟨g', before, after, hread', htexts, hsplit, hreport'⟩ := hsafe _ _ _ rfl hcomment
    (treeWith (codeText ++ restText)) htext' rfl
  have hnone : before ++ after = [] := by
    have hlength := congrArg List.length (hadded.symm.trans hsplit)
    simp only [List.length_append, List.length_cons, List.length_nil] at hlength
    exact List.eq_nil_of_length_eq_zero (by rw [List.length_append]; omega)
  refine ⟨hjava, htext, by decide, g, g', hread, hread', htexts, ?_, ?_⟩
  · rw [hreport, hadded]
    rfl
  · rw [hreport', hnone]
    rfl

end BundleAudit.SourceFile
