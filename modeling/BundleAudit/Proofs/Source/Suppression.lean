import BundleAudit.Proofs.Source.Verdict

/-!
# BundleAudit.Proofs.Source.Suppression

**Suppression in `.java` sources, from the text to the report.** A line with a mark,
which is a line comment that holds the suppression marker, has no finding about a
missing entry; on any other line every occurrence that is in no catalog has one. What
is a line comment is told by the tokens, so a marker in a literal or in a block
comment is no mark (`suppression_exact`).
-/

namespace BundleAudit.SourceFile

/-! ### Findings about one line -/

/-- The finding about an occurrence that wants an entry or a suppression. -/
def missingFinding (path : Text) (o : Occurrence) : Finding :=
  o.finding path (if o.nearLookup then .missingKey else .missingSuppressionOrKey)

theorem missing?_eq_some_iff {path : Text} {o : Occurrence} {x : Finding} :
    missing? path o = some x ↔
      o.inCatalog = false ∧ o.suppressed = false ∧ x = missingFinding path o := by
  unfold missing? missingFinding Occurrence.finding
  cases o.inCatalog <;> cases o.suppressed <;> simp
  exact eq_comm

/-- Whether a finding is about a missing entry on a line. -/
def isMissingOn (line : Nat) (x : Finding) : Bool := x.kind.isMissing && x.line == (line : Int)

theorem isMissingOn_missingFinding (path : Text) (o : Occurrence) (line : Nat) :
    isMissingOn line (missingFinding path o) = (o.line == line) := by
  have hline : ((o.line : Int) == (line : Int)) = (o.line == line) := by
    rw [Bool.eq_iff_iff, beq_iff_eq, beq_iff_eq]
    omega
  unfold isMissingOn missingFinding Occurrence.finding
  rw [hline]
  cases o.nearLookup <;> rfl

/-- The findings about missing entries of a line are the occurrences of the line that are neither in
a catalog nor suppressed. -/
theorem filter_isMissingOn_filterMap (path : Text) (line : Nat) (os : List Occurrence) :
    (os.filterMap (missing? path)).filter (isMissingOn line) =
      (os.filter fun o => o.line == line && !o.inCatalog && !o.suppressed).map
        (missingFinding path) := by
  induction os with
  | nil => rfl
  | cons o rest ih =>
      rw [List.filterMap_cons, List.filter_cons]
      cases hmissing : missing? path o with
      | none =>
          -- what has no finding is found in a catalog or suppressed
          have hdrop : (o.line == line && !o.inCatalog && !o.suppressed) = false := by
            unfold missing? at hmissing
            cases hfound : o.inCatalog <;> cases hsuppressed : o.suppressed <;>
              simp [hfound, hsuppressed] at hmissing ⊢
          simpa [hdrop] using ih
      | some x =>
          obtain ⟨hfound, hsuppressed, rfl⟩ := missing?_eq_some_iff.1 hmissing
          rw [List.filter_cons, isMissingOn_missingFinding, hfound, hsuppressed]
          by_cases hline : o.line = line
          · simpa [hline] using ih
          · simpa [hline] using ih

/-- What the report on a source gets: the findings about missing entries, and then none of that
sort. -/
theorem findings_report (s : Settings) (t : Tree) (f : SourceFile) (r : Report) :
    ∃ others, (f.report s t r).1.findings = r.findings ++ (f.missing ++ others) ∧
      ∀ line, others.filter (isMissingOn line) = [] := by
  have hredundant : ∀ line, f.redundant.filter (isMissingOn line) = [] := by
    intro line
    refine List.filter_eq_nil_iff.2 fun x hx => ?_
    obtain ⟨o, -, rfl⟩ := List.mem_map.1 hx
    simp [isMissingOn, Finding.Kind.isMissing]
  rw [report_eq]
  cases f.hasForm s t with
  | error failure => exact ⟨[], by simp [Report.addAll, Report.countFile], by simp⟩
  | ok form =>
      cases form with
      | true => exact ⟨[], by simp [Report.addAll, Report.countFile, findings], by simp⟩
      | false =>
          exact ⟨f.redundant, by simp [Report.addAll, Report.countFile, findings], hredundant⟩

/-! ### Sources that were read -/

/-- In what was read of a `.java` source and looked up, the marks of the text decide what is
suppressed. -/
theorem suppressed_lookUp {s : Settings} {text : Text} {path : Text} {catalogs : List Catalog}
    {o : Occurrence}
    (h : o ∈ (lookUp catalogs
      { path, occurrences := Occurrence.ofTokens s (Token.Java.tokens text) }).occurrences) :
    o.suppressed = Occurrence.isMarked s (Token.Java.tokens text) o.line := by
  obtain ⟨x, hx, rfl⟩ := List.mem_map.1 h
  show x.suppressed = Occurrence.isMarked s (Token.Java.tokens text) x.line
  exact Occurrence.suppressed_eq_isMarked (Token.Java.pairwise_precedes_tokens text) hx

/-- A token that holds the marker, but is no line comment, is no mark. -/
theorem not_isMarked_of_forall {s : Settings} {tokens : List Token} {line : Nat}
    (h : ∀ k ∈ tokens, k.line = line → k.text.includes s.suppressionMarker = true →
      k.kind = .string ∨ k.kind = .other) :
    Occurrence.isMarked s tokens line = false := by
  rw [Bool.eq_false_iff]
  intro hmarked
  obtain ⟨k, hk, hkind, hmarker, hline⟩ := Occurrence.isMarked_iff.1 hmarked
  rcases h k hk hline hmarker with hother | hother <;> simp [hkind] at hother

/-- **Suppression is exact.** A `.java` source that can be read has findings about missing entries
on a line just where the line has no mark: there, one for each occurrence that is in no catalog,
and no occurrence is suppressed. Markers in literals and block comments, which are tokens of the
kinds `string` and `other`, suppress nothing. -/
theorem suppression_exact (s : Settings) (t : Tree) (catalogs : List Catalog) (r : Report)
    {f : SourceFile} {text : Text} (hjava : Token.Source.ofPath f.path = .ok .java)
    (htext : t.readText f.path = .ok text) :
    ∃ g added, f.read s t = .ok g ∧
      ((g.lookUp catalogs).report s t r).1.findings = r.findings ++ added ∧
      ∀ line : Nat,
        (Occurrence.isMarked s (Token.Java.tokens text) line = true →
          added.filter (isMissingOn line) = []) ∧
        (Occurrence.isMarked s (Token.Java.tokens text) line = false →
          (∀ o ∈ (g.lookUp catalogs).occurrences, o.line = line → o.suppressed = false) ∧
          added.filter (isMissingOn line) =
            ((g.lookUp catalogs).occurrences.filter fun o =>
              o.line == line && !catalogs.any (·.hasKey o.text)).map (missingFinding f.path)) ∧
        ((∀ k ∈ Token.Java.tokens text, k.line = line →
            k.text.includes s.suppressionMarker = true → k.kind = .string ∨ k.kind = .other) →
          ∀ o ∈ (g.lookUp catalogs).occurrences, o.line = line → o.suppressed = false) := by
  have htokens : Token.ofSource f.path text = .ok (Token.Java.tokens text) := by
    rw [Token.ofSource, hjava]
    rfl
  obtain ⟨others, hreport, hothers⟩ := findings_report s t
    (lookUp catalogs { f with occurrences := Occurrence.ofTokens s (Token.Java.tokens text) }) r
  refine ⟨_, _, read_eq_ok htext htokens, hreport, fun line => ?_⟩
  rw [List.filter_append, hothers, List.append_nil, missing, filter_isMissingOn_filterMap]
  refine ⟨fun hmarked => ?_, fun hmarked => ⟨fun o ho hline => ?_, ?_⟩, fun hkinds o ho hline => ?_⟩
  · -- a marked line: each of its occurrences is suppressed
    rw [List.map_eq_nil_iff, List.filter_eq_nil_iff]
    intro o ho
    by_cases hline : o.line = line
    · simp [suppressed_lookUp ho, hline, hmarked]
    · simp [hline]
  · rw [suppressed_lookUp ho, hline, hmarked]
  · -- a line without a mark: what decides is whether a catalog has the text
    refine congrArg (List.map (missingFinding f.path)) (List.filter_congr fun o ho => ?_)
    have hfound := inCatalog_lookUp (fun x hx => Occurrence.inCatalog_of_mem_ofTokens hx) ho
    cases hline : o.line == line with
    | false => rfl
    | true =>
        rw [hfound, suppressed_lookUp ho, eq_of_beq hline, hmarked, Bool.not_false, Bool.and_true]
  · rw [suppressed_lookUp ho, hline, not_isMarked_of_forall hkinds]

/-- A source with a mark on its first line, and the marker in a literal and in a block comment on
its second one. -/
def markedText : Text := "a = \"one\"; // NOI18N\nb = \"two NOI18N\"; /* NOI18N */\n"

/-- A tree that holds this source. -/
def markedTree : Tree :=
  { entries := [([Text.ofString "A.java"], .ofText markedText)] }

/-- The source of that name, before it is read. -/
def markedSource : SourceFile := { path := "/A.java" }

theorem suppression_exact_marked :
    Token.Source.ofPath markedSource.path = .ok .java ∧
    markedTree.readText markedSource.path = .ok markedText ∧
    ∃ g added, markedSource.read .standard markedTree = .ok g ∧
      ((g.lookUp []).report .standard markedTree { name := [] }).1.findings = [] ++ added ∧
      added.filter (isMissingOn 1) = [] ∧
      added.filter (isMissingOn 2) =
        [⟨.missingSuppressionOrKey, markedSource.path, 2, "two NOI18N"⟩] := by
  have hjava : Token.Source.ofPath markedSource.path = .ok .java := by rfl
  have htext : markedTree.readText markedSource.path = .ok markedText :=
    Failure.eq_ok_of_toOption (by decide +kernel)
  obtain ⟨g, added, hread, hreport, hlines⟩ :=
    suppression_exact .standard markedTree [] { name := [] } hjava htext
  have hmarked : Occurrence.isMarked .standard (Token.Java.tokens markedText) 1 = true := by
    decide +kernel
  have hunmarked : Occurrence.isMarked .standard (Token.Java.tokens markedText) 2 = false := by
    decide +kernel
  have htokens : Token.ofSource markedSource.path markedText =
    .ok (Token.Java.tokens markedText) := by
    rw [Token.ofSource, hjava]
    rfl
  have hg : g = { markedSource with
      occurrences := Occurrence.ofTokens .standard (Token.Java.tokens markedText) } :=
    Except.ok.inj (hread.symm.trans (read_eq_ok htext htokens))
  refine ⟨hjava, htext, g, added, hread, hreport, (hlines 1).1 hmarked, ?_⟩
  rw [((hlines 2).2.1 hunmarked).2, hg]
  decide +kernel

end BundleAudit.SourceFile
