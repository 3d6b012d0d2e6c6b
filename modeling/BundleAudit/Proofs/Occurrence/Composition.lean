import BundleAudit.Proofs.Occurrence.Suppression
import BundleAudit.Proofs.Token.JavaCut

/-!
# BundleAudit.Proofs.Occurrence.Composition

**The occurrences of a text behind a closed one.** What the search carries from the
tokens before a line is of earlier lines: where the telling tokens stood, and what a
mark may reach backwards. So the tokens behind that line give the occurrences that they
give alone, on later lines (`ofTokens_append_later`). For a `.java` text that ends in a
line feed within white space, this makes the occurrences of a longer text those of its
parts (`ofTokens_tokens_append`).
-/

namespace BundleAudit.Occurrence

/-- The same occurrence a number of lines further down. -/
def later (n : Nat) (o : Occurrence) : Occurrence := { o with line := o.line + n }

variable {s : Settings} {n line : Nat}

/-! ### What has been read up to a line -/

/-- Nothing has been seen or found behind a line. -/
structure Progress.EndsBy (n : Nat) (p : Progress) : Prop where
  lookup : ∀ l, p.seen.lookup = some l → l ≤ n
  annotated : ∀ l, p.seen.annotated = some l → l ≤ n
  asserted : ∀ l, p.seen.asserted = some l → l ≤ n
  font : ∀ l, p.seen.font = some l → l ≤ n
  found : ∀ o ∈ p.found, o.line ≤ n

theorem line_le_of_mem_suppressLine {found : List Occurrence} (h : ∀ o ∈ found, o.line ≤ n) :
    ∀ o ∈ suppressLine line found, o.line ≤ n := by
  induction found with
  | nil => simp [suppressLine]
  | cons o rest ih =>
      obtain ⟨ho, hrest⟩ := List.forall_mem_cons.1 h
      rw [suppressLine]
      split
      · exact List.forall_mem_cons.2 ⟨ho, ih hrest⟩
      · exact h

theorem Progress.EndsBy.step {p : Progress} (h : p.EndsBy n) {k : Token} (hk : k.line ≤ n) :
    (Occurrence.step s p k).EndsBy n := by
  have hline : ∀ l, some k.line = some l → l ≤ n := fun l hl => Option.some.inj hl ▸ hk
  unfold Occurrence.step
  split
  · -- a literal adds an occurrence of its line
    split
    · next o ho =>
        have hfound := (ofLiteral?_eq_some ho).2.1 ▸ hk
        exact { h with found := List.forall_mem_cons.2 ⟨hfound, h.found⟩ }
    · exact h
  · split
    · exact { h with found := line_le_of_mem_suppressLine h.found }
    · exact h
  · split
    · exact { h with lookup := hline }
    · split
      · exact { h with font := hline }
      · exact h
  · exact { h with annotated := hline }
  · exact { h with asserted := hline }
  · exact h

theorem Progress.EndsBy.run {p : Progress} (h : p.EndsBy n) {tokens : List Token}
    (htokens : ∀ k ∈ tokens, k.line ≤ n) : (tokens.foldl (Occurrence.step s) p).EndsBy n := by
  induction tokens generalizing p with
  | nil => exact h
  | cons k rest ih =>
      obtain ⟨hk, hrest⟩ := List.forall_mem_cons.1 htokens
      exact ih (h.step hk) hrest

/-! ### Two searches side by side -/

/-- A line is remembered in one search as it is, further down, in the other. -/
def SameLine (n : Nat) (here there : Option Nat) : Prop :=
  ∀ line, 1 ≤ line → (there = some (line + n) ↔ here = some line)

theorem SameLine.beq {here there : Option Nat} (h : SameLine n here there) (hline : 1 ≤ line) :
    (there == some (line + n)) = (here == some line) := by
  rw [Bool.eq_iff_iff, beq_iff_eq, beq_iff_eq]
  exact h line hline

theorem SameLine.none {there : Option Nat} (h : ∀ l, there = some l → l ≤ n) :
    SameLine n none there := by
  intro line hline
  refine iff_of_false (fun heq => ?_) (by simp)
  have := h _ heq
  omega

theorem SameLine.some (n line : Nat) : SameLine n (some line) (some (line + n)) := by
  intro l _
  simp only [Option.some.injEq]
  omega

/-- How a search that began after other lines, with the occurrences `old`, stands to one that begins
with the same tokens. -/
structure Follows (n : Nat) (old : List Occurrence) (here there : Progress) : Prop where
  lookup : SameLine n here.seen.lookup there.seen.lookup
  annotated : SameLine n here.seen.annotated there.seen.annotated
  asserted : SameLine n here.seen.asserted there.seen.asserted
  font : SameLine n here.seen.font there.seen.font
  found : there.found = here.found.map (later n) ++ old

variable {old : List Occurrence} {here there : Progress}

theorem Follows.start (h : there.EndsBy n) : Follows n there.found {} there where
  lookup := .none h.lookup
  annotated := .none h.annotated
  asserted := .none h.asserted
  font := .none h.font
  found := rfl

theorem Follows.ofLiteral? (h : Follows n old here there) (hline : 1 ≤ line) (literal : Text) :
    ofLiteral? s there.seen literal (line + n) =
      (ofLiteral? s here.seen literal line).map (later n) := by
  unfold Occurrence.ofLiteral?
  simp only [h.lookup.beq hline, h.annotated.beq hline, h.asserted.beq hline, h.font.beq hline]
  split
  · rfl
  split
  · rfl
  split
  · rfl
  split
  · rfl
  · rfl

/-- A mark does not reach beyond what was found on its line. -/
theorem suppressLine_later_append (hold : ∀ o ∈ old, o.line ≠ line + n) (found : List Occurrence) :
    suppressLine (line + n) (found.map (later n) ++ old) =
      (suppressLine line found).map (later n) ++ old := by
  induction found with
  | nil =>
      cases old with
      | nil => rfl
      | cons o rest => exact if_neg (hold o List.mem_cons_self)
  | cons o rest ih =>
      rw [List.map_cons, List.cons_append, suppressLine, suppressLine, ih]
      by_cases ho : o.line = line
      · have hlater : (later n o).line = line + n := congrArg (· + n) ho
        rw [if_pos ho, if_pos hlater]
        rfl
      · have hlater : (later n o).line ≠ line + n := fun heq => ho (Nat.add_right_cancel heq)
        rw [if_neg ho, if_neg hlater]
        rfl

theorem Follows.step (h : Follows n old here there) (hold : ∀ o ∈ old, o.line ≤ n) {k : Token}
    (hk : 1 ≤ k.line) :
    Follows n old (Occurrence.step s here k) (Occurrence.step s there (k.later n)) := by
  have hseen : SameLine n (some k.line) (some (k.later n).line) := .some n k.line
  unfold Occurrence.step
  rw [show (k.later n).kind = k.kind from rfl, show (k.later n).text = k.text from rfl]
  split
  · -- a literal
    rw [show (k.later n).line = k.line + n from rfl, h.ofLiteral? hk]
    cases Occurrence.ofLiteral? s here.seen k.text k.line with
    | none => exact h
    | some o => exact { h with found := congrArg (later n o :: ·) h.found }
  · -- a mark
    split
    · refine { h with found := ?_ }
      rw [show (k.later n).line = k.line + n from rfl, h.found]
      refine suppressLine_later_append (fun o ho heq => ?_) _
      have := hold o ho
      omega
    · exact h
  · split
    · exact { h with lookup := hseen }
    · split
      · exact { h with font := hseen }
      · exact h
  · exact { h with annotated := hseen }
  · exact { h with asserted := hseen }
  · exact h

theorem Follows.run (h : Follows n old here there) (hold : ∀ o ∈ old, o.line ≤ n)
    {tokens : List Token} (htokens : ∀ k ∈ tokens, 1 ≤ k.line) :
    Follows n old (tokens.foldl (Occurrence.step s) here)
      ((tokens.map (Token.later n)).foldl (Occurrence.step s) there) := by
  induction tokens generalizing here there with
  | nil => exact h
  | cons k rest ih =>
      obtain ⟨hk, hrest⟩ := List.forall_mem_cons.1 htokens
      exact ih (h.step hold hk) hrest

/-! ### The whole search -/

/-- Tokens that follow others on later lines give the occurrences that they give alone. -/
theorem ofTokens_append_later {xs ys : List Token} (hxs : ∀ k ∈ xs, k.line ≤ n)
    (hys : ∀ k ∈ ys, 1 ≤ k.line) :
    ofTokens s (xs ++ ys.map (Token.later n)) =
      ofTokens s xs ++ (ofTokens s ys).map (later n) := by
  have hends : (xs.foldl (step s) {}).EndsBy n :=
    Progress.EndsBy.run ⟨by simp, by simp, by simp, by simp, by simp⟩ hxs
  have hfollows := (Follows.start hends).run (s := s) hends.found hys
  rw [ofTokens, List.foldl_append, hfollows.found, List.reverse_append, ← List.map_reverse]
  rfl

/-- **Occurrences are found part by part.** Behind a text that ends in a line feed within white
space stand the occurrences of the text that follows, as it has them alone, on lines further down
by the lines of the first text. -/
theorem ofTokens_tokens_append (s : Settings) {a : Text} (hend : a.getLast? = some Code.lineFeed)
    (hclosed : Token.Java.IsClosed a) (b : Text) :
    ofTokens s (Token.Java.tokens (a ++ b)) =
      ofTokens s (Token.Java.tokens a) ++
        (ofTokens s (Token.Java.tokens b)).map (later a.normalizeNewlines.lineFeeds) := by
  rw [Token.Java.tokens_append hend hclosed]
  exact ofTokens_append_later (fun k hk => Token.Java.line_le_of_mem_tokens hend hk)
    fun k hk => Token.Java.le_line_of_mem_ofSegments hk

/-- A text that ends within white space. -/
def closedText : Text := "a = \"one\"; // NOI18N\r\n  \n"

/-- A text with a mark in a comment that is not closed. -/
def openText : Text := "  b = \"two\"; /* NOI18N"

theorem ofTokens_tokens_append_sample :
    closedText.getLast? = some Code.lineFeed ∧ Token.Java.IsClosed closedText ∧
      ofTokens .standard (Token.Java.tokens (closedText ++ openText)) =
        [{ text := "one", line := 1, suppressed := true }, { text := "two", line := 3 }] := by
  have hclosed : Token.Java.IsClosed closedText :=
    ⟨(Token.Java.segments closedText.normalizeNewlines).dropLast, [0x0A, 0x20, 0x20, 0x0A],
      by decide +kernel⟩
  refine ⟨by decide, hclosed, ?_⟩
  rw [ofTokens_tokens_append .standard (by decide) hclosed]
  decide +kernel

end BundleAudit.Occurrence
