import BundleAudit.Token.Java

/-!
# BundleAudit.Proofs.Token.JavaLines

**The lines of the tokens of a `.java` source.** Tokens come in the order of their
lines, and nothing starts on the line of a line comment after the comment: a comment
goes on to the end of its line, so what follows it begins with a line feed, and that
belongs to a blank segment. Both are stated by `Token.Precedes`, and hold of any two
tokens (`pairwise_precedes_tokens`).
-/

namespace BundleAudit.Token

/-- How a token stands to one after it: not on a later line, and on an earlier one if it is a line
comment. -/
def Precedes (a b : Token) : Prop := a.line ≤ b.line ∧ (a.kind = .lineComment → a.line < b.line)

namespace Java

/-! ### Where tokens start -/

/-- No token starts before the line on which its segments start. -/
theorem le_line_of_mem_ofSegments {line : Nat} {segs : List Segment} {k : Token}
    (h : k ∈ ofSegments line segs) : line ≤ k.line := by
  induction segs generalizing line with
  | nil => simp [ofSegments] at h
  | cons s rest ih =>
      have hrest : k ∈ ofSegments (line + s.text.lineFeeds) rest → line ≤ k.line := by
        intro hk
        have := ih hk
        omega
      rw [ofSegments] at h
      split at h
      · exact hrest h
      · rcases List.mem_cons.1 h with rfl | hk
        · exact Nat.le_refl _
        · exact hrest hk

/-- A line feed begins a blank segment. -/
theorem segmentAfter_lineFeed (t : Text) :
    segmentAfter Code.lineFeed t = (.blank, run Code.isBlank t) := by
  rfl

/-- What follows a line feed starts on a later line. -/
theorem lt_line_after_lineFeed {line : Nat} {t : Text} {k : Token}
    (h : k ∈ ofSegments line (segments (Code.lineFeed :: t))) : line < k.line := by
  rw [segments, segmentAfter_lineFeed, ofSegments, if_pos rfl] at h
  have hline := le_line_of_mem_ofSegments h
  have hfeeds : 0 < Text.lineFeeds (Code.lineFeed :: (run Code.isBlank t).1) := by
    simp [Text.lineFeeds]
  exact Nat.lt_of_lt_of_le (Nat.lt_add_of_pos_right hfeeds) hline

/-! ### Line comments -/

/-- Only a segment that is a line comment is a token of that kind. -/
theorem Segment.kind_eq_lineComment_iff (s : Segment) :
    s.kind = .lineComment ↔ s.shape = .lineComment := by
  obtain ⟨shape, text⟩ := s
  cases shape with
  | word =>
      simp only [Segment.kind, Kind.ofWord]
      split <;> simp
  | _ => simp [Segment.kind]

/-- A line comment goes on to the end of its line. -/
theorem rest_of_lineComment {c : Code} {t : Text} (h : (segmentAfter c t).1 = .lineComment) :
    (segmentAfter c t).2.2 = [] ∨ ∃ rest, (segmentAfter c t).2.2 = Code.lineFeed :: rest := by
  -- only two slashes begin a line comment; all other branches have another shape
  unfold segmentAfter at h ⊢
  split at h
  · next rest =>
      simp only [consFirst, run]
      cases hrest : rest.dropWhile (· != Code.lineFeed) with
      | nil => exact .inl rfl
      | cons d more =>
          have hd := List.head?_dropWhile_not (· != Code.lineFeed) rest
          rw [hrest] at hd
          exact .inr ⟨more, by simpa using hd⟩
  · simp at h
  · split at h <;> simp at h
  · simp at h
  · simp at h
  · simp at h
  · split at h
    · simp at h
    · split at h
      · simp at h
      · split at h <;> simp at h

/-- What follows a line comment starts on a later line. -/
theorem lt_line_after_lineComment {c : Code} {t : Text} (h : (segmentAfter c t).1 = .lineComment)
    {line : Nat} {k : Token} (hk : k ∈ ofSegments line (segments (segmentAfter c t).2.2)) :
    line < k.line := by
  rcases rest_of_lineComment h with hrest | ⟨rest, hrest⟩
  · rw [hrest, segments] at hk
    simp [ofSegments] at hk
  · rw [hrest] at hk
    exact lt_line_after_lineFeed hk

/-! ### The order of tokens -/

theorem pairwise_precedes_ofSegments (line : Nat) (t : Text) :
    (ofSegments line (segments t)).Pairwise Precedes := by
  -- by the recursion of the scanner: the segment read now stands before all that are read after it
  fun_induction segments t generalizing line with
  | case1 => exact List.Pairwise.nil
  | case2 c t s ih =>
      rw [ofSegments]
      split
      · exact ih _
      · refine List.Pairwise.cons (fun k hk => ⟨?_, fun hkind => ?_⟩) (ih _)
        · have := le_line_of_mem_ofSegments hk
          simp only at this ⊢
          omega
        · have hshape := (Segment.kind_eq_lineComment_iff _).1 hkind
          have := lt_line_after_lineComment hshape hk
          simp only at this ⊢
          omega

/-- Of any two tokens the first precedes the second. -/
theorem pairwise_precedes_tokens (t : Text) : (tokens t).Pairwise Precedes :=
  pairwise_precedes_ofSegments 1 t.normalizeNewlines

end Java

end BundleAudit.Token
