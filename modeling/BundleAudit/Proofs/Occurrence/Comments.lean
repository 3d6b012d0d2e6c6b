import BundleAudit.Proofs.Occurrence.Suppression

/-!
# BundleAudit.Proofs.Occurrence.Comments

**Line comments decide on suppression and on nothing else.** Without them the search
finds the same occurrences, and suppresses none (`ofTokens_filter_isCode`). Which are
suppressed is told by the marks (`ofTokens_eq_map`). So a comment that is taken away
matters to the occurrences of its own line only (`ofTokens_remove`).
-/

namespace BundleAudit.Occurrence

variable {s : Settings}

/-- The same occurrence, suppressed or not. -/
def withSuppressed (suppressed : Bool) (o : Occurrence) : Occurrence := { o with suppressed }

/-- Whether a token is no line comment. -/
def isCode (k : Token) : Bool := k.kind != .lineComment

/-! ### A search without comments -/

/-- How a search that leaves out the line comments stands to one that does not. -/
structure LeavesOut (code all : Progress) : Prop where
  seen : code.seen = all.seen
  found : code.found = all.found.map (withSuppressed false)

theorem map_suppressLine (line : Nat) (found : List Occurrence) :
    (suppressLine line found).map (withSuppressed false) = found.map (withSuppressed false) := by
  induction found with
  | nil => rfl
  | cons o rest ih =>
      rw [suppressLine]
      split
      · rw [List.map_cons, List.map_cons, ih]
        rfl
      · rfl

/-- A token that is no comment is read by both searches. -/
theorem LeavesOut.step {code all : Progress} (h : LeavesOut code all) {k : Token}
    (hk : isCode k = true) : LeavesOut (Occurrence.step s code k) (Occurrence.step s all k) := by
  cases hkind : k.kind with
  | lineComment => simp [isCode, hkind] at hk
  | string =>
      simp only [Occurrence.step, hkind, h.seen]
      cases ho : ofLiteral? s all.seen k.text k.line with
      | none => exact h
      | some o =>
          have hbare : withSuppressed false o = o := by
            rw [withSuppressed, ← (ofLiteral?_eq_some ho).2.2.1]
          refine ⟨rfl, ?_⟩
          dsimp only
          rw [List.map_cons, hbare, h.found]
  | identifier =>
      simp only [Occurrence.step, hkind, h.seen]
      split
      · exact ⟨rfl, h.found⟩
      · split
        · exact ⟨rfl, h.found⟩
        · exact h
  | annotationMark | assertKeyword =>
      simp only [Occurrence.step, hkind, h.seen]
      exact ⟨rfl, h.found⟩
  | other =>
      simp only [Occurrence.step, hkind]
      exact h

/-- A comment changes nothing but suppressions. -/
theorem LeavesOut.comment {code all : Progress} (h : LeavesOut code all) {k : Token}
    (hk : k.kind = .lineComment) : LeavesOut code (Occurrence.step s all k) := by
  simp only [Occurrence.step, hk]
  split
  · exact ⟨h.seen, h.found.trans (map_suppressLine _ _).symm⟩
  · exact h

theorem LeavesOut.run {code all : Progress} (h : LeavesOut code all) (tokens : List Token) :
    LeavesOut ((tokens.filter isCode).foldl (Occurrence.step s) code)
      (tokens.foldl (Occurrence.step s) all) := by
  induction tokens generalizing code all with
  | nil => exact h
  | cons k rest ih =>
      cases hk : isCode k with
      | true =>
          rw [List.filter_cons_of_pos hk]
          exact ih (h.step hk)
      | false =>
          rw [List.filter_cons_of_neg (by simp [hk])]
          exact ih (h.comment (by simpa [isCode] using hk))

/-- Without line comments the same occurrences are found, and none is suppressed. -/
theorem ofTokens_filter_isCode (s : Settings) (tokens : List Token) :
    ofTokens s (tokens.filter isCode) = (ofTokens s tokens).map (withSuppressed false) := by
  have hstart : LeavesOut {} {} := ⟨rfl, rfl⟩
  rw [ofTokens, (hstart.run tokens).found, ← List.map_reverse]
  rfl

/-- The occurrences are those that are found without line comments, with the suppressions that the
marks tell. -/
theorem ofTokens_eq_map {tokens : List Token} (hordered : tokens.Pairwise Token.Precedes) :
    ofTokens s tokens = (ofTokens s (tokens.filter isCode)).map fun o =>
      o.withSuppressed (isMarked s tokens o.line) := by
  have hself : ∀ o ∈ ofTokens s tokens,
      ((fun o => o.withSuppressed (isMarked s tokens o.line)) ∘ withSuppressed false) o = id o := by
    intro o ho
    show withSuppressed (isMarked s tokens o.line) o = o
    rw [← suppressed_eq_isMarked hordered ho]
    rfl
  rw [ofTokens_filter_isCode, List.map_map, List.map_congr_left hself, List.map_id]

/-! ### One comment less -/

/-- Every occurrence stands on the line of a token that is no comment. -/
theorem exists_isCode_of_mem_ofTokens {tokens : List Token}
    (hordered : tokens.Pairwise Token.Precedes) {o : Occurrence} (h : o ∈ ofTokens s tokens) :
    ∃ k ∈ tokens, isCode k = true ∧ k.line = o.line := by
  have hbare : o.withSuppressed false ∈ ofTokens s (tokens.filter isCode) := by
    rw [ofTokens_filter_isCode]
    exact List.mem_map_of_mem h
  have htracks := (Tracks.start s).run (tokens.filter isCode) (by simpa using hordered.filter _)
  obtain ⟨k, hk, hline⟩ := htracks.ofLine _ (List.mem_reverse.1 hbare)
  obtain ⟨hmem, hcode⟩ := List.mem_filter.1 hk
  exact ⟨k, hmem, hcode, hline⟩

/-- There is no second comment on the line of a comment. -/
theorem isMarked_eq_false_of_one {xs ys : List Token} {k : Token} (hk : k.kind = .lineComment)
    (hordered : (xs ++ k :: ys).Pairwise Token.Precedes) :
    isMarked s (xs ++ ys) k.line = false := by
  obtain ⟨-, hys, hxs⟩ := List.pairwise_append.1 hordered
  have hbehind : isMarked s ys k.line = false := by
    rw [Bool.eq_false_iff]
    intro hmarked
    obtain ⟨d, hd, -, -, hline⟩ := isMarked_iff.1 hmarked
    have := (List.rel_of_pairwise_cons hys hd).2 hk
    omega
  have hbefore : isMarked s xs k.line = false :=
    isMarked_eq_false_of_precedes fun d hd => hxs d hd k List.mem_cons_self
  rw [isMarked_append, hbefore, hbehind]
  rfl

/-- **A comment decides on the suppression of its line,** and on nothing else. -/
theorem ofTokens_remove {xs ys : List Token} {k : Token} (hk : k.kind = .lineComment)
    (hordered : (xs ++ k :: ys).Pairwise Token.Precedes) :
    ofTokens s (xs ++ ys) = (ofTokens s (xs ++ k :: ys)).map fun o =>
      if o.line = k.line then o.withSuppressed false else o := by
  have hless : (xs ++ ys).Pairwise Token.Precedes :=
    hordered.sublist ((List.Sublist.refl xs).append (List.sublist_cons_self k ys))
  have hcode : (xs ++ k :: ys).filter isCode = (xs ++ ys).filter isCode := by
    simp [isCode, hk]
  rw [ofTokens_eq_map hless, ofTokens_eq_map hordered, hcode, List.map_map]
  refine List.map_congr_left fun o _ => ?_
  show o.withSuppressed (isMarked s (xs ++ ys) o.line) =
    if o.line = k.line then o.withSuppressed false
    else o.withSuppressed (isMarked s (xs ++ k :: ys) o.line)
  split
  · next hline => rw [hline, isMarked_eq_false_of_one hk hordered]
  · next hline =>
      have hother : (isMark s k && k.line == o.line) = false := by
        simpa using fun _ heq => hline heq.symm
      have hmarks : isMarked s (xs ++ k :: ys) o.line = isMarked s (xs ++ ys) o.line := by
        simp [isMarked, hother]
      rw [hmarks]

end BundleAudit.Occurrence
