import BundleAudit.Occurrence
import BundleAudit.Proofs.Token.JavaLines

/-!
# BundleAudit.Proofs.Occurrence.Suppression

**Which occurrences are suppressed.** The search marks occurrences backwards from a
comment and stops at the first one of another line. On tokens that come in the order
of their lines, with nothing after a comment on its line (`Token.Precedes`), this
reaches exactly the occurrences of the line of the comment
(`suppressed_eq_isMarked`).

The search carries the invariant `Tracks`: what has been found comes in descending
lines, none of them after the lines of the tokens read, and is suppressed just where
these tokens hold a mark.
-/

namespace BundleAudit.Occurrence

/-- Whether a token is a line comment with the suppression marker. -/
def isMark (s : Settings) (k : Token) : Bool :=
  k.kind == .lineComment && k.text.includes s.suppressionMarker

/-- Whether one of the tokens is a mark on a line. -/
def isMarked (s : Settings) (tokens : List Token) (line : Nat) : Bool :=
  tokens.any fun k => isMark s k && k.line == line

theorem isMarked_iff {s : Settings} {tokens : List Token} {line : Nat} :
    isMarked s tokens line = true ↔ ∃ k ∈ tokens, k.kind = .lineComment ∧
      k.text.includes s.suppressionMarker = true ∧ k.line = line := by
  simp [isMarked, isMark, and_assoc]

theorem isMarked_append (s : Settings) (xs ys : List Token) (line : Nat) :
    isMarked s (xs ++ ys) line = (isMarked s xs line || isMarked s ys line) := by
  simp [isMarked]

theorem isMarked_singleton (s : Settings) (k : Token) (line : Nat) :
    isMarked s [k] line = (isMark s k && k.line == line) := by
  simp [isMarked]

/-! ### One token -/

/-- What a literal adds is of its line, and nothing else is known of it yet. -/
theorem ofLiteral?_eq_some {s : Settings} {seen : LastSeen} {literal : Text} {line : Nat}
    {o : Occurrence} (h : ofLiteral? s seen literal line = some o) :
    o.text = Token.stripDelimiters literal ∧ o.line = line ∧ o.suppressed = false ∧
      o.inCatalog = false := by
  unfold ofLiteral? at h
  simp only at h
  split at h
  · cases h
  split at h
  · cases h
  split at h
  · cases h
  split at h
  · cases h
  · cases h
    exact ⟨rfl, rfl, rfl, rfl⟩

/-- Where lines descend from a line, marking it backwards marks all of it. -/
theorem suppressLine_eq_map {line : Nat} {found : List Occurrence}
    (hsorted : found.Pairwise fun a b => b.line ≤ a.line) (hle : ∀ o ∈ found, o.line ≤ line) :
    suppressLine line found =
      found.map fun o => if o.line = line then { o with suppressed := true } else o := by
  induction found with
  | nil => rfl
  | cons o rest ih =>
      obtain ⟨hfirst, hrest⟩ := List.pairwise_cons.1 hsorted
      by_cases h : o.line = line
      · have htail := ih hrest fun x hx => hle x (List.mem_cons_of_mem _ hx)
        simp [suppressLine, h, htail]
      · -- all the rest is of earlier lines, too
        have ho := hle o List.mem_cons_self
        have hkeep : rest.map (fun o => if o.line = line then { o with suppressed := true } else o)
            = rest.map id := by
          refine List.map_congr_left fun x hx => if_neg ?_
          have := hfirst x hx
          omega
        simp [suppressLine, h, hkeep]

/-- What a token does to what has been found. -/
theorem step_cases (s : Settings) (p : Progress) (k : Token) :
    (∃ o, k.kind = .string ∧ ofLiteral? s p.seen k.text k.line = some o ∧
      step s p k = { p with found := o :: p.found }) ∨
    (isMark s k = true ∧ step s p k = { p with found := suppressLine k.line p.found }) ∨
    (isMark s k = false ∧ (step s p k).found = p.found) := by
  cases hkind : k.kind with
  | string =>
      cases ho : ofLiteral? s p.seen k.text k.line with
      | some o => exact .inl ⟨o, rfl, rfl, by simp [step, hkind, ho]⟩
      | none => exact .inr (.inr ⟨by simp [isMark, hkind], by simp [step, hkind, ho]⟩)
  | lineComment =>
      by_cases hmark : k.text.includes s.suppressionMarker = true
      · exact .inr (.inl ⟨by simp [isMark, hkind, hmark], by simp [step, hkind, hmark]⟩)
      · exact .inr (.inr ⟨by simp [isMark, hkind, hmark], by simp [step, hkind, hmark]⟩)
  | identifier =>
      refine .inr (.inr ⟨by simp [isMark, hkind], ?_⟩)
      simp only [step, hkind]
      split
      · rfl
      · split <;> rfl
  | annotationMark | assertKeyword | other =>
      exact .inr (.inr ⟨by simp [isMark, hkind], by simp [step, hkind]⟩)

/-! ### The run -/

/-- What holds of the progress after the tokens `done`. -/
structure Tracks (s : Settings) (done : List Token) (p : Progress) : Prop where
  /-- The last one found comes first. -/
  descending : p.found.Pairwise fun a b => b.line ≤ a.line
  /-- Every occurrence is of the line of a token. -/
  ofLine : ∀ o ∈ p.found, ∃ k ∈ done, k.line = o.line
  suppressed : ∀ o ∈ p.found, o.suppressed = isMarked s done o.line

theorem Tracks.start (s : Settings) : Tracks s [] {} where
  descending := List.Pairwise.nil
  ofLine := by simp
  suppressed := by simp

/-- No line found is after that of the next token. -/
theorem Tracks.le_line {s : Settings} {done : List Token} {p : Progress} {k : Token}
    (h : Tracks s done p) (hnext : ∀ d ∈ done, d.Precedes k) : ∀ o ∈ p.found, o.line ≤ k.line := by
  intro o ho
  obtain ⟨d, hd, hline⟩ := h.ofLine o ho
  rw [← hline]
  exact (hnext d hd).1

/-- No mark read so far is on the line of the next token. -/
theorem isMarked_eq_false_of_precedes {s : Settings} {done : List Token} {k : Token}
    (hnext : ∀ d ∈ done, d.Precedes k) : isMarked s done k.line = false := by
  rw [Bool.eq_false_iff]
  intro hmarked
  obtain ⟨d, hd, hkind, -, hline⟩ := isMarked_iff.1 hmarked
  have := (hnext d hd).2 hkind
  omega

/-- A token that is no mark says nothing about suppression. -/
theorem isMarked_append_of_not_isMark {s : Settings} {k : Token} (h : isMark s k = false)
    (done : List Token) (line : Nat) : isMarked s (done ++ [k]) line = isMarked s done line := by
  rw [isMarked_append, isMarked_singleton, h, Bool.false_and, Bool.or_false]

theorem Tracks.step {s : Settings} {done : List Token} {p : Progress} {k : Token}
    (h : Tracks s done p) (hnext : ∀ d ∈ done, d.Precedes k) :
    Tracks s (done ++ [k]) (Occurrence.step s p k) := by
  have hle := h.le_line hnext
  have hof : ∀ o ∈ p.found, ∃ d ∈ done ++ [k], d.line = o.line := by
    intro o ho
    obtain ⟨d, hd, hline⟩ := h.ofLine o ho
    exact ⟨d, List.mem_append_left _ hd, hline⟩
  rcases step_cases s p k with ⟨o, hkind, ho, hstep⟩ | ⟨hmark, hstep⟩ | ⟨hmark, hstep⟩
  · -- a literal: its line has no mark yet, and the others keep theirs
    obtain ⟨-, hline, hsuppressed, -⟩ := ofLiteral?_eq_some ho
    have hmark : isMark s k = false := by simp [isMark, hkind]
    rw [hstep]
    refine ⟨List.Pairwise.cons (fun x hx => hline ▸ hle x hx) h.descending, ?_, ?_⟩
    · intro x hx
      rcases List.mem_cons.1 hx with rfl | hx
      · exact ⟨k, by simp, hline.symm⟩
      · exact hof x hx
    · intro x hx
      rw [isMarked_append_of_not_isMark hmark]
      rcases List.mem_cons.1 hx with rfl | hx
      · rw [hsuppressed, hline, isMarked_eq_false_of_precedes hnext]
      · exact h.suppressed x hx
  · -- a mark: it reaches all that is of its line
    rw [hstep, suppressLine_eq_map h.descending hle]
    refine ⟨?_, ?_, ?_⟩
    · refine List.pairwise_map.2 (h.descending.imp fun {a b} hab => ?_)
      split <;> split <;> exact hab
    · intro x hx
      obtain ⟨o, ho, rfl⟩ := List.mem_map.1 hx
      obtain ⟨d, hd, hline⟩ := hof o ho
      refine ⟨d, hd, ?_⟩
      split <;> exact hline
    · intro x hx
      obtain ⟨o, ho, rfl⟩ := List.mem_map.1 hx
      rw [isMarked_append, isMarked_singleton, hmark, Bool.true_and]
      by_cases hline : o.line = k.line
      · simp [hline]
      · have hbeq : (k.line == o.line) = false := by simpa using fun he => hline he.symm
        simp [hline, hbeq, h.suppressed o ho]
  · -- nothing found changes
    refine ⟨hstep ▸ h.descending, hstep ▸ hof, ?_⟩
    intro x hx
    rw [isMarked_append_of_not_isMark hmark]
    exact h.suppressed x (hstep ▸ hx)

theorem Tracks.run {s : Settings} {done : List Token} {p : Progress} (h : Tracks s done p)
    (tokens : List Token) (hordered : (done ++ tokens).Pairwise Token.Precedes) :
    Tracks s (done ++ tokens) (tokens.foldl (Occurrence.step s) p) := by
  induction tokens generalizing done p with
  | nil => simpa using h
  | cons k rest ih =>
      have hnext : ∀ d ∈ done, d.Precedes k := fun d hd =>
        (List.pairwise_append.1 hordered).2.2 d hd k List.mem_cons_self
      have := ih (h.step hnext) (by simpa using hordered)
      simpa using this

/-- An occurrence is suppressed just where its line has a mark. -/
theorem suppressed_eq_isMarked {s : Settings} {tokens : List Token}
    (hordered : tokens.Pairwise Token.Precedes) {o : Occurrence} (h : o ∈ ofTokens s tokens) :
    o.suppressed = isMarked s tokens o.line := by
  have htracks := (Tracks.start s).run tokens (by simpa using hordered)
  rw [List.nil_append] at htracks
  exact htracks.suppressed o (List.mem_reverse.1 h)

/-! ### What holds of all occurrences -/

section

variable {P : Occurrence → Prop} (hmark : ∀ o, P o → P { o with suppressed := true })

include hmark

theorem forall_mem_suppressLine {line : Nat} {found : List Occurrence} (h : ∀ o ∈ found, P o) :
    ∀ o ∈ suppressLine line found, P o := by
  induction found with
  | nil => exact h
  | cons o rest ih =>
      obtain ⟨ho, hrest⟩ := List.forall_mem_cons.1 h
      rw [suppressLine]
      split
      · exact List.forall_mem_cons.2 ⟨hmark o ho, ih hrest⟩
      · exact h

/-- What holds of the occurrences that literals are, marked or not, holds of all, whatever the
order of the tokens. -/
theorem forall_mem_ofTokens {s : Settings} {tokens : List Token}
    (hliteral : ∀ k ∈ tokens, k.kind = .string → ∀ o : Occurrence,
      o.text = Token.stripDelimiters k.text → o.line = k.line → o.inCatalog = false → P o) :
    ∀ o ∈ ofTokens s tokens, P o := by
  have hrun : ∀ p : Progress, (∀ o ∈ p.found, P o) →
      ∀ o ∈ (tokens.foldl (step s) p).found, P o := by
    induction tokens with
    | nil => exact fun p hp => hp
    | cons k rest ih =>
        intro p hp
        obtain ⟨hk, hrest⟩ := List.forall_mem_cons.1 hliteral
        refine ih hrest (step s p k) ?_
        rcases step_cases s p k with ⟨o, hkind, ho, hstep⟩ | ⟨-, hstep⟩ | ⟨-, hstep⟩
        · obtain ⟨htext, hline, -, hcatalog⟩ := ofLiteral?_eq_some ho
          rw [hstep]
          exact List.forall_mem_cons.2 ⟨hk hkind o htext hline hcatalog, hp⟩
        · rw [hstep]
          exact forall_mem_suppressLine hmark hp
        · rw [hstep]
          exact hp
  intro o ho
  exact hrun {} (by simp) o (List.mem_reverse.1 ho)

end

/-- Before anything is looked up, no occurrence counts as being in a catalog. -/
theorem inCatalog_of_mem_ofTokens {s : Settings} {tokens : List Token} {o : Occurrence}
    (h : o ∈ ofTokens s tokens) : o.inCatalog = false :=
  forall_mem_ofTokens (P := fun o => o.inCatalog = false) (fun _ ho => ho)
    (fun _ _ _ _ _ _ hcatalog => hcatalog) o h

/-- The texts that occur are those of literals. -/
theorem text_of_mem_ofTokens {P : Text → Prop} {s : Settings} {tokens : List Token}
    (h : ∀ k ∈ tokens, k.kind = .string → P (Token.stripDelimiters k.text)) :
    ∀ o ∈ ofTokens s tokens, P o.text := by
  refine forall_mem_ofTokens (fun _ ho => ho) fun k hk hkind o htext _ _ => ?_
  rw [htext]
  exact h k hk hkind

end BundleAudit.Occurrence
