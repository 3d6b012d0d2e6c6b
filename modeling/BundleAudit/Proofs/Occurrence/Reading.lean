import BundleAudit.Proofs.Occurrence.Suppression
import BundleAudit.Proofs.Place

/-!
# BundleAudit.Proofs.Occurrence.Reading

**The occurrences of a source, place by place.** The search reads the tokens once. Of the
tokens behind it, it remembers a line for each class of telling tokens, and a mark goes
back over what has been found. On tokens in the order of their lines all this is said of
the place of a literal alone: of the tokens before it and after it on its line
(`ofTokens_eq_filterMap`).

The search carries the invariant `Reads`: it remembers the last line of each class, and
what it has found is what the places of the tokens read so far hold.
-/

namespace BundleAudit.Occurrence

/-! ### What stands at a place -/

/-- Whether a token is the lookup identifier. -/
def isLookup (s : Settings) (k : Token) : Bool :=
  k.kind == .identifier && k.text == s.lookupIdentifier

/-- Whether a token is the font identifier. One that is the lookup identifier as well does
not count. -/
def isFont (s : Settings) (k : Token) : Bool :=
  k.kind == .identifier && k.text == s.fontIdentifier && k.text != s.lookupIdentifier

/-- Whether a token marks an annotation. -/
def isAnnotation (k : Token) : Bool := k.kind == .annotationMark

/-- Whether a token is the keyword of an assertion. -/
def isAssertion (k : Token) : Bool := k.kind == .assertKeyword

/-- Whether one of the tokens is of a class and of a line. -/
def isOnLine (q : Token → Bool) (tokens : List Token) (line : Nat) : Bool :=
  tokens.any fun k => q k && k.line == line

/-- Whether a token of a class stands before a place, on its line. -/
def hasBefore (q : Token → Bool) (p : Place Token) : Bool := isOnLine q p.before p.item.line

/-- Whether a token of a class stands after a place, on its line. -/
def hasAfter (q : Token → Bool) (p : Place Token) : Bool := isOnLine q p.after p.item.line

/-- Whether the settings leave out the literal at a place. -/
def isLeftOut (s : Settings) (p : Place Token) : Bool :=
  let text := Token.stripDelimiters p.item.text
  (s.skipTrivial && decide (text.trim.length ≤ 1)) ||
  (s.skipAnnotationArguments && hasBefore isAnnotation p) ||
  (s.skipAssertMessages && hasBefore isAssertion p) ||
  (s.knownFonts.elem text && hasBefore (isFont s) p)

/-- The occurrence at a place, if there is a literal that the settings do not leave out. -/
def ofPlace? (s : Settings) (p : Place Token) : Option Occurrence :=
  if p.item.kind = .string ∧ isLeftOut s p = false then
    some
      { text := Token.stripDelimiters p.item.text
        line := p.item.line
        nearLookup := hasBefore (isLookup s) p
        suppressed := hasAfter (isMark s) p
        annotationArgument := hasBefore isAnnotation p
        assertMessage := hasBefore isAssertion p
        inCatalog := false }
  else none

theorem line_of_ofPlace? {s : Settings} {p : Place Token} {o : Occurrence}
    (h : ofPlace? s p = some o) : o.line = p.item.line := by
  unfold ofPlace? at h
  split at h
  · cases h
    rfl
  · cases h

/-! ### The lines remembered -/

/-- The line of the last token of a class. -/
def lastLine (q : Token → Bool) (done : List Token) : Option Nat :=
  (done.reverse.find? q).map (·.line)

/-- What there is to remember of the tokens read. -/
def lastSeen (s : Settings) (done : List Token) : LastSeen where
  lookup := lastLine (isLookup s) done
  annotated := lastLine isAnnotation done
  asserted := lastLine isAssertion done
  font := lastLine (isFont s) done

theorem lastLine_concat (q : Token → Bool) (done : List Token) (k : Token) :
    lastLine q (done ++ [k]) = if q k then some k.line else lastLine q done := by
  unfold lastLine
  rw [List.reverse_append, List.reverse_singleton, List.singleton_append, List.find?_cons]
  cases q k <;> rfl

theorem isOnLine_concat (q : Token → Bool) (done : List Token) (k : Token) (line : Nat) :
    isOnLine q (done ++ [k]) line = (isOnLine q done line || (q k && k.line == line)) := by
  simp [isOnLine]

theorem isOnLine_eq_false {q : Token → Bool} {done : List Token} {line : Nat}
    (h : ∀ k ∈ done, k.line < line) : isOnLine q done line = false := by
  unfold isOnLine
  rw [List.any_eq_false]
  intro k hk
  have := h k hk
  simp [Nat.ne_of_lt this]

/-- On ordered tokens the last line of a class tells whether the class is on the line that
has been reached. -/
theorem lastLine_beq {q : Token → Bool} {done : List Token} {line : Nat}
    (hordered : done.Pairwise (·.line ≤ ·.line)) (hle : ∀ k ∈ done, k.line ≤ line) :
    (lastLine q done == some line) = isOnLine q done line := by
  induction done using List.reverseRecOn with
  | nil => rfl
  | append_singleton done k ih =>
      obtain ⟨hdone, -, hnext⟩ := List.pairwise_append.1 hordered
      have hk : k.line ≤ line := hle k (by simp)
      have hrest : ∀ d ∈ done, d.line ≤ k.line := fun d hd => hnext d hd k List.mem_cons_self
      rw [lastLine_concat, isOnLine_concat]
      cases hq : q k with
      | false =>
          rw [Bool.false_and, Bool.or_false]
          exact ih hdone fun d hd => hle d (by simp [hd])
      | true =>
          by_cases hline : k.line = line
          · simp [hline]
          · -- the line of `k` is over, and so are all lines before it
            have hover : isOnLine q done line = false :=
              isOnLine_eq_false fun d hd => by have := hrest d hd; omega
            simp [hover]

/-! ### One token -/

/-- What one more token makes of the occurrences before it. -/
def markBy (s : Settings) (k : Token) (o : Occurrence) : Occurrence :=
  if isMark s k = true ∧ o.line = k.line then { o with suppressed := true } else o

/-- A later token decides about suppression alone. -/
theorem ofPlace?_extend (s : Settings) (k : Token) (p : Place Token) :
    ofPlace? s (p.extend k) = (ofPlace? s p).map (markBy s k) := by
  unfold ofPlace?
  have hleft : isLeftOut s (p.extend k) = isLeftOut s p := rfl
  have hafter : hasAfter (isMark s) (p.extend k) =
      (hasAfter (isMark s) p || (isMark s k && k.line == p.item.line)) := isOnLine_concat ..
  rw [hleft, hafter, Place.extend]
  split
  · by_cases hmark : isMark s k = true ∧ p.item.line = k.line
    · have hbeq : (isMark s k && k.line == p.item.line) = true := by
        rw [hmark.1, hmark.2, BEq.rfl, Bool.and_self]
      rw [hbeq, Bool.or_true, Option.map_some, markBy, if_pos hmark]
      rfl
    · have hbeq : (isMark s k && k.line == p.item.line) = false := by
        rw [Bool.eq_false_iff]
        intro hboth
        obtain ⟨hm, hline⟩ := Bool.and_eq_true_iff.1 hboth
        exact hmark ⟨hm, (beq_iff_eq.1 hline).symm⟩
      rw [hbeq, Bool.or_false, Option.map_some, markBy, if_neg hmark]
      rfl
  · rfl

/-- The token read last, of which nothing later is known. -/
theorem ofPlace?_last {s : Settings} {done : List Token} {k : Token}
    (hordered : (done ++ [k]).Pairwise (·.line ≤ ·.line)) :
    ofPlace? s ⟨done, k, []⟩ =
      if k.kind = .string then ofLiteral? s (lastSeen s done) k.text k.line else none := by
  obtain ⟨hdone, -, hnext⟩ := List.pairwise_append.1 hordered
  have hbeq : ∀ q, (lastLine q done == some k.line) = hasBefore q ⟨done, k, []⟩ := fun q =>
    lastLine_beq hdone fun d hd => hnext d hd k List.mem_cons_self
  unfold ofPlace? ofLiteral? lastSeen isLeftOut
  simp only [hbeq]
  by_cases hkind : k.kind = .string
  · have hafter : hasAfter (isMark s) ⟨done, k, []⟩ = false := rfl
    simp only [hkind, hafter, true_and, if_true]
    grind
  · simp [hkind]

/-- The progress remembers of each class the line of its last token. -/
theorem seen_step {s : Settings} {done : List Token} {p : Progress} (k : Token)
    (h : p.seen = lastSeen s done) : (step s p k).seen = lastSeen s (done ++ [k]) := by
  unfold lastSeen at h ⊢
  simp only [lastLine_concat]
  cases hkind : k.kind with
  | string | lineComment =>
      have hstep : (step s p k).seen = p.seen := by
        unfold step
        simp only [hkind]
        split <;> rfl
      rw [hstep, h]
      simp [isLookup, isFont, isAnnotation, isAssertion, hkind]
  | identifier =>
      by_cases hlookup : k.text = s.lookupIdentifier
      · simp [step, isLookup, isFont, isAnnotation, isAssertion, hkind, hlookup, h]
      · by_cases hfont : k.text = s.fontIdentifier
        · have hne : s.fontIdentifier ≠ s.lookupIdentifier := hfont ▸ hlookup
          simp [step, isLookup, isFont, isAnnotation, isAssertion, hkind, hfont, hne, h]
        · simp [step, isLookup, isFont, isAnnotation, isAssertion, hkind, hlookup, hfont, h]
  | annotationMark | assertKeyword | other =>
      simp [step, isLookup, isFont, isAnnotation, isAssertion, hkind, h]

/-- What a token adds to what has been found, and what it does to the rest. -/
theorem found_step (s : Settings) (p : Progress) (k : Token) :
    (step s p k).found =
      (if k.kind = .string then ofLiteral? s p.seen k.text k.line else none).toList ++
        if isMark s k then suppressLine k.line p.found else p.found := by
  rcases step_cases s p k with ⟨o, hkind, ho, hstep⟩ | ⟨hmark, hstep⟩ | ⟨hmark, hstep⟩
  · simp [hstep, hkind, ho, isMark]
  · have hkind : k.kind = .lineComment := beq_iff_eq.1 (Bool.and_eq_true_iff.1 hmark).1
    simp [hstep, hkind, hmark]
  · by_cases hkind : k.kind = .string
    · cases ho : ofLiteral? s p.seen k.text k.line with
      | none => simp [hstep, hkind, hmark]
      | some o => simp [step, hkind, ho] at hstep
    · simp [hstep, hkind, hmark]

/-! ### The run -/

/-- What holds of the progress after the tokens `done`. -/
structure Reads (s : Settings) (done : List Token) (p : Progress) : Prop where
  seen : p.seen = lastSeen s done
  /-- The last one found comes first. -/
  found : p.found = ((places done).filterMap (ofPlace? s)).reverse

theorem Reads.start (s : Settings) : Reads s [] {} where
  seen := rfl
  found := rfl

/-- Occurrences come in the order of the tokens. -/
theorem pairwise_line_filterMap {s : Settings} {done : List Token}
    (hordered : done.Pairwise (·.line ≤ ·.line)) :
    ((places done).filterMap (ofPlace? s)).Pairwise (·.line ≤ ·.line) := by
  rw [← map_item_places done, List.pairwise_map] at hordered
  refine List.Pairwise.filterMap _ (fun p q hpq o ho u hu => ?_) hordered
  rw [line_of_ofPlace? ho, line_of_ofPlace? hu]
  exact hpq

theorem exists_line_of_mem_filterMap {s : Settings} {done : List Token} {o : Occurrence}
    (h : o ∈ (places done).filterMap (ofPlace? s)) : ∃ k ∈ done, o.line = k.line := by
  obtain ⟨p, hp, ho⟩ := List.mem_filterMap.1 h
  refine ⟨p.item, ?_, line_of_ofPlace? ho⟩
  rw [mem_places_iff.1 hp]
  exact List.mem_append_right _ List.mem_cons_self

theorem Reads.step {s : Settings} {done : List Token} {p : Progress} {k : Token}
    (h : Reads s done p) (hordered : (done ++ [k]).Pairwise (·.line ≤ ·.line)) :
    Reads s (done ++ [k]) (Occurrence.step s p k) := by
  obtain ⟨hdone, -, hnext⟩ := List.pairwise_append.1 hordered
  have hmark : (if isMark s k then suppressLine k.line p.found else p.found) =
      p.found.map (markBy s k) := by
    split
    · rename_i hmark
      have hsorted : p.found.Pairwise fun a b => b.line ≤ a.line := by
        rw [h.found, List.pairwise_reverse]
        exact pairwise_line_filterMap hdone
      have hle : ∀ o ∈ p.found, o.line ≤ k.line := by
        intro o ho
        rw [h.found, List.mem_reverse] at ho
        obtain ⟨d, hd, hline⟩ := exists_line_of_mem_filterMap ho
        rw [hline]
        exact hnext d hd k List.mem_cons_self
      rw [suppressLine_eq_map hsorted hle]
      exact List.map_congr_left fun o _ => by simp [markBy, hmark]
    · rename_i hmark
      have hid : markBy s k = id := funext fun o => if_neg fun hm => hmark hm.1
      rw [hid, List.map_id]
  refine ⟨seen_step k h.seen, ?_⟩
  have hextend : ofPlace? s ∘ Place.extend k = fun q => (ofPlace? s q).map (markBy s k) :=
    funext fun q => ofPlace?_extend s k q
  have hlast : (ofPlace? s ⟨done, k, []⟩).toList =
      ([⟨done, k, []⟩].filterMap (ofPlace? s)).reverse := by
    cases ho : ofPlace? s ⟨done, k, []⟩ <;> simp [ho]
  rw [found_step, hmark, h.seen, ← ofPlace?_last hordered, hlast, places_concat,
    List.filterMap_append, List.filterMap_map, hextend, ← List.map_filterMap,
    List.reverse_append, h.found, List.map_reverse]

theorem Reads.run {s : Settings} {done : List Token} {p : Progress} (h : Reads s done p)
    (tokens : List Token) (hordered : (done ++ tokens).Pairwise (·.line ≤ ·.line)) :
    Reads s (done ++ tokens) (tokens.foldl (Occurrence.step s) p) := by
  induction tokens generalizing done p with
  | nil => simpa using h
  | cons k rest ih =>
      rw [List.append_cons] at hordered ⊢
      exact ih (h.step (List.pairwise_append.1 hordered).1) hordered

/-- On tokens in the order of their lines, the occurrences are those of the places, each
decided by the tokens of its line before it and after it. -/
theorem ofTokens_eq_filterMap (s : Settings) {tokens : List Token}
    (hordered : tokens.Pairwise (·.line ≤ ·.line)) :
    ofTokens s tokens = (places tokens).filterMap (ofPlace? s) := by
  have hreads := (Reads.start s).run tokens (by simpa using hordered)
  rw [ofTokens, hreads.found, List.reverse_reverse, List.nil_append]

/-- A literal before its comment, one after it, and a font name with another literal. -/
def tokensOfThreeLines : List Token :=
  [⟨.identifier, "NbBundle", 3⟩, ⟨.string, "\"Save all\"", 3⟩, ⟨.lineComment, "// NOI18N", 3⟩,
    ⟨.lineComment, "// NOI18N", 4⟩, ⟨.string, "\"Open\"", 4⟩,
    ⟨.identifier, "Font", 7⟩, ⟨.string, "\"Arial\"", 7⟩, ⟨.string, "\"Save as\"", 7⟩]

theorem ofTokens_eq_filterMap_sample :
    tokensOfThreeLines.Pairwise (·.line ≤ ·.line) ∧
    (places tokensOfThreeLines).filterMap (ofPlace? .standard) =
      [{ text := "Save all", line := 3, nearLookup := true, suppressed := true },
        { text := "Open", line := 4 }, { text := "Save as", line := 7 }] ∧
    ofTokens .standard tokensOfThreeLines =
      (places tokensOfThreeLines).filterMap (ofPlace? .standard) := by
  have hordered : tokensOfThreeLines.Pairwise (·.line ≤ ·.line) := by decide
  exact ⟨hordered, by decide +kernel, ofTokens_eq_filterMap .standard hordered⟩

end BundleAudit.Occurrence
