import BundleAudit.Proofs.Occurrence.Suppression
import BundleAudit.Proofs.Token.Spans

/-!
# BundleAudit.Proofs.Token.Delimiters

**The delimiters of a `.java` literal are removed exactly.** The automaton of
`BundleAudit.Proofs.Token.Spans` decides by escapes where a literal ends. `stripDelimiters`
sees its text only: it guesses the quotes from how the text begins and ends, and it tries the
longer ones first. Both agree: what it leaves of a closed literal is all that stands between
the quotes (`delimits_stripDelimiters`), and so that is what is looked up in the catalogs.

What is read of a literal behind its opening quotes is a `Form.Body`. A body is made of code
points that do not close it and of escapes, and it is closed by the quotes of its form or runs
out.
-/

namespace BundleAudit.Token.Java

/-! ### Closed literals -/

namespace Mode

/-- Where the automaton is behind a text, of which `pending` code points are taken already. -/
def behind (m : Mode) (pending offset : Nat) : Text → Mode
  | [] => m
  | c :: rest =>
    match pending with
    | n + 1 => m.behind n (offset + 1) rest
    | 0 =>
      let move := m.step offset (c :: rest)
      move.mode.behind (move.taken - 1) (offset + 1) rest

end Mode

/-- A literal is closed if there is code behind it, whatever stands there. -/
def IsClosedLiteral (literal : Text) : Prop := Mode.code.behind 0 0 literal = .code

instance (literal : Text) : Decidable (IsClosedLiteral literal) :=
  inferInstanceAs (Decidable (_ = _))

/-- The quotes in which a form stands. A comment has none. -/
def Form.quotes : Form → Text
  | .textBlock => [Code.doubleQuote, Code.doubleQuote, Code.doubleQuote]
  | .string => [Code.doubleQuote]
  | .character => [Code.singleQuote]
  | .lineComment | .blockComment => []

/-- What is read of a literal behind its opening quotes, and whether that closes it. -/
inductive Form.Body (form : Form) : Text → Bool → Prop
  | runsOut : Body form [] false
  | close : Body form form.quotes true
  | cons {c : Code} {b : Text} {closed : Bool} (hclosing : form.closing? (c :: b) = none)
      (hc : c ≠ Code.backslash) (hb : Body form b closed) : Body form (c :: b) closed
  | escape {d : Code} {b : Text} {closed : Bool}
      (hclosing : form.closing? (Code.backslash :: d :: b) = none) (hb : Body form b closed) :
      Body form (Code.backslash :: d :: b) closed

/-- A literal of a form, and what it says. -/
structure Delimits (form : Form) (literal content : Text) : Prop where
  opens : opening? literal = some (form, form.quotes.length)
  body : form.Body (literal.drop form.quotes.length) (decide (IsClosedLiteral literal))
  closed : IsClosedLiteral literal → literal = form.quotes ++ content ++ form.quotes
  /-- A string that is not closed ends before the end of its line. Only a quotation mark with a
  backslash in front of it may end it. -/
  unclosed : form = .string → ¬IsClosedLiteral literal →
    literal.tail.getLast? ≠ some Code.doubleQuote → literal = form.quotes ++ content

/-! ### Bodies -/

namespace Form

variable {form : Form} {b t : Text} {closed : Bool}

theorem Body.exists_content (h : form.Body b true) : ∃ content, b = content ++ form.quotes := by
  generalize hclosed : true = closed at h
  induction h with
  | runsOut => cases hclosed
  | close => exact ⟨[], rfl⟩
  | @cons c b _ _ _ _ ih =>
      obtain ⟨content, rfl⟩ := ih hclosed
      exact ⟨c :: content, rfl⟩
  | @escape d b _ _ _ ih =>
      obtain ⟨content, rfl⟩ := ih hclosed
      exact ⟨Code.backslash :: d :: content, rfl⟩

/-- Behind a body that closes there is code, and the form goes on behind one that does not. -/
theorem Body.behind (h : form.Body b closed) (hform : form = .textBlock ∨ form = .string)
    (start offset : Nat) :
    (Mode.within form start).behind 0 offset b = if closed then .code else .within form start := by
  have hliteral : form.isLiteral = true := by rcases hform with rfl | rfl <;> rfl
  induction h generalizing offset with
  | runsOut => rfl
  | close => rcases hform with rfl | rfl <;> rfl
  | @cons c b closed hclosing hc _ ih =>
      rw [← ih (offset + 1)]
      simp [Mode.behind, Mode.step, hclosing, width_cons hc]
  | @escape d b closed hclosing _ ih =>
      rw [← ih (offset + 2)]
      simp [Mode.behind, Mode.step, hclosing, width, hliteral]

theorem exists_body_of_textBlockBody? {parts : Text × Text} (h : textBlockBody? t = some parts) :
    ∃ closed, textBlock.Body parts.1 closed := by
  fun_induction textBlockBody? t generalizing parts with
  | case1 =>
      cases h
      exact ⟨false, .runsOut⟩
  | case2 =>
      cases h
      exact ⟨true, .close⟩
  | case3 => simp at h
  | case4 d rest ih =>
      obtain ⟨inner, hinner, rfl⟩ := Option.map_eq_some_iff.1 h
      obtain ⟨closed, hbody⟩ := ih hinner
      exact ⟨closed, hbody.escape rfl⟩
  | case5 c rest hquotes hlone hescape ih =>
      obtain ⟨inner, hinner, rfl⟩ := Option.map_eq_some_iff.1 h
      obtain ⟨closed, hbody⟩ := ih hinner
      have hrest := joined_of_textBlockBody? hinner
      -- quotes in the body would be quotes in the text
      have hnot : ∀ more, c :: inner.1 ≠
          Code.doubleQuote :: Code.doubleQuote :: Code.doubleQuote :: more := by
        intro more heq
        obtain ⟨hc, hfirst⟩ := List.cons.inj heq
        rw [joined, hfirst] at hrest
        exact hquotes _ hc hrest.symm
      have hc := ne_backslash_of_textBlockBody? hlone hescape
      exact ⟨closed, hbody.cons (closing?_textBlock_eq_none hnot) hc⟩

theorem exists_body_quotedBody (t : Text) :
    ∃ closed, string.Body (quotedBody Code.doubleQuote t).1 closed := by
  fun_induction quotedBody Code.doubleQuote t with
  | case1 => exact ⟨false, .runsOut⟩
  | case2 => exact ⟨false, .runsOut⟩
  | case3 c hc =>
      obtain ⟨hfeed, hslash⟩ := not_or.1 hc
      by_cases hq : c = Code.doubleQuote
      · subst hq
        exact ⟨true, .close⟩
      · exact ⟨false, Body.runsOut.cons (quotedClosing?_eq_none hq hfeed fun h =>
          absurd h hslash) hslash⟩
  | case4 => exact ⟨true, .close⟩
  | case5 => exact ⟨false, .runsOut⟩
  | case6 => exact ⟨false, .runsOut⟩
  | case7 d rest hd hq hc ih =>
      obtain ⟨closed, hbody⟩ := ih
      exact ⟨closed, hbody.escape (quotedClosing?_eq_none hq hc fun _ h => hd (Option.some.inj h))⟩
  | case8 c d rest hq hc hesc ih =>
      obtain ⟨closed, hbody⟩ := ih
      exact ⟨closed, hbody.cons (quotedClosing?_eq_none hq hc fun h => absurd h hesc) hesc⟩

end Form

/-! ### Quotes -/

section

variable {quotes inner : Text}
  (hletter : (quotes ++ inner).dropWhile Code.isAsciiLetter = quotes ++ inner)
  (hfind : delimiters.find? (·.isPrefixOf (quotes ++ inner)) = some quotes)

include hletter hfind

theorem stripDelimiters_of_not_isSuffixOf (h : quotes.isSuffixOf inner = false) :
    stripDelimiters (quotes ++ inner) = inner := by
  simp [stripDelimiters, hletter, hfind, h]

theorem stripDelimiters_append {content : Text} (h : inner = content ++ quotes) :
    stripDelimiters (quotes ++ inner) = content := by
  obtain rfl := h
  simp [stripDelimiters, hletter, hfind]

end

namespace Form

variable {form : Form} {b : Text} {closed : Bool}

theorem dropWhile_quotes (hform : form = .textBlock ∨ form = .string) (b : Text) :
    (form.quotes ++ b).dropWhile Code.isAsciiLetter = form.quotes ++ b := by
  rcases hform with rfl | rfl <;> rfl

/-- Only what closes a string begins with a quotation mark. -/
theorem Body.ne_of_string (h : string.Body b closed) (rest : Text) :
    b ≠ Code.doubleQuote :: Code.doubleQuote :: rest := by
  rintro rfl
  cases h with
  | cons hclosing => cases hclosing

theorem Body.opening? (h : form.Body b closed) (hform : form = .textBlock ∨ form = .string) :
    Java.opening? (form.quotes ++ b) = some (form, form.quotes.length) := by
  rcases hform with rfl | rfl
  · rfl
  · have hne := h.ne_of_string
    change Java.opening? (Code.doubleQuote :: b) = _
    unfold Java.opening?
    split <;> simp_all [Code.doubleQuote, quotes]

/-- The quotes of a form are the first ones that fit. -/
theorem Body.find?_delimiters (h : form.Body b closed)
    (hform : form = .textBlock ∨ form = .string) :
    delimiters.find? (·.isPrefixOf (form.quotes ++ b)) = some form.quotes := by
  rcases hform with rfl | rfl
  · rfl
  · have hlong : [Code.doubleQuote, Code.doubleQuote].isPrefixOf b = false := by
      rw [Bool.eq_false_iff]
      intro hprefix
      obtain ⟨rest, hrest⟩ := List.isPrefixOf_iff_prefix.1 hprefix
      exact h.ne_of_string rest hrest.symm
    have hdelimiters : delimiters = [[0x22, 0x22, 0x22], [0x27, 0x27, 0x27], [0x22], [0x27]] := rfl
    rw [hdelimiters]
    simp_all [List.isPrefixOf, Code.doubleQuote, quotes]

theorem Body.behind_quotes (h : form.Body b closed) (hform : form = .textBlock ∨ form = .string) :
    Mode.code.behind 0 0 (form.quotes ++ b) = if closed then .code else .within form 0 := by
  have hopening := h.opening? hform
  rw [← h.behind hform 0 form.quotes.length]
  rcases hform with rfl | rfl
  · simp_all [quotes, Mode.behind, Mode.step]
  · simp_all [quotes, Mode.behind, Mode.step]

theorem Body.isClosedLiteral_iff (h : form.Body b closed)
    (hform : form = .textBlock ∨ form = .string) :
    IsClosedLiteral (form.quotes ++ b) ↔ closed = true := by
  rw [IsClosedLiteral, h.behind_quotes hform]
  cases closed <;> simp

theorem Body.delimits (h : form.Body b closed) (hform : form = .textBlock ∨ form = .string) :
    Delimits form (form.quotes ++ b) (stripDelimiters (form.quotes ++ b)) := by
  have hclosed := h.isClosedLiteral_iff hform
  have hletter := dropWhile_quotes hform b
  have hfind := h.find?_delimiters hform
  refine ⟨h.opening? hform, ?_, ?_, ?_⟩
  · simpa [hclosed] using h
  · intro hliteral
    obtain rfl := hclosed.1 hliteral
    obtain ⟨content, hcontent⟩ := h.exists_content
    rw [stripDelimiters_append hletter hfind hcontent, List.append_assoc, ← hcontent]
  · intro hstring _ hlast
    obtain rfl := hstring
    have hsuffix : string.quotes.isSuffixOf b = false := by
      rw [Bool.eq_false_iff]
      intro hsuffix
      obtain ⟨content, rfl⟩ := List.isSuffixOf_iff_suffix.1 hsuffix
      exact hlast List.getLast?_concat
    rw [stripDelimiters_of_not_isSuffixOf hletter hfind hsuffix]

end Form

/-! ### Tokens -/

theorem Segment.kind_eq_string_iff (s : Segment) :
    s.kind = .string ↔ s.shape = .textBlock ∨ s.shape = .quotedString := by
  obtain ⟨shape, text⟩ := s
  cases shape with
  | word =>
      simp only [kind, Kind.ofWord]
      split <;> simp
  | _ => simp [kind]

/-- The first segment of a text, if it is a literal. -/
theorem exists_delimits_segmentAfter {c : Code} {t : Text}
    (h : (segmentAfter c t).1 = .textBlock ∨ (segmentAfter c t).1 = .quotedString) :
    ∃ form, (form = .textBlock ∨ form = .string) ∧
      Delimits form (c :: (segmentAfter c t).2.1)
        (stripDelimiters (c :: (segmentAfter c t).2.1)) := by
  revert h
  fun_cases segmentAfter c t with
  | case3 rest parts hparts =>
      intro _
      obtain ⟨closed, hbody⟩ := Form.exists_body_of_textBlockBody? hparts
      exact ⟨.textBlock, .inl rfl, hbody.delimits (.inl rfl)⟩
  | case4 rest =>
      intro _
      obtain ⟨closed, hbody⟩ :=
        Form.exists_body_quotedBody (Code.doubleQuote :: Code.doubleQuote :: rest)
      exact ⟨.string, .inr rfl, hbody.delimits (.inr rfl)⟩
  | case5 t =>
      intro _
      obtain ⟨closed, hbody⟩ := Form.exists_body_quotedBody t
      exact ⟨.string, .inr rfl, hbody.delimits (.inr rfl)⟩
  | case1 | case2 | case6 | case7 | case8 | case9 | case10 | case11 => simp_all

theorem exists_delimits_of_mem_segments {t : Text} {s : Segment} (h : s ∈ segments t)
    (hkind : s.kind = .string) :
    ∃ form, (form = .textBlock ∨ form = .string) ∧
      Delimits form s.text (stripDelimiters s.text) := by
  fun_induction segments t with
  | case1 => cases h
  | case2 c t parts ih =>
      rcases List.mem_cons.1 h with rfl | h
      · exact exists_delimits_segmentAfter ((Segment.kind_eq_string_iff _).1 hkind)
      · exact ih h

/-- **What is looked up of a literal is what stands between its quotes**, whatever that is: nothing
at all, quotation marks with a backslash in front of them, or letters. -/
theorem delimits_stripDelimiters (t : Text) :
    (∀ k ∈ tokens t, k.kind = .string →
      ∃ form, (form = .textBlock ∨ form = .string) ∧
        Delimits form k.text (stripDelimiters k.text)) ∧
    ∀ s, ∀ o ∈ Occurrence.ofTokens s (tokens t),
      ∃ k ∈ tokens t, k.kind = .string ∧ k.line = o.line ∧ o.text = stripDelimiters k.text := by
  constructor
  · intro k hk hkind
    obtain ⟨before, s, after, hsegments, rfl⟩ := exists_segment_of_mem_ofSegments hk
    have hmem : s ∈ segments t.normalizeNewlines := by simp [hsegments]
    exact exists_delimits_of_mem_segments hmem hkind
  · intro s
    refine Occurrence.forall_mem_ofTokens (fun o ho => ho) fun k hk hkind o htext hline _ => ?_
    exact ⟨k, hk, hkind, hline.symm, htext⟩

/-- A text with quotation marks within its literals: an empty string, one that begins with a letter
and ends with an escaped quotation mark, a text block with quotation marks at both ends, and a
string that is not closed. -/
def quotedText : Text := "a \"\" \"b\\\"\" \"\"\"\"c\\\"\"\"\"\n\"d"

theorem delimits_stripDelimiters_sample :
    (tokens quotedText).filter (·.kind = .string) =
        [⟨.string, "\"\"", 1⟩, ⟨.string, "\"b\\\"\"", 1⟩, ⟨.string, "\"\"\"\"c\\\"\"\"\"", 1⟩,
          ⟨.string, "\"d", 2⟩] ∧
      ((tokens quotedText).filter (·.kind = .string)).map (fun k => stripDelimiters k.text) =
        [[], "b\\\"", "\"c\\\"", "d"] ∧
      (∃ form, (form = .textBlock ∨ form = .string) ∧
        Delimits form "\"\"\"\"c\\\"\"\"\"" "\"c\\\"") ∧
      ∃ form, (form = .textBlock ∨ form = .string) ∧ Delimits form "\"d" "d" := by
  obtain ⟨hall, -⟩ := delimits_stripDelimiters quotedText
  have hblock : ⟨.string, "\"\"\"\"c\\\"\"\"\"", 1⟩ ∈ tokens quotedText := by decide +kernel
  have hopen : ⟨.string, "\"d", 2⟩ ∈ tokens quotedText := by decide +kernel
  exact ⟨by decide +kernel, by decide +kernel, hall _ hblock rfl, hall _ hopen rfl⟩

end BundleAudit.Token.Java
