import BundleAudit.Proofs.Token.Spans

/-!
# BundleAudit.Proofs.Token.Agreement

**The literals and line comments among the tokens of a `.java` text are those that the
automaton finds,** at the same offsets (`agree_located`). A token does not say at which
offset it stands, but white space is all that lies between two tokens, so their places
follow from their texts (`locate`). Both sides are then read off the same segments: a segment
is a token unless it is blank, and a span if it has a form.
-/

namespace BundleAudit.Token.Java

/-! ### Tokens at their offsets -/

/-- A token at its place in a text. -/
structure Located where
  token : Token
  start : Nat
  deriving DecidableEq, Repr

namespace Located

/-- The offset of its first code point, and the one behind its last. -/
def extent (k : Located) : Nat × Nat := (k.start, k.start + k.token.text.length)

end Located

/-- Some tokens where they stand in a text, which begins at an offset: each of them behind the white
space that follows the one before it. -/
def locate (offset : Nat) (t : Text) : List Token → List Located
  | [] => []
  | k :: rest =>
    let start := offset + (t.takeWhile Code.isBlank).length
    ⟨k, start⟩ ::
      locate (start + k.text.length) ((t.dropWhile Code.isBlank).drop k.text.length) rest

/-- The tokens of a text where they stand in it, once its line ends are normalised. -/
def located (t : Text) : List Located := locate 0 t.normalizeNewlines (tokens t)

theorem map_token_locate (offset : Nat) (t : Text) (ks : List Token) :
    (locate offset t ks).map (·.token) = ks := by
  induction ks generalizing offset t with
  | nil => rfl
  | cons k rest ih => rw [locate, List.map_cons, ih]

/-- White space in front of a text only moves what stands in it. -/
theorem locate_blanks_append {b : Text} (h : ∀ c ∈ b, c.isBlank = true) (offset : Nat) (t : Text)
    (ks : List Token) : locate offset (b ++ t) ks = locate (offset + b.length) t ks := by
  cases ks with
  | nil => rfl
  | cons k rest =>
      simp [locate, List.takeWhile_append_of_pos h, List.dropWhile_append_of_pos h, Nat.add_assoc]

/-- A token that a text begins with. -/
theorem locate_cons {k : Token} {c : Code} {more : Text} (htext : k.text = c :: more)
    (hc : c.isBlank = false) (offset : Nat) (t : Text) (ks : List Token) :
    locate offset (k.text ++ t) (k :: ks) =
      ⟨k, offset⟩ :: locate (offset + k.text.length) t ks := by
  have hblanks : (k.text ++ t).takeWhile Code.isBlank = [] ∧
      (k.text ++ t).dropWhile Code.isBlank = k.text ++ t := by
    simp [htext, hc]
  rw [locate, hblanks.1, hblanks.2, List.drop_left]
  rfl

/-- The token that a segment is, where it stands. -/
def locatedAt? (p : Place Segment) : Option Located :=
  (tokenAt? p).map fun k => ⟨k, (p.map Segment.text).start⟩

theorem locate_eq_filterMap (before : List Segment) (t : Text) :
    locate (before.flatMap Segment.text).length t
        ((placesAfter before (segments t)).filterMap tokenAt?) =
      (placesAfter before (segments t)).filterMap locatedAt? := by
  -- by the recursion of the segments: a blank one moves the rest, any other one is the next token
  fun_induction segments t generalizing before with
  | case1 => rfl
  | case2 c t parts ih =>
      have htext : c :: t = (c :: parts.2.1) ++ parts.2.2 :=
        congrArg (c :: ·) (joined_segmentAfter c t).symm
      have hrest := ih (before ++ [⟨parts.1, c :: parts.2.1⟩])
      rw [List.flatMap_append, List.flatMap_singleton, List.length_append] at hrest
      rw [placesAfter, List.filterMap_cons, List.filterMap_cons, ← hrest, htext,
        locatedAt?, start_map]
      by_cases hshape : parts.1 = .blank
      · have hblanks : ∀ d ∈ c :: parts.2.1, d.isBlank = true :=
          isBlank_of_mem_segmentAfter hshape
        simp only [tokenAt?, if_pos hshape, Option.map_none]
        exact locate_blanks_append hblanks _ _ _
      · have hc : c.isBlank = false := Bool.eq_false_iff.2 fun hc =>
          hshape (congrArg Prod.fst (segmentAfter_of_isBlank hc t))
        simp only [tokenAt?, if_neg hshape, Option.map_some]
        exact locate_cons rfl hc _ _ _

/-- The tokens of a text stand where its segments do. -/
theorem located_eq_filterMap (t : Text) :
    located t = (places (segments t.normalizeNewlines)).filterMap locatedAt? := by
  rw [located, tokens_eq_filterMap]
  exact locate_eq_filterMap [] _

/-- A token that is located is what the text holds there. -/
theorem text_of_mem_located {t : Text} {k : Located} (h : k ∈ located t) :
    k.token.text <+: t.normalizeNewlines.drop k.start := by
  rw [located_eq_filterMap] at h
  obtain ⟨p, hp, hk⟩ := List.mem_filterMap.1 h
  obtain ⟨token, htoken, rfl⟩ := Option.map_eq_some_iff.1 hk
  have htext : token.text = p.item.text := by
    rw [tokenAt?] at htoken
    split at htoken <;> cases htoken
    rfl
  have hsplit : t.normalizeNewlines =
      p.before.flatMap Segment.text ++ (p.item.text ++ p.after.flatMap Segment.text) := by
    rw [← flatMap_text_segments t.normalizeNewlines, mem_places_iff.1 hp]
    simp
  rw [htext, start_map, hsplit, List.drop_left]
  exact List.prefix_append _ _

/-! ### Agreement -/

/-- The kind of token that a span is. -/
def Form.kind : Form → Kind
  | .textBlock | .string => .string
  | .lineComment => .lineComment
  | .blockComment | .character => .other

/-- The offset of its first code point, and the one behind its last. -/
def Span.extent (s : Span) : Nat × Nat := (s.start, s.stop)

/-- Whether an offset is in an extent. -/
def Within (i : Nat) (extent : Nat × Nat) : Prop := extent.1 ≤ i ∧ i < extent.2

/-- The tokens of a text and its spans agree on what is a literal and what is a line comment. -/
structure Agree (t : Text) (ks : List Located) (ss : List Span) : Prop where
  /-- The strings are the spans of strings and text blocks. -/
  strings : (ks.filter fun k => k.token.kind = .string).map Located.extent =
    (ss.filter fun s => s.form = .string ∨ s.form = .textBlock).map Span.extent
  lineComments : (ks.filter fun k => k.token.kind = .lineComment).map Located.extent =
    (ss.filter fun s => s.form = .lineComment).map Span.extent
  /-- A block comment or a character literal is one token of another kind. -/
  others : ∀ s ∈ ss, s.form = .blockComment ∨ s.form = .character →
    ∃ k ∈ ks, k.token.kind = .other ∧ k.extent = s.extent
  /-- So is all else but white space a part of tokens of other kinds. -/
  remaining : ∀ i c, t[i]? = some c → c.isBlank = false →
    (∀ s ∈ ss, Within i s.extent → s.form = .blockComment ∨ s.form = .character) →
    ∃ k ∈ ks, Within i k.extent ∧ k.token.kind ≠ .string ∧ k.token.kind ≠ .lineComment

/-- A segment is a token of one of these two kinds just if it has a form of that kind. -/
theorem Segment.kind_eq_iff (s : Segment) {kind : Kind} (h : kind = .string ∨ kind = .lineComment) :
    s.kind = kind ↔ ∃ form, s.shape.form? = some form ∧ form.kind = kind := by
  obtain ⟨shape, text⟩ := s
  have hword : Kind.ofWord text ≠ kind := by
    rcases h with rfl | rfl <;> rw [Kind.ofWord] <;> split <;> simp
  rcases h with rfl | rfl <;> cases shape <;> simp [Segment.kind, Shape.form?, Form.kind, hword]

theorem Segment.kind_eq_other {s : Segment} {form : Form} (h : s.shape.form? = some form)
    (hform : form = .blockComment ∨ form = .character) : s.kind = .other := by
  obtain ⟨shape, text⟩ := s
  rcases hform with rfl | rfl <;> cases shape <;> simp_all [Segment.kind, Shape.form?]

/-- A blank segment has no form. -/
theorem ne_blank_of_form? {shape : Shape} {form : Form} (h : shape.form? = some form) :
    shape ≠ .blank := by
  rintro rfl
  cases h

/-- What covers the code points of a segment at its place. -/
def segmentExtent (p : Place Segment) : Nat × Nat :=
  ((p.map Segment.text).start, (p.map Segment.text).start + p.item.text.length)

theorem exists_locatedAt? {p : Place Segment} (h : p.item.shape ≠ .blank) :
    ∃ k, locatedAt? p = some k ∧ k.token.kind = p.item.kind ∧ k.extent = segmentExtent p :=
  ⟨_, by rw [locatedAt?, tokenAt?, if_neg h, Option.map_some], rfl, rfl⟩

theorem exists_spanAt? {p : Place Segment} {form : Form} (h : p.item.shape.form? = some form) :
    ∃ s, spanAt? p = some s ∧ s.form = form ∧ s.extent = segmentExtent p :=
  ⟨_, by rw [spanAt?, h, Option.map_some], rfl, rfl⟩

theorem extents_eq {kind : Kind} (h : kind = .string ∨ kind = .lineComment)
    (ps : List (Place Segment)) :
    ((ps.filterMap locatedAt?).filter fun k => k.token.kind = kind).map Located.extent =
      ((ps.filterMap spanAt?).filter fun s => s.form.kind = kind).map Span.extent := by
  rw [List.filter_filterMap, List.filter_filterMap, List.map_filterMap, List.map_filterMap]
  refine List.filterMap_congr fun p _ => ?_
  have hkind := Segment.kind_eq_iff p.item h
  cases hform : p.item.shape.form? with
  | none =>
      have hne : p.item.kind ≠ kind := by
        rw [Ne, hkind, hform]
        simp
      have hspan : spanAt? p = none := by rw [spanAt?, hform, Option.map_none]
      rw [hspan]
      by_cases hshape : p.item.shape = .blank
      · rw [locatedAt?, tokenAt?, if_pos hshape]
        rfl
      · obtain ⟨k, hk, hkkind, -⟩ := exists_locatedAt? hshape
        rw [hk, Option.filter_some_neg (by simpa [hkkind] using hne)]
        rfl
  | some form =>
      obtain ⟨k, hk, hkkind, hkextent⟩ := exists_locatedAt? (ne_blank_of_form? hform)
      obtain ⟨s, hs, rfl, hsextent⟩ := exists_spanAt? hform
      have heq : k.token.kind = kind ↔ s.form.kind = kind := by
        rw [hkkind, hkind, hform]
        simp
      rw [hk, hs, Option.filter_some, Option.filter_some]
      by_cases hsame : s.form.kind = kind
      · simp [hsame, heq.2 hsame, hkextent, hsextent]
      · simp [hsame, mt heq.1 hsame]

/-! ### Offsets -/

/-- The part of a text in which a code point stands. -/
theorem exists_place_of_getElem? {parts : List Text} (before : List Text) {i : Nat} {c : Code}
    (h : parts.flatten[i]? = some c) : ∃ p ∈ placesAfter before parts, c ∈ p.item ∧
      Within (before.flatten.length + i) (p.start, p.start + p.item.length) := by
  induction parts generalizing before i with
  | nil => simp at h
  | cons part rest ih =>
      rw [List.flatten_cons] at h
      by_cases hi : i < part.length
      · rw [List.getElem?_append_left hi] at h
        refine ⟨⟨before, part, rest⟩, List.mem_cons_self, List.mem_of_getElem? h, ?_⟩
        exact ⟨Nat.le_add_right _ _, Nat.add_lt_add_left hi _⟩
      · rw [List.getElem?_append_right (Nat.le_of_not_lt hi)] at h
        obtain ⟨p, hp, hc, hwithin⟩ := ih (before ++ [part]) h
        refine ⟨p, List.mem_cons_of_mem _ hp, hc, ?_⟩
        have hoffset : (before ++ [part]).flatten.length + (i - part.length) =
            before.flatten.length + i := by
          simp only [List.flatten_append, List.flatten_singleton, List.length_append]
          omega
        rwa [hoffset] at hwithin

/-- A code point that is not blank stands in a segment that is not blank. -/
theorem exists_segment_of_getElem? {t : Text} {i : Nat} {c : Code} (h : t[i]? = some c)
    (hc : c.isBlank = false) : ∃ p ∈ places (segments t), p.item.shape ≠ .blank ∧
      Within i (segmentExtent p) := by
  rw [← flatMap_text_segments t, List.flatMap_def] at h
  obtain ⟨q, hq, hmem, hwithin⟩ := exists_place_of_getElem? [] h
  rw [← places, places_map, List.mem_map] at hq
  obtain ⟨p, hp, rfl⟩ := hq
  rw [List.flatten_nil, List.length_nil, Nat.zero_add] at hwithin
  refine ⟨p, hp, fun hshape => ?_, hwithin⟩
  have hsegment : p.item ∈ segments t := by
    rw [mem_places_iff.1 hp]
    simp
  rw [isBlank_of_mem_segments hsegment hshape c hmem] at hc
  cases hc

/-- **What is a literal and what is a line comment** in a text, the automaton tells as the tokens
do, and at the same offsets, unless a backslash ends the text. -/
theorem agree_located {t : Text} (hlast : t.getLast? ≠ some Code.backslash) :
    (located t).map (·.token) = tokens t ∧
      (∀ k ∈ located t, k.token.text <+: t.normalizeNewlines.drop k.start) ∧
      Agree t.normalizeNewlines (located t) (spans t.normalizeNewlines) := by
  have hlast' : t.normalizeNewlines.getLast? ≠ some Code.backslash := by
    rw [Text.getLast?_normalizeNewlines]
    intro h
    obtain ⟨c, hc, heq⟩ := Option.map_eq_some_iff.1 h
    split at heq
    · cases heq
    · exact hlast (heq ▸ hc)
  refine ⟨map_token_locate _ _ _, fun k => text_of_mem_located, ?_⟩
  rw [located_eq_filterMap, spans_eq_filterMap hlast']
  constructor
  case strings =>
      have hforms : ∀ s : Span, decide (s.form.kind = .string) =
          decide (s.form = .string ∨ s.form = .textBlock) := by
        rintro ⟨form, start, stop⟩
        cases form <;> rfl
      simp only [← hforms]
      exact extents_eq (.inl rfl) _
  case lineComments =>
      have hforms : ∀ s : Span, decide (s.form.kind = .lineComment) =
          decide (s.form = .lineComment) := by
        rintro ⟨form, start, stop⟩
        cases form <;> rfl
      simp only [← hforms]
      exact extents_eq (.inr rfl) _
  case others =>
      intro s hs hother
      obtain ⟨p, hp, hspan⟩ := List.mem_filterMap.1 hs
      obtain ⟨form, hform, -⟩ := Option.map_eq_some_iff.1 hspan
      obtain ⟨k, hk, hkind, hextent⟩ := exists_locatedAt? (ne_blank_of_form? hform)
      obtain ⟨s', hs', rfl, hsextent⟩ := exists_spanAt? hform
      obtain rfl : s' = s := Option.some.inj (hs'.symm.trans hspan)
      exact ⟨k, List.mem_filterMap.2 ⟨p, hp, hk⟩,
        hkind.trans (Segment.kind_eq_other hform hother), hextent.trans hsextent.symm⟩
  case remaining =>
      intro i c hi hc hspans
      obtain ⟨p, hp, hshape, hwithin⟩ := exists_segment_of_getElem? hi hc
      obtain ⟨k, hk, hkind, hextent⟩ := exists_locatedAt? hshape
      have hnone : ∀ kind, kind = .string ∨ kind = .lineComment → k.token.kind ≠ kind := by
        intro kind hcases heq
        obtain ⟨form, hform, hfkind⟩ := (Segment.kind_eq_iff p.item hcases).1 (hkind.symm.trans heq)
        obtain ⟨s, hs, rfl, hsextent⟩ := exists_spanAt? hform
        have hother := hspans s (List.mem_filterMap.2 ⟨p, hp, hs⟩) (by rwa [hsextent])
        rcases hcases with rfl | rfl <;> rcases hother with hother | hother <;>
          simp [hother, Form.kind] at hfkind
      exact ⟨k, List.mem_filterMap.2 ⟨p, hp, hk⟩, by rwa [hextent], hnone _ (.inl rfl),
        hnone _ (.inr rfl)⟩

/-- A text in which each form holds what opens another one. A quote and a backslash are escaped,
and a backslash is the last of its line. -/
def nestedText : Text :=
  "a \"b\\\"//c\\\\\" '\"' /*\"*/ d\r\n\"\"\"e\\\"\"\"\n//\"\"\" // f\" /*\n\"g\\\nassert 'h"

theorem agree_located_sample :
    nestedText.getLast? ≠ some Code.backslash ∧
      Agree nestedText.normalizeNewlines (located nestedText) (spans nestedText.normalizeNewlines) ∧
      spans nestedText.normalizeNewlines =
        [⟨.string, 2, 12⟩, ⟨.character, 13, 16⟩, ⟨.blockComment, 17, 22⟩, ⟨.textBlock, 25, 39⟩,
          ⟨.lineComment, 40, 48⟩, ⟨.string, 49, 51⟩, ⟨.character, 60, 62⟩] :=
  have hlast : nestedText.getLast? ≠ some Code.backslash := by decide
  ⟨hlast, (agree_located hlast).2.2, by decide +kernel⟩

end BundleAudit.Token.Java
