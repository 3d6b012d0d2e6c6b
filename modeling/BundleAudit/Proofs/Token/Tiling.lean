import BundleAudit.Proofs.Place
import BundleAudit.Proofs.Token.JavaCut
import Mathlib.Data.List.Basic

/-!
# BundleAudit.Proofs.Token.Tiling

**The tokens of a `.java` text tile it,** but for white space. The segments of a text are
its parts, one after the other, and what a token says of itself can be read off the parts
before it: its text is a part that is not blank, and its line is given by the line feeds in
front (`ofSegments_eq_filterMap`). A segment is blank just if it holds nothing but white
space (`isBlank_text_iff`), so the parts that are left out are the white space of the text.
-/

namespace BundleAudit

/-! ### Parts of a text -/

/-- The line on which a part of a text starts, if the text starts on the first one. -/
def Place.line (p : Place Text) : Nat := 1 + Text.lineFeeds p.before.flatten

/-- The offset at which a part of a text starts. -/
def Place.start (p : Place Text) : Nat := p.before.flatten.length

/-- A part that is not blank, with the line on which it starts. -/
def Place.numbered? (p : Place Text) : Option (Text × Nat) :=
  if p.item.isBlank then none else some (p.item, p.line)

/-- Some tokens are the parts of a text that are not blank, one by one. -/
structure IsTiling (t : Text) (parts : List Text) (ks : List Token) : Prop where
  flatten : parts.flatten = t
  ne_nil : ∀ part ∈ parts, part ≠ []
  tokens : ks.map (fun k => (k.text, k.line)) = (places parts).filterMap Place.numbered?

namespace Token.Java

/-! ### Places of segments -/

theorem start_map (before : List Segment) (s : Segment) (after : List Segment) :
    (Place.map Segment.text ⟨before, s, after⟩).start = (before.flatMap Segment.text).length := by
  rw [Place.start, Place.map, List.flatMap_def]

theorem line_map (before : List Segment) (s : Segment) (after : List Segment) :
    (Place.map Segment.text ⟨before, s, after⟩).line =
      1 + Text.lineFeeds (before.flatMap Segment.text) := by
  rw [Place.line, Place.map, List.flatMap_def]

/-- The token that a segment is at its place: none if it is blank. -/
def tokenAt? (p : Place Segment) : Option Token :=
  if p.item.shape = .blank then none
  else some ⟨p.item.kind, p.item.text, (p.map Segment.text).line⟩

theorem ofSegments_eq_filterMap (before segs : List Segment) :
    ofSegments (1 + Text.lineFeeds (before.flatMap Segment.text)) segs =
      (placesAfter before segs).filterMap tokenAt? := by
  induction segs generalizing before with
  | nil => rfl
  | cons s rest ih =>
      have hfeeds : 1 + Text.lineFeeds (before.flatMap Segment.text) + s.text.lineFeeds =
          1 + Text.lineFeeds ((before ++ [s]).flatMap Segment.text) := by
        simp [Text.lineFeeds, Nat.add_assoc]
      rw [ofSegments, hfeeds, ih, placesAfter, List.filterMap_cons, tokenAt?, line_map]
      by_cases hshape : s.shape = .blank
      · simp [hshape]
      · simp [hshape]

/-- The tokens of a text are its segments at their places. -/
theorem tokens_eq_filterMap (t : Text) :
    tokens t = (places (segments t.normalizeNewlines)).filterMap tokenAt? :=
  ofSegments_eq_filterMap [] _

/-! ### Blank segments -/

/-- A segment that is not blank begins with a code point that is not blank. -/
theorem exists_cons_of_mem_segments {t : Text} {s : Segment} (h : s ∈ segments t)
    (hshape : s.shape ≠ .blank) : ∃ c rest, s.text = c :: rest ∧ c.isBlank = false := by
  fun_induction segments t with
  | case1 => simp at h
  | case2 c t parts ih =>
      rcases List.mem_cons.1 h with rfl | h
      · refine ⟨c, _, rfl, Bool.eq_false_iff.2 fun hc => ?_⟩
        exact hshape (congrArg Prod.fst (segmentAfter_of_isBlank hc t))
      · exact ih h

/-- A segment is blank just if it holds nothing but white space. -/
theorem isBlank_text_iff {t : Text} {s : Segment} (h : s ∈ segments t) :
    s.text.isBlank = true ↔ s.shape = .blank := by
  constructor
  · intro hblank
    by_contra hshape
    obtain ⟨c, rest, htext, hc⟩ := exists_cons_of_mem_segments h hshape
    rw [htext, Text.isBlank, List.all_cons, hc] at hblank
    cases hblank
  · intro hshape
    exact List.all_eq_true.2 (isBlank_of_mem_segments h hshape)

/-! ### Tiling -/

/-- The segments of a text are its parts. -/
theorem isTiling_segments (t : Text) :
    IsTiling t.normalizeNewlines ((segments t.normalizeNewlines).map Segment.text) (tokens t) where
  flatten := by rw [← List.flatMap_def, flatMap_text_segments]
  ne_nil := List.forall_mem_map.2 fun s hs => text_ne_nil_of_mem_segments hs
  tokens := by
    rw [tokens_eq_filterMap, places_map, List.filterMap_map, List.map_filterMap]
    refine List.filterMap_congr fun p hp => ?_
    have hmem : p.item ∈ segments t.normalizeNewlines := by
      rw [mem_places_iff.1 hp]
      simp
    have hblank := isBlank_text_iff hmem
    simp only [Function.comp_apply, tokenAt?, Place.numbered?, Place.map]
    by_cases hshape : p.item.shape = .blank
    · simp [hshape, hblank.2 hshape]
    · simp [hshape, mt hblank.1 hshape]

/-- A line comment among the tokens holds no line feed. -/
theorem lineFeed_not_mem_of_lineComment {t : Text} {k : Token} (h : k ∈ tokens t)
    (hkind : k.kind = .lineComment) : Code.lineFeed ∉ k.text := by
  obtain ⟨before, ⟨shape, comment⟩, after, hsegments, rfl⟩ := exists_segment_of_mem_ofSegments h
  obtain rfl : shape = .lineComment := (Segment.kind_eq_lineComment_iff _).1 hkind
  exact (of_segments_lineComment (segments_of_append hsegments)).2.1

/-- **The tokens of a text tile it,** but for white space: the text is cut into parts, none of them
empty, and the tokens are the parts that are not blank, each on the line on which its part starts.
So no token comes on an earlier line than the one before it; and a line comment, which has no line
end in it, is the last token on its line. -/
theorem tokens_tile (t : Text) :
    (∃ parts, IsTiling t.normalizeNewlines parts (tokens t)) ∧
      (tokens t).Pairwise (fun a b => a.line ≤ b.line) ∧
      ∀ p ∈ places (tokens t), p.item.kind = .lineComment →
        Code.lineFeed ∉ p.item.text ∧ ∀ k ∈ p.after, p.item.line < k.line := by
  have hprecedes := pairwise_precedes_tokens t
  refine ⟨⟨_, isTiling_segments t⟩, hprecedes.imp fun h => h.1, fun p hp hkind => ?_⟩
  have htokens := mem_places_iff.1 hp
  have hmem : p.item ∈ tokens t := by simp [htokens]
  rw [htokens] at hprecedes
  have hafter := (List.pairwise_cons.1 (List.pairwise_append.1 hprecedes).2.1).1
  exact ⟨lineFeed_not_mem_of_lineComment hmem hkind, fun k hk => (hafter k hk).2 hkind⟩

/-- A text with line ends of all three kinds, in which a literal ends with its line and a text
block with the text. -/
def raggedText : Text := "x /* a\r\nb */ \"c\r// d\n\"\"\"e"

theorem tokens_tile_sample :
    (∃ parts, IsTiling raggedText.normalizeNewlines parts (tokens raggedText)) ∧
      tokens raggedText =
        [⟨.identifier, "x", 1⟩, ⟨.other, "/* a\nb */", 1⟩, ⟨.string, "\"c", 2⟩] ++
          ⟨.lineComment, "// d", 3⟩ :: [⟨.string, "\"\"\"e", 4⟩] ∧
      Code.lineFeed ∉ Text.ofString "// d" ∧ 3 < 4 := by
  obtain ⟨htiling, -, hcomments⟩ := tokens_tile raggedText
  have htokens : tokens raggedText =
      [⟨.identifier, "x", 1⟩, ⟨.other, "/* a\nb */", 1⟩, ⟨.string, "\"c", 2⟩] ++
        ⟨.lineComment, "// d", 3⟩ :: [⟨.string, "\"\"\"e", 4⟩] := by decide +kernel
  obtain ⟨hfeed, hafter⟩ :=
    hcomments ⟨_, ⟨.lineComment, "// d", 3⟩, _⟩ (mem_places_iff.2 htokens) rfl
  exact ⟨htiling, htokens, hfeed, hafter _ List.mem_cons_self⟩

end Token.Java

end BundleAudit
