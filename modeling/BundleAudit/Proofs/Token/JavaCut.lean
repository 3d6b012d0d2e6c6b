import BundleAudit.Proofs.Text.Newlines
import BundleAudit.Proofs.Token.JavaEnds

/-!
# BundleAudit.Proofs.Token.JavaCut

**The tokens of a `.java` text that changes behind a place.** The text behind a place
between two segments can be replaced by one that begins alike: the tokens before the
place stay, and those behind it are the tokens of the new text
(`ofSegments_append_of_beginsLike`). Two changes are of this kind: text is put behind
white space at the end (`tokens_append`), and a line comment is taken away
(`tokens_uncommented`).
-/

namespace BundleAudit.Token

/-- The same token a number of lines further down. -/
def later (n : Nat) (k : Token) : Token := { k with line := k.line + n }

namespace Java

/-! ### The segments before a place -/

theorem ofSegments_append (line : Nat) (before after : List Segment) :
    ofSegments line (before ++ after) = ofSegments line before ++
      ofSegments (line + Text.lineFeeds (before.flatMap Segment.text)) after := by
  induction before generalizing line with
  | nil => rfl
  | cons s rest ih =>
      have hfeeds : line + Text.lineFeeds ((s :: rest).flatMap Segment.text) =
          line + s.text.lineFeeds + Text.lineFeeds (rest.flatMap Segment.text) := by
        simp [Text.lineFeeds, Nat.add_assoc]
      rw [List.cons_append, ofSegments, ofSegments, ih, hfeeds]
      split <;> rfl

/-- What is read behind some segments is what is read of the rest of the text alone. -/
theorem segments_of_append {t : Text} {before after : List Segment}
    (h : segments t = before ++ after) : segments (after.flatMap Segment.text) = after := by
  induction before generalizing t with
  | nil =>
      rw [List.nil_append] at h
      rw [← h, flatMap_text_segments]
  | cons s rest ih =>
      cases t with
      | nil => simp [segments] at h
      | cons c t =>
          rw [segments, List.cons_append] at h
          exact ih (List.cons.inj h).2

/-- **The tokens before a place** do not change if the text behind it is replaced by one that begins
alike, and the tokens behind it are those of the new text. -/
theorem ofSegments_append_of_beginsLike {x y : Text} {before after : List Segment}
    (hend : x.getLast? = some Code.lineFeed)
    (h : segments (before.flatMap Segment.text ++ x) = before ++ after)
    (hlike : ∀ w, w <:+ before.flatMap Segment.text → BeginsLike (w ++ x) (w ++ y)) (line : Nat) :
    ofSegments line (segments (before.flatMap Segment.text ++ y)) =
      ofSegments line before ++
        ofSegments (line + Text.lineFeeds (before.flatMap Segment.text)) (segments y) := by
  induction before generalizing line with
  | nil => rfl
  | cons s rest ih =>
      rw [List.flatMap_cons] at h hlike ⊢
      generalize hrest : rest.flatMap Segment.text = more at h hlike ih ⊢
      -- the first segment begins the text, and the others begin what follows it
      obtain ⟨c, t, ht⟩ : ∃ c t, s.text ++ more ++ x = c :: t := by
        cases htext : s.text ++ more ++ x with
        | nil => simp [htext, segments] at h
        | cons c t => exact ⟨c, t, rfl⟩
      rw [ht, segments, List.cons_append] at h
      obtain ⟨hs, hsegments⟩ := List.cons.inj h
      have hjoined := joined_segmentAfter c t
      have hbehind : (segmentAfter c t).2.2 = more ++ x := by
        rw [joined] at hjoined
        rw [← hjoined, ← List.cons_append, ← hs, List.append_assoc] at ht
        exact (List.append_cancel_left ht).symm
      rw [hbehind] at hsegments
      have hnext := ih hsegments (fun w hw => hlike w (hw.trans (List.suffix_append _ _)))
        (line + s.text.lineFeeds)
      have hfeeds : line + Text.lineFeeds (s.text ++ more) =
          line + s.text.lineFeeds + Text.lineFeeds more := by
        simp [Text.lineFeeds, Nat.add_assoc]
      rw [hfeeds, ofSegments, List.append_assoc]
      by_cases hshape : s.shape = .blank
      · rw [if_pos hshape, ← hnext]
        have hblank : ∀ d ∈ s.text, d.isBlank = true := by
          rw [← hs] at hshape ⊢
          exact isBlank_of_mem_segmentAfter hshape
        exact ofSegments_blanks_append hblank line _
      · have hsegment : segmentAfter c ((segmentAfter c t).2.1 ++ (more ++ y)) =
            ((segmentAfter c t).1, (segmentAfter c t).2.1, more ++ y) := by
          refine segmentAfter_append (by rw [← hs] at hshape; exact hshape) ?_ ?_
          · rw [hbehind, List.getLast?_append, hend]
            rfl
          · rw [hbehind]
            exact hlike more (List.suffix_append _ _)
        rw [if_neg hshape, List.cons_append, ← hnext, ← hs, List.cons_append, segments, hsegment,
          ofSegments, if_neg (by rw [← hs] at hshape; exact hshape)]

/-! ### Lines -/

theorem ofSegments_add (line n : Nat) (segs : List Segment) :
    ofSegments (line + n) segs = (ofSegments line segs).map (later n) := by
  induction segs generalizing line with
  | nil => rfl
  | cons s rest ih =>
      rw [ofSegments, ofSegments, Nat.add_right_comm, ih]
      split <;> rfl

theorem text_ne_nil_of_mem_segments {t : Text} {s : Segment}
    (h : s ∈ segments t) : s.text ≠ [] := by
  fun_induction segments t with
  | case1 => simp at h
  | case2 c t parts ih =>
      rcases List.mem_cons.1 h with rfl | h
      · exact List.cons_ne_nil _ _
      · exact ih h

theorem isBlank_of_mem_segments {t : Text} {s : Segment} (h : s ∈ segments t)
    (hshape : s.shape = .blank) : ∀ d ∈ s.text, d.isBlank = true := by
  fun_induction segments t with
  | case1 => simp at h
  | case2 c t parts ih =>
      rcases List.mem_cons.1 h with rfl | h
      · exact isBlank_of_mem_segmentAfter hshape
      · exact ih h

theorem getLast?_append_of_ne_nil {a b : Text} (h : b ≠ []) :
    (a ++ b).getLast? = b.getLast? := by
  rw [List.getLast?_append, List.getLast?_eq_some_getLast h, Option.some_or]

/-- What starts before a line feed starts on an earlier line than what follows it. -/
theorem lt_line_of_mem_ofSegments {line : Nat} {segs : List Segment}
    (hne : ∀ s ∈ segs, s.text ≠ [])
    (hend : (segs.flatMap Segment.text).getLast? = some Code.lineFeed)
    {k : Token} (h : k ∈ ofSegments line segs) :
    k.line < line + Text.lineFeeds (segs.flatMap Segment.text) := by
  induction segs generalizing line with
  | nil => simp at hend
  | cons s rest ih =>
      have hfeeds : Text.lineFeeds ((s :: rest).flatMap Segment.text) =
          s.text.lineFeeds + Text.lineFeeds (rest.flatMap Segment.text) := by
        simp [Text.lineFeeds]
      have htail : k ∈ ofSegments (line + s.text.lineFeeds) rest →
          k.line < line + Text.lineFeeds ((s :: rest).flatMap Segment.text) := by
        intro hk
        cases rest with
        | nil => simp [ofSegments] at hk
        | cons s' rest =>
            have hmore : (s' :: rest).flatMap Segment.text ≠ [] := by
              simp [hne s' (by simp)]
            rw [List.flatMap_cons, getLast?_append_of_ne_nil hmore] at hend
            have := ih (fun x hx => hne x (List.mem_cons_of_mem _ hx)) hend hk
            omega
      rw [ofSegments] at h
      split at h
      · exact htail h
      · rcases List.mem_cons.1 h with rfl | hk
        · have hpos : 0 < Text.lineFeeds ((s :: rest).flatMap Segment.text) :=
            List.count_pos_iff.2 (List.mem_of_getLast? hend)
          exact Nat.lt_add_of_pos_right hpos
        · exact htail hk

theorem line_le_of_mem_tokens {t : Text} (hend : t.getLast? = some Code.lineFeed) {k : Token}
    (h : k ∈ tokens t) : k.line ≤ t.normalizeNewlines.lineFeeds := by
  have hlast := Text.getLast?_normalizeNewlines t
  rw [hend, ← flatMap_text_segments t.normalizeNewlines] at hlast
  have := lt_line_of_mem_ofSegments (fun s hs => text_ne_nil_of_mem_segments hs) hlast h
  rw [flatMap_text_segments] at this
  omega

/-! ### Text at the end -/

/-- A text whose last segment is white space: no comment and no text block is open at its end. -/
def IsClosed (a : Text) : Prop :=
  ∃ before blanks, segments a.normalizeNewlines = before ++ [⟨.blank, blanks⟩]

/-- The tokens of a text behind a closed one are those of the text alone, on later lines. -/
theorem tokens_append {a : Text} (hend : a.getLast? = some Code.lineFeed) (hclosed : IsClosed a)
    (b : Text) :
    tokens (a ++ b) = tokens a ++
      (tokens b).map (later a.normalizeNewlines.lineFeeds) := by
  obtain ⟨before, blanks, hsegments⟩ := hclosed
  have hmem : ⟨.blank, blanks⟩ ∈ segments a.normalizeNewlines := by simp [hsegments]
  have hne : blanks ≠ [] := text_ne_nil_of_mem_segments hmem
  have hblank : ∀ c ∈ blanks, c.isBlank = true := isBlank_of_mem_segments hmem rfl
  have htext : before.flatMap Segment.text ++ blanks = a.normalizeNewlines := by
    rw [← flatMap_text_segments a.normalizeNewlines, hsegments]
    simp
  have hlast : blanks.getLast? = some Code.lineFeed := by
    have hlast := Text.getLast?_normalizeNewlines a
    rwa [hend, ← htext, getLast?_append_of_ne_nil hne] at hlast
  have hplain : a.MeetsPlainly b := by
    intro hreturn
    rw [hend] at hreturn
    simp [Code.lineFeed, Code.carriageReturn] at hreturn
  have hfeeds : 1 + a.normalizeNewlines.lineFeeds =
      1 + Text.lineFeeds (before.flatMap Segment.text) + blanks.lineFeeds := by
    rw [← htext, Text.lineFeeds, List.count_append, ← Nat.add_assoc]
    rfl
  have htokens : tokens a = ofSegments 1 before := by
    rw [tokens, hsegments, ofSegments_append]
    simp [ofSegments]
  rw [htokens, tokens, tokens, ← ofSegments_add, hfeeds, Text.normalizeNewlines_append hplain,
    ← htext, List.append_assoc, ofSegments_append_of_beginsLike hlast (htext ▸ hsegments),
    ofSegments_blanks_append hblank]
  intro w _
  rw [← List.append_assoc]
  exact beginsLike_append (List.append_ne_nil_of_right_ne_nil w hne) _

/-! ### Line comments -/

/-- Two slashes begin a line comment, and no line feed is in it. -/
theorem of_segmentAfter_lineComment {c : Code} {t : Text}
    (h : (segmentAfter c t).1 = .lineComment) :
    c = Code.slash ∧ Code.lineFeed ∉ (segmentAfter c t).2.1 := by
  unfold segmentAfter at h ⊢
  split at h
  · refine ⟨rfl, ?_⟩
    simp only [consFirst, run, List.mem_cons, not_or]
    refine ⟨by decide, fun hmem => ?_⟩
    simpa using List.all_eq_true.1 List.all_takeWhile _ hmem
  · simp at h
  · split at h <;> simp at h
  · simp at h
  · simp at h
  · simp at h
  · split at h
    · simp at h
    · split at h
      · simp at h
      · split at h <;> simp at h

/-- A line comment at the beginning of a text: its slash, and the end of its line behind it. -/
theorem of_segments_lineComment {t comment : Text} {after : List Segment}
    (h : segments t = ⟨.lineComment, comment⟩ :: after) :
    (∃ more, comment = Code.slash :: more) ∧ Code.lineFeed ∉ comment ∧
      (after.flatMap Segment.text = [] ∨
        ∃ rest, after.flatMap Segment.text = Code.lineFeed :: rest) := by
  cases t with
  | nil => simp [segments] at h
  | cons c t =>
      rw [segments] at h
      obtain ⟨hsegment, hafter⟩ := List.cons.inj h
      obtain ⟨hshape, rfl⟩ := Segment.mk.inj hsegment
      obtain ⟨rfl, hfeed⟩ := of_segmentAfter_lineComment hshape
      refine ⟨⟨_, rfl⟩, fun hmem => ?_, ?_⟩
      · rcases List.mem_cons.1 hmem with heq | hmem
        · exact absurd heq (by decide)
        · exact hfeed hmem
      · rw [← hafter, flatMap_text_segments]
        exact rest_of_lineComment hshape

/-- Every token is a segment at its place. -/
theorem exists_segment_of_mem_ofSegments {line : Nat} {segs : List Segment} {k : Token}
    (h : k ∈ ofSegments line segs) :
    ∃ before s after, segs = before ++ s :: after ∧
      k = ⟨s.kind, s.text, line + Text.lineFeeds (before.flatMap Segment.text)⟩ := by
  induction segs generalizing line with
  | nil => simp [ofSegments] at h
  | cons s rest ih =>
      have htail : k ∈ ofSegments (line + s.text.lineFeeds) rest →
          ∃ before s' after, s :: rest = before ++ s' :: after ∧
            k = ⟨s'.kind, s'.text, line + Text.lineFeeds (before.flatMap Segment.text)⟩ := by
        intro hk
        obtain ⟨before, s', after, rfl, rfl⟩ := ih hk
        refine ⟨s :: before, s', after, rfl, ?_⟩
        simp [Text.lineFeeds, Nat.add_assoc]
      rw [ofSegments] at h
      split at h
      · exact htail h
      · rcases List.mem_cons.1 h with rfl | hk
        · exact ⟨[], s, rest, rfl, rfl⟩
        · exact htail hk

/-- The line comment of a line, at its place in a text. -/
structure IsLineComment (pre comment post : Text) (line : Nat) : Prop where
  segments : ∃ before after, segments (pre ++ comment ++ post).normalizeNewlines =
    before ++ ⟨.lineComment, comment⟩ :: after ∧
      before.flatMap Segment.text = pre.normalizeNewlines
  line : line = 1 + pre.normalizeNewlines.lineFeeds

/-- Every line comment among the tokens stands somewhere in the text. -/
theorem exists_isLineComment {t : Text} {k : Token} (h : k ∈ tokens t)
    (hkind : k.kind = .lineComment) :
    ∃ pre post, t = pre ++ k.text ++ post ∧ IsLineComment pre k.text post k.line := by
  obtain ⟨before, s, after, hsegments, rfl⟩ := exists_segment_of_mem_ofSegments h
  obtain ⟨shape, comment⟩ := s
  obtain rfl : shape = .lineComment := (Segment.kind_eq_lineComment_iff _).1 hkind
  have htext : t.normalizeNewlines = before.flatMap Segment.text ++
      (comment ++ after.flatMap Segment.text) := by
    rw [← flatMap_text_segments t.normalizeNewlines, hsegments]
    simp
  obtain ⟨pre, rest, rfl, hpre, hrest⟩ := Text.exists_append_of_normalizeNewlines htext
  obtain ⟨comment', post, rfl, hcomment, -⟩ := Text.exists_append_of_normalizeNewlines hrest
  obtain ⟨-, hfeed, -⟩ := of_segments_lineComment (segments_of_append hsegments)
  obtain rfl : comment = comment' := by
    rw [← hcomment] at hfeed ⊢
    exact Text.eq_of_normalizeNewlines hfeed
  rw [← List.append_assoc] at hsegments ⊢
  exact ⟨pre, post, rfl, ⟨before, after, hsegments, hpre.symm⟩, by rw [hpre]⟩

/-- Without a line comment a text has the same other tokens, if there is one before the comment on
its line. -/
theorem tokens_uncommented {pre comment post : Text} {line : Nat}
    (h : IsLineComment pre comment post line)
    (hend : (pre ++ comment ++ post).getLast? = some Code.lineFeed) :
    ∃ ks ks', tokens (pre ++ comment ++ post) = ks ++ ⟨.lineComment, comment, line⟩ :: ks' ∧
      ((∃ k ∈ ks, k.line = line) → tokens (pre ++ post) = ks ++ ks') := by
  obtain ⟨⟨before, after, hsegments, hpre⟩, rfl⟩ := h
  obtain ⟨⟨more, hslash⟩, hfeed, hbehind⟩ :=
    of_segments_lineComment (segments_of_append hsegments)
  have htext := flatMap_text_segments (pre ++ comment ++ post).normalizeNewlines
  rw [hsegments, List.flatMap_append, List.flatMap_cons, hpre] at htext
  have hreturn : Code.carriageReturn ∉ comment := fun hmem =>
    Text.not_mem_normalizeNewlines (pre ++ comment ++ post) (by rw [← htext]; simp [hmem])
  have hnorm : (pre ++ comment ++ post).normalizeNewlines =
      pre.normalizeNewlines ++ (comment ++ post.normalizeNewlines) := by
    rw [List.append_assoc, Text.normalizeNewlines_append, Text.normalizeNewlines_append,
      Text.normalizeNewlines_eq_self hreturn]
    · exact fun hlast => absurd (List.mem_of_getLast? hlast) hreturn
    · intro _
      simp [hslash, Code.slash, Code.lineFeed]
  have hafter : after.flatMap Segment.text = post.normalizeNewlines := by
    rw [hnorm] at htext
    exact List.append_cancel_left (List.append_cancel_left htext)
  rw [hafter] at hbehind
  have hlast : (comment ++ post.normalizeNewlines).getLast? = some Code.lineFeed := by
    have hlast := Text.getLast?_normalizeNewlines (pre ++ comment ++ post)
    rwa [hend, hnorm, getLast?_append_of_ne_nil (by simp [hslash])] at hlast
  obtain ⟨rest, hpost⟩ : ∃ rest, post.normalizeNewlines = Code.lineFeed :: rest := by
    refine hbehind.resolve_left fun hnil => hfeed (List.mem_of_getLast? ?_)
    rwa [hnil, List.append_nil] at hlast
  have hrest : segments post.normalizeNewlines = after := by
    have hsplit : segments (pre ++ comment ++ post).normalizeNewlines =
        (before ++ [⟨.lineComment, comment⟩]) ++ after := by
      rw [hsegments]
      simp
    rw [← hafter]
    exact segments_of_append hsplit
  refine ⟨ofSegments 1 before, ofSegments (1 + pre.normalizeNewlines.lineFeeds) after, ?_, ?_⟩
  · have hfeeds : comment.lineFeeds = 0 := List.count_eq_zero.2 hfeed
    rw [tokens, hsegments, ofSegments_append, hpre, ofSegments, if_neg (by simp), hfeeds]
    rfl
  · rintro ⟨k, hk, hline⟩
    have hplain : pre.MeetsPlainly post := by
      -- the token before the comment stands on the line, so no line ends between them
      intro hreturn
      have hlast := Text.getLast?_normalizeNewlines pre
      rw [hreturn, ← hpre] at hlast
      have hne : ∀ s ∈ before, s.text ≠ [] := fun s hs =>
        text_ne_nil_of_mem_segments (by rw [hsegments]; exact List.mem_append_left _ hs)
      have := lt_line_of_mem_ofSegments hne hlast hk
      rw [hpre] at this
      omega
    rw [tokens, Text.normalizeNewlines_append hplain, ← hpre,
      ofSegments_append_of_beginsLike hlast (by rw [hpre, ← hnorm, hsegments]), hpre, hrest]
    intro w _
    rw [hslash, hpost]
    exact beginsLike_uncommented w _ _

end Java

end BundleAudit.Token
