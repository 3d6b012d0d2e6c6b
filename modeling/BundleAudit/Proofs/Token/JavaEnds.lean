import BundleAudit.Proofs.Token.JavaLines

/-!
# BundleAudit.Proofs.Token.JavaEnds

**Where a segment of a `.java` text ends.** A segment that is not blank ends by what
stands in it, by the first code point behind it, or with its line. So it is the same
before any text that begins alike (`segmentAfter_append`). A blank segment takes in all
blanks that follow, but the tokens behind it see only the lines that it spans
(`ofSegments_blanks_append`).
-/

namespace BundleAudit.Token.Java

/-! ### How a text begins -/

/-- A quoted literal ends here, closed or not: a backslash before a line feed belongs to none. -/
def EndsLine (t : Text) : Prop :=
  (∃ rest, t = Code.lineFeed :: rest) ∨ ∃ rest, t = Code.backslash :: Code.lineFeed :: rest

/-- How a text has to begin that stands in the place of another one. A line feed may stand
where a comment began. -/
structure BeginsLike (v w : Text) : Prop where
  head : w.head? = v.head? ∨ v.head? = some Code.slash ∧ w.head? = some Code.lineFeed
  endsLine : EndsLine v → EndsLine w

theorem BeginsLike.exists_cons {v w : Text} (h : BeginsLike v w) (hv : v ≠ []) :
    ∃ d rest, w = d :: rest := by
  cases w with
  | cons d rest => exact ⟨d, rest, rfl⟩
  | nil =>
      rcases h.head with hhead | ⟨-, hhead⟩
      · exact absurd (List.head?_eq_none_iff.1 hhead.symm) hv
      · simp at hhead

/-- A code point that is neither a slash nor a line feed begins both or neither. -/
theorem BeginsLike.head?_ne {v w : Text} (h : BeginsLike v w) {c : Code} (hc : c ≠ Code.lineFeed)
    (hv : v.head? ≠ some c) : w.head? ≠ some c := by
  rcases h.head with hhead | ⟨-, hhead⟩
  · rwa [hhead]
  · rw [hhead]
    exact fun he => hc (Option.some.inj he).symm

/-- A text begins like its own continuations. -/
theorem beginsLike_append {v : Text} (hv : v ≠ []) (more : Text) : BeginsLike v (v ++ more) where
  head := by
    obtain ⟨c, rest, rfl⟩ := List.exists_cons_of_ne_nil hv
    exact .inl rfl
  endsLine := by
    rintro (⟨rest, rfl⟩ | ⟨rest, rfl⟩)
    · exact .inl ⟨rest ++ more, rfl⟩
    · exact .inr ⟨rest ++ more, rfl⟩

/-- The line feed behind a comment may take its place. -/
theorem beginsLike_uncommented (before comment rest : Text) :
    BeginsLike (before ++ Code.slash :: comment) (before ++ Code.lineFeed :: rest) where
  head := by
    cases before with
    | nil => exact .inr ⟨rfl, rfl⟩
    | cons c more => exact .inl rfl
  endsLine := by
    cases before with
    | nil => rintro (⟨rest, h⟩ | ⟨rest, h⟩) <;>
        simp [Code.slash, Code.lineFeed, Code.backslash] at h
    | cons c more =>
        rintro (⟨rest, h⟩ | ⟨rest, h⟩)
        · obtain ⟨rfl, -⟩ := List.cons.inj h
          exact .inl ⟨_, rfl⟩
        · obtain ⟨rfl, hmore⟩ := List.cons.inj h
          cases more with
          | nil => simp [Code.slash, Code.lineFeed] at hmore
          | cons d more =>
              obtain ⟨rfl, -⟩ := List.cons.inj hmore
              exact .inr ⟨_, rfl⟩

/-! ### The parts of a segment -/

section Parts

variable {v w : Text}

/-- A run ends by the first code point behind it. -/
theorem run_append {p : Code → Bool} {t : Text} (hfeed : p Code.lineFeed = false)
    (hlike : BeginsLike (run p t).2 w) : run p ((run p t).1 ++ w) = ((run p t).1, w) := by
  have hbehind : ∀ c, w.head? = some c → p c = false := by
    intro c hc
    rcases hlike.head with hhead | ⟨-, hhead⟩
    · have hnot := List.head?_dropWhile_not p t
      rw [hhead] at hc
      rw [run] at hc
      rw [hc] at hnot
      exact hnot
    · rw [hhead] at hc
      exact Option.some.inj hc ▸ hfeed
  have hall : ∀ c ∈ t.takeWhile p, p c = true := List.all_eq_true.1 List.all_takeWhile
  have hnone : w.takeWhile p = [] ∧ w.dropWhile p = w := by
    cases w with
    | nil => exact ⟨rfl, rfl⟩
    | cons c rest =>
        have hc : ¬ p c = true := by simp [hbehind c rfl]
        exact ⟨List.takeWhile_cons_of_neg hc, List.dropWhile_cons_of_neg hc⟩
  simp only [run]
  rw [List.takeWhile_append_of_pos hall, List.dropWhile_append_of_pos hall, hnone.1, hnone.2,
    List.append_nil]

theorem blockBody_cons {c : Code} {t : Text} (h : c = Code.star → t.head? ≠ some Code.slash) :
    blockBody (c :: t) = consFirst c (blockBody t) := by
  rw [blockBody]
  rintro rest rfl rfl
  exact h rfl rfl

theorem eq_nil_of_blockBody_fst {t : Text} (h : (blockBody t).1 = []) : t = [] := by
  fun_cases blockBody t with
  | case1 => rfl
  | case2 => simp [blockBody] at h
  | case3 c rest hclose =>
      rw [blockBody_cons (fun hc hhead => ?_)] at h
      · simp [consFirst] at h
      · obtain ⟨more, rfl⟩ := List.head?_eq_some_iff.1 hhead
        exact hclose more hc rfl

/-- A block comment that ends before the text does is closed. -/
theorem blockBody_append {t : Text} (h : (blockBody t).2 ≠ []) (w : Text) :
    blockBody ((blockBody t).1 ++ w) = ((blockBody t).1, w) := by
  fun_induction blockBody t with
  | case1 => simp at h
  | case2 rest => rfl
  | case3 c rest hclose ih =>
      simp only [consFirst, List.cons_append] at h ⊢
      rw [blockBody_cons, ih h]
      · rfl
      · -- the next code point is that of the text, as the comment goes on
        rintro rfl hhead
        have hjoined := joined_blockBody rest
        cases hfirst : (blockBody rest).1 with
        | nil =>
            rw [eq_nil_of_blockBody_fst hfirst] at h
            exact h rfl
        | cons d more =>
            rw [joined, hfirst, List.cons_append] at hjoined
            rw [hfirst] at hhead
            obtain rfl : d = Code.slash := by simpa using hhead
            exact hclose _ rfl hjoined.symm

theorem textBlockBody?_cons {c : Code} {t : Text} (hc : c ≠ Code.backslash)
    (h : c = Code.doubleQuote → ∀ rest, t ≠ Code.doubleQuote :: Code.doubleQuote :: rest) :
    textBlockBody? (c :: t) = (textBlockBody? t).map (consFirst c) := by
  rw [textBlockBody?]
  · exact fun rest hc' ht => h hc' rest ht
  · exact fun hc' _ => hc hc'
  · exact fun _ _ hc' _ => hc hc'

/-- A code point of a text block that is no backslash: one would end the text, or escape the next
one. -/
theorem ne_backslash_of_textBlockBody? {c : Code} {t : Text}
    (hlone : c = Code.backslash → t = [] → False)
    (hescape : ∀ d rest, c = Code.backslash → t = d :: rest → False) : c ≠ Code.backslash := by
  intro hc
  cases t with
  | nil => exact hlone hc rfl
  | cons d rest => exact hescape d rest hc rfl

/-- A text block that ends before the text does is closed by three quotes. -/
theorem length_of_textBlockBody? {t : Text} {parts : Text × Text}
    (h : textBlockBody? t = some parts) (hv : parts.2 ≠ []) : 3 ≤ parts.1.length := by
  fun_induction textBlockBody? t generalizing parts with
  | case1 =>
      cases h
      simp at hv
  | case2 =>
      cases h
      simp
  | case3 => simp at h
  | case4 c rest ih =>
      obtain ⟨inner, hinner, rfl⟩ := Option.map_eq_some_iff.1 h
      have := ih hinner hv
      simp only [Function.comp_apply, consFirst, List.length_cons]
      omega
  | case5 c rest _ _ _ ih =>
      obtain ⟨inner, hinner, rfl⟩ := Option.map_eq_some_iff.1 h
      have := ih hinner hv
      simp only [consFirst, List.length_cons]
      omega

theorem textBlockBody?_append {t : Text} {parts : Text × Text} (h : textBlockBody? t = some parts)
    (hv : parts.2 ≠ []) (w : Text) : textBlockBody? (parts.1 ++ w) = some (parts.1, w) := by
  fun_induction textBlockBody? t generalizing parts with
  | case1 =>
      cases h
      simp at hv
  | case2 =>
      cases h
      rfl
  | case3 => simp at h
  | case4 c rest ih =>
      obtain ⟨inner, hinner, rfl⟩ := Option.map_eq_some_iff.1 h
      simp [consFirst, textBlockBody?, ih hinner hv]
  | case5 c rest hquotes hlone hescape ih =>
      obtain ⟨inner, hinner, rfl⟩ := Option.map_eq_some_iff.1 h
      have hlength := length_of_textBlockBody? hinner hv
      have hrest := joined_of_textBlockBody? hinner
      have hc := ne_backslash_of_textBlockBody? hlone hescape
      obtain ⟨first, more⟩ := inner
      simp only [consFirst, List.cons_append]
      rw [textBlockBody?_cons hc, ih hinner hv]
      · rfl
      · -- the first two code points of the block are those of the text
        intro hquote tail htail
        obtain ⟨d, first, rfl⟩ := List.exists_cons_of_length_pos
          (Nat.lt_of_lt_of_le (by decide) hlength)
        obtain ⟨e, first, rfl⟩ := List.exists_cons_of_length_pos
          (Nat.lt_of_lt_of_le (by decide) (Nat.le_of_succ_le_succ hlength))
        simp only [List.cons_append, List.cons.injEq] at htail
        obtain ⟨rfl, rfl, -⟩ := htail
        exact hquotes _ hquote hrest.symm

/-- Only a single backslash at the end of the text keeps a text block from being one. -/
theorem getLast?_of_textBlockBody?_eq_none {t : Text} (h : textBlockBody? t = none) :
    t.getLast? = some Code.backslash := by
  fun_induction textBlockBody? t with
  | case1 => simp at h
  | case2 => simp at h
  | case3 => rfl
  | case4 c rest ih =>
      have hrest := ih (Option.map_eq_none_iff.1 h)
      simp [List.getLast?_cons, hrest]
  | case5 c rest _ _ _ ih =>
      have hrest := ih (Option.map_eq_none_iff.1 h)
      simp [List.getLast?_cons, hrest]

section Quoted

variable {q : Code} (hfeed : q ≠ Code.lineFeed) (hslash : q ≠ Code.backslash)

include hfeed hslash

theorem quotedBody_of_endsLine {t : Text} (h : EndsLine t) : quotedBody q t = ([], t) := by
  rcases h with ⟨rest, rfl⟩ | ⟨rest, rfl⟩
  · cases rest with
    | nil => simp [quotedBody]
    | cons d rest => simp [quotedBody, hfeed.symm]
  · simp [quotedBody, hslash.symm, Code.backslash, Code.lineFeed]

/-- A quoted literal is closed, or ends with its line. -/
theorem quotedBody_append {t : Text} (hend : (quotedBody q t).2.getLast? = some Code.lineFeed)
    (hlike : BeginsLike (quotedBody q t).2 w) :
    quotedBody q ((quotedBody q t).1 ++ w) = ((quotedBody q t).1, w) := by
  have hopen : EndsLine (quotedBody q t).2 → quotedBody q ([] ++ w) = ([], w) := fun h =>
    quotedBody_of_endsLine hfeed hslash (hlike.endsLine h)
  obtain ⟨d', rest', hw⟩ := hlike.exists_cons (by rintro h; simp [h] at hend)
  fun_induction quotedBody q t with
  | case1 => simp at hend
  | case2 c hc =>
      obtain rfl : c = Code.lineFeed := by simpa using hend
      exact hopen (.inl ⟨[], rfl⟩)
  | case3 => simp at hend
  | case4 d rest => simp [hw, quotedBody]
  | case5 d rest => exact hopen (.inl ⟨_, rfl⟩)
  | case6 rest => exact hopen (.inr ⟨_, rfl⟩)
  | case7 d rest hd hq hc ih =>
      have hinner := ih hend hlike hopen
      simp only [consFirst, List.cons_append] at hinner ⊢
      simp [quotedBody, hq, hc, hd, hinner, consFirst]
  | case8 c d rest hq hc hesc ih =>
      have hinner := ih hend hlike hopen
      simp only [consFirst, List.cons_append] at hinner ⊢
      obtain ⟨e, more, hcons⟩ : ∃ e more, (quotedBody q (d :: rest)).1 ++ w = e :: more := by
        rw [hw]
        cases (quotedBody q (d :: rest)).1 <;> simp
      rw [hcons] at hinner ⊢
      simp [quotedBody, hq, hc, hesc, hinner, consFirst]

end Quoted

end Parts

/-! ### Segments that are not blank -/

/-- A code point that begins nothing else begins a number, a word, blanks or a mark. -/
theorem segmentAfter_eq_of_plain {c : Code} {t : Text}
    (hslash : c = Code.slash → t.head? ≠ some Code.slash ∧ t.head? ≠ some Code.star)
    (hdouble : c ≠ Code.doubleQuote) (hsingle : c ≠ Code.singleQuote) (hat : c ≠ Code.atSign) :
    segmentAfter c t =
      if c.isDigit then (.number, run isNumberPart t)
      else if isWordStart c then (.word, run isWordPart t)
      else if c.isBlank then (.blank, run Code.isBlank t)
      else (.mark, [], t) := by
  unfold segmentAfter
  split
  · exact absurd rfl (hslash rfl).1
  · exact absurd rfl (hslash rfl).2
  · exact absurd rfl hdouble
  · exact absurd rfl hdouble
  · exact absurd rfl hsingle
  · exact absurd rfl hat
  · rfl

/-- A slash that begins no comment has neither a slash nor a star behind it. -/
theorem head?_ne_of_mark {c : Code} {t : Text}
    (hline : ∀ rest, c = Code.slash → t = Code.slash :: rest → False)
    (hblock : ∀ rest, c = Code.slash → t = Code.star :: rest → False) (hc : c = Code.slash) :
    t.head? ≠ some Code.slash ∧ t.head? ≠ some Code.star := by
  constructor
  · intro hhead
    obtain ⟨rest, hrest⟩ := List.head?_eq_some_iff.1 hhead
    exact hline rest hc hrest
  · intro hhead
    obtain ⟨rest, hrest⟩ := List.head?_eq_some_iff.1 hhead
    exact hblock rest hc hrest

/-- What a quotation mark begins that begins no text block. -/
theorem segmentAfter_doubleQuote {t : Text}
    (h : ∀ rest, t ≠ Code.doubleQuote :: Code.doubleQuote :: rest) :
    segmentAfter Code.doubleQuote t = (.quotedString, quotedBody Code.doubleQuote t) := by
  change segmentAfter 0x22 t = _
  rw [segmentAfter]
  exact h

theorem segmentAfter_textBlock {t : Text} {parts : Text × Text}
    (h : textBlockBody? t = some parts) :
    segmentAfter Code.doubleQuote (Code.doubleQuote :: Code.doubleQuote :: t) =
      (.textBlock, consFirst Code.doubleQuote (consFirst Code.doubleQuote parts)) := by
  simp [segmentAfter, h]

/-- A literal that begins no text block begins none before another text either. -/
theorem not_textBlock_append {t w : Text}
    (h : ∀ rest, t ≠ Code.doubleQuote :: Code.doubleQuote :: rest)
    (hlike : BeginsLike (quotedBody Code.doubleQuote t).2 w) :
    ∀ rest, (quotedBody Code.doubleQuote t).1 ++ w ≠
      Code.doubleQuote :: Code.doubleQuote :: rest := by
  intro rest heq
  have ht := joined_quotedBody Code.doubleQuote t
  rw [joined] at ht
  -- a quotation mark behind the literal is one in the text
  have hhead : w.head? = some Code.doubleQuote →
      (quotedBody Code.doubleQuote t).2.head? = some Code.doubleQuote := by
    intro hw
    exact Decidable.byContradiction fun hv => hlike.head?_ne (by decide) hv hw
  cases hfirst : (quotedBody Code.doubleQuote t).1 with
  | nil =>
      rw [hfirst, List.nil_append] at heq ht
      obtain ⟨more, hmore⟩ := List.head?_eq_some_iff.1 (hhead (by rw [heq]; rfl))
      rw [← ht, hmore] at hfirst
      cases more with
      | nil => exact List.cons_ne_nil _ _ hfirst
      | cons d more => exact List.cons_ne_nil _ _ hfirst
  | cons c first =>
      rw [hfirst, List.cons_append] at heq ht
      obtain ⟨rfl, hrest⟩ := List.cons.inj heq
      cases first with
      | nil =>
          obtain ⟨more, hmore⟩ := List.head?_eq_some_iff.1 (hhead (congrArg List.head? hrest))
          rw [hmore] at ht
          exact h _ ht.symm
      | cons d first =>
          obtain ⟨rfl, -⟩ := List.cons.inj hrest
          exact h _ ht.symm

/-- **A segment that is not blank** stays the same before a text that begins alike. -/
theorem segmentAfter_append {c : Code} {t w : Text} (hshape : (segmentAfter c t).1 ≠ .blank)
    (hend : (segmentAfter c t).2.2.getLast? = some Code.lineFeed)
    (hlike : BeginsLike (segmentAfter c t).2.2 w) :
    segmentAfter c ((segmentAfter c t).2.1 ++ w) =
      ((segmentAfter c t).1, (segmentAfter c t).2.1, w) := by
  have hv : (segmentAfter c t).2.2 ≠ [] := by
    intro hnil
    simp [hnil] at hend
  fun_cases segmentAfter c t with
  | case1 rest =>
      exact congrArg (fun parts => (Shape.lineComment, consFirst Code.slash parts))
        (run_append rfl hlike)
  | case2 rest =>
      exact congrArg (fun parts => (Shape.blockComment, consFirst Code.star parts))
        (blockBody_append hv w)
  | case3 rest parts hparts =>
      have hblock := segmentAfter_textBlock hparts
      have hclosed : parts.2 ≠ [] := by rwa [hblock] at hv
      exact segmentAfter_textBlock (textBlockBody?_append hparts hclosed w)
  | case4 rest hnone =>
      -- the text would end in a backslash
      have hjoined := congrArg List.getLast? (joined_segmentAfter 0x22 (0x22 :: 0x22 :: rest))
      rw [joined, List.getLast?_append, hend] at hjoined
      simp [List.getLast?_cons, getLast?_of_textBlockBody?_eq_none hnone, Code.lineFeed,
        Code.backslash] at hjoined
  | case5 t hquotes =>
      have hquoted := segmentAfter_doubleQuote hquotes
      rw [hquoted] at hend hlike
      exact (segmentAfter_doubleQuote (not_textBlock_append hquotes hlike)).trans
        (congrArg (Prod.mk Shape.quotedString)
          (quotedBody_append (by decide) (by decide) hend hlike))
  | case6 =>
      exact congrArg (Prod.mk Shape.quotedCharacter)
        (quotedBody_append (by decide) (by decide) hend hlike)
  | case7 => rfl
  | case8 c t hdigit hdouble hsingle hat =>
      have hplain {t : Text} := segmentAfter_eq_of_plain (t := t)
        (fun hc : c = Code.slash => absurd hdigit (by rw [hc]; decide)) hdouble hsingle hat
      simp only [if_pos hdigit] at hplain ⊢
      rw [hplain] at hlike ⊢
      exact congrArg (Prod.mk Shape.number) (run_append rfl hlike)
  | case9 c t hdigit hword hdouble hsingle hat =>
      have hplain {t : Text} := segmentAfter_eq_of_plain (t := t)
        (fun hc : c = Code.slash => absurd hword (by rw [hc]; decide)) hdouble hsingle hat
      simp only [if_neg hdigit, if_pos hword] at hplain ⊢
      rw [hplain] at hlike ⊢
      exact congrArg (Prod.mk Shape.word) (run_append rfl hlike)
  | case10 c t hdigit hword hblank hdouble hsingle hat hline hblock =>
      have hplain := segmentAfter_eq_of_plain (head?_ne_of_mark hline hblock) hdouble hsingle hat
      rw [if_neg hdigit, if_neg hword, if_pos hblank] at hplain
      exact absurd (congrArg Prod.fst hplain) hshape
  | case11 c t hdigit hword hblank hdouble hsingle hat hline hblock =>
      have hslash := head?_ne_of_mark hline hblock
      have hplain := segmentAfter_eq_of_plain hslash hdouble hsingle hat
      simp only [if_neg hdigit, if_neg hword, if_neg hblank] at hplain ⊢
      rw [hplain] at hlike
      rw [List.nil_append, segmentAfter_eq_of_plain (fun hc => ⟨hlike.head?_ne (by decide)
        (hslash hc).1, hlike.head?_ne (by decide) (hslash hc).2⟩) hdouble hsingle hat,
        if_neg hdigit, if_neg hword, if_neg hblank]

/-! ### Blank segments -/

/-- The blank code points, one by one. -/
def blanks : List Code :=
  [0x09, 0x0A, 0x0B, 0x0C, 0x0D, 0x1C, 0x1D, 0x1E, 0x1F, 0x20, 0x85, 0xA0, 0x1680, 0x2000, 0x2001,
    0x2002, 0x2003, 0x2004, 0x2005, 0x2006, 0x2007, 0x2008, 0x2009, 0x200A, 0x2028, 0x2029, 0x202F,
    0x205F, 0x3000]

theorem mem_blanks {c : Code} (h : c.isBlank = true) : c ∈ blanks := by
  simp only [Code.isBlank, Bool.or_eq_true, decide_eq_true_eq, beq_iff_eq] at h
  simp only [blanks, List.mem_cons, List.not_mem_nil, or_false]
  unfold Code at h ⊢
  omega

/-- A blank code point begins nothing but blanks. -/
theorem segmentAfter_of_isBlank {c : Code} (h : c.isBlank = true) (t : Text) :
    segmentAfter c t = (.blank, run Code.isBlank t) := by
  have hall : ∀ d ∈ blanks, d ≠ Code.slash ∧ d ≠ Code.doubleQuote ∧ d ≠ Code.singleQuote ∧
      d ≠ Code.atSign ∧ Code.isDigit d = false ∧ isWordStart d = false := by
    decide +kernel
  obtain ⟨hslash, hdouble, hsingle, hat, hdigit, hword⟩ := hall c (mem_blanks h)
  rw [segmentAfter_eq_of_plain (fun hc => absurd hc hslash) hdouble hsingle hat, hdigit, hword, h]
  rfl

/-- Only blanks begin a blank segment. -/
theorem isBlank_of_segmentAfter {c : Code} {t : Text} (h : (segmentAfter c t).1 = .blank) :
    c.isBlank = true := by
  unfold segmentAfter at h
  split at h
  · simp at h
  · simp at h
  · split at h <;> simp at h
  · simp at h
  · simp at h
  · simp at h
  · split at h
    · simp at h
    · split at h
      · simp at h
      · split at h
        · assumption
        · simp at h

/-- A blank segment holds nothing but blanks. -/
theorem isBlank_of_mem_segmentAfter {c : Code} {t : Text} (h : (segmentAfter c t).1 = .blank) :
    ∀ d ∈ c :: (segmentAfter c t).2.1, d.isBlank = true := by
  have hc := isBlank_of_segmentAfter h
  rw [segmentAfter_of_isBlank hc]
  exact List.forall_mem_cons.2 ⟨hc, List.all_eq_true.1 List.all_takeWhile⟩

/-- Blanks in front of the segments count by their lines only. -/
theorem ofSegments_trimLeft (line : Nat) (t : Text) :
    ofSegments line (segments t) =
      ofSegments (line + Text.lineFeeds (t.takeWhile Code.isBlank))
        (segments (t.dropWhile Code.isBlank)) := by
  cases t with
  | nil => rfl
  | cons c t =>
      cases hc : c.isBlank with
      | false =>
          have hnot : ¬ c.isBlank = true := by simp [hc]
          rw [List.takeWhile_cons_of_neg hnot, List.dropWhile_cons_of_neg hnot]
          rfl
      | true =>
          rw [List.takeWhile_cons_of_pos hc, List.dropWhile_cons_of_pos hc, segments,
            segmentAfter_of_isBlank hc, ofSegments, if_pos rfl]
          rfl

/-- Blanks before a text count by their lines only. -/
theorem ofSegments_blanks_append {b : Text} (h : ∀ c ∈ b, c.isBlank = true)
    (line : Nat) (t : Text) :
    ofSegments line (segments (b ++ t)) = ofSegments (line + b.lineFeeds) (segments t) := by
  rw [ofSegments_trimLeft, ofSegments_trimLeft (line + b.lineFeeds),
    List.takeWhile_append_of_pos h, List.dropWhile_append_of_pos h, Text.lineFeeds,
    List.count_append, Nat.add_assoc]
  rfl

end BundleAudit.Token.Java
