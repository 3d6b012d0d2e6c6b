import BundleAudit.Proofs.Token.Tiling

/-!
# BundleAudit.Proofs.Token.Spans

**Literals and comments of a `.java` text, code point by code point.** An automaton reads a
text from its beginning. In code it looks for what opens a comment or a literal, within one
for what closes it, and it never looks back or at more than three code points. The spans
that it finds are the segments of the text that have a form (`spans_eq_filterMap`).
-/

namespace BundleAudit.Token.Java

/-! ### The automaton -/

/-- What a span of a text is that is no code. -/
inductive Form
  | lineComment
  | blockComment
  | textBlock
  | string
  | character
  deriving DecidableEq, Repr

/-- Where the automaton is: in code, or within a span that starts at an offset. -/
inductive Mode
  | code
  | within (form : Form) (start : Nat)
  deriving DecidableEq, Repr

/-- A span of a text: its first code point has the offset `start`, and what follows it `stop`. -/
structure Span where
  form : Form
  start : Nat
  stop : Nat
  deriving DecidableEq, Repr

/-- The form that a text opens, and by how many code points. -/
def opening? : Text → Option (Form × Nat)
  | Code.slash :: Code.slash :: _ => some (.lineComment, 2)
  | Code.slash :: Code.star :: _ => some (.blockComment, 2)
  | Code.doubleQuote :: Code.doubleQuote :: Code.doubleQuote :: _ => some (.textBlock, 3)
  | Code.doubleQuote :: _ => some (.string, 1)
  | Code.singleQuote :: _ => some (.character, 1)
  | _ => none

/-- Whether a quoted literal ends here, and by how many code points: by its quote, or before
the end of its line. A backslash that has only the line end behind it is outside of it. -/
def quotedClosing? (q : Code) : Text → Option Nat
  | [] => none
  | c :: rest =>
    if c = q then some 1
    else if c = Code.lineFeed ∨ c = Code.backslash ∧ rest.head? = some Code.lineFeed then some 0
    else none

namespace Form

/-- Whether a form ends here, and by how many code points. -/
def closing? : Form → Text → Option Nat
  | .lineComment, Code.lineFeed :: _ => some 0
  | .blockComment, Code.star :: Code.slash :: _ => some 2
  | .textBlock, Code.doubleQuote :: Code.doubleQuote :: Code.doubleQuote :: _ => some 3
  | .string, t => quotedClosing? Code.doubleQuote t
  | .character, t => quotedClosing? Code.singleQuote t
  | _, _ => none

/-- Whether the form is a literal, in which a backslash takes the next code point with it. -/
def isLiteral : Form → Bool
  | .textBlock | .string | .character => true
  | .lineComment | .blockComment => false

/-- How many code points go on with a form that does not end here. -/
def width (form : Form) : Text → Nat
  | Code.backslash :: _ :: _ => if form.isLiteral then 2 else 1
  | _ => 1

end Form

/-- What the automaton does in front of a text. -/
structure Move where
  ended : Option Span := none
  mode : Mode
  taken : Nat := 1

namespace Mode

/-- A step of the automaton at an offset. Where a span ends before the text, the first code
point of the text is code. -/
def step (m : Mode) (offset : Nat) (t : Text) : Move :=
  match m with
  | .code =>
    match opening? t with
    | some (form, n) => { mode := .within form offset, taken := n }
    | none => { mode := .code }
  | .within form start =>
    match form.closing? t with
    | some n => { ended := some ⟨form, start, offset + n⟩, mode := .code, taken := max n 1 }
    | none => { mode := .within form start, taken := form.width t }

/-- The spans that the automaton finds in a text from an offset on, of which `pending` code
points are taken already. What is open at the end of the text ends there. -/
def spansFrom (m : Mode) (pending offset : Nat) : Text → List Span
  | [] =>
    match m with
    | .code => []
    | .within form start => [⟨form, start, offset⟩]
  | c :: rest =>
    match pending with
    | n + 1 => spansFrom m n (offset + 1) rest
    | 0 =>
      let move := m.step offset (c :: rest)
      move.ended.toList ++ move.mode.spansFrom (move.taken - 1) (offset + 1) rest

end Mode

/-- The spans of a text. -/
def spans (t : Text) : List Span := Mode.code.spansFrom 0 0 t

/-! ### Spans of one form -/

theorem getLast?_ne_of_suffix {a b : Text} {c : Code} (hsuffix : b <:+ a)
    (h : a.getLast? ≠ some c) : b.getLast? ≠ some c := by
  obtain ⟨more, rfl⟩ := hsuffix
  intro hb
  simp [List.getLast?_append, hb] at h

namespace Form

variable {form : Form} {c d : Code} {t : Text} {parts : Text × Text}

/-- A form that began before a text ends behind the first of two parts, and behind it there is
code. -/
def EndsAfter (form : Form) (t : Text) (parts : Text × Text) : Prop :=
  ∀ start offset, (Mode.within form start).spansFrom 0 offset t =
    ⟨form, start, offset + parts.1.length⟩ ::
      Mode.code.spansFrom 0 (offset + parts.1.length) parts.2

theorem endsAfter_nil (form : Form) : form.EndsAfter [] ([], []) := by
  intro start offset
  rfl

theorem EndsAfter.cons (h : form.EndsAfter t parts) (hclosing : form.closing? (c :: t) = none)
    (hwidth : form.width (c :: t) = 1) : form.EndsAfter (c :: t) (consFirst c parts) := by
  intro start offset
  have hstep : (Mode.within form start).spansFrom 0 offset (c :: t) =
      (Mode.within form start).spansFrom 0 (offset + 1) t := by
    simp [Mode.spansFrom, Mode.step, hclosing, hwidth]
  rw [hstep, h start (offset + 1)]
  simp [consFirst, Nat.add_assoc, Nat.add_comm 1]

theorem EndsAfter.escape (h : form.EndsAfter t parts)
    (hclosing : form.closing? (Code.backslash :: d :: t) = none)
    (hliteral : form.isLiteral = true) :
    form.EndsAfter (Code.backslash :: d :: t) (consFirst Code.backslash (consFirst d parts)) := by
  intro start offset
  have hstep : (Mode.within form start).spansFrom 0 offset (Code.backslash :: d :: t) =
      (Mode.within form start).spansFrom 0 (offset + 2) t := by
    simp [Mode.spansFrom, Mode.step, hclosing, width, hliteral]
  rw [hstep, h start (offset + 2)]
  simp [consFirst, Nat.add_assoc, Nat.add_comm 2]

/-- What ends before a code point that opens nothing. -/
theorem endsAfter_before (hclosing : form.closing? (c :: t) = some 0)
    (hopening : opening? (c :: t) = none) : form.EndsAfter (c :: t) ([], c :: t) := by
  intro start offset
  simp [Mode.spansFrom, Mode.step, hclosing, hopening]

theorem width_of_not_isLiteral (h : form.isLiteral = false) (t : Text) : form.width t = 1 := by
  unfold width
  split
  · simp [h]
  · rfl

theorem width_cons (hc : c ≠ Code.backslash) : form.width (c :: t) = 1 := by
  unfold width
  split
  · next heq => exact absurd (List.cons.inj heq).1 hc
  · rfl

theorem endsAfter_lineComment (t : Text) :
    lineComment.EndsAfter t (run (· != Code.lineFeed) t) := by
  induction t with
  | nil => exact endsAfter_nil _
  | cons c rest ih =>
      by_cases hc : c = Code.lineFeed
      · subst hc
        exact endsAfter_before rfl rfl
      · have hrun : run (· != Code.lineFeed) (c :: rest) =
            consFirst c (run (· != Code.lineFeed) rest) := by
          simp [run, consFirst, hc]
        rw [hrun]
        exact ih.cons (by simp [closing?, hc]) (width_of_not_isLiteral rfl _)

theorem endsAfter_blockComment (t : Text) : blockComment.EndsAfter t (blockBody t) := by
  fun_induction blockBody t with
  | case1 => exact endsAfter_nil _
  | case2 rest =>
      intro start offset
      rfl
  | case3 c rest hclose ih =>
      refine ih.cons ?_ (width_of_not_isLiteral rfl _)
      unfold closing?
      split <;> simp_all

theorem closing?_textBlock_eq_none
    (h : ∀ rest, t ≠ Code.doubleQuote :: Code.doubleQuote :: Code.doubleQuote :: rest) :
    textBlock.closing? t = none := by
  unfold closing?
  split <;> simp_all

theorem endsAfter_textBlock (h : textBlockBody? t = some parts) : textBlock.EndsAfter t parts := by
  fun_induction textBlockBody? t generalizing parts with
  | case1 =>
      cases h
      exact endsAfter_nil _
  | case2 rest =>
      cases h
      intro start offset
      rfl
  | case3 => simp at h
  | case4 c rest ih =>
      obtain ⟨inner, hinner, rfl⟩ := Option.map_eq_some_iff.1 h
      exact (ih hinner).escape rfl rfl
  | case5 c rest hquotes hlone hescape ih =>
      obtain ⟨inner, hinner, rfl⟩ := Option.map_eq_some_iff.1 h
      have hc := ne_backslash_of_textBlockBody? hlone hescape
      refine (ih hinner).cons (closing?_textBlock_eq_none fun more heq => ?_) (width_cons hc)
      obtain ⟨hquote, hrest⟩ := List.cons.inj heq
      exact hquotes more hquote hrest

theorem quotedClosing?_eq_none {q : Code} (hq : c ≠ q) (hc : c ≠ Code.lineFeed)
    (hescape : c = Code.backslash → t.head? ≠ some Code.lineFeed) :
    quotedClosing? q (c :: t) = none := by
  simp only [quotedClosing?, if_neg hq]
  exact if_neg fun h => h.elim hc fun h => hescape h.1 h.2

/-- What ends with its first code point. -/
theorem endsAfter_first (hclosing : form.closing? (c :: t) = some 1) :
    form.EndsAfter (c :: t) ([c], t) := by
  intro start offset
  simp [Mode.spansFrom, Mode.step, hclosing]

section Quoted

variable {q : Code} (hfeed : q ≠ Code.lineFeed) (hslash : q ≠ Code.backslash)
  (hclosing : ∀ t, form.closing? t = quotedClosing? q t) (hliteral : form.isLiteral = true)

include hfeed hslash hclosing hliteral

/-- A quoted literal ends where it does in the segments, unless a single backslash ends the text. -/
theorem endsAfter_quoted (hlast : t.getLast? ≠ some Code.backslash) :
    form.EndsAfter t (quotedBody q t) := by
  have hfirst : ∀ rest, form.closing? (q :: rest) = some 1 := by
    intro rest
    simp [hclosing, quotedClosing?]
  have hend : ∀ rest, form.closing? (Code.lineFeed :: rest) = some 0 := by
    intro rest
    simp [hclosing, quotedClosing?, hfeed.symm]
  have hgoOn : ∀ {c : Code} {rest : Text}, c ≠ q → c ≠ Code.lineFeed →
      (c = Code.backslash → rest.head? ≠ some Code.lineFeed) → form.closing? (c :: rest) = none :=
    fun hq hc hesc => (hclosing _).trans (quotedClosing?_eq_none hq hc hesc)
  fun_induction quotedBody q t with
  | case1 => exact endsAfter_nil _
  | case2 c hc =>
      obtain rfl : c = Code.lineFeed := hc.resolve_right fun hc => hlast (congrArg some hc)
      exact endsAfter_before (hend _) rfl
  | case3 c hc =>
      obtain ⟨hc, hesc⟩ := not_or.1 hc
      by_cases hq : c = q
      · subst hq
        exact endsAfter_first (hfirst _)
      · exact (endsAfter_nil form).cons (hgoOn hq hc fun h => absurd h hesc) (width_cons hesc)
  | case4 d rest => exact endsAfter_first (hfirst _)
  | case5 d rest => exact endsAfter_before (hend _) rfl
  | case6 rest =>
      refine endsAfter_before ?_ rfl
      simp [hclosing, quotedClosing?, hslash.symm]
  | case7 d rest hd hq hc ih =>
      refine (ih (getLast?_ne_of_suffix ?_ hlast)).escape
        (hgoOn hq hc fun _ h => hd (Option.some.inj h)) hliteral
      exact (List.suffix_cons d rest).trans (List.suffix_cons _ _)
  | case8 c d rest hq hc hesc ih =>
      exact (ih (getLast?_ne_of_suffix (List.suffix_cons _ _) hlast)).cons
        (hgoOn hq hc fun h => absurd h hesc) (width_cons hesc)

end Quoted

end Form

/-! ### Spans and segments -/

/-- The form of a segment that is no code. -/
def Shape.form? : Shape → Option Form
  | .lineComment => some .lineComment
  | .blockComment => some .blockComment
  | .textBlock => some .textBlock
  | .quotedString => some .string
  | .quotedCharacter => some .character
  | .number | .word | .annotationMark | .blank | .mark => none

/-- Code points that open nothing, whatever follows them. -/
def IsPlain (c : Code) : Prop := c ≠ Code.slash ∧ c ≠ Code.doubleQuote ∧ c ≠ Code.singleQuote

/-- A class that holds none of them holds plain code points only. -/
theorem isPlain_of {p : Code → Bool} {c : Code}
    (hp : [Code.slash, Code.doubleQuote, Code.singleQuote].any p = false) (hc : p c = true) :
    IsPlain c := by
  rw [List.any_eq_false] at hp
  refine ⟨?_, ?_, ?_⟩ <;> rintro rfl
  · exact hp Code.slash (by simp) hc
  · exact hp Code.doubleQuote (by simp) hc
  · exact hp Code.singleQuote (by simp) hc

theorem opening?_of_isPlain {c : Code} (h : IsPlain c) (t : Text) : opening? (c :: t) = none := by
  obtain ⟨hslash, hdouble, hsingle⟩ := h
  unfold opening?
  split <;> simp_all

namespace Mode

variable {offset : Nat}

theorem spansFrom_pending (m : Mode) (a t : Text) (offset : Nat) :
    m.spansFrom a.length offset (a ++ t) = m.spansFrom 0 (offset + a.length) t := by
  induction a generalizing offset with
  | nil => rfl
  | cons c rest ih =>
      have hrest := ih (offset + 1)
      rw [Nat.add_assoc, Nat.add_comm 1] at hrest
      exact hrest

/-- A span from what opens it to what ends it. -/
theorem spansFrom_opening {form : Form} {c : Code} {a t : Text} {parts : Text × Text}
    (hopening : opening? (c :: a ++ t) = some (form, a.length + 1))
    (hends : form.EndsAfter t parts) :
    code.spansFrom 0 offset (c :: a ++ t) =
      ⟨form, offset, offset + (a ++ parts.1).length + 1⟩ ::
        code.spansFrom 0 (offset + (a ++ parts.1).length + 1) parts.2 := by
  have hstep : code.spansFrom 0 offset (c :: a ++ t) =
      (within form offset).spansFrom a.length (offset + 1) (a ++ t) := by
    rw [List.cons_append] at hopening ⊢
    simp [spansFrom, step, hopening]
  have hlength : offset + 1 + a.length + parts.1.length = offset + (a ++ parts.1).length + 1 := by
    rw [List.length_append]
    omega
  rw [hstep, spansFrom_pending, hends, hlength]

theorem spansFrom_code {c : Code} {t : Text} (h : opening? (c :: t) = none) :
    code.spansFrom 0 offset (c :: t) = code.spansFrom 0 (offset + 1) t := by
  simp [spansFrom, step, h]

theorem spansFrom_run {p : Code → Bool}
    (hp : [Code.slash, Code.doubleQuote, Code.singleQuote].any p = false) (t : Text) :
    code.spansFrom 0 offset t = code.spansFrom 0 (offset + (run p t).1.length) (run p t).2 := by
  induction t generalizing offset with
  | nil => rfl
  | cons c rest ih =>
      cases hc : p c with
      | false => simp [run, hc]
      | true =>
          rw [spansFrom_code (opening?_of_isPlain (isPlain_of hp hc) rest), ih]
          simp [run, hc, Nat.add_assoc, Nat.add_comm 1]

/-- A plain code point and a run of plain code points behind it are code. -/
theorem spansFrom_cons_run {p q : Code → Bool} {c : Code}
    (hp : [Code.slash, Code.doubleQuote, Code.singleQuote].any p = false)
    (hq : [Code.slash, Code.doubleQuote, Code.singleQuote].any q = false) (hc : p c = true)
    (t : Text) :
    code.spansFrom 0 offset (c :: t) =
      code.spansFrom 0 (offset + (run q t).1.length + 1) (run q t).2 := by
  rw [spansFrom_code (opening?_of_isPlain (isPlain_of hp hc) t), spansFrom_run hq,
    Nat.add_right_comm]

/-- The first segment of a text is a span, or code. -/
theorem spansFrom_segmentAfter {c : Code} {t : Text}
    (hlast : (c :: t).getLast? ≠ some Code.backslash) :
    code.spansFrom 0 offset (c :: t) =
      ((segmentAfter c t).1.form?.map fun form =>
        ⟨form, offset, offset + (segmentAfter c t).2.1.length + 1⟩).toList ++
      code.spansFrom 0 (offset + (segmentAfter c t).2.1.length + 1) (segmentAfter c t).2.2 := by
  fun_cases segmentAfter c t with
  | case1 rest => exact spansFrom_opening (a := [Code.slash]) rfl (Form.endsAfter_lineComment rest)
  | case2 rest => exact spansFrom_opening (a := [Code.star]) rfl (Form.endsAfter_blockComment rest)
  | case3 rest parts hparts =>
      exact spansFrom_opening (a := [Code.doubleQuote, Code.doubleQuote]) rfl
        (Form.endsAfter_textBlock hparts)
  | case4 rest hnone =>
      -- the text would end in a backslash
      have hrest := getLast?_of_textBlockBody?_eq_none hnone
      exact absurd hrest (getLast?_ne_of_suffix ⟨[0x22, 0x22, 0x22], rfl⟩ hlast)
  | case5 t hquotes =>
      refine spansFrom_opening (a := []) ?_ (Form.endsAfter_quoted (by decide) (by decide)
        (fun _ => rfl) rfl (getLast?_ne_of_suffix (List.suffix_cons _ _) hlast))
      unfold opening?
      split <;> simp_all
  | case6 =>
      exact spansFrom_opening (a := []) rfl (Form.endsAfter_quoted (by decide) (by decide)
        (fun _ => rfl) rfl (getLast?_ne_of_suffix (List.suffix_cons _ _) hlast))
  | case7 => exact spansFrom_code rfl
  | case8 c t hdigit =>
      simp only [if_pos hdigit]
      exact spansFrom_cons_run (p := Code.isDigit) (q := isNumberPart) (by decide) (by decide)
        hdigit t
  | case9 c t hdigit hword =>
      simp only [if_neg hdigit, if_pos hword]
      exact spansFrom_cons_run (p := isWordStart) (q := isWordPart) (by decide) (by decide) hword t
  | case10 c t hdigit hword hblank =>
      simp only [if_neg hdigit, if_neg hword, if_pos hblank]
      exact spansFrom_cons_run (p := Code.isBlank) (q := Code.isBlank) (by decide) (by decide)
        hblank t
  | case11 c t hdigit hword hblank hdouble hsingle _ hline hblock =>
      simp only [if_neg hdigit, if_neg hword, if_neg hblank]
      refine spansFrom_code ?_
      unfold opening?
      split <;> simp_all

end Mode

/-- The span that a segment is at its place: none if it is code. -/
def spanAt? (p : Place Segment) : Option Span :=
  p.item.shape.form?.map fun form =>
    ⟨form, (p.map Segment.text).start, (p.map Segment.text).start + p.item.text.length⟩

theorem spansFrom_eq_filterMap (before : List Segment) {t : Text}
    (hlast : t.getLast? ≠ some Code.backslash) :
    Mode.code.spansFrom 0 (before.flatMap Segment.text).length t =
      (placesAfter before (segments t)).filterMap spanAt? := by
  -- by the recursion of the segments: the first one is a span or code, and the others follow it
  fun_induction segments t generalizing before with
  | case1 => rfl
  | case2 c t parts ih =>
      have hsuffix : parts.2.2 <:+ c :: t :=
        ⟨c :: parts.2.1, congrArg (c :: ·) (joined_segmentAfter c t)⟩
      have hrest := ih (before ++ [⟨parts.1, c :: parts.2.1⟩]) (getLast?_ne_of_suffix hsuffix hlast)
      rw [List.flatMap_append, List.flatMap_singleton, List.length_append, List.length_cons,
        ← Nat.add_assoc] at hrest
      rw [Mode.spansFrom_segmentAfter hlast, placesAfter, List.filterMap_cons, ← hrest, spanAt?,
        start_map]
      cases (segmentAfter c t).1.form? <;> simp [parts, Nat.add_assoc]

/-- The spans of a text are its segments that have a form, unless a backslash ends the text. -/
theorem spans_eq_filterMap {t : Text} (hlast : t.getLast? ≠ some Code.backslash) :
    spans t = (places (segments t)).filterMap spanAt? :=
  spansFrom_eq_filterMap [] hlast

end BundleAudit.Token.Java
