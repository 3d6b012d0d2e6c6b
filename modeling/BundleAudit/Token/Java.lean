import BundleAudit.Text.Blank
import BundleAudit.Text.Decimal
import BundleAudit.Text.Word
import BundleAudit.Token.Basic

/-!
# BundleAudit.Token.Java

**Tokens of `.java` sources.** The text, with its line ends normalised, is cut into
segments from the left. Every code point belongs to one segment, so the segments
tile the text; the tokens are the segments that are not blank, each with the line
on which it starts.

* A comment or literal that is not closed ends with the text, a quoted literal
  already before the end of its line.
* A text block that ends in a single backslash is no text block: its quotes are
  read again as quoted literals.
-/

namespace BundleAudit.Token.Java

/-! ### Segments -/

/-- What a segment is. -/
inductive Shape
  | lineComment
  | blockComment
  | textBlock
  | quotedString
  | quotedCharacter
  | number
  | word
  | annotationMark
  | blank
  | mark
  deriving DecidableEq, Repr

/-- A stretch of the text that is read as one. -/
structure Segment where
  shape : Shape
  text : Text
  deriving DecidableEq, Repr

/-- Code points of a word after its first. -/
def isWordPart (c : Code) : Bool := c.isWord || c == Code.dollar

/-- Code points that begin a word. -/
def isWordStart (c : Code) : Bool := (c.isWord && !c.isDigit) || c == Code.dollar

/-- Code points of a number after its first digit. -/
def isNumberPart (c : Code) : Bool := c.isWord || c == Code.dot

/-- Puts a code point in front of the first of two parts of a text. -/
def consFirst (c : Code) (parts : Text × Text) : Text × Text := (c :: parts.1, parts.2)

/-- A block comment after its opening, up to its closing or the end, and what follows it. -/
def blockBody : Text → Text × Text
  | [] => ([], [])
  | Code.star :: Code.slash :: rest => ([Code.star, Code.slash], rest)
  | c :: rest => consFirst c (blockBody rest)

/-- A text block after its opening, up to the first quotes that close it or the end.
There is none if a single backslash ends the text. -/
def textBlockBody? : Text → Option (Text × Text)
  | [] => some ([], [])
  | Code.doubleQuote :: Code.doubleQuote :: Code.doubleQuote :: rest =>
    some ([Code.doubleQuote, Code.doubleQuote, Code.doubleQuote], rest)
  | [Code.backslash] => none
  | Code.backslash :: c :: rest =>
    (textBlockBody? rest).map (consFirst Code.backslash ∘ consFirst c)
  | c :: rest => (textBlockBody? rest).map (consFirst c)

/-- A quoted literal after its opening quote `q`, up to its closing quote, the end of the
line or the end of the text. A backslash takes the next code point with it, unless that is
the end of the line. -/
def quotedBody (q : Code) : Text → Text × Text
  | [] => ([], [])
  | [c] => if c = Code.lineFeed ∨ c = Code.backslash then ([], [c]) else ([c], [])
  | c :: d :: rest =>
    if c = q then ([q], d :: rest)
    else if c = Code.lineFeed then ([], c :: d :: rest)
    else if c = Code.backslash then
      if d = Code.lineFeed then ([], c :: d :: rest)
      else consFirst c (consFirst d (quotedBody q rest))
    else consFirst c (quotedBody q (d :: rest))

/-- The code points up to the first outside a class. -/
def run (p : Code → Bool) (t : Text) : Text × Text := (t.takeWhile p, t.dropWhile p)

/-- The rest of the first segment of a text that begins with `c`, and what follows it. -/
def segmentAfter (c : Code) (t : Text) : Shape × Text × Text :=
  match c, t with
  | Code.slash, Code.slash :: rest =>
    (.lineComment, consFirst Code.slash (run (· != Code.lineFeed) rest))
  | Code.slash, Code.star :: rest =>
    (.blockComment, consFirst Code.star (blockBody rest))
  | Code.doubleQuote, Code.doubleQuote :: Code.doubleQuote :: rest =>
    match textBlockBody? rest with
    | some parts => (.textBlock, consFirst Code.doubleQuote (consFirst Code.doubleQuote parts))
    | none => (.quotedString, quotedBody c t)
  | Code.doubleQuote, _ => (.quotedString, quotedBody c t)
  | Code.singleQuote, _ => (.quotedCharacter, quotedBody c t)
  | Code.atSign, _ => (.annotationMark, [], t)
  | _, _ =>
    if c.isDigit then (.number, run isNumberPart t)
    else if isWordStart c then (.word, run isWordPart t)
    else if c.isBlank then (.blank, run Code.isBlank t)
    else (.mark, [], t)

/-! ### The segments of a text tile it -/

/-- The two parts, joined again. -/
def joined (parts : Text × Text) : Text := parts.1 ++ parts.2

@[simp] theorem joined_consFirst (c : Code) (parts : Text × Text) :
    joined (consFirst c parts) = c :: joined parts := rfl

theorem joined_blockBody (t : Text) : joined (blockBody t) = t := by
  fun_induction blockBody t with
  | case1 => rfl
  | case2 => rfl
  | case3 c rest _ ih => simp [ih]

theorem joined_of_textBlockBody? {t : Text} {parts : Text × Text}
    (h : textBlockBody? t = some parts) : joined parts = t := by
  fun_induction textBlockBody? t generalizing parts with
  | case1 => cases h; rfl
  | case2 => cases h; rfl
  | case3 => simp at h
  | case4 c rest ih =>
    obtain ⟨inner, hi, rfl⟩ := Option.map_eq_some_iff.1 h
    simp [ih hi]
  | case5 c rest _ _ _ ih =>
    obtain ⟨inner, hi, rfl⟩ := Option.map_eq_some_iff.1 h
    simp [ih hi]

theorem joined_quotedBody (q : Code) (t : Text) : joined (quotedBody q t) = t := by
  fun_induction quotedBody q t <;> simp_all [joined, consFirst]

theorem joined_run (p : Code → Bool) (t : Text) : joined (run p t) = t :=
  List.takeWhile_append_dropWhile

/-- A segment and what follows it make up the text. -/
theorem joined_segmentAfter (c : Code) (t : Text) : joined (segmentAfter c t).2 = t := by
  unfold segmentAfter
  split
  · simp [joined_run]
  · simp [joined_blockBody]
  · split
    · next h => simp [joined_of_textBlockBody? h]
    · exact joined_quotedBody _ _
  · exact joined_quotedBody _ _
  · exact joined_quotedBody _ _
  · rfl
  · split
    · exact joined_run _ _
    · split
      · exact joined_run _ _
      · split
        · exact joined_run _ _
        · rfl

theorem length_segmentAfter_le (c : Code) (t : Text) :
    (segmentAfter c t).2.2.length ≤ t.length := by
  have h := congrArg List.length (joined_segmentAfter c t)
  rw [joined, List.length_append] at h
  omega

/-- The segments of a text, from its beginning to its end. -/
def segments : Text → List Segment
  | [] => []
  | c :: t =>
    let s := segmentAfter c t
    ⟨s.1, c :: s.2.1⟩ :: segments s.2.2
  termination_by t => t.length
  decreasing_by
    have := length_segmentAfter_le c t
    simp only [List.length_cons]
    omega

/-- No code point is lost, and none is read twice. -/
theorem flatMap_text_segments (t : Text) : (segments t).flatMap Segment.text = t := by
  fun_induction segments t with
  | case1 => rfl
  | case2 c t s ih =>
    rw [List.flatMap_cons, ih]
    exact congrArg (c :: ·) (joined_segmentAfter c t)

/-! ### Tokens -/

/-- The kind of token that a segment is. -/
def Segment.kind (s : Segment) : Kind :=
  match s.shape with
  | .textBlock | .quotedString => .string
  | .lineComment => .lineComment
  | .word => .ofWord s.text
  | .annotationMark => .annotationMark
  | .blockComment | .quotedCharacter | .number | .blank | .mark => .other

/-- The tokens among the segments, the first of which starts on line `line`. -/
def ofSegments (line : Nat) : List Segment → List Token
  | [] => []
  | s :: rest =>
    let after := ofSegments (line + s.text.lineFeeds) rest
    if s.shape = .blank then after else ⟨s.kind, s.text, line⟩ :: after

/-- The tokens of a source text. -/
def tokens (t : Text) : List Token := ofSegments 1 (segments t.normalizeNewlines)

end BundleAudit.Token.Java
