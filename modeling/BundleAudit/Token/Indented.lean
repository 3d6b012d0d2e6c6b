import BundleAudit.Text.Word
import BundleAudit.Token.Basic

/-!
# BundleAudit.Token.Indented

**Tokens of `.py` sources,** whose statements are laid out by lines and indentation.
The text is read line by line. Three things are carried from one line to the next:

* the nesting of brackets, in which line ends and indentation do not count;
* a literal that is still open, together with what has been read of it;
* the indentation columns of the enclosing blocks.

Reading stops without an end token where the text ends inside brackets, inside a
literal or after a joined line, and where a line returns to a column that no
enclosing block has. A code point that begins nothing is a token of its own, and so
is each blank before it.
-/

namespace BundleAudit.Token.Indented

/-! ### Numbers

Each reader gives the longest beginning of a text that has its form. -/

/-- Digits, each of them with at most one underscore before it. -/
def moreDigits (p : Code → Bool) : Text → Text
  | Code.underscore :: d :: rest =>
    if p d then Code.underscore :: d :: moreDigits p rest else []
  | d :: rest => if p d then d :: moreDigits p rest else []
  | [] => []

/-- A digit and more digits. -/
def decimal? : Text → Option Text
  | d :: rest => if d.isAsciiDigit then some (d :: moreDigits Code.isAsciiDigit rest) else none
  | [] => none

/-- The exponent of a number: its letter, an optional sign, and digits. -/
def exponent? : Text → Option Text
  | e :: s :: rest =>
    if e = 0x65 ∨ e = 0x45 then
      if s = Code.plus ∨ s = Code.minus then (decimal? rest).map (e :: s :: ·)
      else (decimal? (s :: rest)).map (e :: ·)
    else none
  | _ => none

/-- Digits around a point, of which one side may be empty. -/
def mantissa? (t : Text) : Option Text :=
  match decimal? t with
  | some whole =>
    match t.drop whole.length with
    | Code.dot :: rest => some (whole ++ Code.dot :: (decimal? rest).getD [])
    | _ => none
  | none =>
    match t with
    | Code.dot :: rest => (decimal? rest).map (Code.dot :: ·)
    | _ => none

/-- A number with a point, an exponent or both. -/
def float? (t : Text) : Option Text :=
  match mantissa? t with
  | some m => some (m ++ (exponent? (t.drop m.length)).getD [])
  | none => do
    let whole ← decimal? t
    let e ← exponent? (t.drop whole.length)
    return whole ++ e

/-- The number `m` at the beginning of `t`, with the imaginary unit that follows it. -/
def withUnit? (t m : Text) : Option Text :=
  match t.drop m.length with
  | c :: _ => if c = 0x6A ∨ c = 0x4A then some (m ++ [c]) else none
  | [] => none

/-- A zero, one of two letters that name a base, and digits of that base. -/
def based? (small large : Code) (p : Code → Bool) : Text → Option Text
  | Code.zero :: x :: rest =>
    let digits := moreDigits p rest
    if (x = small ∨ x = large) ∧ digits ≠ [] then some (Code.zero :: x :: digits) else none
  | _ => none

/-- A whole number; one in base ten begins with a zero only if all its digits are. -/
def integer? (t : Text) : Option Text :=
  based? 0x78 0x58 (fun c => c.hexValue?.isSome) t
    <|> based? 0x62 0x42 (fun c => c == 0x30 || c == 0x31) t
    <|> based? 0x6F 0x4F (fun c => decide (0x30 ≤ c ∧ c ≤ 0x37)) t
    <|> match t with
      | Code.zero :: rest => some (Code.zero :: moreDigits (· == Code.zero) rest)
      | _ => decimal? t

/-- The number at the beginning of a text: one with an imaginary unit, one with a point or an
exponent, or a whole one. -/
def number? (t : Text) : Option Text :=
  ((decimal? t).bind (withUnit? t)) <|> ((float? t).bind (withUnit? t)) <|> float? t
    <|> integer? t

/-! ### Literals -/

/-- A quote of either kind. -/
def isQuote (c : Code) : Bool := c == Code.singleQuote || c == Code.doubleQuote

/-- The letters that may stand before the opening quote, in lower case. -/
def literalPrefixes : List Text := ["", "b", "r", "u", "f", "br", "rb", "fr", "rf"]

/-- The letters and the quote at the beginning of a literal. -/
def opening? (t : Text) : Option (Text × Code) :=
  [0, 1, 2].findSome? fun n =>
    let letters := (t.take n).map fun c => if c.isAsciiUpper then c + 0x20 else c
    match t.drop n with
    | q :: _ =>
      if isQuote q && literalPrefixes.elem letters then some (t.take n ++ [q], q) else none
    | [] => none

/-- The opening of a literal between threefold quotes. -/
def longOpening? (t : Text) : Option (Text × Code) := do
  let (start, q) ← opening? t
  guard ([q, q].isPrefixOf (t.drop start.length))
  return (start ++ [q, q], q)

/-- A literal between single quotes `q`, after its opening: up to its closing quote (`true`), or
up to a line end with a backslash before it (`false`). -/
def shortBody? (q : Code) : Text → Option (Text × Bool)
  | [] => none
  | Code.backslash :: Code.lineFeed :: _ => some ([Code.backslash, Code.lineFeed], false)
  | Code.backslash :: Code.carriageReturn :: Code.lineFeed :: _ =>
    some ([Code.backslash, Code.carriageReturn, Code.lineFeed], false)
  | [Code.backslash] => none
  | Code.backslash :: d :: rest =>
    (shortBody? q rest).map fun (body, closed) => (Code.backslash :: d :: body, closed)
  | c :: rest =>
    if c = q then some ([q], true)
    else if c = Code.lineFeed then none
    else (shortBody? q rest).map fun (body, closed) => (c :: body, closed)

/-- What belongs to a literal that was opened before: up to its closing quotes, which are
threefold for a `long` literal. A backslash before the end of the line leaves it open. -/
def closing? (q : Code) (long : Bool) : Text → Option Text
  | [] => none
  | [Code.backslash] => none
  | Code.backslash :: d :: rest =>
    if d = Code.lineFeed then none
    else (closing? q long rest).map fun body => Code.backslash :: d :: body
  | c :: rest =>
    if c = q && !long then some [q]
    else if c = q && [q, q].isPrefixOf rest then some [q, q, q]
    else (closing? q long rest).map (c :: ·)

/-! ### One step within a line -/

/-- What stands next on a line. -/
inductive Lexeme
  | lineJoin
  | lineEnd
  | comment
  | number
  | word
  | operator
  | string
  /-- The first line of a literal between single quotes that goes on after it. -/
  | openString (quote : Code)
  /-- The letters and threefold quotes that open a literal. -/
  | longOpening (quote : Code)

/-- The operators, the longer ones first. -/
def operators : List Text :=
  ["**=", "...", "//=", "<<=", ">>=",
    "!=", "%=", "&=", "**", "*=", "+=", "-=", "->", "//", "/=", ":=", "<<", "<=", "==", ">=", ">>",
    "@=", "^=", "|=",
    "%", "&", "(", ")", "*", "+", ",", "-", ".", "/", ":", ";", "<", "=", ">", "@", "[", "]", "^",
    "\x7b", "|", "\x7d", "~"].map Text.ofString

/-- Blanks that separate tokens of one line. -/
def isInlineBlank (c : Code) : Bool := c == Code.space || c == Code.formFeed || c == Code.tab

/-- A character that ends a line. -/
def isLineBreak (c : Code) : Bool := c == Code.carriageReturn || c == Code.lineFeed

/-- The line end at the beginning of a text. -/
def lineEnd? : Text → Option Text
  | Code.lineFeed :: _ => some [Code.lineFeed]
  | Code.carriageReturn :: Code.lineFeed :: _ => some [Code.carriageReturn, Code.lineFeed]
  | _ => none

/-- A literal between single quotes, or its first line. -/
def short? (t : Text) : Option (Lexeme × Text) := do
  let (start, q) ← opening? t
  let (body, closed) ← shortBody? q (t.drop start.length)
  return (if closed then .string else .openString q, start ++ body)

/-- The lexeme at the beginning of a text, and its text; the first form that applies wins. -/
def lexeme? (t : Text) : Option (Lexeme × Text) :=
  (match t with
    | Code.backslash :: rest => (lineEnd? rest).map fun e => (.lineJoin, Code.backslash :: e)
    | Code.hash :: _ => some (.comment, t.takeWhile (!isLineBreak ·))
    | _ => none)
  <|> (longOpening? t).map (fun (start, q) => (.longOpening q, start))
  <|> (number? t).map (fun m => (.number, m))
  <|> (lineEnd? t).map (fun e => (.lineEnd, e))
  <|> (operators.find? (·.isPrefixOf t)).map (fun op => (.operator, op))
  <|> short? t
  <|> match t.takeWhile Code.isWord with
    | [] => none
    | w => some (.word, w)

/-! ### Lines -/

/-- A literal that is still open. -/
structure OpenLiteral where
  /-- What has been read of it. -/
  text : Text
  /-- The line on which it began. -/
  line : Nat
  quote : Code
  long : Bool

/-- What is carried from one line to the next. -/
structure State where
  /-- Opening brackets less closing ones. -/
  depth : Int
  /-- Whether the line before was joined to this one by a backslash. -/
  joined : Bool
  /-- Whether a literal may go on only after a backslash at the end of its line. -/
  strict : Bool
  /-- The columns of the enclosing blocks, the innermost first. -/
  columns : List Nat
  literal : Option OpenLiteral

/-- Before the first line. -/
def State.start : State := ⟨0, false, false, [0], none⟩

/-- The token that a word is. -/
def ofWord (word : Text) (line : Nat) : Token :=
  ⟨match word with
    | c :: _ => if c.isIdentifierStart then .ofWord word else .other
    | [] => .other, word, line⟩

/-- The token that an operator is. -/
def ofOperator (op : Text) (line : Nat) : Token :=
  ⟨if op = [Code.atSign] then .annotationMark else .other, op, line⟩

/-- By how much an operator changes the nesting of brackets. -/
def nesting (op : Text) : Int :=
  match op with
  | [Code.leftParen] | [Code.leftBracket] | [Code.leftBrace] => 1
  | [Code.rightParen] | [Code.rightBracket] | [Code.rightBrace] => -1
  | _ => 0

/-- The tokens of the rest `t` of a line, and the state after it. -/
def scanLine (line : Nat) (s : State) (t : Text) : List Token × State :=
  match _hd : t.dropWhile isInlineBlank with
  | [] => ([], s)
  | c :: body =>
    let emit (token : Token) (r : List Token × State) : List Token × State := (token :: r.1, r.2)
    match lexeme? (c :: body) with
    | none => emit ⟨.other, t.take 1, line⟩ (scanLine line s (t.drop 1))
    | some (lexeme, text) =>
      let rest := body.drop (text.length - 1)
      match lexeme with
      | .lineJoin => scanLine line { s with joined := true } rest
      | .lineEnd => scanLine line s rest
      | .comment => emit ⟨.lineComment, text, line⟩ (scanLine line s rest)
      | .number => emit ⟨.other, text, line⟩ (scanLine line s rest)
      | .word => emit (ofWord text line) (scanLine line s rest)
      | .operator =>
        emit (ofOperator text line) (scanLine line { s with depth := s.depth + nesting text } rest)
      | .string => emit ⟨.string, text, line⟩ (scanLine line s rest)
      | .openString q =>
        ([], { s with strict := true, literal := some ⟨text ++ rest, line, q, false⟩ })
      | .longOpening q =>
        match closing? q true rest with
        | some inner =>
          emit ⟨.string, text ++ inner, line⟩ (scanLine line s (rest.drop inner.length))
        | none => ([], { s with literal := some ⟨text ++ rest, line, q, true⟩ })
  termination_by t.length
  decreasing_by
    all_goals
      have hle := (List.dropWhile_suffix (l := t) isInlineBlank).length_le
      rw [_hd, List.length_cons] at hle
      simp only [List.length_drop]
      omega

/-- The column that leading blanks reach: a tab goes to the next multiple of 8, a form feed
to the beginning. -/
def columnAfter (blanks : Text) : Nat :=
  blanks.foldl
    (fun column c =>
      if c = Code.tab then (column / 8 + 1) * 8
      else if c = Code.formFeed then 0
      else column + 1)
    0

/-- The enclosing blocks of a statement that begins at a column: one more block where the column
lies further in, and otherwise the blocks up to the one of that column, if there is one. -/
def enterColumn? (column : Nat) (columns : List Nat) : Option (List Nat) :=
  if columns.head?.any (· < column) then some (column :: columns)
  else
    let outer := columns.dropWhile (column < ·)
    if outer.head? = some column then some outer else none

/-- Whether a backslash stands before the end of a line. -/
def endsJoined (t : Text) : Bool :=
  List.isSuffixOf [Code.backslash, Code.lineFeed] t
    || List.isSuffixOf [Code.backslash, Code.carriageReturn, Code.lineFeed] t

/-- The token that ends the list of tokens. -/
def endToken (line : Nat) : Token := ⟨.other, [], line⟩

/-- The tokens of the lines from number `line` on. -/
def scanLines (line : Nat) (s : State) : List Text → List Token
  | [] =>
    if s.literal.isNone && s.depth == 0 && !s.joined then [endToken line] else []
  | t :: rest =>
    let go (s : State) (t : Text) : List Token :=
      let (tokens, s) := scanLine line s t
      tokens ++ scanLines (line + 1) s rest
    match s.literal with
    | some literal =>
      match closing? literal.quote literal.long t with
      | some inner =>
        ⟨.string, literal.text ++ inner, literal.line⟩
          :: go { s with strict := false, literal := none } (t.drop inner.length)
      | none =>
        if s.strict && !endsJoined t then
          ⟨.other, literal.text ++ t, literal.line⟩
            :: scanLines (line + 1) { s with literal := none } rest
        else
          scanLines (line + 1)
            { s with literal := some { literal with text := literal.text ++ t } } rest
    | none =>
      if s.depth = 0 ∧ !s.joined then
        let body := t.dropWhile isInlineBlank
        match body with
        | [] => [endToken line]
        | c :: _ =>
          if c = Code.hash then
            ⟨.lineComment, Text.dropTrailing isLineBreak body, line⟩
              :: scanLines (line + 1) s rest
          else if isLineBreak c then scanLines (line + 1) s rest
          else
            match enterColumn? (columnAfter (t.takeWhile isInlineBlank)) s.columns with
            | none => []
            | some columns => go { s with columns } body
      else go { s with joined := false } t

/-- The lines of a text, each with its line feed. -/
def linesOf : Text → List Text
  | [] => []
  | c :: rest =>
    if c = Code.lineFeed then [c] :: linesOf rest else Text.consHead c (linesOf rest)

/-- The tokens of a source text. -/
def tokens (t : Text) : List Token := scanLines 1 .start (linesOf t)

end BundleAudit.Token.Indented
