/-!
# BundleAudit.Text.Basic

**Texts.** A text is the list of its code points. A code point is a number, so a
text may hold an unpaired surrogate, as the unescaped value of a catalog entry
can; an encoder is the place where such a text is refused.

The module holds the named code points, the classes that need no table, and the
operations on texts that every later module uses: cutting at a code point,
searching, replacing, joining, and the order of texts, which is the order of
their code points.
-/

namespace BundleAudit

/-- A code point: a Unicode scalar value or a surrogate. -/
abbrev Code := Nat

/-- A text, as the list of its code points. -/
abbrev Text := List Code

namespace Code

/-! ### Named code points -/

/-- The null character. -/
@[match_pattern] abbrev nul : Code := 0x00
/-- The horizontal tab. -/
@[match_pattern] abbrev tab : Code := 0x09
/-- The line feed. -/
@[match_pattern] abbrev lineFeed : Code := 0x0A
/-- The form feed. -/
@[match_pattern] abbrev formFeed : Code := 0x0C
/-- The carriage return. -/
@[match_pattern] abbrev carriageReturn : Code := 0x0D
/-- The space. -/
@[match_pattern] abbrev space : Code := 0x20
/-- The exclamation mark. -/
@[match_pattern] abbrev exclamation : Code := 0x21
/-- The double quote. -/
@[match_pattern] abbrev doubleQuote : Code := 0x22
/-- The number sign. -/
@[match_pattern] abbrev hash : Code := 0x23
/-- The dollar sign. -/
@[match_pattern] abbrev dollar : Code := 0x24
/-- The percent sign. -/
@[match_pattern] abbrev percent : Code := 0x25
/-- The ampersand. -/
@[match_pattern] abbrev ampersand : Code := 0x26
/-- The single quote. -/
@[match_pattern] abbrev singleQuote : Code := 0x27
/-- The opening parenthesis. -/
@[match_pattern] abbrev leftParen : Code := 0x28
/-- The closing parenthesis. -/
@[match_pattern] abbrev rightParen : Code := 0x29
/-- The asterisk. -/
@[match_pattern] abbrev star : Code := 0x2A
/-- The plus sign. -/
@[match_pattern] abbrev plus : Code := 0x2B
/-- The comma. -/
@[match_pattern] abbrev comma : Code := 0x2C
/-- The hyphen, which is also the minus sign. -/
@[match_pattern] abbrev minus : Code := 0x2D
/-- The full stop. -/
@[match_pattern] abbrev dot : Code := 0x2E
/-- The slash. -/
@[match_pattern] abbrev slash : Code := 0x2F
/-- The digit zero. -/
@[match_pattern] abbrev zero : Code := 0x30
/-- The colon. -/
@[match_pattern] abbrev colon : Code := 0x3A
/-- The semicolon. -/
@[match_pattern] abbrev semicolon : Code := 0x3B
/-- The less-than sign. -/
@[match_pattern] abbrev less : Code := 0x3C
/-- The equals sign. -/
@[match_pattern] abbrev equals : Code := 0x3D
/-- The greater-than sign. -/
@[match_pattern] abbrev greater : Code := 0x3E
/-- The question mark. -/
@[match_pattern] abbrev question : Code := 0x3F
/-- The at sign. -/
@[match_pattern] abbrev atSign : Code := 0x40
/-- The opening square bracket. -/
@[match_pattern] abbrev leftBracket : Code := 0x5B
/-- The backslash. -/
@[match_pattern] abbrev backslash : Code := 0x5C
/-- The closing square bracket. -/
@[match_pattern] abbrev rightBracket : Code := 0x5D
/-- The underscore. -/
@[match_pattern] abbrev underscore : Code := 0x5F
/-- The opening brace. -/
@[match_pattern] abbrev leftBrace : Code := 0x7B
/-- The vertical bar. -/
@[match_pattern] abbrev bar : Code := 0x7C
/-- The closing brace. -/
@[match_pattern] abbrev rightBrace : Code := 0x7D
/-- The tilde. -/
@[match_pattern] abbrev tilde : Code := 0x7E
/-- The mark with which an encoded text may begin. -/
@[match_pattern] abbrev byteOrderMark : Code := 0xFEFF
/-- The character that stands for what cannot be decoded. -/
@[match_pattern] abbrev replacement : Code := 0xFFFD

/-! ### Classes -/

/-- A digit from `0` to `9`. -/
def isAsciiDigit (c : Code) : Bool := decide (0x30 ≤ c ∧ c ≤ 0x39)

/-- A capital letter from `A` to `Z`. -/
def isAsciiUpper (c : Code) : Bool := decide (0x41 ≤ c ∧ c ≤ 0x5A)

/-- A small letter from `a` to `z`. -/
def isAsciiLower (c : Code) : Bool := decide (0x61 ≤ c ∧ c ≤ 0x7A)

/-- A letter from `a` to `z`, small or capital. -/
def isAsciiLetter (c : Code) : Bool := isAsciiUpper c || isAsciiLower c

/-- The first half of a surrogate pair. -/
def isHighSurrogate (c : Code) : Bool := decide (0xD800 ≤ c ∧ c ≤ 0xDBFF)

/-- The second half of a surrogate pair. -/
def isLowSurrogate (c : Code) : Bool := decide (0xDC00 ≤ c ∧ c ≤ 0xDFFF)

/-- Either half of a surrogate pair. -/
def isSurrogate (c : Code) : Bool := decide (0xD800 ≤ c ∧ c ≤ 0xDFFF)

/-- A code point that an encoding can write: in range and no surrogate. -/
def isScalar (c : Code) : Bool := decide (c < 0x110000) && !isSurrogate c

/-- The code point above `0xFFFF` that a surrogate pair stands for. -/
def ofSurrogates (high low : Code) : Code := 0x10000 + (high - 0xD800) * 0x400 + (low - 0xDC00)

/-- Membership in a table of inclusive ranges. -/
def inRanges (table : List (Nat × Nat)) (c : Code) : Bool :=
  table.any fun (low, high) => decide (low ≤ c) && decide (c ≤ high)

/-! ### Hexadecimal digits -/

/-- The value of a hexadecimal digit of either case. -/
def hexValue? (c : Code) : Option Nat :=
  if isAsciiDigit c then some (c - 0x30)
  else if 0x61 ≤ c ∧ c ≤ 0x66 then some (c - 0x61 + 10)
  else if 0x41 ≤ c ∧ c ≤ 0x46 then some (c - 0x41 + 10)
  else none

/-- The lower-case hexadecimal digit of a value below 16. -/
def hexDigit (n : Nat) : Code := if n < 10 then 0x30 + n else 0x61 + (n - 10)

end Code

namespace Text

/-! ### Fixed texts -/

/-- The text of a string, which holds no surrogates. -/
def ofString (s : String) : Text := s.toList.map Char.toNat

instance : Coe String Text := ⟨ofString⟩

/-! ### Cutting and splitting -/

/-- The parts before and after the first `c`. -/
def cut? (c : Code) : Text → Option (Text × Text)
  | [] => none
  | x :: rest =>
    if x = c then some ([], rest) else (cut? c rest).map fun (before, after) => (x :: before, after)

/-- The parts before and after the last `c`. -/
def cutLast? (c : Code) : Text → Option (Text × Text)
  | [] => none
  | x :: rest =>
    match cutLast? c rest with
    | some (before, after) => some (x :: before, after)
    | none => if x = c then some ([], rest) else none

/-- Puts a code point in front of the first of several texts. -/
def consHead (x : Code) : List Text → List Text
  | [] => [[x]]
  | first :: rest => (x :: first) :: rest

/-- The texts between the occurrences of `c`: one more than there are occurrences. -/
def splitOn (c : Code) : Text → List Text
  | [] => [[]]
  | x :: rest => if x = c then [] :: splitOn c rest else consHead x (splitOn c rest)

/-- What follows the last `c`, or the whole text where there is none. -/
def afterLast (c : Code) (t : Text) : Text :=
  match cutLast? c t with
  | some (_, after) => after
  | none => t

/-! ### Searching and replacing -/

/-- Whether `sub` stands somewhere in the text. -/
def includes : Text → (sub : Text) → Bool
  | [], sub => sub.isEmpty
  | x :: rest, sub => sub.isPrefixOf (x :: rest) || includes rest sub

/-- Every `old` becomes `new`. -/
def replaceCode (old new : Code) (t : Text) : Text := t.map fun c => if c = old then new else c

/-- Line ends of all three kinds become line feeds. -/
def normalizeNewlines : Text → Text
  | [] => []
  | Code.carriageReturn :: Code.lineFeed :: rest => Code.lineFeed :: normalizeNewlines rest
  | c :: rest =>
    (if c = Code.carriageReturn then Code.lineFeed else c) :: normalizeNewlines rest

/-- Joins the surrogate pairs of a text. -/
def joinPairs : Text → Text
  | [] => []
  | [c] => [c]
  | c :: d :: rest =>
    if c.isHighSurrogate && d.isLowSurrogate then Code.ofSurrogates c d :: joinPairs rest
    else c :: joinPairs (d :: rest)

/-- The longest text without a trailing code point of a class. -/
def dropTrailing (p : Code → Bool) (t : Text) : Text := (t.reverse.dropWhile p).reverse

/-- The number of line feeds. -/
def lineFeeds (t : Text) : Nat := t.count Code.lineFeed

/-! ### Order -/

/-- Lists are ordered by their members, a list after its own beginnings. -/
def lexLe {α : Type} [DecidableEq α] (le : α → α → Bool) : List α → List α → Bool
  | [], _ => true
  | _ :: _, [] => false
  | a :: as, b :: bs => if a = b then lexLe le as bs else le a b

/-- Texts are ordered by their code points. -/
def le (a b : Text) : Bool := lexLe Nat.ble a b

/-- Texts in ascending order. -/
def sort (ts : List Text) : List Text := ts.mergeSort le

end Text

end BundleAudit
