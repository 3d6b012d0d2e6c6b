import BundleAudit.Text.Blank

/-!
# BundleAudit.Text.Decimal

**Whole numbers as text.** Numbers are written in plain decimal. The reader is
more generous than the writer: it takes the decimal digits of every script,
blanks around the number, a sign, and single underscores between digits, and
refuses numbers of more than `maxDigits` digits.
-/

namespace BundleAudit

namespace Code

/-- The digits zero of every script; the other nine follow each of them (Unicode 14.0). -/
def digitZeros : List Nat :=
  [
    0x30, 0x660, 0x6F0, 0x7C0, 0x966, 0x9E6, 0xA66, 0xAE6, 0xB66, 0xBE6, 0xC66, 0xCE6, 0xD66, 0xDE6,
    0xE50, 0xED0, 0xF20, 0x1040, 0x1090, 0x17E0, 0x1810, 0x1946, 0x19D0, 0x1A80, 0x1A90, 0x1B50,
    0x1BB0, 0x1C40, 0x1C50, 0xA620, 0xA8D0, 0xA900, 0xA9D0, 0xA9F0, 0xAA50, 0xABF0, 0xFF10, 0x104A0,
    0x10D30, 0x11066, 0x110F0, 0x11136, 0x111D0, 0x112F0, 0x11450, 0x114D0, 0x11650, 0x116C0,
    0x11730, 0x118E0, 0x11950, 0x11C50, 0x11D50, 0x11DA0, 0x16A60, 0x16AC0, 0x16B50, 0x1D7CE,
    0x1D7D8, 0x1D7E2, 0x1D7EC, 0x1D7F6, 0x1E140, 0x1E2F0, 0x1E950, 0x1FBF0]
/-- The value of a decimal digit of any script. -/
def digitValue? (c : Code) : Option Nat :=
  if c < 0x80 then if isAsciiDigit c then some (c - 0x30) else none
  else (digitZeros.find? fun z => decide (z ≤ c) && decide (c < z + 10)).map fun z => c - z

/-- A decimal digit of any script. -/
def isDigit (c : Code) : Bool := (digitValue? c).isSome

end Code

namespace Text

/-! ### Writing -/

/-- A natural number in decimal. -/
def ofNat (n : Nat) : Text :=
  if n < 10 then [0x30 + n] else ofNat (n / 10) ++ [0x30 + n % 10]

/-- A whole number in decimal, with a minus sign below zero. -/
def ofInt : Int → Text
  | .ofNat n => ofNat n
  | .negSucc n => Code.minus :: ofNat (n + 1)

/-! ### Reading -/

/-- The most digits that are read as a number. -/
def maxDigits : Nat := 4300

/-- Blanks that may stand around a number: all but the information separators. -/
def isNumberBlank (c : Code) : Bool := c.isBlank && !decide (0x1C ≤ c ∧ c ≤ 0x1F)

/-- The digits of a number, single underscores between them left out. -/
def digits? : Text → Option (List Nat)
  | [] => none
  | [c] => (Code.digitValue? c).map ([·])
  | c :: Code.underscore :: rest => do
    let d ← Code.digitValue? c
    return d :: (← digits? rest)
  | c :: rest => do
    let d ← Code.digitValue? c
    return d :: (← digits? rest)

/-- The number that a text without blanks and sign denotes. -/
def toNat? (t : Text) : Option Nat := do
  let ds ← digits? t
  guard (ds.length ≤ maxDigits)
  return ds.foldl (fun n d => 10 * n + d) 0

/-- The whole number that a text denotes. -/
def toInt? (t : Text) : Option Int :=
  match dropTrailing isNumberBlank (t.dropWhile isNumberBlank) with
  | Code.minus :: rest => (toNat? rest).map fun n => -(n : Int)
  | Code.plus :: rest => (toNat? rest).map Int.ofNat
  | rest => (toNat? rest).map Int.ofNat

end Text

end BundleAudit
