import BundleAudit.Text.Decimal
import BundleAudit.Text.Quoted

/-!
# BundleAudit.Json.Basic

**JSON values and their text.** The reports hold texts, whole numbers, truth values,
lists and objects whose members keep their order. A value is written in one of two
layouts, on one line or with one item a line, and either with all code points above
ASCII escaped or with none.
-/

namespace BundleAudit

/-- A JSON value; its numbers are whole. -/
inductive Json
  | null
  | bool (value : Bool)
  | number (value : Int)
  | text (value : Text)
  | list (items : List Json)
  | object (members : List (Text × Json))

namespace Json

/-! ### Texts -/

/-- The escape of one unit of 16 bits. -/
def unitEscape (n : Nat) : Text := "\\u" ++ Text.hex 4 n

/-- The escape of a code point; one above `0xFFFF` is written as its surrogate pair. -/
def codeEscape (c : Code) : Text :=
  if c ≤ 0xFFFF then unitEscape c
  else unitEscape (0xD800 + (c - 0x10000) / 0x400) ++ unitEscape (0xDC00 + (c - 0x10000) % 0x400)

/-- One code point of a text, as it is written between double quotes. -/
def writeCode (asciiOnly : Bool) (c : Code) : Text :=
  if c = Code.doubleQuote ∨ c = Code.backslash then [Code.backslash, c]
  else if c = Code.lineFeed then "\\n"
  else if c = Code.carriageReturn then "\\r"
  else if c = Code.tab then "\\t"
  else if c = Code.formFeed then "\\f"
  else if c = 0x08 then "\\b"
  else if c < 0x20 then unitEscape c
  else if asciiOnly && decide (0x7F ≤ c) then codeEscape c
  else [c]

/-- A text between double quotes. -/
def writeText (asciiOnly : Bool) (t : Text) : Text :=
  Code.doubleQuote :: t.flatMap (writeCode asciiOnly) ++ [Code.doubleQuote]

/-! ### Values -/

/-- How a value is laid out. -/
structure Layout where
  /-- Escape every code point above ASCII. -/
  asciiOnly : Bool
  /-- One item a line, indented by this many columns more than the value that holds it;
  none: all on one line. -/
  indent : Option Nat

/-- All on one line, code points above ASCII as they are. -/
def Layout.line : Layout := ⟨false, none⟩

/-- One item a line, two columns deeper than its holder, in ASCII. -/
def Layout.block : Layout := ⟨true, some 2⟩

/-- What separates two items at nesting `depth`. -/
def Layout.separator (l : Layout) (depth : Nat) : Text :=
  match l.indent with
  | none => ", "
  | some n => ",\n" ++ List.replicate (n * depth) Code.space

/-- What stands between a bracket and the item beside it, which is nested `depth` deep. -/
def Layout.edge (l : Layout) (depth : Nat) : Text :=
  match l.indent with
  | none => []
  | some n => "\n" ++ List.replicate (n * depth) Code.space

/-- Written items between brackets; an empty list is a pair of brackets. -/
def Layout.wrap (l : Layout) (depth : Nat) (opening closing : Code) : List Text → Text
  | [] => [opening, closing]
  | items =>
    opening :: l.edge (depth + 1) ++ List.intercalate (l.separator (depth + 1)) items
      ++ l.edge depth ++ [closing]

mutual

/-- The text of a value that is nested `depth` deep. -/
def writeAt (l : Layout) (depth : Nat) : Json → Text
  | .null => "null"
  | .bool true => "true"
  | .bool false => "false"
  | .number n => Text.ofInt n
  | .text t => writeText l.asciiOnly t
  | .list items =>
    l.wrap depth Code.leftBracket Code.rightBracket (writeItems l (depth + 1) items)
  | .object members =>
    l.wrap depth Code.leftBrace Code.rightBrace (writeMembers l (depth + 1) members)

/-- How the items of an array are written. -/
def writeItems (l : Layout) (depth : Nat) : List Json → List Text
  | [] => []
  | v :: rest => writeAt l depth v :: writeItems l depth rest

/-- How the members of an object are written, each after its name. -/
def writeMembers (l : Layout) (depth : Nat) : List (Text × Json) → List Text
  | [] => []
  | (name, v) :: rest =>
    (writeText l.asciiOnly name ++ ": " ++ writeAt l depth v) :: writeMembers l depth rest

end

/-- The text of a value. -/
def write (l : Layout) (v : Json) : Text := writeAt l 0 v

end Json

end BundleAudit
