import BundleAudit.Json.Basic

/-!
# BundleAudit.Json.Reader

**Reading JSON.** The reader takes what the writer produces, in either layout, and
other JSON texts whose numbers are whole. Two escapes that form a surrogate pair
are one code point; an unpaired one stays as it is.
-/

namespace BundleAudit.Json

/-- Blanks between the parts of a value. -/
def isGap (c : Code) : Bool :=
  c == Code.space || c == Code.lineFeed || c == Code.carriageReturn || c == Code.tab

/-- A text behind the white space at its beginning. -/
def skipGap (t : Text) : Text := t.dropWhile isGap

/-- The number that four hexadecimal digits at the beginning of a text denote. -/
def unit? : Text → Option (Nat × Text)
  | a :: b :: c :: d :: rest => do
    let a ← a.hexValue?
    let b ← b.hexValue?
    let c ← c.hexValue?
    let d ← d.hexValue?
    return (((a * 16 + b) * 16 + c) * 16 + d, rest)
  | _ => none

/-- The code point that an escape by a letter stands for. -/
def letterEscape? (c : Code) : Option Code :=
  [(0x22, 0x22), (0x5C, 0x5C), (0x2F, 0x2F), (0x62, 0x08), (0x66, 0x0C), (0x6E, 0x0A),
    (0x72, 0x0D), (0x74, 0x09)].lookup c

/-- The rest of a text after its opening quote, and what follows its closing quote.
The first argument bounds the number of steps. -/
def readUnits : Nat → Text → Option (Text × Text)
  | 0, _ => none
  | _ + 1, [] => none
  | n + 1, Code.backslash :: 0x75 :: rest => do
    let (unit, rest) ← unit? rest
    let (after, rest) ← readUnits n rest
    return (unit :: after, rest)
  | n + 1, Code.backslash :: e :: rest => do
    let c ← letterEscape? e
    let (after, rest) ← readUnits n rest
    return (c :: after, rest)
  | n + 1, c :: rest =>
    if c = Code.doubleQuote then some ([], rest)
    else if c < 0x20 then none
    else do
      let (after, rest) ← readUnits n rest
      return (c :: after, rest)

/-- A text after its opening quote. -/
def readText (t : Text) : Option (Text × Text) :=
  (readUnits t.length t).map fun (units, rest) => (Text.joinPairs units, rest)

/-- The whole number at the beginning of a text. -/
def readNumber (t : Text) : Option (Int × Text) :=
  let number (digits : Text) : Option Nat :=
    if digits.isEmpty then none else some (digits.foldl (fun n c => 10 * n + (c - 0x30)) 0)
  match t with
  | Code.minus :: rest =>
    (number (rest.takeWhile Code.isAsciiDigit)).map fun n =>
      (-(n : Int), rest.dropWhile Code.isAsciiDigit)
  | _ =>
    (number (t.takeWhile Code.isAsciiDigit)).map fun n =>
      ((n : Int), t.dropWhile Code.isAsciiDigit)

mutual

/-- The value at the beginning of a text, and what follows it. The first argument bounds the
number of steps. -/
def readValue : Nat → Text → Option (Json × Text)
  | 0, _ => none
  | n + 1, t =>
    match skipGap t with
    | Code.doubleQuote :: rest => (readText rest).map fun (s, rest) => (.text s, rest)
    | Code.leftBracket :: rest =>
      match skipGap rest with
      | Code.rightBracket :: rest => some (.list [], rest)
      | _ => (readItems n rest).map fun (items, rest) => (.list items, rest)
    | Code.leftBrace :: rest =>
      match skipGap rest with
      | Code.rightBrace :: rest => some (.object [], rest)
      | _ => (readMembers n rest).map fun (members, rest) => (.object members, rest)
    | t =>
      match List.isPrefixOf? (Text.ofString "null") t, List.isPrefixOf? (Text.ofString "true") t,
          List.isPrefixOf? (Text.ofString "false") t with
      | some rest, _, _ => some (.null, rest)
      | _, some rest, _ => some (.bool true, rest)
      | _, _, some rest => some (.bool false, rest)
      | _, _, _ => (readNumber t).map fun (n, rest) => (.number n, rest)

/-- Items up to the closing bracket. -/
def readItems : Nat → Text → Option (List Json × Text)
  | 0, _ => none
  | n + 1, t => do
    let (v, rest) ← readValue n t
    match skipGap rest with
    | Code.rightBracket :: rest => return ([v], rest)
    | Code.comma :: rest =>
      let (items, rest) ← readItems n rest
      return (v :: items, rest)
    | _ => none

/-- Members up to the closing brace. -/
def readMembers : Nat → Text → Option (List (Text × Json) × Text)
  | 0, _ => none
  | n + 1, t =>
    match skipGap t with
    | Code.doubleQuote :: rest => do
      let (name, rest) ← readText rest
      match skipGap rest with
      | Code.colon :: rest =>
        let (v, rest) ← readValue n rest
        match skipGap rest with
        | Code.rightBrace :: rest => return ([(name, v)], rest)
        | Code.comma :: rest =>
          let (members, rest) ← readMembers n rest
          return ((name, v) :: members, rest)
        | _ => none
      | _ => none
    | _ => none

end

theorem readValue_null (n : Nat) (rest : Text) :
    readValue (n + 1) ("null" ++ rest) = some (.null, rest) := by
  simp only [readValue]
  rfl

theorem readValue_true (n : Nat) (rest : Text) :
    readValue (n + 1) ("true" ++ rest) = some (.bool true, rest) := by
  simp only [readValue]
  rfl

theorem readValue_false (n : Nat) (rest : Text) :
    readValue (n + 1) ("false" ++ rest) = some (.bool false, rest) := by
  simp only [readValue]
  rfl

/-- The value that a text denotes. -/
def read? (t : Text) : Option Json := do
  let (v, rest) ← readValue (2 * t.length + 1) t
  guard (skipGap rest).isEmpty
  return v

/-- The value of a member of an object. -/
def member? (name : Text) : Json → Option Json
  | .object members => members.lookup name
  | _ => none

end BundleAudit.Json
