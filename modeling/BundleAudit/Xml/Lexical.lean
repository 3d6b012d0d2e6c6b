import BundleAudit.Xml.Character

/-!
# BundleAudit.Xml.Lexical

**The smallest parts of a document:** names, references, comments, instructions and
quoted values. Each reader takes the beginning of a text and gives what it read and
what follows; there is no answer where the text begins with nothing of that form.
-/

namespace BundleAudit.Xml

/-- Reads the beginning of a text. -/
abbrev Reader (α : Type) := Text → Option (α × Text)

/-! ### Names -/

/-- A name without a colon. -/
def name? : Reader Text
  | [] => none
  | c :: rest =>
    if isNameStart c then some (c :: rest.takeWhile isNamePart, rest.dropWhile isNamePart) else none

/-- A name with or without a part before a colon. -/
def qualifiedName? : Reader Text := fun t => do
  let (first, rest) ← name? t
  match rest with
  | Code.colon :: rest =>
    let (second, rest) ← name? rest
    guard (rest.head? != some Code.colon)
    return (first ++ Code.colon :: second, rest)
  | _ => return (first, rest)

/-- The part of a name before the colon, and the part after it. -/
def splitName (name : Text) : Option Text × Text :=
  match name.cut? Code.colon with
  | some (before, after) => (some before, after)
  | none => (none, name)

/-- A text behind the white space at its beginning. -/
def skipSpace (t : Text) : Text := t.dropWhile isSpace

/-! ### References -/

/-- What stands between an ampersand and a semicolon. -/
inductive Reference
  | character (c : Code)
  | entity (name : Text)
  deriving DecidableEq, Repr

/-- The digits of a base, as a number. -/
def digitsValue? (base : Nat) (digits : Text) : Option Nat := do
  guard (!digits.isEmpty)
  let values ← digits.mapM Code.hexValue?
  guard (values.all (· < base))
  return values.foldl (fun n d => n * base + d) 0

/-- The entities that every document has. -/
def predefined : List (Text × Code) :=
  [("lt", Code.less), ("gt", Code.greater), ("amp", Code.ampersand), ("quot", Code.doubleQuote),
    ("apos", Code.singleQuote)]

/-- The reference that a text between an ampersand and a semicolon is. -/
def Reference.ofBody? : Text → Option Reference
  | Code.hash :: 0x78 :: digits => do
    let n ← digitsValue? 16 digits
    guard (isCharacter n)
    return .character n
  | Code.hash :: digits => do
    let n ← digitsValue? 10 digits
    guard (isCharacter n)
    return .character n
  | body => do
    let (name, rest) ← name? body
    guard rest.isEmpty
    return .entity name

/-- A reference after its ampersand. -/
def reference? : Reader Reference := fun t => do
  let (body, rest) ← t.cut? Code.semicolon
  return (← Reference.ofBody? body, rest)

theorem length_of_cut? {c : Code} {t before after : Text} (h : t.cut? c = some (before, after)) :
    after.length < t.length := by
  induction t generalizing before with
  | nil => simp [Text.cut?] at h
  | cons x rest ih =>
    rw [Text.cut?] at h
    split at h
    · cases h
      simp
    · obtain ⟨⟨b, a⟩, hb, hp⟩ := Option.map_eq_some_iff.1 h
      obtain ⟨rfl, rfl⟩ := Prod.mk.inj hp
      exact Nat.lt_succ_of_lt (ih hb)

theorem length_of_reference? {t rest : Text} {r : Reference} (h : reference? t = some (r, rest)) :
    rest.length < t.length := by
  obtain ⟨⟨body, after⟩, hc, h⟩ := Option.bind_eq_some_iff.1 h
  obtain ⟨r', _, h⟩ := Option.bind_eq_some_iff.1 h
  cases h
  exact length_of_cut? hc

/-! ### Comments, instructions, character sections -/

/-- The characters before the first `stop`, and what follows it. -/
def through? (stop : Text) : Reader Text
  | [] => none
  | c :: rest =>
    match List.isPrefixOf? stop (c :: rest) with
    | some after => some ([], after)
    | none =>
      if isCharacter c then (through? stop rest).map fun (body, after) => (c :: body, after)
      else none

/-- The end of a comment, after its opening; two hyphens stand only there. -/
def comment? : Reader Unit := fun t => do
  let (_, rest) ← through? "--" t
  match rest with
  | Code.greater :: rest => return ((), rest)
  | _ => none

/-- The end of an instruction, after its opening. Its name is not that of the declaration of the
document, in whatever case. -/
def instruction? : Reader Unit := fun t => do
  let (name, rest) ← name? t
  guard ((name.map fun c => if c.isAsciiUpper then c + 0x20 else c) != Text.ofString "xml")
  match rest with
  | Code.question :: Code.greater :: rest => return ((), rest)
  | c :: _ =>
    guard (isSpace c)
    let (_, rest) ← through? "?>" rest
    return ((), rest)
  | [] => none

/-- The end of a section of plain characters, after its opening. -/
def characterSection? : Reader Unit := fun t => (through? "]]>" t).map fun (_, rest) => ((), rest)

/-- A value after its opening quote, and what follows its closing quote. -/
def quotedValue? (quote : Code) : Reader Text := fun t => do
  let (value, rest) ← t.cut? quote
  guard (value.all isCharacter)
  return (value, rest)

/-- A value between quotes of either kind. -/
def literal? : Reader Text
  | Code.doubleQuote :: rest => quotedValue? Code.doubleQuote rest
  | Code.singleQuote :: rest => quotedValue? Code.singleQuote rest
  | _ => none

end BundleAudit.Xml
