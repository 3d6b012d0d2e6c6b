import BundleAudit.KeyedList
import BundleAudit.Xml.Lexical

/-!
# BundleAudit.Xml.Definitions

**What a document defines before its first element:** entities, and rules for the
attributes of elements. With them the value of an attribute follows from its text:
references are replaced, line ends and tabs become spaces, and for all but plain
character data runs of spaces become one, and none stays at the ends.

A name that is not defined is an error, unless the document refers to definitions
elsewhere, which are not read, and does not say that it stands alone.
-/

namespace BundleAudit.Xml

/-- What a reference to a name stands for. -/
inductive Entity
  | internal (text : Text)
  /-- Its text is in another file. -/
  | external
  /-- It is no text at all. -/
  | unparsed
  deriving DecidableEq, Repr

/-- How an attribute is read. -/
structure AttributeRule where
  /-- Its value is a list of tokens, and not plain character data. -/
  tokenized : Bool
  /-- Its value where an element does not give one. -/
  default : Option Text
  deriving DecidableEq, Repr

/-- The definitions of a document. -/
structure Definitions where
  /-- The document says that it stands alone. -/
  standalone : Bool
  /-- The document refers to definitions elsewhere. -/
  refersElsewhere : Bool := false
  /-- Definitions that follow still count. -/
  reading : Bool := true
  entities : KeyedList Text Entity := []
  attributes : KeyedList Text (KeyedList Text AttributeRule) := []
  /-- The most characters that entities may be replaced by. -/
  limit : Nat

namespace Definitions

/-- Every name must be defined in the document. -/
def isClosed (d : Definitions) : Bool := d.standalone || !d.refersElsewhere

/-- The rules for the attributes of an element. -/
def rules (d : Definitions) (element : Text) : KeyedList Text AttributeRule :=
  (d.attributes.get? element).getD []

end Definitions

/-! ### Values of attributes -/

/-- A part of the text of a value. -/
inductive ValuePart
  | character (c : Code)
  | blank
  | entity (name : Text)
  deriving DecidableEq, Repr

/-- The part that a reference is. -/
def ValuePart.ofReference : Reference → ValuePart
  | .character c => .character c
  | .entity name => .entity name

/-- The parts of the text of a value. -/
def valueParts? : Text → Option (List ValuePart)
  | [] => some []
  | c :: rest =>
    if c = Code.ampersand then
      match _h : reference? rest with
      | none => none
      | some (r, after) =>
        have := length_of_reference? _h
        (valueParts? after).map (.ofReference r :: ·)
    else if c = Code.carriageReturn && rest.head? == some Code.lineFeed then valueParts? rest
    else if isSpace c then (valueParts? rest).map (.blank :: ·)
    else if c = Code.less || !isCharacter c then none
    else (valueParts? rest).map (.character c :: ·)
  termination_by t => t.length

/-- A value as far as it is read, backwards, and how many characters came from entities. -/
structure ValueSoFar where
  reversed : Text := []
  spent : Nat := 0

/-- Adds a space, unless it would stand at the beginning or after another one in a list of
tokens. -/
def ValueSoFar.addSpace (tokenized : Bool) (v : ValueSoFar) : ValueSoFar :=
  if tokenized && (v.reversed.isEmpty || v.reversed.head? == some Code.space) then v
  else { v with reversed := Code.space :: v.reversed }

/-- Adds the parts of a value. Entities are replaced at most `depth` deep; `open_` are the
entities that are being replaced. -/
def addParts (d : Definitions) (tokenized : Bool) :
    (depth : Nat) → (open_ : List Text) → List ValuePart → ValueSoFar → Option ValueSoFar
  | 0, _, _, _ => none
  | depth + 1, open_, parts, v =>
    parts.foldlM (fun v part =>
      match part with
      | .blank => some (v.addSpace tokenized)
      | .character c =>
        if c = Code.space then some (v.addSpace tokenized)
        else some { v with reversed := c :: v.reversed }
      | .entity name =>
        match predefined.lookup name, d.entities.get? name with
        | some c, _ => some { v with reversed := c :: v.reversed }
        | none, none => if d.isClosed then none else some v
        | none, some (.internal text) => do
          guard (!open_.elem name && v.spent + text.length ≤ d.limit)
          let parts ← valueParts? text
          addParts d tokenized depth (name :: open_) parts
            { v with spent := v.spent + text.length }
        | none, some _ => none) v

/-- The value that a text between quotes stands for, and how many characters came from
entities. -/
def attributeValue? (d : Definitions) (tokenized : Bool) (spent : Nat) (raw : Text) :
    Option (Text × Nat) := do
  let parts ← valueParts? raw
  let v ← addParts d tokenized (d.entities.length + 1) [] parts { spent }
  let reversed :=
    if tokenized && v.reversed.head? == some Code.space then v.reversed.drop 1 else v.reversed
  return (reversed.reverse, v.spent)

/-! ### Values of entities -/

/-- What stands in the text of an entity for a reference. -/
def keptText : Reference → Text
  | .character c => [c]
  | .entity name => Code.ampersand :: name ++ [Code.semicolon]

/-- The text of an entity: references by number are replaced, references by name stay, and line
ends are line feeds. A percent sign has no place there. -/
def entityText? : Text → Option Text
  | [] => some []
  | c :: rest =>
    if c = Code.ampersand then
      match _h : reference? rest with
      | none => none
      | some (r, after) =>
        have := length_of_reference? _h
        (entityText? after).map (keptText r ++ ·)
    else if c = Code.percent then none
    else if c = Code.carriageReturn then
      if rest.head? == some Code.lineFeed then entityText? rest
      else (entityText? rest).map (Code.lineFeed :: ·)
    else (entityText? rest).map (c :: ·)
  termination_by t => t.length

end BundleAudit.Xml
