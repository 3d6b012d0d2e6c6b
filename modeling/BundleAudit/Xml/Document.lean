import BundleAudit.Xml.Charset
import BundleAudit.Xml.Content
import BundleAudit.Xml.Input
import BundleAudit.Xml.Subset

/-!
# BundleAudit.Xml.Document

**Documents.** A document may begin with a declaration of its version, its character
set and whether it stands alone; comments, instructions and a document type may
follow; then comes its one element, and after that only comments and instructions.
Whatever departs from that is malformed, without further distinction.

A text is a document whose characters are known, so the character set that it declares
has no effect.
-/

namespace BundleAudit.Xml

/-- Why there is no element. -/
inductive Fault
  | malformed
  /-- The declared character set is not known. -/
  | unknownCharset (name : Text)
  /-- The declared name is that of a conversion, and not of a character set. -/
  | notACharset (name : Text)
  /-- The declared character set needs several bytes for a character. -/
  | multiByteCharset
  deriving DecidableEq, Repr

/-! ### The declaration -/

/-- What a document declares about itself. -/
structure Declaration where
  charset : Option Text := none
  standalone : Bool := false

/-- A name, an equals sign and a quoted value, with space in front. -/
def setting? : Reader (Text × Text) := fun t => do
  guard (t.head?.any isSpace)
  let t := skipSpace t
  let isPart (c : Code) : Bool := !isSpace c && c != Code.equals
  let name := t.takeWhile isPart
  guard (!name.isEmpty)
  match skipSpace (t.dropWhile isPart) with
  | Code.equals :: rest =>
    let (value, rest) ← literal? (skipSpace rest)
    guard (value.all fun c =>
      c.isAsciiLetter || c.isAsciiDigit || c == Code.dot || c == Code.minus
        || c == Code.underscore)
    return ((name, value), rest)
  | _ => none

/-- A setting, or none if nothing but space is left. -/
def lastSetting? (t : Text) : Option (Option (Text × Text) × Text) :=
  if (skipSpace t).isEmpty then some (none, [])
  else (setting? t).map fun (setting, rest) => (some setting, rest)

/-- The declaration whether a document stands alone, at the end of its settings. -/
def standalone? (d : Declaration) (setting : Text × Text) (rest : Text) : Option Declaration := do
  guard (setting.1 == Text.ofString "standalone" && (skipSpace rest).isEmpty)
  if setting.2 = Text.ofString "yes" then return { d with standalone := true }
  else if setting.2 = Text.ofString "no" then return d
  else none

/-- The settings of a declaration: the version, and then perhaps the character set and whether the
document stands alone. -/
def Declaration.ofSettings? (t : Text) : Option Declaration := do
  let ((first, _), rest) ← setting? t
  guard (first == Text.ofString "version")
  match ← lastSetting? rest with
  | (none, _) => return {}
  | (some (name, value), rest) =>
    if name = Text.ofString "encoding" then
      guard (value.head?.any Code.isAsciiLetter)
      match ← lastSetting? rest with
      | (none, _) => return { charset := some value }
      | (some setting, rest) => standalone? { charset := some value } setting rest
    else standalone? {} (name, value) rest

/-- The declaration at the beginning of a document, if there is one. -/
def declarationOf? (t : Text) : Option (Declaration × Text) :=
  match List.isPrefixOf? (Text.ofString "<?xml") t with
  | some rest =>
    if rest.head?.any fun c => isSpace c || c == Code.question then do
      let (settings, rest) ← through? "?>" rest
      return (← Declaration.ofSettings? settings, rest)
    else some ({}, t)
  | none => some ({}, t)

/-! ### Before and after the element -/

/-- Skips space, comments and instructions. The first argument bounds their number. -/
def skipMisc? : Nat → Text → Option Text
  | 0, _ => none
  | n + 1, t =>
    match skipSpace t with
    | Code.less :: Code.question :: rest => do
      let ((), rest) ← instruction? rest
      skipMisc? n rest
    | Code.less :: Code.exclamation :: Code.minus :: Code.minus :: rest => do
      let ((), rest) ← comment? rest
      skipMisc? n rest
    | t => some t

/-- The element of a document after its declaration. -/
def body? (standalone : Bool) (limit : Nat) (t : Text) : Option Element := do
  let d : Definitions := { standalone, limit }
  let t ← skipMisc? (t.length + 1) t
  let (d, t) ←
    match t with
    | Code.less :: Code.exclamation :: rest => documentType? d rest
    | t => some (d, t)
  let t ← skipMisc? (t.length + 1) t
  let (root, rest) ← element? d t
  guard (← skipMisc? (rest.length + 1) rest).isEmpty
  return root

/-- The most characters that the entities of a document of a size may be replaced by. The size is
that of the whole document, not of what stands before an entity. -/
def replacementLimit (size : Nat) : Nat := max 0x800000 (100 * size)

/-- The element that follows a declaration; without one, or if something is malformed, there is
none. -/
def Element.afterDeclaration (size : Nat) (d : Declaration) (rest : Text) : Except Fault Element :=
  match body? d.standalone (replacementLimit size) rest with
  | some root => .ok root
  | none => .error .malformed

/-! ### Documents -/

/-- The characters that follow a declaration, in the declared character set. They are `rest` in the
units of the document; the declaration itself has `length` characters, all of them ASCII. -/
def restInCharset (units : Units) (bytes : Bytes) (length : Nat) (rest name : Text) :
    Except Fault Text :=
  let lower := name.map fun c => if c.isAsciiUpper then c + 0x20 else c
  let wide := ["utf-16", "utf-16le", "utf-16be"].map Text.ofString
  match units with
  | .pairs order =>
    let own := Text.ofString (match order with
      | .lowFirst => "utf-16le"
      | .highFirst => "utf-16be")
    if lower = Text.ofString "utf-16" || lower = own then .ok rest
    else if (wide ++ ["utf-8", "iso-8859-1", "us-ascii"].map Text.ofString).elem lower then
      .error .malformed
    else
      match Charset.ofName? name with
      | none => .error (unknown name)
      | some .multiByte => .error .multiByteCharset
      | some _ => .error .malformed
  | .bytes =>
    if lower = Text.ofString "utf-8" then .ok rest
    else if wide.elem lower then .error .malformed
    else
      match Charset.ofName? name with
      | none => .error (unknown name)
      | some .multiByte => .error .multiByteCharset
      | some .foreign => .error .malformed
      | some (.singleByte upper) => .ok (ofTable upper (bytes.drop length))
where
  /-- The fault of a name that belongs to no character set. -/
  unknown (name : Text) : Fault :=
    if Charset.isConversion name then .notACharset name else .unknownCharset name

/-- The element of a document in bytes. -/
def Element.ofBytes (bytes : Bytes) : Except Fault Element :=
  let (units, bytes) := Units.ofBytes bytes
  let t :=
    match units with
    | .bytes => ofUtf8 bytes
    | .pairs order => ofPairs order bytes
  match declarationOf? t with
  | none => .error .malformed
  | some (d, rest) =>
    match d.charset with
    | none => Element.afterDeclaration bytes.length d rest
    | some name => do
      let rest ← restInCharset units bytes (t.length - rest.length) rest name
      Element.afterDeclaration bytes.length d rest

/-- The element of a document in bytes whose character set is known to be UTF-8. -/
def Element.ofUtf8 (bytes : Bytes) : Except Fault Element :=
  let (units, bytes) := Units.ofBytes bytes
  let t :=
    match units with
    | .bytes => BundleAudit.Xml.ofUtf8 bytes
    | .pairs order => ofPairs order bytes
  match declarationOf? t with
  | none => .error .malformed
  | some (d, rest) => Element.afterDeclaration bytes.length d rest

end BundleAudit.Xml
