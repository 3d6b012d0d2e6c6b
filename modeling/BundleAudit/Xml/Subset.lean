import BundleAudit.Xml.Definitions

/-!
# BundleAudit.Xml.Subset

**The document type,** with the definitions that it holds. A declaration is cut into
marks, and its kind says which marks may follow one another. References to parameter
entities may stand between declarations; they are not followed, and what comes after
one does not count unless the document stands alone.
-/

namespace BundleAudit.Xml

/-! ### Marks -/

/-- The parts of a declaration. -/
inductive Mark
  | name (text : Text)
  /-- A name with a part before a colon. -/
  | prefixedName (text : Text)
  /-- Name characters that are no name. -/
  | token
  /-- A name with a sign that says how often it may occur. -/
  | repeated
  /-- A name after a number sign. -/
  | keyword (text : Text)
  | literal (text : Text)
  | percent
  | comma
  | bar
  | openParen
  /-- A closing parenthesis and the sign after it that says how often the group may occur. -/
  | closeParen (sign : Option Code)
  deriving DecidableEq, Repr

/-- Signs that say how often something may occur. -/
def isRepeatSign (c : Code) : Bool := c == Code.question || c == Code.star || c == Code.plus

/-- Whether a text begins with a character of a class, or with one of the given ones. -/
def isFollowedBy (t : Text) (others : List Code) : Bool :=
  t.head?.any fun c => isSpace c || others.elem c

/-- The mark that a run of name characters and colons is. -/
def Mark.ofWord (word : Text) : Mark :=
  match word with
  | c :: _ =>
    if isNameStart c then
      match word.splitOn Code.colon with
      | [_] => .name word
      | [_, second] => if second.isEmpty then .token else .prefixedName word
      | _ => .token
    else .token
  | [] => .token

/-- The next mark of a declaration. What may follow a mark without a space depends on it. -/
def mark? : Reader Mark
  | [] => none
  | c :: rest =>
    if c = Code.doubleQuote || c = Code.singleQuote then do
      let (value, rest) ← quotedValue? c rest
      guard (isFollowedBy rest [Code.greater, Code.percent, Code.leftBracket])
      return (.literal value, rest)
    else if c = Code.percent then
      if isFollowedBy rest [Code.percent] then some (.percent, rest) else none
    else if c = Code.comma then some (.comma, rest)
    else if c = Code.bar then some (.bar, rest)
    else if c = Code.leftParen then some (.openParen, rest)
    else if c = Code.rightParen then
      match rest with
      | d :: after =>
        if isRepeatSign d then some (.closeParen (some d), after)
        else if isFollowedBy rest [Code.greater, Code.comma, Code.bar, Code.rightParen] then
          some (.closeParen none, rest)
        else none
      | [] => none
    else if c = Code.hash then do
      let (name, rest) ← name? rest
      guard (isFollowedBy rest [Code.rightParen, Code.greater, Code.percent, Code.bar])
      return (.keyword name, rest)
    else
      let isPart (d : Code) : Bool := isNamePart d || d == Code.colon
      if isPart c then
        let mark := Mark.ofWord ((c :: rest).takeWhile isPart)
        match rest.dropWhile isPart with
        | d :: after =>
          if isRepeatSign d then if mark = .token then none else some (.repeated, after)
          else if isFollowedBy (d :: after)
              [Code.greater, Code.rightParen, Code.comma, Code.bar, Code.leftBracket,
                Code.percent] then
            some (mark, d :: after)
          else none
        | [] => none
      else none

/-- The marks up to the end of a declaration or to an opening bracket; with the character that
ended them. The first argument bounds their number. -/
def marks? : Nat → Reader (List Mark × Code)
  | 0, _ => none
  | n + 1, t =>
    match skipSpace t with
    | Code.greater :: rest => some (([], Code.greater), rest)
    | Code.leftBracket :: rest => some (([], Code.leftBracket), rest)
    | t => do
      let (mark, rest) ← mark? t
      let ((more, stop), rest) ← marks? n rest
      return ((mark :: more, stop), rest)

/-! ### External identifiers -/

/-- Characters of a public identifier. -/
def isPublicCharacter (c : Code) : Bool :=
  c.isAsciiLetter || c.isAsciiDigit || c == Code.space || c == Code.carriageReturn
    || c == Code.lineFeed || (Text.ofString "-'()+,./:=?;!*#@$_%").elem c

/-- Marks that name another file: a system identifier, or a public identifier and a system
identifier. -/
def isExternal : List Mark → Bool
  | [.name n, .literal _] => n == Text.ofString "SYSTEM"
  | [.name n, .literal p, .literal _] =>
    n == Text.ofString "PUBLIC" && p.all isPublicCharacter
  | _ => false

/-- Marks that name another file or give a public identifier alone. -/
def isExternalOrPublic : List Mark → Bool
  | [.name n, .literal p] =>
    n == Text.ofString "SYSTEM" || n == Text.ofString "PUBLIC" && p.all isPublicCharacter
  | ms => isExternal ms

/-! ### Declarations -/

/-- Defines an entity, unless the name is taken or belongs to every document. -/
def Definitions.addEntity (d : Definitions) (name : Text) (e : Entity) : Definitions :=
  if !d.reading || (predefined.lookup name).isSome || (d.entities.get? name).isSome then d
  else { d with entities := d.entities.set name e }

/-- The declaration of an entity. -/
def declareEntity? (d : Definitions) : List Mark → Option Definitions
  | [.name name, .literal value] =>
    if d.reading then (entityText? value).map fun text => d.addEntity name (.internal text)
    else some d
  | [.percent, .name _, .literal value] =>
    if d.reading then (entityText? value).map fun _ => d else some d
  | .percent :: .name _ :: rest => if isExternal rest then some d else none
  | .name name :: rest =>
    if isExternal rest then some (d.addEntity name .external)
    else
      match rest.reverse with
      | .name _ :: .name n :: before =>
        if n = Text.ofString "NDATA" && isExternal before.reverse then
          some (d.addEntity name .unparsed)
        else none
      | _ => none
  | _ => none

/-- The names of the types of attributes that are lists of tokens. -/
def tokenTypes : List Text :=
  ["ID", "IDREF", "IDREFS", "ENTITY", "ENTITIES", "NMTOKEN", "NMTOKENS"].map Text.ofString

/-- Choices after an opening parenthesis, up to the closing one. -/
def choices? (isChoice : Mark → Bool) : List Mark → Option (List Mark)
  | choice :: .bar :: rest => if isChoice choice then choices? isChoice rest else none
  | choice :: .closeParen none :: rest => if isChoice choice then some rest else none
  | _ => none

/-- The type of an attribute: whether it is a list of tokens. -/
def attributeType? : List Mark → Option (Bool × List Mark)
  | .openParen :: rest =>
    let isChoice : Mark → Bool
      | .name _ | .prefixedName _ | .token => true
      | _ => false
    (choices? isChoice rest).map fun rest => (true, rest)
  | .name n :: rest =>
    if n = Text.ofString "CDATA" then some (false, rest)
    else if tokenTypes.elem n then some (true, rest)
    else if n = Text.ofString "NOTATION" then
      let isChoice : Mark → Bool
        | .name _ => true
        | _ => false
      match rest with
      | .openParen :: rest => (choices? isChoice rest).map fun rest => (true, rest)
      | _ => none
    else none
  | _ => none

/-- Adds a rule for an attribute; the first one counts. -/
def Definitions.addRule (d : Definitions) (element name : Text) (rule : AttributeRule) :
    Definitions :=
  if ((d.rules element).get? name).isSome then d
  else { d with attributes := d.attributes.alter element [] (·.set name rule) }

/-- The declarations of the attributes of an element. The first argument bounds their number. -/
def declareAttributes? (element : Text) : Nat → Definitions → List Mark → Option Definitions
  | _, d, [] => some d
  | 0, _, _ => none
  | n + 1, d, .name name :: rest => declareAttribute n d name rest
  | n + 1, d, .prefixedName name :: rest => declareAttribute n d name rest
  | _, _, _ => none
where
  /-- The type and the default of one attribute, and the declarations after it. -/
  declareAttribute (n : Nat) (d : Definitions) (name : Text) (rest : List Mark) :
      Option Definitions := do
    let (tokenized, rest) ← attributeType? rest
    let withDefault (value : Text) (rest : List Mark) : Option Definitions :=
      if d.reading then do
        let (value, _) ← attributeValue? d tokenized 0 value
        declareAttributes? element n (d.addRule element name ⟨tokenized, some value⟩) rest
      else declareAttributes? element n d rest
    match rest with
    | .literal value :: rest => withDefault value rest
    | .keyword k :: rest =>
      if k = Text.ofString "FIXED" then
        match rest with
        | .literal value :: rest => withDefault value rest
        | _ => none
      else if k = Text.ofString "IMPLIED" || k = Text.ofString "REQUIRED" then
        let d := if d.reading then d.addRule element name ⟨tokenized, none⟩ else d
        declareAttributes? element n d rest
      else none
    | _ => none

/-- Whether marks are the rest of a group of elements. For each open group, the innermost first,
`signs` tells what separates its items, if that is known; `expectItem` tells whether an item or a
separator comes next. -/
def isGroup : (signs : List (Option Mark)) → (expectItem : Bool) → List Mark → Bool
  | [], _, ms => ms.isEmpty
  | signs, true, .openParen :: rest => isGroup (none :: signs) true rest
  | signs, true, m :: rest =>
    (match m with
      | .name _ | .prefixedName _ | .repeated => true
      | _ => false) && isGroup signs false rest
  | _ :: outer, false, .closeParen _ :: rest => isGroup outer false rest
  | sign :: outer, false, m :: rest =>
    (m == .comma || m == .bar) && (sign.isNone || sign == some m) &&
      isGroup (some m :: outer) true rest
  | _, _, [] => false

/-- Whether marks are the choices that follow plain text in mixed content. -/
def isMixed : List Mark → Bool
  | [.closeParen sign] => sign == some Code.star
  | .bar :: .name _ :: rest => isMixed rest
  | .bar :: .prefixedName _ :: rest => isMixed rest
  | _ => false

/-- Whether marks are the content of an element. -/
def isContentModel : List Mark → Bool
  | [.name n] => n == Text.ofString "EMPTY" || n == Text.ofString "ANY"
  | .openParen :: .keyword k :: rest =>
    k == Text.ofString "PCDATA" && (rest == [.closeParen none] || isMixed rest)
  | .openParen :: rest => isGroup [none] true rest
  | _ => false

/-- One declaration, of the kind that stands after its opening. -/
def declare? (d : Definitions) (kind : Text) (ms : List Mark) : Option Definitions :=
  if kind = Text.ofString "ENTITY" then declareEntity? d ms
  else if kind = Text.ofString "ATTLIST" then
    match ms with
    | .name element :: rest => declareAttributes? element rest.length d rest
    | .prefixedName element :: rest => declareAttributes? element rest.length d rest
    | _ => none
  else if kind = Text.ofString "ELEMENT" then
    match ms with
    | .name _ :: rest => if isContentModel rest then some d else none
    | .prefixedName _ :: rest => if isContentModel rest then some d else none
    | _ => none
  else if kind = Text.ofString "NOTATION" then
    match ms with
    | .name _ :: rest => if isExternalOrPublic rest then some d else none
    | _ => none
  else none

/-- The kind of a declaration and its marks, after its opening. -/
def declaration? : Reader (Text × List Mark × Code) := fun t => do
  let kind := t.takeWhile Code.isAsciiLetter
  let rest := t.dropWhile Code.isAsciiLetter
  guard (isFollowedBy rest [])
  let ((ms, stop), rest) ← marks? (rest.length + 1) rest
  return ((kind, ms, stop), rest)

/-- The definitions between brackets, after the opening one. The first argument bounds the number of
steps. -/
def subset? : Nat → Definitions → Reader Definitions
  | 0, _, _ => none
  | n + 1, d, t =>
    match skipSpace t with
    | Code.rightBracket :: rest => some (d, rest)
    | Code.percent :: rest => do
      let (_, rest) ← name? rest
      match rest with
      | Code.semicolon :: rest =>
        subset? n { d with refersElsewhere := true, reading := d.reading && d.standalone } rest
      | _ => none
    | Code.less :: Code.question :: rest => do
      let ((), rest) ← instruction? rest
      subset? n d rest
    | Code.less :: Code.exclamation :: Code.minus :: Code.minus :: rest => do
      let ((), rest) ← comment? rest
      subset? n d rest
    | Code.less :: Code.exclamation :: rest => do
      let ((kind, ms, stop), rest) ← declaration? rest
      guard (stop == Code.greater)
      subset? n (← declare? d kind ms) rest
    | _ => none

/-- The document type, after its opening: the name of the first element, perhaps another file, and
perhaps definitions between brackets. -/
def documentType? (d : Definitions) : Reader Definitions := fun t => do
  let ((kind, ms, stop), rest) ← declaration? t
  guard (kind == Text.ofString "DOCTYPE")
  let external ←
    match ms with
    | .name _ :: more => some more
    | .prefixedName _ :: more => some more
    | _ => none
  guard (external.isEmpty || isExternal external)
  let d := { d with refersElsewhere := !external.isEmpty }
  if stop == Code.leftBracket then do
    let (d, rest) ← subset? (rest.length + 1) d rest
    match skipSpace rest with
    | Code.greater :: rest => return (d, rest)
    | _ => none
  else return (d, rest)

end BundleAudit.Xml
