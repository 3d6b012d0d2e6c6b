import BundleAudit.Xml.Element
import BundleAudit.Xml.Namespace

/-!
# BundleAudit.Xml.Content

**The first element of a document and all that is inside it.** The text is read from
the left, with the elements that are still open and the texts that are still to be
read: a reference to an entity puts the text of the entity in front. An element ends
in the text in which it began.
-/

namespace BundleAudit.Xml

/-! ### Tags -/

/-- A tag that opens an element. -/
structure StartTag where
  name : Text
  /-- The attributes, with their values as they are written. -/
  attributes : List (Text × Text)
  /-- The element ends at once. -/
  closed : Bool

/-- The attributes and the end of a tag, after a name or a value. The first argument bounds the
number of attributes. -/
def tagEnd? : Nat → Reader (List (Text × Text) × Bool)
  | 0, _ => none
  | n + 1, t =>
    match t with
    | Code.greater :: rest => some (([], false), rest)
    | Code.slash :: Code.greater :: rest => some (([], true), rest)
    | c :: _ => do
      guard (isSpace c)
      match skipSpace t with
      | Code.greater :: rest => some (([], false), rest)
      | Code.slash :: Code.greater :: rest => some (([], true), rest)
      | t =>
        let (name, rest) ← qualifiedName? t
        match skipSpace rest with
        | Code.equals :: rest =>
          let (value, rest) ← literal? (skipSpace rest)
          let ((more, closed), rest) ← tagEnd? n rest
          return (((name, value) :: more, closed), rest)
        | _ => none
    | [] => none

/-- A tag that opens an element, after its first character. -/
def startTag? : Reader StartTag := fun t => do
  let (name, rest) ← qualifiedName? t
  let ((attributes, closed), rest) ← tagEnd? (rest.length + 1) rest
  return (⟨name, attributes, closed⟩, rest)

/-- The name in a tag that closes an element, after its first two characters. -/
def endTag? : Reader Text := fun t => do
  let isPart (c : Code) : Bool := isNamePart c || c == Code.colon
  let (_, _) ← name? t
  match skipSpace (t.dropWhile isPart) with
  | Code.greater :: rest => return (t.takeWhile isPart, rest)
  | _ => none

/-- The element of a tag, without what is inside it, and the scope inside it. Attributes that the
tag does not give have the values that the document defines. -/
def open? (d : Definitions) (scope : Scope) (spent : Nat) (tag : StartTag) :
    Option (Text × KeyedList Text Text × Scope × Nat) := do
  let rules := d.rules tag.name
  guard (decide (tag.attributes.map Prod.fst).Nodup)
  let (given, spent) ← tag.attributes.foldlM (fun (given, spent) (name, raw) => do
    let tokenized := (rules.get? name).any (·.tokenized)
    let (value, spent) ← attributeValue? d tokenized spent raw
    return (given ++ [(name, value)], spent)) (([] : KeyedList Text Text), spent)
  let defaults := rules.filterMap fun (name, rule) =>
    if (KeyedList.get? name given).isSome then none else rule.default.map fun value => (name, value)
  let all := given ++ defaults
  let scope ← scope.bindAll? all
  return (← scope.elementName? tag.name, ← scope.attributes? all, scope, spent)

/-! ### Content -/

/-- An element that is still open. -/
structure OpenElement where
  /-- The name in its tags. -/
  tag : Text
  name : Text
  attributes : KeyedList Text Text
  scope : Scope
  /-- The elements found inside it, the last one first. -/
  inside : List Element

/-- A text that is still to be read. -/
structure PendingText where
  text : Text
  /-- The entity whose text it is. -/
  entity : Option Text
  /-- The number of elements that were open when it began. -/
  level : Nat

/-- How far the content has been read. -/
structure ContentState where
  /-- The open elements, the innermost first. -/
  open_ : List OpenElement
  /-- The texts to be read, the innermost first. -/
  texts : List PendingText
  /-- How many characters came from entities. -/
  spent : Nat

/-- What a step leads to. -/
inductive ContentStep
  | next (state : ContentState)
  /-- The first element is complete; the rest of its text follows it. -/
  | complete (root : Element) (rest : Text)

/-- The element that an open element becomes. -/
def OpenElement.close (e : OpenElement) : Element := .mk e.name e.attributes e.inside.reverse

/-- Puts an element into the innermost open one. -/
def ContentState.place (s : ContentState) (element : Element) (rest : Text) : ContentStep :=
  match s.open_ with
  | parent :: outer =>
    .next { s with open_ := { parent with inside := element :: parent.inside } :: outer }
  | [] => .complete element rest

/-- Reads a tag that opens an element. -/
def openElement? (d : Definitions) (s : ContentState) (tag : StartTag) (rest : Text) :
    Option ContentStep := do
  let scope := (s.open_.head?.map (·.scope)).getD .initial
  let (name, attributes, scope, spent) ← open? d scope s.spent tag
  let s := { s with spent }
  if tag.closed then return s.place (.mk name attributes []) rest
  else return .next { s with open_ := ⟨tag.name, name, attributes, scope, []⟩ :: s.open_ }

/-- Reads a tag that closes an element, in a text that began `level` elements deep. -/
def closeElement? (s : ContentState) (level : Nat) (name rest : Text) : Option ContentStep :=
  match s.open_ with
  | e :: outer =>
    if e.tag = name && decide (level ≤ outer.length) then
      some ({ s with open_ := outer }.place e.close rest)
    else none
  | [] => none

/-- Reads a reference to an entity. -/
def openEntity? (d : Definitions) (s : ContentState) (name : Text) : Option ContentStep := do
  if (predefined.lookup name).isSome then return .next s
  match d.entities.get? name with
  | some (.internal text) =>
    guard (!(s.texts.any fun t => t.entity == some name))
    guard (s.spent + text.length ≤ d.limit)
    return .next
      { s with
        texts := ⟨text, some name, s.open_.length⟩ :: s.texts
        spent := s.spent + text.length }
  | _ => none

/-- The characters of plain text at the beginning of a text; what ends a section of characters has
no place among them. -/
def plainText? : Reader Unit := fun t => do
  let isPlain (c : Code) : Bool := c != Code.less && c != Code.ampersand
  let plain := t.takeWhile isPlain
  guard (plain.all isCharacter && !Text.includes plain "]]>")
  return ((), t.dropWhile isPlain)

/-- One step. -/
def contentStep? (d : Definitions) (s : ContentState) : Option ContentStep :=
  match s.texts with
  | [] => none
  | current :: outer =>
    let go (rest : Text) : ContentState :=
      { s with texts := { current with text := rest } :: outer }
    match current.text with
    | [] =>
      if current.entity.isSome && current.level == s.open_.length then
        some (.next { s with texts := outer })
      else none
    | Code.less :: Code.slash :: rest => do
      let (name, rest) ← endTag? rest
      closeElement? (go rest) current.level name rest
    | Code.less :: Code.question :: rest => do
      let ((), rest) ← instruction? rest
      return .next (go rest)
    | Code.less :: Code.exclamation :: Code.minus :: Code.minus :: rest => do
      let ((), rest) ← comment? rest
      return .next (go rest)
    | Code.less :: Code.exclamation :: rest => do
      let rest ← List.isPrefixOf? (Text.ofString "[CDATA[") rest
      let ((), rest) ← characterSection? rest
      return .next (go rest)
    | Code.less :: rest => do
      let (tag, rest) ← startTag? rest
      openElement? d (go rest) tag rest
    | Code.ampersand :: rest => do
      let (reference, rest) ← reference? rest
      match reference with
      | .character _ => return .next (go rest)
      | .entity name => openEntity? d (go rest) name
    | t => do
      let ((), rest) ← plainText? t
      return .next (go rest)

/-- The first element, as far as `steps` steps lead, and what follows it. -/
def runContent? (d : Definitions) : (steps : Nat) → ContentState → Option (Element × Text)
  | 0, _ => none
  | steps + 1, s => do
    match ← contentStep? d s with
    | .next s => runContent? d steps s
    | .complete root rest => return (root, rest)

/-- The element at the beginning of a text, and what follows it. -/
def element? (d : Definitions) : Reader Element
  | Code.less :: rest => do
    let (tag, rest) ← startTag? rest
    match ← openElement? d ⟨[], [⟨rest, none, 0⟩], 0⟩ tag rest with
    | .next s => runContent? d (2 * (rest.length + d.limit) + 2) s
    | .complete root rest => return (root, rest)
  | _ => none

end BundleAudit.Xml
