import BundleAudit.Xml.Definitions

/-!
# BundleAudit.Xml.Namespace

**Namespaces.** An element may bind prefixes to namespaces, for itself and what is
inside it, and one namespace for names without a prefix. Every prefix in use must be
bound; two prefixes are fixed, and so are their namespaces.
-/

namespace BundleAudit.Xml

/-- The namespaces of prefixes, the innermost binding first; the empty prefix stands for names
without one. -/
abbrev Scope := List (Text × Text)

namespace Scope

/-- The namespace of the prefix `xml`. -/
def xmlNamespace : Text := "http://www.w3.org/XML/1998/namespace"

/-- The namespace of the prefix `xmlns`. -/
def xmlnsNamespace : Text := "http://www.w3.org/2000/xmlns/"

/-- The scope of the outermost element. -/
def initial : Scope := [("xml", xmlNamespace)]

/-- Binds a prefix. A prefix cannot be bound to nothing, nor can the fixed prefixes and their
namespaces be bound otherwise; a namespace holds no closing brace. -/
def bind? (scope : Scope) (label namespace_ : Text) : Option Scope := do
  guard (!(namespace_.isEmpty && !label.isEmpty))
  guard (label != Text.ofString "xmlns")
  guard (!namespace_.elem Code.rightBrace)
  guard ((label == Text.ofString "xml") == (namespace_ == xmlNamespace))
  guard (namespace_ != xmlnsNamespace)
  return (label, namespace_) :: scope

/-- A name in a namespace. -/
def expanded (namespace_ name : Text) : Text :=
  Code.leftBrace :: namespace_ ++ Code.rightBrace :: name

/-- The name of an element; none if its prefix is not bound. -/
def elementName? (scope : Scope) (name : Text) : Option Text :=
  match splitName name with
  | (some label, rest) => (scope.lookup label).map (expanded · rest)
  | (none, rest) =>
    match scope.lookup [] with
    | some namespace_ => some (if namespace_.isEmpty then rest else expanded namespace_ rest)
    | none => some rest

/-- The name of an attribute; none if its prefix is not bound. -/
def attributeName? (scope : Scope) (name : Text) : Option Text :=
  match splitName name with
  | (some label, rest) => (scope.lookup label).map (expanded · rest)
  | (none, rest) => some rest

/-- The prefix that an attribute of this name binds. -/
def boundPrefix? (name : Text) : Option Text :=
  match splitName name with
  | (none, rest) => if rest = Text.ofString "xmlns" then some [] else none
  | (some label, rest) => if label = Text.ofString "xmlns" then some rest else none

/-- Binds what the attributes of an element bind. -/
def bindAll? (scope : Scope) (attributes : KeyedList Text Text) : Option Scope :=
  attributes.foldlM (fun scope (name, value) =>
    match boundPrefix? name with
    | some label => bind? scope label value
    | none => some scope) scope

/-- The attributes of an element but for those that bind prefixes, by their full names, which must
differ. -/
def attributes? (scope : Scope) (attributes : KeyedList Text Text) :
    Option (KeyedList Text Text) := do
  let named ← (attributes.filter fun (name, _) => (boundPrefix? name).isNone).mapM
    fun (name, value) => (scope.attributeName? name).map fun name => (name, value)
  guard (decide (named.map Prod.fst).Nodup)
  return named

end Scope

end BundleAudit.Xml
