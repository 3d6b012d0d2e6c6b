import BundleAudit.KeyedList
import BundleAudit.Text.Basic

/-!
# BundleAudit.Xml.Element

**Elements.** What a document says is the tree of its elements, with their names and
attributes; text, comments and instructions are left out. A name in a namespace is
written with the namespace in braces before it.
-/

namespace BundleAudit.Xml

/-- An element, its attributes, and the elements inside it in their order. -/
inductive Element
  | mk (name : Text) (attributes : KeyedList Text Text) (children : List Element)

namespace Element

/-- The name of an element. -/
def name : Element → Text
  | mk name _ _ => name

/-- The attributes of an element. -/
def attributes : Element → KeyedList Text Text
  | mk _ attributes _ => attributes

/-- The elements directly inside an element. -/
def children : Element → List Element
  | mk _ _ children => children

/-- The value of an attribute. -/
def attribute? (e : Element) (name : Text) : Option Text := e.attributes.get? name

end Element

end BundleAudit.Xml
