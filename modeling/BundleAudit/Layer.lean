import BundleAudit.Failure
import BundleAudit.Log
import BundleAudit.Manifest
import BundleAudit.Xml.Document

/-!
# BundleAudit.Layer

**References from layers to catalogs.** A layer is a document whose elements may carry
a bundle value: a catalog by its dotted name, a number sign, and a key. The names of
the elements around it tell where in the layer the reference stands.
-/

namespace BundleAudit

/-- A reference to a key of a catalog. -/
structure LayerReference where
  /-- The package of the catalog. -/
  package : Text
  key : Text
  /-- Where the reference stands. -/
  place : Text
  deriving DecidableEq, Repr

namespace Layer

/-- The attribute that holds a reference. -/
def bundleAttribute : Text := "bundlevalue"

/-- The names of the elements down to one, and its bundle value. -/
structure BundleValue where
  names : List Text
  value : Text
  deriving DecidableEq, Repr

/-- The names down to an element; one without a name, or with an empty one, adds none. -/
def namesTo (names : List Text) (e : Xml.Element) : List Text :=
  match e.attribute? "name" with
  | some (c :: rest) => names ++ [c :: rest]
  | _ => names

/-- The bundle value of an element, with the names down to it. -/
def ownValue? (names : List Text) (e : Xml.Element) : Option BundleValue :=
  (e.attribute? bundleAttribute).map fun value => ⟨namesTo names e, value⟩

/-- The bundle values in elements that stand side by side, up to a failure. `inside` gives those in
one of them. -/
def valuesInAll (inside : Xml.Element → List BundleValue × Option Failure) :
    List Xml.Element → List BundleValue × Option Failure
  | [] => ([], none)
  | e :: rest =>
    match inside e with
    | (values, some failure) => (values, some failure)
    | (values, none) =>
      let (more, failure) := valuesInAll inside rest
      (values ++ more, failure)

/-- The bundle values in an element, in the order of their elements. They end with a failure at the
first element that has more than `depth` elements down to it. -/
def valuesIn : (depth : Nat) → (names : List Text) → Xml.Element →
    List BundleValue × Option Failure
  | 0, _, _ => ([], some .nestedTooDeep)
  | depth + 1, names, e =>
    let (values, failure) := valuesInAll (valuesIn depth (namesTo names e)) e.children
    ((ownValue? names e).toList ++ values, failure)

/-- The reference that a bundle value is; none without a number sign. -/
def reference? (v : BundleValue) : Option LayerReference :=
  (v.value.cut? Code.hash).map fun (catalog, key) =>
    { package := Manifest.directoryPart (catalog.replaceCode Code.dot Code.slash)
      key
      place :=
        Code.slash :: List.intercalate [Code.slash] (v.names ++ [bundleAttribute]) }

/-- The references that bundle values are, with a warning for each that is none. -/
def references (source : Text) : List BundleValue → List LayerReference × Log
  | [] => ([], [])
  | v :: rest =>
    let (more, log) := references source rest
    match reference? v with
    | some r => (r :: more, log)
    | none =>
      (more, ⟨.warn, "Skipping malformed bundlevalue in " ++ source ++ ": " ++ v.value⟩ :: log)

/-- What stands in the log for what is wrong with a malformed document. -/
def malformedText : Text := "<xml error>"

/-- The references of a document; one that is malformed has none, and the log says so. An element
that is nested too deep is a failure, after the warnings about what stands before it. -/
def ofDocument (depth : Nat) (source : Text) (document : Except Xml.Fault Xml.Element) :
    Log × Except Failure (List LayerReference) :=
  match document with
  | .ok root =>
    let (values, failure) := valuesIn depth [] root
    let (rs, log) := references source values
    (log, match failure with
      | none => .ok rs
      | some failure => .error failure)
  | .error .malformed =>
    ([⟨.error, "Failed to parse layer " ++ source ++ ": " ++ malformedText⟩], .ok [])
  | .error (.unknownCharset name) => ([], .error (.unknownCharset name))
  | .error (.notACharset name) => ([], .error (.notACharset name))
  | .error .multiByteCharset => ([], .error .multiByteCharset)

/-- The references of a layer in a file. -/
def ofBytes (depth : Nat) (source : Text) (bytes : Bytes) :
    Log × Except Failure (List LayerReference) :=
  ofDocument depth source (Xml.Element.ofBytes bytes)

/-- The references of a layer in a text. -/
def ofText (depth : Nat) (source text : Text) : Log × Except Failure (List LayerReference) :=
  match text.toUtf8? with
  | some bytes => ofDocument depth source (Xml.Element.ofUtf8 bytes)
  | none => ([], .error .unencodable)

end Layer

end BundleAudit
