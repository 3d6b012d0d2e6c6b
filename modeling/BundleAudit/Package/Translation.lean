import BundleAudit.Catalog.Rendering
import BundleAudit.Package.Basic

/-!
# BundleAudit.Package.Translation

**Translations of a package.** The rows of a package are the entries of its primary
catalog with the translations that are there; from a table comes the whole catalog in
another language. That catalog is written where one in the language is, and else
beside the primary catalog.
-/

namespace BundleAudit

/-- A catalog made from a table. -/
structure GeneratedCatalog where
  module : Text
  package : Text
  path : Text
  lines : List Text
  deriving DecidableEq, Repr

namespace Package

/-- The name of the primary catalog without its suffix. -/
def catalogStem (s : Settings) : Text := (Path.ofText s.primaryCatalogName).stem

/-- The translation of the primary catalog into a language. -/
def translation? (s : Settings) (language : Text) (p : Package) : Option Catalog :=
  p.translated.find? fun c =>
    c.language? s == some language
      && (catalogStem s ++ [Code.underscore]).isPrefixOf (Path.ofText c.path).name

/-- The name of a translation of the primary catalog. -/
def translationName (s : Settings) (language : Text) : Text :=
  catalogStem s ++ Code.underscore :: language ++ s.catalogSuffix

/-- Where the translation into a language is, or goes. -/
def translationPath (s : Settings) (language : Text) (p : Package) : Text :=
  match p.translation? s language with
  | some c => c.path
  | none =>
    ((Path.ofText p.directory).join (Path.ofText (translationName s language))).toText

/-- The row of an entry and its translation. -/
def exportRow (module : Text) (package : Text) (translation : Option Catalog) (e : CatalogEntry) :
    TableRow where
  key := e.key
  primary := e.value
  translated :=
    match translation.bind (·.get? e.key) with
    | some translated => translated.value.decodeEscapes
    | none => []
  module
  package

/-- The rows of the entries of the primary catalog. -/
def exportRows (s : Settings) (language module : Text) (p : Package) : List TableRow :=
  match p.primary with
  | none => []
  | some primary =>
    primary.entries.map (exportRow module p.name (p.translation? s language))

/-- The catalog with the given translations. -/
def generate (s : Settings) (language : Text) (header : List Text)
    (translations : KeyedList Text Text) (module : Text) (p : Package) : GeneratedCatalog where
  module
  package := p.name
  path := p.translationPath s language
  lines := Catalog.render header s.escapeNonAscii translations

end Package

end BundleAudit
