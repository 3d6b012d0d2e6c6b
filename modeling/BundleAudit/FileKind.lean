import BundleAudit.Catalog.Language
import BundleAudit.Path
import BundleAudit.Settings

/-!
# BundleAudit.FileKind

**Kinds of files,** told from their names alone: the primary catalog of a package, a
catalog in another language, any other catalog, or a source. Other catalogs count
only where the settings ask for them.
-/

namespace BundleAudit

/-- What a file is to a scan. -/
inductive FileKind
  | primaryCatalog
  | translatedCatalog
  | secondaryCatalog
  | source
  deriving DecidableEq, Repr

namespace FileKind

/-- The name under which a kind is counted. -/
def name : FileKind → Text
  | primaryCatalog => "primary_catalog"
  | translatedCatalog => "translated_catalog"
  | secondaryCatalog => "secondary_catalog"
  | source => "source"

/-- All kinds, in the order of their names. -/
def all : List FileKind := [primaryCatalog, secondaryCatalog, source, translatedCatalog]

/-- The kind of a file of this name; none for a file that a scan does not read. -/
def ofName? (s : Settings) (name : Text) : Option FileKind :=
  if name = s.primaryCatalogName then some primaryCatalog
  else if s.catalogSuffix.isSuffixOf name then
    if (catalogLanguage? name s.catalogSuffix).isSome then some translatedCatalog
    else if s.scanSecondaryCatalogs then some secondaryCatalog
    else none
  else if s.sourceSuffixes.elem (Path.ofText name).suffix then some source
  else none

end FileKind

end BundleAudit
