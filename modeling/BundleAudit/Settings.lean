import BundleAudit.Text.Basic

/-!
# BundleAudit.Settings

**Settings of a scan:** the markers that are searched for, what is taken for
trivial, and how files are named. Every setting has a name and a value that is used
unless it is changed.
-/

namespace BundleAudit

/-- Markers, rules of thumb and file names that a scan uses. -/
structure Settings where
  /-- Line comments that hold this text exempt the literals of their line. -/
  suppressionMarker : Text := "NOI18N"
  /-- Catalog comments that hold this text declare that the next entry is in use. -/
  intentionalMarker : Text := "YESI18N"
  /-- The identifier that makes the literals of its line catalog keys. -/
  lookupIdentifier : Text := "NbBundle"
  /-- Literals on a line with this identifier may be font names. -/
  fontIdentifier : Text := "Font"
  /-- The font names that need no catalog entry. -/
  knownFonts : List Text := ["Tahoma", "Courier", "Arial", "Dialog"]
  /-- Leave out literals of at most one code point, blanks around them aside. -/
  skipTrivial : Bool := true
  /-- Leave out literals that follow an annotation on their line, and else only note it. -/
  skipAnnotationArguments : Bool := true
  /-- Leave out literals that follow an assertion on their line, and else only note it. -/
  skipAssertMessages : Bool := true
  /-- The file name of a package's primary catalog. -/
  primaryCatalogName : Text := "Bundle.properties"
  /-- How file names of catalogs end. -/
  catalogSuffix : Text := ".properties"
  /-- The suffixes of source files. -/
  sourceSuffixes : List Text := [".java"]
  /-- The suffix of the form files beside generated sources. -/
  formSuffix : Text := ".form"
  /-- Look literals up in the other catalogs of the package, too. -/
  scanSecondaryCatalogs : Bool := false
  /-- Keys that the catalog of a platform module must have. -/
  mandatoryModuleKeys : List Text := ["OpenIDE-Module-Display-Category", "OpenIDE-Module-Name"]
  /-- Keys that the catalog of a platform module may have. -/
  optionalModuleKeys : List Text :=
    ["OpenIDE-Module-Long-Description", "OpenIDE-Module-Short-Description"]
  /-- Write code points above ASCII as escapes. -/
  escapeNonAscii : Bool := true

namespace Settings

/-- The settings of a scan that changes none. -/
def standard : Settings := {}

/-- The value of a setting. -/
inductive Value
  | text (value : Text)
  | flag (value : Bool)
  | texts (value : List Text)

/-- All settings by name. -/
def toList (s : Settings) : List (Text × Value) :=
  [("suppression_marker", .text s.suppressionMarker),
    ("intentional_marker", .text s.intentionalMarker),
    ("bundle_lookup_identifier", .text s.lookupIdentifier),
    ("font_identifier", .text s.fontIdentifier),
    ("known_fonts", .texts s.knownFonts),
    ("skip_trivial", .flag s.skipTrivial),
    ("skip_annotation_arguments", .flag s.skipAnnotationArguments),
    ("skip_assert_messages", .flag s.skipAssertMessages),
    ("primary_catalog_name", .text s.primaryCatalogName),
    ("catalog_suffix", .text s.catalogSuffix),
    ("source_suffixes", .texts s.sourceSuffixes),
    ("form_suffix", .text s.formSuffix),
    ("scan_secondary_catalogs", .flag s.scanSecondaryCatalogs),
    ("module_bundle_mandatory_keys", .texts s.mandatoryModuleKeys),
    ("module_bundle_optional_keys", .texts s.optionalModuleKeys),
    ("escape_non_ascii", .flag s.escapeNonAscii)]

/-- Changes one setting; none if no setting has this name and kind of value. -/
def set? (s : Settings) (name : Text) : Value → Option Settings
  | .text v =>
    if name = Text.ofString "suppression_marker" then some { s with suppressionMarker := v }
    else if name = Text.ofString "intentional_marker" then some { s with intentionalMarker := v }
    else if name = Text.ofString "bundle_lookup_identifier" then
      some { s with lookupIdentifier := v }
    else if name = Text.ofString "font_identifier" then some { s with fontIdentifier := v }
    else if name = Text.ofString "primary_catalog_name" then
      some { s with primaryCatalogName := v }
    else if name = Text.ofString "catalog_suffix" then some { s with catalogSuffix := v }
    else if name = Text.ofString "form_suffix" then some { s with formSuffix := v }
    else none
  | .flag v =>
    if name = Text.ofString "skip_trivial" then some { s with skipTrivial := v }
    else if name = Text.ofString "skip_annotation_arguments" then
      some { s with skipAnnotationArguments := v }
    else if name = Text.ofString "skip_assert_messages" then some { s with skipAssertMessages := v }
    else if name = Text.ofString "scan_secondary_catalogs" then
      some { s with scanSecondaryCatalogs := v }
    else if name = Text.ofString "escape_non_ascii" then some { s with escapeNonAscii := v }
    else none
  | .texts v =>
    if name = Text.ofString "known_fonts" then some { s with knownFonts := v }
    else if name = Text.ofString "source_suffixes" then some { s with sourceSuffixes := v }
    else if name = Text.ofString "module_bundle_mandatory_keys" then
      some { s with mandatoryModuleKeys := v }
    else if name = Text.ofString "module_bundle_optional_keys" then
      some { s with optionalModuleKeys := v }
    else none

/-- Changes several settings, one after the other. -/
def setAll? (s : Settings) (changes : List (Text × Value)) : Option Settings :=
  changes.foldlM (fun s (name, v) => s.set? name v) s

end Settings

end BundleAudit
