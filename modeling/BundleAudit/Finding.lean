import BundleAudit.Text.Decimal

/-!
# BundleAudit.Finding

**Findings:** what a scan reports about a line of a file. The kinds have an order, in
which reports list them.
-/

namespace BundleAudit

/-- What a finding is about. -/
inductive Finding.Kind
  | missingKey
  | missingSuppressionOrKey
  | possiblyUnusedEntry
  | manifestCatalog
  | layerDefinition
  | redundantSuppression
  | unreadableFile
  deriving DecidableEq, Repr

/-- Something reported about a line of a file. -/
structure Finding where
  kind : Finding.Kind
  file : Text
  line : Int
  message : Text
  deriving DecidableEq, Repr

namespace Finding

/-- All kinds, in the order of reports. -/
def Kind.all : List Kind :=
  [.missingKey, .missingSuppressionOrKey, .possiblyUnusedEntry, .manifestCatalog,
    .layerDefinition, .redundantSuppression, .unreadableFile]

/-- The name of a kind in the files that a run writes. -/
def Kind.name : Kind → Text
  | .missingKey => "MISSING_KEY_IN_BUNDLE"
  | .missingSuppressionOrKey => "MISSING_NOI18N_OR_KEY"
  | .possiblyUnusedEntry => "POSSIBLY_UNUSED_ENTRY"
  | .manifestCatalog => "MODULE_MANIFEST_BUNDLE"
  | .layerDefinition => "MODULE_LAYER_DEFINITION"
  | .redundantSuppression => "REDUNDANT_SUPPRESSION_MARKER"
  | .unreadableFile => "UNREADABLE_FILE"

/-- The heading of a kind in a report. -/
def Kind.description : Kind → Text
  | .missingKey => "Very likely missing key in resource bundle"
  | .missingSuppressionOrKey =>
    "Probably missing key in resource bundle or string should be marked with // NOI18N"
  | .possiblyUnusedEntry => "Probably unused resource bundle key"
  | .manifestCatalog => "Module's resource bundle specified in manifest.mf"
  | .layerDefinition => "Resource bundle keys referenced from the module layer"
  | .redundantSuppression =>
    "It is redundant to use NOI18N when String actually is in resource bundle"
  | .unreadableFile => "Files which could not be read"

/-- The line of a report about a finding. -/
def render (f : Finding) : Text := f.file ++ ":" ++ Text.ofInt f.line ++ ": " ++ f.message

end Finding

end BundleAudit
