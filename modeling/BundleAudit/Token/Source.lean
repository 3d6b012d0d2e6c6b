import BundleAudit.Failure
import BundleAudit.Text.LowerCase
import BundleAudit.Token.Indented
import BundleAudit.Token.Java

/-!
# BundleAudit.Token.Source

**Tokens of a source file,** by the suffix of its path; upper and lower case make no
difference.
-/

namespace BundleAudit.Token

/-- Which tokens a source file has. -/
inductive Source
  | java
  | indented
  deriving DecidableEq, Repr

/-- Which tokens the source at a path has. -/
def Source.ofPath (path : Text) : Except Failure Source :=
  let suffix := (Path.ofText path).suffix.toLower
  if suffix = Text.ofString ".java" then .ok .java
  else if suffix = Text.ofString ".py" then .ok .indented
  else .error (.noTokens (if suffix.isEmpty then path else suffix))

/-- The tokens of a source text. -/
def Source.tokens : Source → Text → List Token
  | .java => Java.tokens
  | .indented => Indented.tokens

/-- The tokens of the source text at a path. -/
def ofSource (path text : Text) : Except Failure (List Token) :=
  (Source.ofPath path).map (·.tokens text)

end BundleAudit.Token
