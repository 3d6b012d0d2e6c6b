import BundleAudit.Text.Basic

/-!
# BundleAudit.Token.Basic

**Tokens of a source file.** The search for texts shown to a user needs to tell
only a few things apart: string literals, line comments, identifiers, the mark of
an annotation and the keyword of an assertion. All else is one kind of its own,
and white space is no token.
-/

namespace BundleAudit

/-- What a token is. -/
inductive Token.Kind
  | string
  | lineComment
  | identifier
  | annotationMark
  | assertKeyword
  | other
  deriving DecidableEq, Repr

/-- A token, with the line on which it starts. -/
structure Token where
  kind : Token.Kind
  text : Text
  line : Nat
  deriving DecidableEq, Repr

namespace Token

/-- The word that makes an identifier the keyword of an assertion. -/
def assertWord : Text := "assert"

/-- The kind of a word: the keyword of an assertion, or an identifier. -/
def Kind.ofWord (word : Text) : Kind :=
  if word = assertWord then .assertKeyword else .identifier

/-! ### Delimiters of a literal -/

/-- The quotes that may delimit a literal, the longer ones first. -/
def delimiters : List Text := ["\"\"\"", "\x27\x27\x27", "\"", "\x27"]

/-- The literal without its leading letters and its quotes. The closing quotes may be missing. -/
def stripDelimiters (literal : Text) : Text :=
  let body := literal.dropWhile Code.isAsciiLetter
  match delimiters.find? (·.isPrefixOf body) with
  | none => body
  | some quote =>
    let inner := body.drop quote.length
    if quote.isSuffixOf inner then inner.take (inner.length - quote.length) else inner

end Token

end BundleAudit
