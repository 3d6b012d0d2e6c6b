import BundleAudit.Settings
import BundleAudit.Text.Blank
import BundleAudit.Token.Basic

/-!
# BundleAudit.Occurrence

**Occurrences of texts in a source.** The tokens are read once, from the first to
the last. What matters about a line is known from the tokens before a literal: an
annotation mark, an assertion, the lookup identifier, the font identifier. Only a
suppression marker works backwards, on the literals of its line.
-/

namespace BundleAudit

/-- A literal of a source that may be shown to a user. -/
structure Occurrence where
  text : Text
  line : Nat
  /-- The lookup identifier stands before it on its line. -/
  nearLookup : Bool := false
  /-- A comment with the suppression marker stands on its line. -/
  suppressed : Bool := false
  annotationArgument : Bool := false
  assertMessage : Bool := false
  /-- Some catalog has it as a key. -/
  inCatalog : Bool := false
  deriving DecidableEq, Repr

namespace Occurrence

/-- The last line on which each of the telling tokens stood. -/
structure LastSeen where
  lookup : Option Nat := none
  annotated : Option Nat := none
  asserted : Option Nat := none
  font : Option Nat := none
  deriving DecidableEq, Repr

/-- What has been found so far, the last occurrence first. -/
structure Progress where
  seen : LastSeen := {}
  found : List Occurrence := []
  deriving DecidableEq, Repr

/-- The occurrence that a literal is, unless the settings leave it out. -/
def ofLiteral? (s : Settings) (seen : LastSeen) (literal : Text) (line : Nat) :
    Option Occurrence :=
  let text := Token.stripDelimiters literal
  let annotated := seen.annotated == some line
  let asserted := seen.asserted == some line
  if s.skipTrivial && decide (text.trim.length ≤ 1) then none
  else if annotated && s.skipAnnotationArguments then none
  else if asserted && s.skipAssertMessages then none
  else if seen.font == some line && s.knownFonts.elem text then none
  else some
    { text, line
      nearLookup := seen.lookup == some line
      annotationArgument := annotated
      assertMessage := asserted }

/-- Marks the occurrences of a line, which are the last ones found. -/
def suppressLine (line : Nat) : List Occurrence → List Occurrence
  | [] => []
  | o :: rest =>
    if o.line = line then { o with suppressed := true } :: suppressLine line rest else o :: rest

/-- Reads one more token. -/
def step (s : Settings) (p : Progress) (t : Token) : Progress :=
  match t.kind with
  | .string =>
    match ofLiteral? s p.seen t.text t.line with
    | some o => { p with found := o :: p.found }
    | none => p
  | .lineComment =>
    if t.text.includes s.suppressionMarker then
      { p with found := suppressLine t.line p.found }
    else p
  | .identifier =>
    if t.text = s.lookupIdentifier then { p with seen.lookup := some t.line }
    else if t.text = s.fontIdentifier then { p with seen.font := some t.line }
    else p
  | .annotationMark => { p with seen.annotated := some t.line }
  | .assertKeyword => { p with seen.asserted := some t.line }
  | .other => p

/-- The occurrences among the tokens of a source, in their order. -/
def ofTokens (s : Settings) (tokens : List Token) : List Occurrence :=
  (tokens.foldl (step s) {}).found.reverse

end Occurrence

end BundleAudit
