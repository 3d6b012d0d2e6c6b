import BundleAudit.Text.Basic

/-!
# BundleAudit.Catalog.Language

**The language of a catalog file** stands at the end of its name, before the suffix:
an underscore, two or three small letters, and for a country another underscore and
two capital letters. Where both readings are possible the longer one counts.
-/

namespace BundleAudit

/-- The language part of a name: two or three small letters, and perhaps a country. -/
def isLanguage (t : Text) : Bool :=
  let small := t.takeWhile Code.isAsciiLower
  (small.length == 2 || small.length == 3) &&
    match t.dropWhile Code.isAsciiLower with
    | [] => true
    | [Code.underscore, a, b] => a.isAsciiUpper && b.isAsciiUpper
    | _ => false

/-- The language after the first underscore that has one behind it up to the end. -/
def languageAtEnd? : Text → Option Text
  | [] => none
  | Code.underscore :: rest => if isLanguage rest then some rest else languageAtEnd? rest
  | _ :: rest => languageAtEnd? rest

/-- A text without the line feed at its end, if there is one. -/
def Text.dropFinalLineFeed (t : Text) : Text :=
  if t.getLast? = some Code.lineFeed then t.dropLast else t

/-- The language of a file whose name ends in `suffix`. An empty suffix leaves nothing to
look at, and a line feed before the suffix does not count. -/
def catalogLanguage? (fileName suffix : Text) : Option Text :=
  if suffix.isEmpty || !suffix.isSuffixOf fileName then none
  else languageAtEnd? (Text.dropFinalLineFeed (fileName.take (fileName.length - suffix.length)))

end BundleAudit
