import BundleAudit.Text.Lines
import BundleAudit.Text.Utf16

/-!
# BundleAudit.Text.Encoding

**The encoding of a file** is told from its first bytes: a byte order mark of UTF-8 or of
UTF-16 names it, and without one it is UTF-8. The mark is no part of the text. What
stands for no code point is read as the replacement character, so every file is a text.
-/

namespace BundleAudit.Text

/-- How the bytes of a file are read. -/
inductive Encoding
  | utf8
  /-- UTF-8 after a byte order mark. -/
  | markedUtf8
  /-- UTF-16 after a byte order mark. -/
  | utf16
  deriving DecidableEq, Repr

/-- The byte order mark in UTF-8. -/
def utf8Mark : Bytes := [0xEF, 0xBB, 0xBF]

/-- The encoding that the first bytes name. -/
def Encoding.ofBytes (bytes : Bytes) : Encoding :=
  if utf8Mark.isPrefixOf bytes then .markedUtf8
  else if List.isPrefixOf [0xFF, 0xFE] bytes || List.isPrefixOf [0xFE, 0xFF] bytes then .utf16
  else .utf8

/-- The name of an encoding. -/
def Encoding.name : Encoding → Text
  | .utf8 => "utf-8"
  | .markedUtf8 => "utf-8-sig"
  | .utf16 => "utf-16"

/-- The text of a file. -/
def ofBytes (bytes : Bytes) : Text :=
  match Encoding.ofBytes bytes with
  | .utf8 => withReplacement (decodeUtf8 bytes)
  | .markedUtf8 => withReplacement (decodeUtf8 (bytes.drop 3))
  | .utf16 =>
    let order := if bytes.head? = some 0xFF then ByteOrder.lowFirst else ByteOrder.highFirst
    withReplacement (decodeUtf16 order (bytes.drop 2))

/-- The lines of a file. -/
def linesOfBytes (bytes : Bytes) : List Text := (ofBytes bytes).lines

end BundleAudit.Text
