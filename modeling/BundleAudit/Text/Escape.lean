import BundleAudit.Text.Quoted

/-!
# BundleAudit.Text.Escape

**Escapes of code points,** a backslash, the letter `u` and four hexadecimal digits.
Escaping makes any text pure ASCII; a code point above `0xFFFF` becomes the two
escapes of its surrogate pair, which unescaping joins again.

A text without a backslash before a `u` is left as it is, also where it holds a
surrogate pair.
-/

namespace BundleAudit.Text

/-- The beginning of an escape. -/
def escapeMark : Text := "\\u"

/-- Every escape becomes the number that it denotes. -/
def unescape : Text → Text
  | Code.backslash :: 0x75 :: a :: b :: c :: d :: rest =>
    match a.hexValue?, b.hexValue?, c.hexValue?, d.hexValue? with
    | some a, some b, some c, some d => (((a * 16 + b) * 16 + c) * 16 + d) :: unescape rest
    | _, _, _, _ => Code.backslash :: unescape (0x75 :: a :: b :: c :: d :: rest)
  | c :: rest => c :: unescape rest
  | [] => []

/-- The text that an escaped text stands for. -/
def decodeEscapes (t : Text) : Text :=
  if t.includes escapeMark then joinPairs (unescape t) else t

/-- One code point, escaped if it is no ASCII. -/
def escapeCode (c : Code) : Text :=
  if c < 0x80 then [c]
  else if c ≤ 0xFFFF then escapeMark ++ hex 4 c
  else
    escapeMark ++ hex 4 (0xD800 + (c - 0x10000) / 0x400)
      ++ escapeMark ++ hex 4 (0xDC00 + (c - 0x10000) % 0x400)

/-- The text with escapes in place of all that is no ASCII. -/
def encodeNonAscii (t : Text) : Text := t.flatMap escapeCode

end BundleAudit.Text
