import BundleAudit.Text.Basic

/-!
# BundleAudit.Text.Blank

**White space.** The blank code points are those with the Unicode property of
white space, together with the four information separators below the space.
Trimming takes blanks off one end of a text or off both.
-/

namespace BundleAudit

/-- The blank code points. -/
def Code.isBlank (c : Code) : Bool :=
  decide (0x09 ≤ c ∧ c ≤ 0x0D) || decide (0x1C ≤ c ∧ c ≤ 0x20) || c == 0x85 || c == 0xA0
    || c == 0x1680 || decide (0x2000 ≤ c ∧ c ≤ 0x200A) || c == 0x2028 || c == 0x2029
    || c == 0x202F || c == 0x205F || c == 0x3000

namespace Text

/-- A text without the blanks at its beginning. -/
def trimLeft (t : Text) : Text := t.dropWhile Code.isBlank

/-- A text without the blanks at its end. -/
def trimRight (t : Text) : Text := dropTrailing Code.isBlank t

/-- A text without the blanks around it. -/
def trim (t : Text) : Text := trimRight (trimLeft t)

/-- A text of blanks only. -/
def isBlank (t : Text) : Bool := t.all Code.isBlank

end Text

end BundleAudit
