import BundleAudit.Text.Basic

/-!
# BundleAudit.Text.Lines

**Lines of a text.** A line ends at any line boundary: line feed, carriage return, both
in this order, the vertical tab, the form feed, the first three information separators,
the next-line character, and the two Unicode separators. A boundary at the end of the
text begins no further line.
-/

namespace BundleAudit

/-- The code points that end a line. -/
def Code.isLineBoundary (c : Code) : Bool :=
  decide (0x0A ≤ c ∧ c ≤ 0x0D) || decide (0x1C ≤ c ∧ c ≤ 0x1E) || c == 0x85 || c == 0x2028
    || c == 0x2029

namespace Text

/-- The lines of a text, without their boundaries. -/
def lines : Text → List Text
  | [] => []
  | Code.carriageReturn :: Code.lineFeed :: rest => [] :: lines rest
  | c :: rest => if c.isLineBoundary then [] :: lines rest else consHead c (lines rest)

/-- The text of lines, each of them ended by a line feed. -/
def ofLines (ls : List Text) : Text := ls.flatMap (· ++ [Code.lineFeed])

end Text

end BundleAudit
