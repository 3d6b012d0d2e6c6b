import BundleAudit.Command.Arguments
import BundleAudit.Log

/-!
# BundleAudit.Command.Display

**What a terminal shows:** a message after its level, a line as it is, and a table with
its title, its headers and its rows, the cells of a column below each other.
-/

namespace BundleAudit

namespace Text

/-- The text with spaces after it, up to a width. -/
def padRight (width : Nat) (t : Text) : Text :=
  t ++ List.replicate (width - t.length) Code.space

end Text

namespace Event

/-- The widths of the columns of a table. -/
def columnWidths (rows : List (List Text)) : List Nat :=
  rows.foldl (fun widths row =>
    (List.range (max widths.length row.length)).map fun n =>
      max (widths.getD n 0) (row.getD n []).length) []

/-- A row of a table. -/
def rowLine (widths : List Nat) (row : List Text) : Text :=
  List.intercalate [Code.space, Code.space] ((row.zip widths).map fun (cell, width) =>
    cell.padRight width)

/-- The lines that show an event. -/
def lines : Event → List Text
  | .message m => [m.level.name.padRight 5 ++ Code.space :: m.text]
  | .line t => [t]
  | .table title headers rows =>
    let widths := columnWidths (headers :: rows)
    title :: (headers :: rows).map (rowLine widths)

end Event

/-- What is shown where no command is run. -/
def Command.Refusal.lines : Command.Refusal → List Text
  | .help | .usage =>
    ["usage: i18ncheck check|export|import [options]",
      "  all commands: --root DIR --top-dirs DIR,DIR --module-filter TEXT --all-bundles",
      "                --threads N --verbose",
      "  check:        --summary-only --baseline FILE --json-out DIR --fail-on-problems",
      "  export:       --language SUFFIX --output FILE",
      "  import:       --language SUFFIX --input FILE"]

end BundleAudit
