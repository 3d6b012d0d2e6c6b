import BundleAudit.Files.Write
import BundleAudit.Table.Csv

/-!
# BundleAudit.Table.File

**Writing table files,** with the row that heads a table or without it.
-/

namespace BundleAudit.Table

/-- The records of a table file with the given rows. -/
def recordsOf (header : Bool) (rows : List (List Text)) : List (List Text) :=
  if header then TableRow.header.cells :: rows else rows

/-- Writes a table file. -/
def writeFile (t : Tree) (target : Path) (header : Bool) (rows : List (List Text)) :
    Tree × Option Failure :=
  t.writeText target (Csv.write (recordsOf header rows))

/-- Writes a table file, and gives the number of its records. -/
def writeRecords (t : Tree) (target : Path) (header : Bool) (rows : List (List Text)) :
    Tree × Except Failure Nat :=
  match writeFile t target header rows with
  | (t, none) => (t, .ok (recordsOf header rows).length)
  | (t, some failure) => (t, .error failure)

end BundleAudit.Table
