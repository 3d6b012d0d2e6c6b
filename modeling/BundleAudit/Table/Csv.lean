import BundleAudit.Table.Basic
import BundleAudit.Text.Encoding

/-!
# BundleAudit.Table.Csv

**Table files.** A record is a line of cells with commas between them. A cell may be
quoted; then it may hold commas and line ends, and a quote inside it is written
twice. Files are written with every cell quoted. They are read more freely: cells
need no quotes, characters after the closing quote belong to the cell, a quoted cell
may end with the file, and records without cells are left out.

Writing is done cell by cell, reading by an automaton over the characters.
-/

namespace BundleAudit.Csv

/-! ### Writing -/

/-- The text of a cell between its quotes. -/
def quoteBody (cell : Text) : Text :=
  cell.flatMap fun c => if c = Code.doubleQuote then [c, c] else [c]

/-- A cell as it is written. -/
def quoteCell (cell : Text) : Text := Code.doubleQuote :: quoteBody cell ++ [Code.doubleQuote]

/-- A record as it is written, with its line end. -/
def writeRecord (cells : List Text) : Text :=
  List.intercalate [Code.comma] (cells.map quoteCell) ++ [Code.lineFeed]

/-- Records as they are written. -/
def write (records : List (List Text)) : Text := records.flatMap writeRecord

/-! ### Reading -/

/-- Where a character stands. -/
inductive Place
  /-- Before the first cell of a record. -/
  | recordStart
  /-- Before a cell that is not the first one. -/
  | cellStart
  /-- In a cell, outside quotes. -/
  | plain
  /-- In a cell, between quotes. -/
  | quoted
  /-- After a quote that ends the quoted part, unless another one follows. -/
  | afterQuote
  deriving DecidableEq, Repr

/-- The record being read. -/
structure Reading where
  place : Place := .recordStart
  /-- The characters of the cell, the last one first. -/
  cell : Text := []
  /-- The cells before it, the last one first. -/
  cells : List Text := []
  deriving DecidableEq, Repr

namespace Reading

/-- Adds a character to the cell that is being read. -/
def add (r : Reading) (c : Code) (place : Place) : Reading := { r with place, cell := c :: r.cell }

/-- Ends the cell at a comma. -/
def nextCell (r : Reading) : Reading :=
  { place := .cellStart, cell := [], cells := r.cell.reverse :: r.cells }

/-- The cells of the record, with the one being read. -/
def record (r : Reading) : List Text := (r.cell.reverse :: r.cells).reverse

/-- What a character outside quotes does: the reading goes on, or the record is complete. -/
def stepPlain (r : Reading) (c : Code) : Option Reading :=
  if c = Code.lineFeed || c = Code.carriageReturn then none
  else if c = Code.comma then some r.nextCell
  else some (r.add c .plain)

/-- What a character does: the reading goes on, or the record is complete. -/
def step (r : Reading) (c : Code) : Option Reading :=
  match r.place with
  | .quoted =>
    if c = Code.doubleQuote then some { r with place := .afterQuote } else some (r.add c .quoted)
  | .afterQuote => if c = Code.doubleQuote then some (r.add c .quoted) else stepPlain r c
  | .plain => stepPlain r c
  | .recordStart | .cellStart =>
    if c = Code.doubleQuote then some { r with place := .quoted } else stepPlain r c

end Reading

/-- The records of a text. A line end before the first cell ends no record. -/
def recordsFrom (r : Reading) : Text → List (List Text)
  | [] => if r.place = .recordStart then [] else [r.record]
  | c :: rest =>
    match r.step c with
    | some r => recordsFrom r rest
    | none =>
      if r.place = .recordStart then recordsFrom {} rest else r.record :: recordsFrom {} rest

/-- The records of a text. -/
def records (t : Text) : List (List Text) := recordsFrom {} t

/-- The most characters that a cell may have. -/
def cellLimit : Nat := 131072

/-- The text of a table file. A byte order mark is no part of it, nor is the beginning of one that
is all the file holds. -/
def text? (bytes : Bytes) : Option Text :=
  if bytes.isPrefixOf Text.utf8Mark then some []
  else if Text.utf8Mark.isPrefixOf bytes then Text.ofUtf8? (bytes.drop 3)
  else Text.ofUtf8? bytes

/-- The records of a table file. -/
def ofBytes (bytes : Bytes) : Except Failure (List (List Text)) :=
  match text? bytes with
  | none => .error .undecodable
  | some t =>
    let all := records t
    if all.all (·.all (·.length ≤ cellLimit)) then .ok all else .error .overlongCell

end BundleAudit.Csv
