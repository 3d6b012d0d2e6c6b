import BundleAudit.Failure
import BundleAudit.KeyedList
import BundleAudit.Text.Blank
import BundleAudit.Text.Escape

/-!
# BundleAudit.Table.Basic

**Translation tables.** A row has five cells: the key of an entry, its text in the
primary catalog, its translation, its module and its package. From the rows of a
table comes a translation for each module, package and key. Rows without a
translation say nothing, except where there is no primary text either; a header row
says nothing; and a row of another length makes the whole table unusable.
-/

namespace BundleAudit

/-- A row of a translation table. -/
structure TableRow where
  key : Text
  primary : Text
  translated : Text
  module : Text
  package : Text
  deriving DecidableEq, Repr

namespace TableRow

/-- The cells of a row, in the order of the columns. -/
def cells (r : TableRow) : List Text := [r.key, r.primary, r.translated, r.module, r.package]

/-- The number of cells. -/
def width : Nat := 5

/-- The row that heads a table. -/
def header : TableRow := ⟨"Variable name", "English", "Translation", "Module name", "Package"⟩

/-- The row of some cells, if there is one for each column. -/
def ofCells? : List Text → Option TableRow
  | [key, primary, translated, module, package] => some ⟨key, primary, translated, module, package⟩
  | _ => none

/-- Whether a row holds a translation: it is no header, and has a translation, or no primary text
either. -/
def isKept (r : TableRow) : Bool :=
  r != header && (!r.translated.isBlank || r.primary.isBlank)

end TableRow

/-- Translations by module, package and key. -/
abbrev Table := KeyedList Text (KeyedList Text (KeyedList Text Text))

namespace Table

/-- Adds a translation, or replaces the one that is there. -/
def add (module package key text : Text) (t : Table) : Table :=
  t.alter module [] fun packages => packages.alter package [] fun keys => keys.set key text

/-- The translations of a module, by package and key. -/
def forModule (module : Text) (t : Table) : KeyedList Text (KeyedList Text Text) :=
  (KeyedList.get? module t).getD []

/-- The translation of a key. -/
def find? (module package key : Text) (t : Table) : Option Text :=
  ((t.forModule module).get? package).bind (KeyedList.get? key)

/-- The number of translations. -/
def size (t : Table) : Nat :=
  t.foldl (fun n (_, packages) => packages.foldl (fun n (_, keys) => n + keys.length) n) 0

/-- Adds the translation of a row that holds one. -/
def addRow (t : Table) (r : TableRow) : Table :=
  if r.isKept then t.add r.module r.package r.key r.translated.decodeEscapes else t

/-- Reads the rows of a source, the first of which has the number `number`. -/
def readRows (source : Text) (number : Nat) (t : Table) : List (List Text) → Except Failure Table
  | [] => .ok t
  | cells :: rest =>
    match TableRow.ofCells? cells with
    | none => .error (.wrongColumns source number TableRow.width cells)
    | some r => readRows source (number + 1) (t.addRow r) rest

/-- The table that the rows of a source make up. -/
def ofRows (source : Text) (rows : List (List Text)) : Except Failure Table :=
  readRows source 1 [] rows

end Table

end BundleAudit
