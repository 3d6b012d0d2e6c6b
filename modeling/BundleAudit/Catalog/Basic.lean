import BundleAudit.KeyedList
import BundleAudit.Log
import BundleAudit.Settings
import BundleAudit.Text.Blank
import BundleAudit.Text.Decimal

/-!
# BundleAudit.Catalog.Basic

**Catalogs** hold one entry a line, a key and its value around an equals sign. A line
that ends in an odd number of backslashes goes on in the next one, without that
backslash and without the blanks in front of the next line. Blank lines and lines
that begin with `#` are no entries; a comment with the intentional marker speaks of
the entry after it. A line without a key is malformed, and so are its continuation
lines.

A key that is defined again has the later value at the later place.
-/

namespace BundleAudit

/-! ### Continuation -/

namespace Text

/-- The number of backslashes at the end of a text. -/
def trailingBackslashes (t : Text) : Nat := (t.reverse.takeWhile (· == Code.backslash)).length

/-- Whether a line goes on in the next one: but for blanks, it ends in an odd number of
backslashes. -/
def continues (line : Text) : Bool := trailingBackslashes line.trimRight % 2 == 1

/-- A line that goes on, without trailing blanks and the backslash; another line as it is. -/
def dropContinuation (line : Text) : Text :=
  if continues line then line.trimRight.dropLast else line

end Text

/-! ### Entries -/

/-- An entry of a catalog. -/
structure CatalogEntry where
  key : Text
  value : Text
  /-- The line on which it begins. -/
  line : Nat
  /-- It is declared to be in use. -/
  intentional : Bool := false
  /-- How often it was found in use. -/
  uses : Nat := 0
  deriving DecidableEq, Repr

namespace CatalogEntry

/-- Nothing shows that the entry is in use. -/
def possiblyUnused (e : CatalogEntry) : Bool := e.uses == 0 && !e.intentional

end CatalogEntry

/-- A line that holds no key. -/
structure MalformedLine where
  line : Nat
  text : Text
  deriving DecidableEq, Repr

/-- The warning about a malformed line of a file. -/
def MalformedLine.warning (file : Text) (m : MalformedLine) : Text :=
  file ++ ":" ++ Text.ofNat m.line ++ ": WARNING: incorrect key: " ++ m.text

/-! ### Reading lines -/

namespace CatalogEntry

/-- What the next line is a part of. -/
inductive Position
  /-- It begins a record. -/
  | fresh
  /-- It goes on with the value of the last entry. -/
  | inEntry
  /-- It goes on with a malformed line. -/
  | inMalformed
  deriving DecidableEq, Repr

/-- What has been read so far; the last entry and the last malformed line come first. -/
structure Reading where
  entries : List CatalogEntry := []
  malformed : List MalformedLine := []
  /-- A comment before the next entry holds the intentional marker. -/
  intentional : Bool := false
  position : Position := .fresh
  deriving DecidableEq, Repr

/-- Adds text to the value of the last entry. -/
def extendLast (text : Text) : List CatalogEntry → List CatalogEntry
  | [] => []
  | e :: rest => { e with value := e.value ++ text } :: rest

/-- The key and the value text of a line; none if there is no equals sign or nothing before it. -/
def split? (line : Text) : Option (Text × Text) :=
  match line.cut? Code.equals with
  | some (before, after) => if before.isEmpty then none else some (before.trim, after)
  | none => none

/-- Reads a line that begins a record. -/
def readFresh (marker : Text) (r : Reading) (number : Nat) (raw : Text) : Reading :=
  let line := raw.trim
  match line with
  | [] => r
  | Code.hash :: comment =>
    if Text.includes comment marker then { r with intentional := true } else r
  | _ =>
    match split? line with
    | none =>
      { r with
        malformed := ⟨number, line⟩ :: r.malformed
        intentional := false
        position := if line.continues then .inMalformed else .fresh }
    | some (key, value) =>
      { r with
        entries :=
          { key, line := number, intentional := r.intentional
            value := if line.continues then value.dropContinuation else value }
            :: r.entries.filter fun e => e.key ≠ key
        intentional := false
        position := if line.continues then .inEntry else .fresh }

/-- Reads one more line. -/
def readLine (marker : Text) (r : Reading) (number : Nat) (line : Text) : Reading :=
  let raw := line.dropTrailing fun c => c == Code.carriageReturn || c == Code.lineFeed
  let position (same : Position) : Position := if raw.continues then same else .fresh
  match r.position with
  | .fresh => readFresh marker r number raw
  | .inMalformed => { r with position := position .inMalformed }
  | .inEntry =>
    { r with
      entries := extendLast raw.trimLeft.dropContinuation r.entries
      position := position .inEntry }

/-- Reads the lines from number `number` on. -/
def readLines (marker : Text) (r : Reading) (number : Nat) : List Text → Reading
  | [] => r
  | line :: rest => readLines marker (readLine marker r number line) (number + 1) rest

/-- The entries of a catalog and its malformed lines, in their order. -/
def ofLines (marker : Text) (lines : List Text) : List CatalogEntry × List MalformedLine :=
  let r := readLines marker {} 1 lines
  (r.entries.reverse, r.malformed.reverse)

/-- The warnings about malformed lines, as messages. -/
def warnings (file : Text) (malformed : List MalformedLine) : Log :=
  malformed.map fun m => .warn (m.warning file)

end CatalogEntry

end BundleAudit
