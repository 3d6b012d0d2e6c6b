import BundleAudit.KeyedList
import BundleAudit.Path
import BundleAudit.Text.Utf8

/-!
# BundleAudit.Files.Tree

**File trees.** A tree holds directories, files and links, each at the names that lead
to it from the root. One of its directories is the working directory, from which
paths without a root start.

What is nested in a tree, directories as well as links that lead to links or the elements
of a document, is gone through by one call for each level. There is room for so many
(`Depths`).
-/

namespace BundleAudit

/-- The names that lead from the root to an entry, none of them that of a link. -/
abbrev Location := List Text

/-- The path of a location. -/
def Location.toPath (l : Location) : Path := ⟨[Code.slash], l⟩

/-- What stands at a location. -/
inductive Entry
  | directory
  | file (bytes : Bytes)
  /-- A link to what a path leads to from the directory of the link. -/
  | link (target : Text)
  deriving DecidableEq, Repr

/-- The file that holds a text. -/
def Entry.ofText (t : Text) : Entry := .file (t.flatMap Text.utf8Code)

/-- The most links of a walk. -/
def Tree.linkLimit : Nat := 40

/-- How many levels of what is nested can be followed. The numbers depend on how deep the calls are
already when the first level is reached. -/
structure Depths where
  /-- Directories below a source root. -/
  directories : Nat
  /-- Elements of a layer. -/
  elements : Nat
  /-- Links that lead to links, where a path is resolved. They are more than those of a walk. -/
  links : Nat
  linkLimit_lt : Tree.linkLimit < links
  deriving DecidableEq, Repr

/-- The depths if few other calls are around. -/
def Depths.standard : Depths where
  directories := 980
  elements := 980
  links := 980
  linkLimit_lt := Nat.le_of_ble_eq_true rfl

/-- Directories, files and links, and the working directory. -/
structure Tree where
  /-- All entries but the root. -/
  entries : KeyedList Location Entry := []
  here : Location := []
  depths : Depths := .standard

namespace Tree

/-- What stands at a location. -/
def entry? (t : Tree) (l : Location) : Option Entry :=
  if l.isEmpty then some .directory else t.entries.get? l

/-- Puts an entry at a location, in place of what stands there. -/
def put (t : Tree) (l : Location) (e : Entry) : Tree := { t with entries := t.entries.set l e }

/-- Takes away the entry at a location. -/
def remove (t : Tree) (l : Location) : Tree := { t with entries := t.entries.erase l }

theorem entry?_put {l : Location} (hl : l ≠ []) (e : Entry) (t : Tree) (other : Location) :
    entry? (t.put l e) other = if other = l then some e else t.entry? other := by
  by_cases h : other = []
  · rw [h, if_neg (Ne.symm hl)]
    rfl
  · unfold entry?
    rw [List.isEmpty_eq_false_iff.2 h]
    exact KeyedList.get?_set l other e t.entries

theorem entry?_remove {l : Location} (hl : l ≠ []) (t : Tree) (other : Location) :
    entry? (t.remove l) other = if other = l then none else t.entry? other := by
  by_cases h : other = []
  · rw [h, if_neg (Ne.symm hl)]
    rfl
  · unfold entry?
    rw [List.isEmpty_eq_false_iff.2 h]
    exact KeyedList.get?_erase l other t.entries

/-- The names in a directory, in ascending order. -/
def names (t : Tree) (directory : Location) : List Text :=
  Text.sort (t.entries.filterMap fun (l, _) =>
    if l.dropLast = directory then l.getLast? else none)

/-- The names that lead from a directory to something within it. -/
def within? (directory l : Location) : Option (List Text) :=
  match List.isPrefixOf? directory l with
  | some (name :: rest) => some (name :: rest)
  | _ => none

/-- What stands in a directory and in those within it, by the names that lead there, in ascending
order. Links are not followed. -/
def entriesWithin (t : Tree) (directory : Location) : List (List Text × Entry) :=
  (t.entries.filterMap fun (l, e) =>
    (within? directory l).map fun names => (names, e)).mergeSort fun a b =>
      Text.lexLe Text.le a.1 b.1

/-- The files in a directory and in those within it, by the names that lead to them, in ascending
order. Links are not followed. -/
def filesWithin (t : Tree) (directory : Location) : List (List Text) :=
  (t.entries.filterMap fun (l, e) =>
    match e with
    | .file _ => within? directory l
    | _ => none).mergeSort (Text.lexLe Text.le)

end Tree

end BundleAudit
