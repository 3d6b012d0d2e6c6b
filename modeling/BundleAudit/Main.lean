import BundleAudit.Command.Display
import BundleAudit.Command.Program
import Std.Time.Format

/-!
# BundleAudit.Main

**The command line.** The working directory and what the arguments name are read into a
file tree, the program is run on it, and the files in which the tree then differs are
written. A link becomes one to where it leads in the end.
-/

namespace BundleAudit.CommandLine

/-! ### Texts and bytes -/

/-- The string of a text. -/
def toString (t : Text) : String := String.ofList (t.map Char.ofNat)

/-- The path of a location, as a string. -/
def pathString (l : Location) : String := toString l.toPath.toText

/-- The location of a path that a string gives. -/
def locationOf (path : String) : Location := (Path.ofText (Text.ofString path)).names

/-! ### Reading the tree -/

/-- The entries within a directory. -/
partial def entriesWithin (directory : String) : IO (List (Location × Entry)) := do
  let mut found : List (Location × Entry) := []
  for entry in ← (← IO.FS.realPath directory).readDir do
    let path := entry.path.toString
    match (← entry.path.symlinkMetadata).type with
    | .dir => found := (← entriesWithin path) ++ (locationOf path, .directory) :: found
    | .file =>
      let bytes ← IO.FS.readBinFile path
      found := (locationOf path, .file bytes.toList) :: found
    | .symlink =>
      let target ← try (·.toString) <$> IO.FS.realPath path catch _ => pure "\x00"
      found := (locationOf path, .link (Text.ofString target)) :: found
    | .other => pure ()
  return found

/-- The directories around a location, and the location itself if it is one. -/
def directoriesTo (l : Location) : List (Location × Entry) :=
  (List.range l.length).map fun n => (l.take (n + 1), .directory)

/-- The entries at and within what a path leads to, and the directories around it; nothing if it
leads nowhere. -/
def entriesAt (path : String) : IO (List (Location × Entry)) := do
  try
    let target ← IO.FS.realPath path
    let l := locationOf target.toString
    match (← target.metadata).type with
    | .dir => return directoriesTo l ++ (← entriesWithin target.toString)
    | .file =>
      let bytes ← IO.FS.readBinFile target
      return directoriesTo l.dropLast ++ [(l, .file bytes.toList)]
    | _ => return []
  catch _ => return []

/-- The paths that an argument may name: itself, and what follows an equals sign. -/
def pathsIn (argument : String) : List String :=
  let t := Text.ofString argument
  match t.cut? Code.equals with
  | some (_, value) => [argument, toString value]
  | none => [argument]

/-- The tree that the program works on. -/
def readTree (arguments : List String) : IO Tree := do
  let here := (← IO.currentDir).toString
  let mut entries : KeyedList Location Entry := []
  for path in here :: arguments.flatMap pathsIn do
    for (l, e) in ← entriesAt path do
      entries := entries.set l e
  return { entries, here := locationOf here }

/-! ### Writing the tree -/

/-- Writes the entry at a location, a file first under another name. -/
def writeEntry (l : Location) : Entry → IO Unit
  | .directory => IO.FS.createDirAll (pathString l)
  | .file bytes => do
    let path := pathString l
    IO.FS.writeBinFile (path ++ ".tmp") (ByteArray.mk bytes.toArray)
    IO.FS.rename (path ++ ".tmp") path
  | .link _ => pure ()

/-- Writes the entries in which a tree differs from another one. -/
def writeTree (before after : Tree) : IO Unit := do
  for (l, _) in before.entries do
    if (after.entry? l).isNone then IO.FS.removeFile (pathString l)
  for (l, e) in after.entries do
    if before.entry? l ≠ some e then writeEntry l e

/-! ### The program -/

/-- The time as it is, to the second. -/
def now : IO Text := do
  return Text.ofString ((← Std.Time.PlainDateTime.now).format "uuuu-MM-dd'T'HH:mm:ss")

/-- What the program finds around it. -/
def environment (started finished : Text) (home : Option String) : Command.Environment where
  homes := home.toList.map fun path => ([], Text.ofString path)
  threads := 8
  started
  finished
  arrange := id
  arrange_perm log := List.Perm.refl log
  undrawn? _ := none

/-- Shows lines. -/
def printLines (lines : List Text) : IO Unit := lines.forM fun t => IO.println (toString t)

/-- Runs the program; with its exit code. -/
def run (arguments : List String) : IO UInt32 := do
  let started ← now
  let before ← readTree arguments
  let e := environment started (← now) (← IO.getEnv "HOME")
  let words := arguments.map Text.ofString
  match Command.Arguments.ofWords e.threads words with
  | .error refusal =>
    printLines refusal.lines
    return refusal.exitCode.toUInt32
  | .ok _ =>
    let o := Command.run e words before
    printLines (o.session.console.events.flatMap Event.lines)
    writeTree before o.session.tree
    match o.exit with
    | .ok code => return code.toUInt32
    | .error failure =>
      IO.eprintln (toString failure.message)
      return 1

end BundleAudit.CommandLine

/-- The command line program. -/
def main (arguments : List String) : IO UInt32 := BundleAudit.CommandLine.run arguments
