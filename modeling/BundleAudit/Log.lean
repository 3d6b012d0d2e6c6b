import BundleAudit.Text.Basic

/-!
# BundleAudit.Log

**Messages of a run.** What a step has to say is a list of messages, each of a level.
A console shows them in their order, without those of level `debug` unless it is
verbose, and counts what it has shown; it also shows plain lines and tables.
-/

namespace BundleAudit

/-- How much a message matters. -/
inductive Level
  | info
  | warn
  | error
  | debug
  | done
  /-- A level of another name. -/
  | named (name : Text)
  deriving DecidableEq, Repr

namespace Level

/-- The name under which a level is shown. -/
def name : Level → Text
  | .info => "INFO"
  | .warn => "WARN"
  | .error => "ERROR"
  | .debug => "DEBUG"
  | .done => "DONE"
  | .named name => name

/-- The level of a name. -/
def ofName (name : Text) : Level :=
  ([.info, .warn, .error, .debug, .done].find? fun (l : Level) => l.name = name).getD (.named name)

end Level

/-- A message and its level. -/
structure Message where
  level : Level
  text : Text
  deriving DecidableEq, Repr

namespace Message

/-- A message for information. -/
def info (text : Text) : Message := ⟨.info, text⟩

/-- A warning. -/
def warn (text : Text) : Message := ⟨.warn, text⟩

/-- A message about an error. -/
def error (text : Text) : Message := ⟨.error, text⟩

/-- A message that is only shown on demand. -/
def debug (text : Text) : Message := ⟨.debug, text⟩

/-- A message that something was finished. -/
def done (text : Text) : Message := ⟨.done, text⟩

end Message

/-- Messages in their order. -/
abbrev Log := List Message

/-- Whether a console shows messages of a level. -/
def Level.isShown (verbose : Bool) (l : Level) : Bool := verbose || l != .debug

/-- The messages that a console shows. -/
def Log.shown (verbose : Bool) (log : Log) : Log := log.filter (·.level.isShown verbose)

/-- What a console shows. -/
inductive Event
  | message (message : Message)
  | line (text : Text)
  | table (title : Text) (headers : List Text) (rows : List (List Text))
  deriving DecidableEq, Repr

/-- A console and what it has shown so far. -/
structure Console where
  verbose : Bool
  events : List Event := []
  deriving DecidableEq, Repr

namespace Console

/-- Shows something after what was shown before. -/
def add (c : Console) (events : List Event) : Console := { c with events := c.events ++ events }

/-- Shows a message, unless its level is not shown. -/
def log (c : Console) (m : Message) : Console :=
  if m.level.isShown c.verbose then c.add [.message m] else c

/-- Shows messages in their order. -/
def logAll (c : Console) (log : Log) : Console := log.foldl Console.log c

/-- Shows a title and the lines below it. -/
def showSection (c : Console) (title : Text) (lines : List Text) : Console :=
  c.add (.line title :: lines.map .line)

/-- How many messages of a level have been shown. -/
def count (c : Console) (l : Level) : Nat :=
  c.events.countP fun
    | .message m => m.level == l
    | _ => false

end Console

end BundleAudit
