import BundleAudit.Command.Word
import BundleAudit.KeyedList
import BundleAudit.Text.Blank

/-!
# BundleAudit.Command.Arguments

**The arguments of the program.** The first operand names one of three commands; the
words after it are the options of that command, which has no other operands. An
option that is given again replaces its value. Asking for help ends the reading
there; other words that are not as they should be do so, too, some only at the end.
-/

namespace BundleAudit.Command

/-! ### Commands -/

/-- What every command is told. -/
structure ScanArguments where
  root : Text := "."
  topDirectories : Text := "."
  moduleFilter : Option Text := none
  allBundles : Bool := false
  threads : Int
  verbose : Bool := false
  deriving DecidableEq, Repr

/-- What the command that checks modules is told. -/
structure CheckArguments where
  scan : ScanArguments
  summaryOnly : Bool := false
  baseline : Option Text := none
  jsonOut : Option Text := none
  failOnProblems : Bool := false
  deriving DecidableEq, Repr

/-- What the commands that write and read translation tables are told. -/
structure TransferArguments where
  scan : ScanArguments
  language : Text
  /-- The table file. -/
  table : Text
  deriving DecidableEq, Repr

/-- A command and what it is told. -/
inductive Arguments
  | check (arguments : CheckArguments)
  | exportTable (arguments : TransferArguments)
  | importTable (arguments : TransferArguments)
  deriving DecidableEq, Repr

/-- The parts of a text between commas, without those that are blank. -/
def splitDirectories (t : Text) : List Text :=
  ((Text.splitOn Code.comma t).map Text.trim).filter (!·.isEmpty)

/-- Why no command is run. -/
inductive Refusal
  /-- Help was asked for. -/
  | help
  /-- The arguments are wrong. -/
  | usage
  deriving DecidableEq, Repr

/-- The exit code without a command. -/
def Refusal.exitCode : Refusal → Nat
  | .help => 0
  | .usage => 2

/-- The names of the commands. -/
inductive CommandName
  | check
  | exportTable
  | importTable
  deriving DecidableEq, Repr

namespace CommandName

/-- The word by which a command is called. -/
def word : CommandName → Text
  | check => "check"
  | exportTable => "export"
  | importTable => "import"

/-- The command of a word. -/
def ofWord? (t : Text) : Option CommandName :=
  [check, exportTable, importTable].find? (·.word = t)

/-- The options of a command. -/
def options (c : CommandName) : List CommandOption :=
  [.help, .root, .topDirectories, .moduleFilter, .allBundles, .threads, .verbose] ++
    match c with
    | check => [.summaryOnly, .baseline, .jsonOut, .failOnProblems]
    | exportTable => [.language, .output]
    | importTable => [.language, .input]

/-- The options that a command must be given. -/
def required : CommandName → List CommandOption
  | check => []
  | exportTable => [.language, .output]
  | importTable => [.language, .input]

end CommandName

/-! ### Reading options -/

/-- The options that have been read. -/
structure Given where
  /-- Options and their values, which are empty for those that have none. -/
  values : KeyedList CommandOption Text := []
  /-- There were words that are no options and no values. -/
  leftOver : Bool := false
  deriving DecidableEq, Repr

namespace Given

/-- Notes an option. Help ends the reading, and so does a number of threads that is no number. -/
def note (option : CommandOption) (value : Text) (g : Given) : Except Refusal Given :=
  if option = .help then .error .help
  else if option = .threads && value.toInt?.isNone then .error .usage
  else .ok { g with values := g.values.set option value }

/-- The letters that follow an option without a value in its word: the options that they stand for,
and whether one stands for none; none if there is a value. -/
def letters? (options : List CommandOption) : Text → Option (List CommandOption × Bool)
  | [] => some ([], false)
  | Code.minus :: _ => none
  | letter :: rest =>
    match CommandOption.ofLetter? options letter with
    | none => some ([], true)
    | some option =>
      if rest.head? = some Code.equals then none
      else (letters? options rest).map fun (more, leftOver) => (option :: more, leftOver)

/-- Notes an option without a value that was given by its letter, and those in the same word. -/
def noteLetters (options : List CommandOption) (option : CommandOption) (attached : Attached)
    (g : Given) : Except Refusal Given :=
  if attached.afterEquals then .error .usage
  else
    match letters? options attached.text with
    | none => .error .usage
    | some (more, leftOver) =>
      (option :: more).foldlM (fun g option => g.note option [])
        { g with leftOver := g.leftOver || leftOver }

/-- Reads words. -/
def read (options : List CommandOption) (g : Given) : List Word → Except Refusal Given
  | [] => .ok g
  | .operand _ :: rest => read options { g with leftOver := true } rest
  | .separator :: rest => read options { g with leftOver := true } rest
  | .unknown :: rest => read options { g with leftOver := true } rest
  | .named option none :: .operand value :: rest =>
    if option.takesValue then do read options (← g.note option value) rest
    else do read options { ← g.note option [] with leftOver := true } rest
  | .named option none :: rest =>
    if option.takesValue then .error .usage
    else do read options (← g.note option []) rest
  | .named option (some attached) :: rest =>
    if option.takesValue then do read options (← g.note option attached.text) rest
    else .error .usage
  | .lettered option none :: rest => do read options (← g.note option []) rest
  | .lettered option (some attached) :: rest => do
    read options (← g.noteLetters options option attached) rest

/-! ### From options to arguments -/

/-- The value that an option was given last. -/
def value? (option : CommandOption) (g : Given) : Option Text := g.values.get? option

/-- Whether an option was given. -/
def has (option : CommandOption) (g : Given) : Bool := (g.value? option).isSome

/-- What every command is told. -/
def scanArguments (defaultThreads : Int) (g : Given) : ScanArguments where
  root := (g.value? .root).getD "."
  topDirectories := (g.value? .topDirectories).getD "."
  moduleFilter := g.value? .moduleFilter
  allBundles := g.has .allBundles
  threads := ((g.value? .threads).bind Text.toInt?).getD defaultThreads
  verbose := g.has .verbose

/-- What a command is told. -/
def arguments (defaultThreads : Int) (g : Given) : CommandName → Arguments
  | .check => .check
    { scan := g.scanArguments defaultThreads
      summaryOnly := g.has .summaryOnly
      baseline := g.value? .baseline
      jsonOut := g.value? .jsonOut
      failOnProblems := g.has .failOnProblems }
  | .exportTable => .exportTable
    ⟨g.scanArguments defaultThreads, (g.value? .language).getD [], (g.value? .output).getD []⟩
  | .importTable => .importTable
    ⟨g.scanArguments defaultThreads, (g.value? .language).getD [], (g.value? .input).getD []⟩

end Given

/-- The arguments of a command. -/
def Arguments.ofOptions (defaultThreads : Int) (c : CommandName) (words : List Text) :
    Except Refusal Arguments :=
  match Word.all? c.options words with
  | none => .error .usage
  | some words => do
    let g ← Given.read c.options {} words
    if g.leftOver || !c.required.all g.has then .error .usage
    else return g.arguments defaultThreads c

/-- The arguments of the program. An option before the command is either help or wrong. -/
def Arguments.ofWords (defaultThreads : Int) : List Text → Except Refusal Arguments
  | [] => .error .usage
  | t :: rest =>
    match Word.of? [.help] t with
    | some (.operand t) =>
      match CommandName.ofWord? t with
      | some c => Arguments.ofOptions defaultThreads c rest
      | none => .error .usage
    | some .unknown =>
      match Arguments.ofWords defaultThreads rest with
      | .error .help => .error .help
      | _ => .error .usage
    | some (.named _ none) => .error .help
    | some (.lettered _ none) => .error .help
    | some (.lettered option (some attached)) =>
      match Given.noteLetters [.help] option attached {} with
      | .error refusal => .error refusal
      | .ok _ => .error .usage
    | some (.named _ (some _)) => .error .usage
    | some .separator => .error .usage
    | none => .error .usage

end BundleAudit.Command
