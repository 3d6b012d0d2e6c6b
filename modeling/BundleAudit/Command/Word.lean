import BundleAudit.Catalog.Language
import BundleAudit.Text.Decimal

/-!
# BundleAudit.Command.Word

**The words of a command line.** A word that begins with a minus sign is an option or
the beginning of one, if only one option begins with it; what follows an equals sign
is its value. After a single minus sign an option is a letter, and more letters may
follow it. Words after two minus signs alone are operands, and so are negative numbers
and words with a space that begin no option.
-/

namespace BundleAudit.Command

/-! ### Options -/

/-- The options of all commands. -/
inductive CommandOption
  | help
  | root
  | topDirectories
  | moduleFilter
  | allBundles
  | threads
  | verbose
  | summaryOnly
  | baseline
  | jsonOut
  | failOnProblems
  | language
  | output
  | input
  deriving DecidableEq, Repr

namespace CommandOption

/-- Whether the option has a value. -/
def takesValue : CommandOption → Bool
  | help | allBundles | verbose | summaryOnly | failOnProblems => false
  | _ => true

/-- The word that stands for the option. -/
def word : CommandOption → Text
  | help => "--help"
  | root => "--root"
  | topDirectories => "--top-dirs"
  | moduleFilter => "--module-filter"
  | allBundles => "--all-bundles"
  | threads => "--threads"
  | verbose => "--verbose"
  | summaryOnly => "--summary-only"
  | baseline => "--baseline"
  | jsonOut => "--json-out"
  | failOnProblems => "--fail-on-problems"
  | language => "--language"
  | output => "--output"
  | input => "--input"

/-- The letter that stands for the option. -/
def letter? : CommandOption → Option Code
  | help => some 0x68
  | verbose => some 0x76
  | _ => none

/-- The option that a letter stands for. -/
def ofLetter? (options : List CommandOption) (letter : Code) : Option CommandOption :=
  options.find? (·.letter? == some letter)

end CommandOption

/-! ### Words -/

/-- What stands in the same word after an option. -/
structure Attached where
  /-- There is an equals sign in front of it. -/
  afterEquals : Bool
  text : Text
  deriving DecidableEq, Repr

/-- What a word is. -/
inductive Word
  | operand (text : Text)
  /-- Two minus signs alone. -/
  | separator
  /-- An option that the command does not have. -/
  | unknown
  | named (option : CommandOption) (attached : Option Attached)
  | lettered (option : CommandOption) (attached : Option Attached)
  deriving DecidableEq, Repr

/-- Whether a text is a negative number, with or without decimals. A line feed at its end does not
count. -/
def isNegativeNumber (t : Text) : Bool :=
  let isDigit (c : Code) : Bool := (Code.digitValue? c).isSome
  match t with
  | Code.minus :: rest =>
    let number := Text.dropFinalLineFeed rest
    (!number.isEmpty && number.all isDigit) ||
      match number.cut? Code.dot with
      | some (whole, decimals) =>
        whole.all isDigit && !decimals.isEmpty && decimals.all isDigit
      | none => false
  | _ => false

/-- What a word is that begins no option. -/
def Word.other (t : Text) : Word :=
  if isNegativeNumber t || t.elem Code.space then .operand t else .unknown

/-- What a word is that begins with two minus signs; none if several options begin with it. -/
def Word.ofName? (options : List CommandOption) (t : Text) : Option Word :=
  let (name, attached) : Text × Option Attached :=
    match t.cut? Code.equals with
    | some (name, value) => (name, some ⟨true, value⟩)
    | none => (t, none)
  match options.filter fun o => o.word = name, options.filter fun o => name.isPrefixOf o.word with
  | option :: _, _ => some (.named option attached)
  | [], [] => some (.other t)
  | [], [option] => some (.named option attached)
  | [], _ => none

/-- What a word is that begins with a single minus sign. -/
def Word.ofLetter (options : List CommandOption) (t : Text) : Word :=
  match t with
  | _ :: letter :: rest =>
    match CommandOption.ofLetter? options letter with
    | some option =>
      match rest with
      | [] => .lettered option none
      | Code.equals :: value => .lettered option (some ⟨true, value⟩)
      | more => .lettered option (some ⟨false, more⟩)
    | none => .other t
  | _ => .operand t

/-- What a word of a command with these options is; none if several options begin with it. -/
def Word.of? (options : List CommandOption) (t : Text) : Option Word :=
  match t with
  | [Code.minus, Code.minus] => some .separator
  | Code.minus :: Code.minus :: _ => Word.ofName? options t
  | Code.minus :: _ => some (Word.ofLetter options t)
  | _ => some (.operand t)

/-- What the words of a command with these options are; none if several options begin with one of
them. -/
def Word.all? (options : List CommandOption) : List Text → Option (List Word)
  | [] => some []
  | t :: rest => do
    match ← Word.of? options t with
    | .separator => return .separator :: rest.map .operand
    | word => return word :: (← Word.all? options rest)

end BundleAudit.Command
