import BundleAudit.Path
import BundleAudit.Text.Decimal
import BundleAudit.Text.Quoted

/-!
# BundleAudit.Failure

**What can go wrong.** A failure is a cause, with what is needed to describe it; the
wording is in `Failure.message`. Causes of the file system name the paths as they
were given.
-/

namespace BundleAudit

/-- Why the file system refuses an operation. -/
inductive SystemCause
  | noSuchEntry
  | entryExists
  | notADirectory
  | isADirectory
  | tooManyLinks
  | nameTooLong
  | busy
  deriving DecidableEq, Repr

namespace SystemCause

/-- The number by which a cause is known. -/
def number : SystemCause → Nat
  | .noSuchEntry => 2
  | .entryExists => 17
  | .notADirectory => 20
  | .isADirectory => 21
  | .busy => 16
  | .nameTooLong => 36
  | .tooManyLinks => 40

/-- What the operating system says of a cause. -/
def description : SystemCause → Text
  | .noSuchEntry => "No such file or directory"
  | .entryExists => "File exists"
  | .notADirectory => "Not a directory"
  | .isADirectory => "Is a directory"
  | .busy => "Device or resource busy"
  | .nameTooLong => "File name too long"
  | .tooManyLinks => "Too many levels of symbolic links"

end SystemCause

/-- Why an operation failed. -/
inductive Failure
  /-- The file system refused an operation on a path, for a renaming also the new path. -/
  | system (cause : SystemCause) (path : Text) (target : Option Text)
  /-- A path holds a zero code point. -/
  | zeroInPath
  /-- Links lead in a circle. -/
  | linkCircle
  /-- Something is nested deeper than it can be followed. -/
  | nestedTooDeep
  /-- A path starts with the home directory of a user that is not known. -/
  | noHome
  /-- A text with an unpaired surrogate cannot be written. -/
  | unencodable
  /-- The bytes of a file are no text. -/
  | undecodable
  /-- A document declares a character set that is not known. -/
  | unknownCharset (name : Text)
  /-- A document declares a conversion where it should declare a character set. -/
  | notACharset (name : Text)
  /-- A document declares a character set that needs several bytes for a character. -/
  | multiByteCharset
  /-- A cell of a table file is longer than allowed. -/
  | overlongCell
  /-- No tokens are known for files of this suffix, or of this name. -/
  | noTokens (suffixOrPath : Text)
  | badSuffix (error : Path.SuffixError)
  /-- A package has two primary catalogs. -/
  | secondPrimaryCatalog (directory : Text)
  /-- A row of a translation table has too many cells, or too few. -/
  | wrongColumns (source : Text) (row : Nat) (expected : Nat) (cells : List Text)
  /-- No setting has this name. -/
  | unknownSetting

/-- The wording of a failure. -/
def Failure.message : Failure → Text
  | .system cause path target =>
    "[Errno " ++ Text.ofNat cause.number ++ "] " ++ cause.description ++ ": " ++ path.quoted
      ++ (match target with
        | some target => " -> " ++ target.quoted
        | none => [])
  | .zeroInPath => "embedded null byte"
  | .linkCircle => "Symlink loop"
  | .nestedTooDeep => "maximum recursion depth exceeded"
  | .noHome => "Could not determine home directory."
  | .unencodable => "surrogates not allowed"
  | .undecodable => "invalid start byte"
  | .unknownCharset name => "unknown encoding: " ++ name
  | .notACharset name =>
    Code.singleQuote :: name
      ++ "' is not a text encoding; use codecs.decode() to handle arbitrary codecs"
  | .multiByteCharset => "multi-byte encodings are not supported"
  | .overlongCell => "field larger than field limit (131072)"
  | .noTokens t => "No tokenizer for " ++ t ++ ". Supported: .java, .py"
  | .badSuffix (.invalidSuffix suffix) => "Invalid suffix " ++ suffix.quoted
  | .badSuffix (.emptyName path) => "PosixPath(" ++ path.toText.quoted ++ ") has an empty name"
  | .secondPrimaryCatalog directory => "More than one primary catalog in package: " ++ directory
  | .wrongColumns source row expected cells =>
    source ++ ":" ++ Text.ofNat row ++ ": row has wrong number of values ("
      ++ Text.ofNat cells.length ++ " instead of " ++ Text.ofNat expected ++ "): "
      ++ Text.quotedList cells
  | .unknownSetting => "unknown setting"

/-- What gives a value did not fail. -/
theorem Failure.eq_ok_of_toOption {α : Type} {x : Except Failure α} {a : α}
    (h : x.toOption = some a) : x = .ok a := by
  cases x with
  | error failure => cases h
  | ok b => exact congrArg Except.ok (Option.some.inj h)

end BundleAudit
