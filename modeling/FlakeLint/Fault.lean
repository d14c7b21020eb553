-- SUMMARY: Everything that can stop an operation, as causes.
import FlakeLint.Text.Quoted

/-!
# Faults

One type for the reasons why an operation ends without a result. A reason
carries what its message needs and nothing else; the wording of each kind of
reason stands beside it, and `Fault.message` words them all.
-/

namespace FlakeLint

-- ---------------------------------------------------------------------------
-- Sources that cannot be parsed
-- ---------------------------------------------------------------------------

inductive ParseCause where
  /-- No parser for the grammar is at hand. -/
  | unavailable (grammar : String)
  /-- The tree of the grammar has an error. -/
  | malformed (grammar : String)
deriving DecidableEq, Repr

structure ParseFailure where
  path : String
  line : Option Nat
  cause : ParseCause
deriving DecidableEq, Repr

/-- What a parser that cannot be found is reported as. -/
def missingGrammar (grammar : String) : String :=
  s!"no grammar {grammar}"

def ParseFailure.message (failure : ParseFailure) : String :=
  let place := match failure.line with
    | some line => s!"{failure.path}:{line}"
    | none => failure.path
  let reason := match failure.cause with
    | .unavailable grammar => s!"no {grammar} parser available ({missingGrammar grammar})"
    | .malformed grammar => s!"syntax error in {grammar} source"
  s!"{place}: {reason}"

-- ---------------------------------------------------------------------------
-- Numbers without a place to go
-- ---------------------------------------------------------------------------

inductive NumberFault where
  /-- The integer has more decimal digits than are ever written. -/
  | tooLongToWrite
  /-- The numeral has more decimal digits than are ever read. -/
  | tooLongToRead (digits : Nat)
  | infinityToInteger
  | nanToInteger
  /-- The integer is beyond the largest double. -/
  | integerToDouble
  /-- The quotient of two integers is beyond the largest double. -/
  | quotientToDouble
deriving DecidableEq, Repr

/-- The most decimal digits that an integer may have where it is read or written. -/
def digitLimit : Nat := 4300

def NumberFault.message : NumberFault → String
  | .tooLongToWrite =>
    s!"Exceeds the limit ({digitLimit} digits) for integer string conversion; " ++
    "use sys.set_int_max_str_digits() to increase the limit"
  | .tooLongToRead digits =>
    s!"Exceeds the limit ({digitLimit} digits) for integer string conversion: " ++
    s!"value has {digits} digits; use sys.set_int_max_str_digits() to increase the limit"
  | .infinityToInteger => "cannot convert float infinity to integer"
  | .nanToInteger => "cannot convert float NaN to integer"
  | .integerToDouble => "int too large to convert to float"
  | .quotientToDouble => "integer division result too large for a float"

-- ---------------------------------------------------------------------------
-- Configuration edits that are refused
-- ---------------------------------------------------------------------------

inductive EditFault where
  | unknownKey (key : String)
  | unknownChecker (key : String)
  | notABool (key raw : String)
  | notAFormat (key raw : String) (formats : List String)
  | emptyValue (key : String)
  | wholeTable (key : String)
deriving DecidableEq, Repr

def EditFault.message : EditFault → String
  | .unknownKey key => s!"Unknown config key: {key}"
  | .unknownChecker key => s!"Unknown checker: {key}"
  | .notABool key raw => s!"Expected true/false for {key}, got: {raw}"
  | .notAFormat key raw formats =>
    let listed := String.intercalate ", " formats
    s!"Expected one of {listed} for {key}, got: {raw}"
  | .emptyValue key => s!"Expected a non-empty value for {key}"
  | .wholeTable key => s!"Cannot set dict key '{key}' directly; use {key}.<key>"

/-- Is the name itself unknown, rather than the value unfit? -/
def EditFault.isUnknown : EditFault → Bool
  | .unknownKey _ | .unknownChecker _ => true
  | _ => false

-- ---------------------------------------------------------------------------
-- Refusals of the disk
-- ---------------------------------------------------------------------------

inductive DiskCause where
  | exists
  | notADirectory
  | isADirectory
  | notFound
  | busy
  | denied
  | full
  /-- Links lead in a circle. -/
  | circle
deriving DecidableEq, Repr

structure DiskFault where
  cause : DiskCause
  path : String
deriving DecidableEq, Repr

/-- The number and the words that the system has for a refusal. -/
def DiskCause.wording : DiskCause → Nat × String
  | .exists => (17, "File exists")
  | .notADirectory => (20, "Not a directory")
  | .isADirectory => (21, "Is a directory")
  | .notFound => (2, "No such file or directory")
  | .busy => (16, "Device or resource busy")
  | .denied => (13, "Permission denied")
  | .full => (28, "No space left on device")
  | .circle => (40, "Too many levels of symbolic links")

/-- The kind of failure that the log names. -/
def DiskCause.kind : DiskCause → String
  | .exists => "FileExistsError"
  | .notADirectory => "NotADirectoryError"
  | .isADirectory => "IsADirectoryError"
  | .notFound => "FileNotFoundError"
  | .busy | .full | .circle => "OSError"
  | .denied => "PermissionError"

def DiskFault.message (fault : DiskFault) : String :=
  s!"[Errno {fault.cause.wording.1}] {fault.cause.wording.2}: {Text.quoted fault.path}"

-- ---------------------------------------------------------------------------
-- Texts that the system does not take
-- ---------------------------------------------------------------------------

inductive TextFault where
  /-- Halves of pairs stand alone from one position to another, the first of them a given unit. -/
  | halves (unit : UInt16) (first last : Nat)
  /-- The system does not take what is printed. -/
  | refused (cause : DiskCause)
deriving DecidableEq, Repr

def TextFault.kind : TextFault → String
  | .halves .. => "UnicodeEncodeError"
  | .refused cause => cause.kind

def TextFault.message : TextFault → String
  | .halves unit first last =>
    let place :=
      if first = last then
        "character '\\u" ++ String.ofList (Text.hexDigits 4 unit.toNat) ++ s!"' in position {first}"
      else s!"characters in position {first}-{last}"
    s!"'utf-8' codec can't encode {place}: surrogates not allowed"
  | .refused cause => s!"[Errno {cause.wording.1}] {cause.wording.2}"

-- ---------------------------------------------------------------------------
-- Documents that cannot be read
-- ---------------------------------------------------------------------------

/-- What a reader that goes too deep is reading. -/
inductive Nest where
  | list
  | table
deriving DecidableEq, Repr

def Nest.message : Nest → String
  | .list => "maximum recursion depth exceeded while decoding a JSON array from a unicode string"
  | .table => "maximum recursion depth exceeded while decoding a JSON object from a unicode string"

-- ---------------------------------------------------------------------------
-- Libraries that are not there
-- ---------------------------------------------------------------------------

/-- What is reported where the imaging library is missing. -/
def missingImaging : String :=
  "import of PIL halted; None in sys.modules"

-- ---------------------------------------------------------------------------
-- All of them
-- ---------------------------------------------------------------------------

inductive Fault where
  | parse (failure : ParseFailure)
  /-- A line was asked of a node that has no position. -/
  | missingPosition
  | number (fault : NumberFault)
  /-- The document nests deeper than the reader goes. -/
  | nesting (nest : Nest)
  | edit (fault : EditFault)
  /-- A setting has a shape that cannot be looked into or added to. -/
  | wrongShape
  /-- A setting has a type that the operation does not take. -/
  | wrongType
  /-- A table row is shorter than the head of the table. -/
  | shortRow
  | disk (fault : DiskFault)
  /-- The path that a path stands for is asked for, and links on the way lead in a circle. -/
  | linkCircle (path : String)
  /-- A text could not be printed, or not be used as a path. -/
  | text (fault : TextFault)
  /-- No imaging library is installed. -/
  | imagingMissing
deriving DecidableEq, Repr

namespace Fault

def message : Fault → String
  | .parse failure => failure.message
  | .missingPosition => "a syntax node has no position"
  | .number fault => fault.message
  | .nesting nest => nest.message
  | .edit fault => fault.message
  | .wrongShape => "a setting has the wrong shape"
  | .wrongType => "a setting has the wrong type"
  | .shortRow => "a table row is too short"
  | .disk fault => fault.message
  | .linkCircle path => s!"Symlink loop from {Text.quoted path}"
  | .text fault => fault.message
  | .imagingMissing => missingImaging

end Fault

end FlakeLint
