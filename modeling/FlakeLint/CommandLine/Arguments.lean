-- SUMMARY: Sorting command line arguments into options and positional values.
import FlakeLint.Text.Digits
import FlakeLint.Text.Words

/-!
# Arguments

A grammar lists options and positional values with the number of arguments each
takes. Options may be shortened as long as they stay unambiguous, and take a
value behind `=`. Behind `--` everything is a value. What fits nowhere is kept
apart.
-/

namespace FlakeLint

/-- How many arguments an option or a positional value takes. -/
inductive Arity where
  | none
  | one
  | optional
  /-- At least one. -/
  | many
  /-- One, and everything behind it, options included. -/
  | rest
deriving DecidableEq, Repr

/-- Why arguments are not processed to the end. -/
inductive Halt where
  | help
  | misuse
deriving DecidableEq, Repr

structure Grammar where
  options : List (String × Arity)
  positionals : List Arity

namespace Grammar

/-- Options for help, which every grammar has. -/
def helpNames : List String := ["-h", "--help"]

def names (grammar : Grammar) : List String :=
  helpNames ++ grammar.options.map Prod.fst

def arityOf (grammar : Grammar) (name : String) : Arity :=
  (grammar.options.lookup name).getD .none

end Grammar

/-! ## Recognising options -/

/-- What an argument is taken for. -/
inductive Mark where
  | word
  /-- The argument `--`. -/
  | divider
  /-- An option with the value that is attached to it, if any. -/
  | known (name : String) (attached : Option String)
  /-- A request for help with letters directly behind it. -/
  | helpWith (letters : List Char)
  | unknown
deriving DecidableEq, Repr

namespace Mark

def isOption : Mark → Bool
  | .known _ _ | .helpWith _ | .unknown => true
  | .word | .divider => false

end Mark

/-- What stands before and behind the first `=`. -/
def splitAtEquals (cs : List Char) : Option (String × String) :=
  match cs.dropWhile (· != '=') with
  | [] => none
  | _ :: value => some (String.ofList (cs.takeWhile (· != '=')), String.ofList value)

/-- Digits, the last of which may be followed by a line break. -/
def isDigits (cs : List Char) : Bool :=
  let rest := cs.dropWhile fun c => (Text.decimalDigit? c).isSome
  rest.length < cs.length && Text.atEnd rest

/-- Is an argument behind its first dash a number, so that it is no option? -/
def isNegativeNumber (cs : List Char) : Bool :=
  isDigits cs ||
  match cs.dropWhile fun c => (Text.decimalDigit? c).isSome with
  | '.' :: fraction => isDigits fraction
  | _ => false

/-- The options that an argument may be short for: a long one, shortened at its end, or help with more
behind it. -/
def candidates (grammar : Grammar) (argument : String) : List Mark :=
  match argument.toList with
  | '-' :: '-' :: _ =>
    let (start, attached) := match splitAtEquals argument.toList with
      | some (start, value) => (start, some value)
      | none => (argument, none)
    (grammar.names.filter fun name => Text.startsWith name start).map fun name =>
      .known name attached
  | '-' :: 'h' :: letters => [.helpWith letters]
  | _ => []

/-- Takes an argument for an option or a word. -/
def recognise (grammar : Grammar) (argument : String) : Except Halt Mark :=
  match argument.toList with
  | '-' :: behind =>
    if grammar.names.contains argument then .ok (.known argument none)
    else if behind.isEmpty then .ok .word
    else
      let spelled := (splitAtEquals argument.toList).filter fun split =>
        grammar.names.contains split.1
      match spelled with
      | some (name, value) => .ok (.known name (some value))
      | none =>
        match candidates grammar argument with
        | [mark] => .ok mark
        | _ :: _ => .error .misuse
        | [] => .ok (if isNegativeNumber behind || behind.contains ' ' then .word else .unknown)
  | _ => .ok .word

/-- Marks all arguments. -/
def markAll (grammar : Grammar) : List String → Except Halt (List (String × Mark))
  | [] => .ok []
  | "--" :: rest => .ok (("--", .divider) :: rest.map fun argument => (argument, .word))
  | argument :: rest => do
    let mark ← recognise grammar argument
    return (argument, mark) :: (← markAll grammar rest)

/-! ## Taking arguments -/

/-- How many of the next arguments an option takes; none if there are too few. -/
def optionCount (marks : List Mark) : Arity → Option Nat
  | .none => some 0
  | .one => if marks.head? = some .word then some 1 else none
  | .optional => if marks.head? = some .word then some 1 else some 0
  | .many | .rest =>
    let words := (marks.takeWhile (· = .word)).length
    if words = 0 then none else some words

/-- How many of the next arguments a positional value takes, dividers around it included. -/
def positionalCount (marks : List Mark) (arity : Arity) : Option Nat :=
  let before := (marks.takeWhile (· = .divider)).length
  let here := marks.drop before
  let behind := ((here.drop 1).takeWhile (· = .divider)).length
  match arity, here.head? with
  | .one, some .word | .optional, some .word => some (before + 1 + behind)
  | .many, some .word =>
    some (before + (here.takeWhile fun mark => !mark.isOption).length)
  | .rest, some .word => some marks.length
  | .optional, _ | .none, _ => some before
  | _, _ => none

/-- What the arguments come to. -/
structure Arguments where
  /-- Options with their values, in order. -/
  options : List (String × List String)
  /-- The values of the positionals, as far as they were given. -/
  positionals : List (List String)
  /-- Arguments that fit nowhere. -/
  extras : List String
deriving Repr

namespace Arguments

def empty : Arguments := ⟨[], [], []⟩

/-- The values of the last occurrence of an option. -/
def option? (arguments : Arguments) (name : String) : Option (List String) :=
  (arguments.options.reverse.find? fun entry => entry.1 = name).map Prod.snd

def isSet (arguments : Arguments) (name : String) : Bool :=
  (arguments.option? name).isSome

end Arguments

/-- The values of a positional: a divider among its arguments is no value, unless it takes all. -/
def valuesOf (arity : Arity) (arguments : List String) : List String :=
  if arity = .rest then arguments else arguments.erase "--"

/-- Fills as many positionals as the next arguments suffice for. -/
def takePositionals : List Arity → List (String × Mark) →
    List (List String) × List Arity × List (String × Mark)
  | [], marked => ([], [], marked)
  | arity :: arities, marked =>
    match positionalCount (marked.map Prod.snd) arity with
    | none => ([], arity :: arities, marked)
    | some count =>
      let values := valuesOf arity ((marked.take count).map Prod.fst)
      let (more, left, rest) := takePositionals arities (marked.drop count)
      (values :: more, left, rest)

/-- What a request for help with letters behind it comes to. More requests for help and an option that
does not exist are passed over; a dash or a value is misuse. -/
def haltOfHelp (letters : List Char) : Halt :=
  match letters.dropWhile (· == 'h') with
  | '-' :: _ | '=' :: _ => .misuse
  | _ => .help

/-- Takes an option and returns its values and how many further arguments it uses up. Help stops
everything and takes no value. -/
def takeOption (grammar : Grammar) (name : String) (attached : Option String)
    (rest : List Mark) : Except Halt (List String × Nat) :=
  if Grammar.helpNames.contains name then
    .error (if attached = none then .help else .misuse)
  else match attached, grammar.arityOf name with
    | some _, .none => .error .misuse
    | some value, _ => .ok ([value], 0)
    | none, arity =>
      match optionCount rest arity with
      | some count => .ok ([], count)
      | none => .error .misuse

/-- Goes through the arguments: positionals are filled where words stand, options where they do. A
divider is never a value of an option. Each step uses up an argument, so `fuel` may be their number. -/
def process (grammar : Grammar) (fuel : Nat) (left : List Arity) (done : Arguments)
    (marked : List (String × Mark)) : Except Halt Arguments :=
  match fuel, marked with
  | 0, _ | _, [] =>
    let (values, _, rest) := takePositionals left marked
    .ok { done with
      positionals := done.positionals ++ values
      extras := done.extras ++ rest.map Prod.fst }
  | fuel + 1, (argument, mark) :: rest =>
    match mark with
    | .unknown => process grammar fuel left { done with extras := done.extras ++ [argument] } rest
    | .helpWith letters => .error (haltOfHelp letters)
    | .known name attached => do
      let (values, count) ← takeOption grammar name attached (rest.map Prod.snd)
      let values := (values ++ (rest.take count).map Prod.fst).erase "--"
      process grammar fuel left { done with options := done.options ++ [(name, values)] }
        (rest.drop count)
    | .word | .divider =>
      let (values, left, behind) := takePositionals left marked
      let done := { done with positionals := done.positionals ++ values }
      if behind.length < marked.length then process grammar fuel left done behind
      else process grammar fuel left { done with extras := done.extras ++ [argument] } rest

/-- Sorts arguments by a grammar. -/
def Arguments.ofList (grammar : Grammar) (arguments : List String) : Except Halt Arguments := do
  let marked ← markAll grammar arguments
  process grammar marked.length grammar.positionals .empty marked

end FlakeLint
