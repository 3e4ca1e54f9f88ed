import Classpath.Command
import Classpath.Text.Segments

namespace Classpath.Command

/-! # Command lines

Arguments are read from left to right. An argument is an option if it starts with a minus sign and
has more than that; after a bare `--` no argument is one.

1. **Values**: an option takes its value from the same argument or from the next one, unless that is
   an option itself. A value is only looked at when the next option or value is taken up or when the
   arguments end, so an unknown option is noticed before a bad value that stands before it.
2. **Repetition**: nothing can be given twice.
3. **Levels**: the program and each command have options of their own; help, verbose and quiet are
   in both. -/

/-- Why arguments name no command to run. -/
inductive Usage where
  | help
  | version
  /-- There is neither a command nor an option. -/
  | nothingGiven
  | missingCommand
  | unknownCommand
  | missingArgument
  | unknownArgument
  | badValue
  | unexpectedValue
  | conflict
deriving Repr, DecidableEq

/-- Asking for help or for the version is no error. -/
def Usage.exitStatus : Usage → Nat
  | .help | .version => 0
  | _ => 2

/-! ## Parameters -/

inductive Parameter where
  | help
  | version
  | verbose
  | quiet
  | output
  | strict
  | format
  | expected
  | plan
  | model
  | key
deriving Repr, DecidableEq

namespace Parameter

/-- The long form of an option. -/
def long : Parameter → Option String
  | .help => some "help"
  | .version => some "version"
  | .verbose => some "verbose"
  | .quiet => some "quiet"
  | .output => some "output"
  | .strict => some "strict"
  | .format => some "format"
  | .expected => some "expected"
  | .plan | .model | .key => none

/-- The short form of an option. -/
def short : Parameter → Option Char
  | .help => some 'h'
  | .version => some 'V'
  | .verbose => some 'v'
  | .quiet => some 'q'
  | .output => some 'o'
  | _ => none

def takesValue : Parameter → Bool
  | .help | .version | .verbose | .quiet | .strict => false
  | _ => true

end Parameter

def OutputFormat.named? (name : String) : Option OutputFormat :=
  if name = "text" then some .text else if name = "json" then some .json else none

/-- Whether a parameter can have a value: paths are not empty, and formats are known. -/
def Parameter.accepts : Parameter → String → Bool
  | .plan, value | .model, value | .output, value => value ≠ ""
  | .format, value => (OutputFormat.named? value).isSome
  | _, _ => true

/-! ## Arguments -/

/-- The forms of an argument. -/
inductive Argument where
  /-- Two minus signs alone. -/
  | terminator
  | long (name : String) (value : Option String)
  | short (letters : List Char)
  | plain (value : String)
deriving Repr, DecidableEq

/-- Cuts a text at its first equals sign. -/
def splitValue : List Char → List Char × Option (List Char)
  | [] => ([], none)
  | '=' :: cs => ([], some cs)
  | c :: cs =>
    let (name, value) := splitValue cs
    (c :: name, value)

def Argument.ofString (s : String) : Argument :=
  match s.toList with
  | ['-', '-'] => .terminator
  | '-' :: '-' :: cs =>
    let (name, value) := splitValue cs
    .long (String.ofList name) (value.map String.ofList)
  | '-' :: c :: cs => .short (c :: cs)
  | _ => .plain s

/-! ## Reading -/

/-- What the arguments of a level have given so far. -/
structure Reading where
  options : List Parameter
  /-- The parameters that plain arguments are for, in order. -/
  places : List Parameter
  given : List (Parameter × String)
  /-- The parameter whose value is not looked at yet, or still to come. -/
  pending : Option (Parameter × Option String)
deriving Repr, DecidableEq

namespace Reading

def value? (r : Reading) (p : Parameter) : Option String :=
  (r.given.find? (·.1 = p)).map Prod.snd

def has (r : Reading) (p : Parameter) : Bool :=
  (r.value? p).isSome

/-- Takes down a parameter with its value; a flag has the empty value. -/
def record (r : Reading) (p : Parameter) (value : String) : Except Usage Reading :=
  if r.has p then .error .conflict
  else if p.accepts value then .ok { r with given := r.given ++ [(p, value)] }
  else .error .badValue

/-- Looks at the value that is pending. -/
def settle (r : Reading) : Except Usage Reading :=
  match r.pending with
  | none => .ok r
  | some (_, none) => .error .badValue
  | some (p, some value) => { r with pending := none }.record p value

/-- Takes up an option that has no value. -/
def takeFlag (r : Reading) (p : Parameter) : Except Usage Reading := do
  let r ← r.settle
  match p with
  | .help => .error .help
  | .version => .error .version
  | p => r.record p ""

/-- Takes up an option that has a value, from the same argument if it is there. -/
def takeOption (r : Reading) (p : Parameter) (value : Option String) : Except Usage Reading := do
  let r ← r.settle
  match value with
  | some value => r.record p value
  | none => .ok { r with pending := some (p, none) }

def takeLong (r : Reading) (name : String) (value : Option String) : Except Usage Reading :=
  match r.options.find? (·.long = some name) with
  | none => .error .unknownArgument
  | some p =>
    if p.takesValue then r.takeOption p value
    else if value.isSome then .error .unexpectedValue
    else r.takeFlag p

/-- The value that stands directly behind a short option. -/
def attachedValue : List Char → Option String
  | [] => none
  | '=' :: cs => some (String.ofList cs)
  | cs => some (String.ofList cs)

/-- Takes up short options, the last of which may have a value. -/
def takeShort (r : Reading) : List Char → Except Usage Reading
  | [] => .ok r
  | c :: cs =>
    match r.options.find? (·.short = some c) with
    | none => .error .unknownArgument
    | some p =>
      if p.takesValue then r.takeOption p (attachedValue cs)
      else
        match r.takeFlag p with
        | .error usage => .error usage
        | .ok next => next.takeShort cs

/-- Puts a plain argument in the next place. -/
def takePlace (r : Reading) (value : String) : Except Usage Reading :=
  match r.places with
  | [] => .error .unknownArgument
  | p :: places =>
    r.settle.map fun r => { r with places := places, pending := some (p, some value) }

/-- Takes up a plain argument: the value that an option waits for, or one in its place. -/
def takePlain (r : Reading) (value : String) : Except Usage Reading :=
  match r.pending with
  | some (p, none) => .ok { r with pending := some (p, some value) }
  | _ => r.takePlace value

/-- Puts all arguments in their places, whatever they look like. -/
def takePlaces (r : Reading) : List String → Except Usage Reading
  | [] => .ok r
  | s :: rest =>
    match r.takePlace s with
    | .error usage => .error usage
    | .ok next => next.takePlaces rest

/-- Takes up all arguments of a command. -/
def takeAll (r : Reading) : List String → Except Usage Reading
  | [] => .ok r
  | s :: rest =>
    match Argument.ofString s with
    | .terminator => r.takePlaces rest
    | .long name value =>
      match r.takeLong name value with
      | .error usage => .error usage
      | .ok next => next.takeAll rest
    | .short letters =>
      match r.takeShort letters with
      | .error usage => .error usage
      | .ok next => next.takeAll rest
    | .plain value =>
      match r.takePlain value with
      | .error usage => .error usage
      | .ok next => next.takeAll rest

/-- Verbose and quiet exclude each other. -/
def checkConflicts (r : Reading) : Except Usage Unit :=
  if r.has .verbose ∧ r.has .quiet then .error .conflict else .ok ()

/-- The value of a parameter that has to be there. -/
def need (r : Reading) (p : Parameter) : Except Usage String :=
  match r.value? p with
  | some value => .ok value
  | none => .error .missingArgument

end Reading

/-! ## Commands by name -/

inductive Name where
  | assemble
  | inspect
  | classify
  | verify
deriving Repr, DecidableEq

namespace Name

def ofString? (s : String) : Option Name :=
  if s = "assemble" then some .assemble
  else if s = "inspect" then some .inspect
  else if s = "classify" then some .classify
  else if s = "verify" then some .verify
  else none

def options : Name → List Parameter
  | .assemble => [.output, .strict, .verbose, .quiet, .help]
  | .inspect => [.format, .verbose, .quiet, .help]
  | .classify => [.verbose, .quiet, .help]
  | .verify => [.expected, .verbose, .quiet, .help]

def places : Name → List Parameter
  | .assemble => [.plan]
  | .inspect => [.model]
  | .classify => [.model, .key]
  | .verify => [.model]

/-- The command with the values that were given for it. -/
def command (name : Name) (r : Reading) : Except Usage Command := do
  match name with
  | .assemble => return .assemble (← r.need .plan) (r.value? .output) (r.has .strict)
  | .inspect =>
    let format := (r.value? .format).bind OutputFormat.named?
    return .inspect (← r.need .model) (format.getD .text)
  | .classify => return .classify (← r.need .model) (← r.need .key)
  | .verify => return .verify (← r.need .model) (r.value? .expected)

end Name

/-! ## Whole lines -/

/-- How much is logged. -/
inductive Verbosity where
  | verbose
  | normal
  | quiet
deriving Repr, DecidableEq

structure Line where
  command : Command
  verbosity : Verbosity
deriving Repr, DecidableEq

/-- The verbosity that the options of both levels ask for. -/
def verbosityOf (program command : Reading) : Verbosity :=
  if program.has .verbose ∨ command.has .verbose then .verbose
  else if program.has .quiet ∨ command.has .quiet then .quiet
  else .normal

/-- The answer to a call for help: there is some on the program, on each command and on help. -/
def helpOn : List String → Usage
  | [] => .help
  | [s] => if (Name.ofString? s).isSome ∨ s = "help" then .help else .unknownCommand
  | _ => .unknownCommand

/-- The line of a command, where the options of the program are read already. -/
def ofCommand (program : Reading) (name : Name) (arguments : List String) :
    Except Usage Line := do
  let start : Reading := ⟨name.options, name.places, [], none⟩
  let r ← start.takeAll arguments
  let r ← r.settle
  r.checkConflicts
  let command ← name.command r
  program.checkConflicts
  return ⟨command, verbosityOf program r⟩

/-- What is wrong with arguments that end before any command. -/
def withoutCommand (program : Reading) : Usage :=
  if program.given.isEmpty then .nothingGiven else .missingCommand

/-- Reads the options of the program, up to the name of a command. -/
def read (program : Reading) : List String → Except Usage Line
  | [] => .error (withoutCommand program)
  | s :: rest =>
    match Argument.ofString s with
    | .terminator =>
      match rest with
      | [] => .error (withoutCommand program)
      | s :: _ =>
        if (Name.ofString? s).isSome ∨ s = "help" then .error .unknownArgument
        else .error .unknownCommand
    | .long name value =>
      match program.takeLong name value with
      | .error usage => .error usage
      | .ok next => read next rest
    | .short letters =>
      match program.takeShort letters with
      | .error usage => .error usage
      | .ok next => read next rest
    | .plain value =>
      match Name.ofString? value with
      | some name => ofCommand program name rest
      | none => if value = "help" then .error (helpOn rest) else .error .unknownCommand

/-- The command that the arguments of the program ask for. -/
def Line.ofArguments (arguments : List String) : Except Usage Line :=
  read ⟨[.verbose, .quiet, .help, .version], [], [], none⟩ arguments

end Classpath.Command
