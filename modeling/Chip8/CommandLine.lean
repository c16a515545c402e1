import Chip8.Session

set_option autoImplicit false

/-! The arguments of the command line. They are read from left to right, and the
first thing that is wrong ends the reading; a request for the version or for
help ends it as well, if nothing was wrong before it. -/

namespace Chip8

structure Options where
  program : String
  hertz : Nat
  logFile : String
  listing : Bool
  deriving DecidableEq, Repr

inductive UsageError where
  | unknownArgument (argument : String)
  | repeatedOption (name : String)
  | missingValue (name : String)
  | unexpectedValue (name : String)
  | invalidNumber (name value : String)
  | missingProgram
  deriving DecidableEq, Repr

inductive CommandRequest where
  | start (options : Options)
  | version
  | help
  deriving DecidableEq, Repr

structure PartialOptions where
  program : Option String
  hertz : Option Nat
  logFile : Option String
  listing : Bool
  deriving DecidableEq, Repr

def defaultLogFile : String := "chip8.log"

def hertzBound : Nat := 18446744073709551616

namespace UsageError

def message : UsageError → String
  | unknownArgument argument => "unexpected argument '" ++ argument ++ "' found"
  | repeatedOption name => "the argument '" ++ name ++ "' cannot be used multiple times"
  | missingValue name => "a value is required for '" ++ name ++ "' but none was supplied"
  | unexpectedValue name => "unexpected value for '" ++ name ++ "' found"
  | invalidNumber name value => "invalid value '" ++ value ++ "' for '" ++ name ++ "'"
  | missingProgram => "the following required arguments were not provided: <ROM>"

end UsageError

/-- A number in decimal digits, perhaps after a plus sign. -/
def decimalNumber? (text : List Char) : Option Nat :=
  let digits := match text with
    | '+' :: rest => rest
    | other => other
  if digits.isEmpty then none
  else if digits.all Char.isDigit then some (Nat.ofDigitChars 10 digits 0)
  else none

namespace PartialOptions

def empty : PartialOptions := ⟨none, none, none, false⟩

def addProgram (options : PartialOptions) (argument : String) : Except UsageError PartialOptions :=
  match options.program with
  | some _ => .error (.unknownArgument argument)
  | none =>
      if argument.isEmpty then .error (.missingValue "<ROM>")
      else .ok { options with program := some argument }

def addHertz (options : PartialOptions) (value : String) : Except UsageError PartialOptions :=
  match options.hertz with
  | some _ => .error (.repeatedOption "--hertz")
  | none =>
      match decimalNumber? value.toList with
      | none => .error (.invalidNumber "--hertz" value)
      | some hertz =>
          if hertz < hertzBound then .ok { options with hertz := some hertz }
          else .error (.invalidNumber "--hertz" value)

def addLogFile (options : PartialOptions) (value : String) : Except UsageError PartialOptions :=
  match options.logFile with
  | some _ => .error (.repeatedOption "--log")
  | none =>
      if value.isEmpty then .error (.missingValue "--log")
      else .ok { options with logFile := some value }

def addListing (options : PartialOptions) : Except UsageError PartialOptions :=
  if options.listing then .error (.repeatedOption "--disassemble")
  else .ok { options with listing := true }

def finish (options : PartialOptions) : Except UsageError CommandRequest :=
  match options.program with
  | none => .error .missingProgram
  | some program =>
      .ok (.start
        { program := program
          hertz := options.hertz.getD defaultHertz
          logFile := options.logFile.getD defaultLogFile
          listing := options.listing })

end PartialOptions

inductive ArgumentForm where
  /-- Two dashes alone: nothing after them is an option. -/
  | endOfOptions
  | long (name : List Char) (value : Option (List Char))
  | short (letter : Char)
  | plain
  deriving DecidableEq, Repr

/-- A name before the first equals sign, and the value after it. -/
def splitAtEquals : List Char → List Char × Option (List Char)
  | [] => ([], none)
  | '=' :: value => ([], some value)
  | letter :: rest =>
      let later := splitAtEquals rest
      (letter :: later.1, later.2)

def argumentForm (argument : String) : ArgumentForm :=
  match argument.toList with
  | ['-', '-'] => .endOfOptions
  | '-' :: '-' :: text =>
      let parts := splitAtEquals text
      .long parts.1 parts.2
  | '-' :: letter :: _ => .short letter
  | _ => .plain

inductive ValueOption where
  | hertz
  | logFile
  deriving DecidableEq, Repr

def ValueOption.name : ValueOption → String
  | hertz => "--hertz"
  | logFile => "--log"

def PartialOptions.addValue (options : PartialOptions) (option : ValueOption) (value : String) :
    Except UsageError PartialOptions :=
  match option with
  | .hertz => options.addHertz value
  | .logFile => options.addLogFile value

inductive ArgumentStep where
  | taken (options : PartialOptions)
  | valueNext (option : ValueOption)
  | plainNext
  | answer (request : CommandRequest)
  | refused (error : UsageError)

def ArgumentStep.ofResult : Except UsageError PartialOptions → ArgumentStep
  | .ok options => .taken options
  | .error error => .refused error

def readValueOption (options : PartialOptions) (option : ValueOption) :
    Option (List Char) → ArgumentStep
  | none => .valueNext option
  | some value => .ofResult (options.addValue option (String.ofList value))

def readSwitch (name : String) (value : Option (List Char)) (step : ArgumentStep) : ArgumentStep :=
  match value with
  | none => step
  | some _ => .refused (.unexpectedValue name)

def readLong (options : PartialOptions) (argument : String) (name : List Char)
    (value : Option (List Char)) : ArgumentStep :=
  match String.ofList name with
  | "hertz" => readValueOption options .hertz value
  | "log" => readValueOption options .logFile value
  | "disassemble" => readSwitch "--disassemble" value (.ofResult options.addListing)
  | "version" => readSwitch "--version" value (.answer .version)
  | "help" => readSwitch "--help" value (.answer .help)
  | _ => .refused (.unknownArgument argument)

def readShort (argument : String) : Char → ArgumentStep
  | 'V' => .answer .version
  | 'h' => .answer .help
  | _ => .refused (.unknownArgument argument)

def readArgument (options : PartialOptions) (argument : String) : ArgumentStep :=
  match argumentForm argument with
  | .endOfOptions => .plainNext
  | .long name value => readLong options argument name value
  | .short letter => readShort argument letter
  | .plain => .ofResult (options.addProgram argument)

def readPlain (options : PartialOptions) : List String → Except UsageError CommandRequest
  | [] => options.finish
  | argument :: rest =>
      match options.addProgram argument with
      | .error error => .error error
      | .ok added => readPlain added rest

/-- Reads arguments; an option that still waits for its value gets the next
argument, unless that looks like an option itself. -/
def readArguments (options : PartialOptions) (waiting : Option ValueOption) :
    List String → Except UsageError CommandRequest
  | [] =>
      match waiting with
      | some option => .error (.missingValue option.name)
      | none => options.finish
  | argument :: rest =>
      match waiting with
      | some option =>
          if argumentForm argument = .plain then
            match options.addValue option argument with
            | .error error => .error error
            | .ok added => readArguments added none rest
          else .error (.missingValue option.name)
      | none =>
          match readArgument options argument with
          | .taken added => readArguments added none rest
          | .valueNext option => readArguments options (some option) rest
          | .plainNext => readPlain options rest
          | .answer request => .ok request
          | .refused error => .error error

def CommandRequest.ofArguments (arguments : List String) : Except UsageError CommandRequest :=
  readArguments .empty none arguments

end Chip8
