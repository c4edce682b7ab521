import ClassTable.Offset
import ClassTable.Text.Terminal

/-!
The arguments of the program. A command has options of its own beside those that every command has.
The value of an option is checked when the next option is met, or at the end; of an argument that
nobody knows and a bad value before it, the argument is refused.
-/

namespace ClassTable.CommandLine

inductive Switch where
  | input
  | annotationBase
  | json
  | verbose
  | help
  | version
  deriving DecidableEq, Repr

namespace Switch

def long : Switch → String
  | input => "input"
  | annotationBase => "annotation-base"
  | json => "json"
  | verbose => "verbose"
  | help => "help"
  | version => "version"

def short? : Switch → Option Char
  | verbose => some 'v'
  | help => some 'h'
  | version => some 'V'
  | _ => none

def valueName? : Switch → Option String
  | input => some "INPUT"
  | annotationBase => some "ANNOTATION_BASE"
  | _ => none

def isCounted (switch : Switch) : Bool :=
  switch = verbose

def render (switch : Switch) : String :=
  "--" ++ switch.long ++
    (match switch.valueName? with
    | none => if switch.isCounted then "..." else ""
    | some name => " <" ++ name ++ ">")

end Switch

inductive Verb where
  | info
  | show
  | layout
  | help
  deriving DecidableEq, Repr

namespace Verb

def name : Verb → String
  | info => "info"
  | «show» => "show"
  | layout => "layout"
  | help => "help"

def all : List Verb := [info, «show», layout, help]

def ofName? (name : String) : Option Verb :=
  all.find? fun verb => verb.name == name

end Verb

inductive Level where
  | top
  | behind (verb : Verb)
  deriving DecidableEq, Repr

def Level.switches : Level → List Switch
  | top => [.verbose, .help, .version]
  | behind .show => [.input, .json, .verbose, .help]
  | behind .layout => [.input, .annotationBase, .json, .verbose, .help]
  | behind _ => [.verbose, .help]

def Level.verb? (level : Level) (argument : String) : Option Verb :=
  if level = .top then Verb.ofName? argument else none

inductive UsageError where
  | unexpectedArgument (argument : String)
  | unrecognizedCommand (argument : String)
  | missingValue (switch : Switch)
  | unneededValue (switch : Switch) (value : String)
  | repeated (switch : Switch)
  | invalidValue (switch : Switch) (value : String) (error : OffsetError)
  | missingRequired (switch : Switch)
  deriving DecidableEq, Repr

def quoted (text : String) : String :=
  "'" ++ Text.emphasised text ++ "'"

/-- The wording of a refusal for a terminal. What is quoted from the arguments stands out, but not
the wording of a bad offset. -/
def UsageError.message : UsageError → String
  | unexpectedArgument argument => "unexpected argument " ++ quoted argument ++ " found"
  | unrecognizedCommand argument => "unrecognized subcommand " ++ quoted argument
  | missingValue switch =>
    "a value is required for " ++ quoted switch.render ++ " but none was supplied"
  | unneededValue switch value =>
    "unexpected value " ++ quoted value ++ " for " ++ quoted switch.render ++
      " found; no more were expected"
  | repeated switch =>
    "the argument " ++ quoted switch.render ++ " cannot be used multiple times"
  | invalidValue switch value error =>
    "invalid value " ++ quoted value ++ " for " ++ quoted switch.render ++ ": " ++ error.message
  | missingRequired switch =>
    "the following required arguments were not provided:\n  " ++ Text.emphasised switch.render

def UsageError.complaint (error : UsageError) : String :=
  Text.plain (Text.emphasised "error:" ++ " " ++ error.message ++
    "\n\nFor more information, try " ++ quoted ("--" ++ Switch.help.long) ++ ".\n")

inductive Stop where
  | refused (error : UsageError)
  | help (level : Level)
  | version
  deriving DecidableEq, Repr

structure Given where
  input : Option String := none
  base : Option UInt32 := none
  json : Bool := false
  verbosity : Nat := 0
  deriving DecidableEq, Repr

/-- The state of reading: the options given, the option whose value is not checked yet with that
value, and whether only plain arguments may follow. -/
structure Reading where
  given : Given := {}
  pending : Option (Switch × Option String) := none
  plainOnly : Bool := false
  deriving DecidableEq, Repr

namespace Reading

def give (reading : Reading) (switch : Switch) (value : String) : Except Stop Reading :=
  match switch with
  | .input =>
    if reading.given.input.isSome then .error (.refused (.repeated switch))
    else .ok { reading with given.input := some value }
  | .annotationBase =>
    if reading.given.base.isSome then .error (.refused (.repeated switch))
    else
      match parseBase value with
      | .error error => .error (.refused (.invalidValue switch value error))
      | .ok base => .ok { reading with given.base := some base }
  | _ => .error (.refused (.unneededValue switch value))

def settle (reading : Reading) : Except Stop Reading :=
  match reading.pending with
  | none => .ok reading
  | some (switch, none) => .error (.refused (.missingValue switch))
  | some (switch, some value) => { reading with pending := none }.give switch value

def flag (level : Level) (reading : Reading) (switch : Switch) : Except Stop Reading := do
  let reading ← reading.settle
  match switch with
  | .json =>
    if reading.given.json then .error (.refused (.repeated .json))
    else .ok { reading with given.json := true }
  | .verbose => .ok { reading with given.verbosity := reading.given.verbosity + 1 }
  | .help => .error (.help level)
  | .version => .error .version
  | .input | .annotationBase => .error (.refused (.missingValue switch))

def longSwitch (level : Level) (reading : Reading) (name : String) (attached : Option String) :
    Except Stop Reading :=
  match level.switches.find? fun switch => switch.long == name with
  | none => .error (.refused (.unexpectedArgument ("--" ++ name)))
  | some switch =>
    match switch.valueName?, attached with
    | some _, some value => do (← reading.settle).give switch value
    | some _, none => do
      let reading ← reading.settle
      .ok { reading with pending := some (switch, none) }
    | none, some value => .error (.refused (.unneededValue switch value))
    | none, none => reading.flag level switch

def shortSwitches (level : Level) (reading : Reading) : List Char → Except Stop Reading
  | [] => .ok reading
  | letter :: rest =>
    match level.switches.find? fun switch => switch.short? == some letter with
    | none => .error (.refused (.unexpectedArgument (String.ofList ['-', letter])))
    | some switch => do (← reading.flag level switch).shortSwitches level rest

def refusePlain (level : Level) (reading : Reading) (argument : String) : Stop :=
  if level = .top && !(reading.plainOnly && (level.verb? argument).isSome) then
    .refused (.unrecognizedCommand argument)
  else .refused (.unexpectedArgument argument)

def step (level : Level) (reading : Reading) (argument : String) : Except Stop Reading :=
  if reading.plainOnly then .error (reading.refusePlain level argument)
  else
    match argument.toList with
    | ['-', '-'] => .ok { reading with plainOnly := true }
    | '-' :: '-' :: body =>
      let name := body.takeWhile (· != '=')
      let attached := (body.dropWhile (· != '=')).tail?.map String.ofList
      reading.longSwitch level (String.ofList name) attached
    | '-' :: letter :: rest => reading.shortSwitches level (letter :: rest)
    | _ =>
      match reading.pending with
      | some (switch, none) => .ok { reading with pending := some (switch, some argument) }
      | _ => .error (reading.refusePlain level argument)

end Reading

def readLevel (level : Level) (reading : Reading) :
    List String → Except Stop (Given × Option (Verb × List String))
  | [] => do return ((← reading.settle).given, none)
  | argument :: rest =>
    match if reading.plainOnly then none else level.verb? argument with
    | some verb => .ok (reading.given, some (verb, rest))
    | none => do readLevel level (← reading.step level argument) rest

inductive Command where
  | info
  | show (input : String) (json : Bool)
  | layout (input : String) (base : UInt32) (json : Bool)
  deriving DecidableEq, Repr

def Command.input? : Command → Option String
  | info => none
  | «show» input _ => some input
  | layout input _ _ => some input

structure Invocation where
  command : Command := .info
  verbosity : Nat := 0
  deriving DecidableEq, Repr

def defaultBase : UInt32 := 0x70

def helpStop : List String → Stop
  | [] => .help .top
  | name :: rest =>
    match Verb.ofName? name, rest with
    | none, _ => .refused (.unrecognizedCommand name)
    | some verb, [] => .help (.behind verb)
    | some _, extra :: _ => .refused (.unrecognizedCommand extra)

def commandOf (verb : Verb) (given : Given) : Except Stop Command :=
  match verb, given.input with
  | .info, _ | .help, _ => .ok .info
  | .show, some input => .ok (.show input given.json)
  | .layout, some input => .ok (.layout input (given.base.getD defaultBase) given.json)
  | _, none => .error (.refused (.missingRequired .input))

/-- What the arguments ask for. The verbosity given behind a command counts before the one given in
front of it. -/
def readArguments (arguments : List String) : Except Stop Invocation := do
  let (outer, next) ← readLevel .top {} arguments
  match next with
  | none => return { verbosity := outer.verbosity }
  | some (.help, rest) => throw (helpStop rest)
  | some (verb, rest) =>
    let (inner, _) ← readLevel (.behind verb) {} rest
    let command ← commandOf verb inner
    let verbosity := if inner.verbosity = 0 then outer.verbosity else inner.verbosity
    return { command, verbosity }

end ClassTable.CommandLine
