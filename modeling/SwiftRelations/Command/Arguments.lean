import SwiftRelations.Text.Blank

/-!
# Command lines

A command line names a command, options and a path. Options may be written long or short; the value
of an option is attached to it or is the next argument, unless that looks like an option. Nothing is
known of an option until the next one begins, so that of two faults the later may be reported.

The commands and their options are those of `Cli`, `Commands`, `ExtractArgs` and `InitArgs`; how
they are read is the documented behaviour of the library clap.
-/

namespace SwiftRelations.Command

/-- The options of commands. -/
inductive Switch where
  | config
  | format
  | output
  | noLocations
  | sequential
  | help
  deriving DecidableEq, Repr, Inhabited

/-- The long form of an option, after its two hyphens. -/
def Switch.long : Switch → String
  | .config => "config"
  | .format => "format"
  | .output => "output"
  | .noLocations => "no-locations"
  | .sequential => "sequential"
  | .help => "help"

/-- The short form of an option, after its hyphen. -/
def Switch.short? : Switch → Option Char
  | .config => some 'c'
  | .format => some 'f'
  | .output => some 'o'
  | .help => some 'h'
  | _ => none

/-- Whether an option has a value. -/
def Switch.takesValue : Switch → Bool
  | .config => true
  | .format => true
  | .output => true
  | _ => false

/-- Whether the value of an option may be empty. Paths may not. -/
def Switch.allowsEmpty (switch : Switch) : Bool := switch = .format

/-- Why a command line is not carried out. -/
inductive Refusal where
  | noCommand
  | help
  | version
  | unknownCommand
  | unknownArgument
  | invalidValue
  | unexpectedValue
  | repeatedOption
  | missingPath
  deriving DecidableEq, Repr, Inhabited

/-- The name of a refusal. -/
def Refusal.word : Refusal → String
  | .noCommand => "DisplayHelpOnMissingArgumentOrSubcommand"
  | .help => "DisplayHelp"
  | .version => "DisplayVersion"
  | .unknownCommand => "InvalidSubcommand"
  | .unknownArgument => "UnknownArgument"
  | .invalidValue => "InvalidValue"
  | .unexpectedValue => "TooManyValues"
  | .repeatedOption => "ArgumentConflict"
  | .missingPath => "MissingRequiredArgument"

/-- The exit code of a refusal. Who asks for help or for the version gets it. -/
def Refusal.exitCode : Refusal → Nat
  | .help => 0
  | .version => 0
  | _ => 2

/-- The argument that was read last, which is not settled yet. -/
inductive Pending where
  | option (switch : Switch) (value : Option String)
  | path (text : String)
  deriving Repr, Inhabited

/-- The arguments of a command. -/
structure Arguments where
  /-- The options that are settled, with their values. -/
  options : List (Switch × Option String) := []
  path : Option String := none
  pending : Option Pending := none
  /-- Whether a path has been read. -/
  hasPath : Bool := false
  /-- Whether options are over. -/
  optionsOver : Bool := false
  deriving Inhabited

namespace Arguments

/-- Whether an option is settled. -/
def has (args : Arguments) (switch : Switch) : Bool := args.options.any (·.1 = switch)

/-- The value of an option. -/
def value? (args : Arguments) (switch : Switch) : Option String :=
  (args.options.lookup switch).join

/-- Settle an option. It may not be settled before. -/
def give (args : Arguments) (switch : Switch) (value : Option String) :
    Except Refusal Arguments :=
  if args.has switch then .error .repeatedOption
  else if value = some "" && !switch.allowsEmpty then .error .invalidValue
  else .ok { args with options := (switch, value) :: args.options }

/-- Settle the argument that was read last. -/
def settle (args : Arguments) : Except Refusal Arguments :=
  let settled := { args with pending := none }
  match args.pending with
  | none => .ok args
  | some (.option _ none) => .error .invalidValue
  | some (.option switch value) => settled.give switch value
  | some (.path text) =>
    if text.isEmpty then .error .invalidValue else .ok { settled with path := some text }

/-- Begin an option, which may have a value attached to it. -/
def begin (args : Arguments) (switch : Switch) (attached : Option String) :
    Except Refusal Arguments := do
  if !switch.takesValue && attached.isSome then throw .unexpectedValue
  let args ← args.settle
  if switch = .help then throw .help
  if switch.takesValue && attached.isNone then
    return { args with pending := some (.option switch none) }
  args.give switch attached

/-- The value of an option that awaits one, or else the path of the command. -/
def addText (args : Arguments) (takesPath : Bool) (text : String) : Except Refusal Arguments :=
  match args.pending, args.optionsOver with
  | some (.option switch none), false =>
    .ok { args with pending := some (.option switch (some text)) }
  | _, _ =>
    if !takesPath || args.hasPath then .error .unknownArgument
    else do
      let args ← args.settle
      return { args with pending := some (.path text), hasPath := true }

end Arguments

/-- The forms in which an argument can be written. -/
inductive Form where
  | endOfOptions
  | long (name : String) (value : Option String)
  /-- The letter of a short option and what follows it. -/
  | short (letter : Char) (rest : List Char)
  | text (text : String)
  deriving Repr, Inhabited

/-- The form of an argument. -/
def Form.ofText (argument : String) : Form :=
  match argument.toList with
  | ['-', '-'] => .endOfOptions
  | '-' :: '-' :: cs =>
    let name := cs.takeWhile (· ≠ '=')
    let value := match cs.dropWhile (· ≠ '=') with
      | [] => none
      | _ :: value => some (String.ofList value)
    .long (String.ofList name) value
  | '-' :: letter :: rest => .short letter rest
  | _ => .text argument

/-- The value attached to a short option, without the sign of equality before it. -/
def attachedValue? : List Char → Option String
  | [] => none
  | '=' :: value => some (String.ofList value)
  | value => some (String.ofList value)

/-- Read an argument of a command that has some options and perhaps a path. -/
def readArgument (switches : List Switch) (takesPath : Bool) (args : Arguments)
    (argument : String) : Except Refusal Arguments :=
  if args.optionsOver then args.addText takesPath argument
  else
    match Form.ofText argument with
    | .endOfOptions => .ok { args with optionsOver := true }
    | .long name value =>
      match switches.find? (·.long = name) with
      | some switch => args.begin switch value
      | none => .error .unknownArgument
    | .short letter rest =>
      match switches.find? (·.short? = some letter) with
      | some switch =>
        args.begin switch (if switch.takesValue then attachedValue? rest else none)
      | none => .error .unknownArgument
    | .text text => args.addText takesPath text

/-- The arguments of a command that has some options and perhaps a path. -/
def readArguments (switches : List Switch) (takesPath : Bool) (arguments : List String) :
    Except Refusal Arguments := do
  let args ← arguments.foldlM (readArgument switches takesPath) {}
  args.settle

/-- What the extraction of files is asked to do. -/
structure ExtractRequest where
  path : String
  config : Option String := none
  format : Option String := none
  output : Option String := none
  noLocations : Bool := false
  sequential : Bool := false
  deriving DecidableEq, Repr, Inhabited

/-- What a command line asks for. -/
inductive Request where
  | extract (request : ExtractRequest)
  /-- Write a configuration file. -/
  | init (output : String)
  deriving DecidableEq, Repr, Inhabited

/-- The options of the extraction. -/
def extractSwitches : List Switch :=
  [.config, .format, .output, .noLocations, .sequential, .help]

/-- The options of writing a configuration file. -/
def initSwitches : List Switch := [.output, .help]

/-- Read the arguments of the extraction. -/
def readExtract (arguments : List String) : Except Refusal Request := do
  let args ← readArguments extractSwitches true arguments
  match args.path with
  | none => throw .missingPath
  | some path =>
    return .extract {
      path
      config := args.value? .config
      format := args.value? .format
      output := args.value? .output
      noLocations := args.has .noLocations
      sequential := args.has .sequential }

/-- Read the arguments of writing a configuration file. -/
def readInit (arguments : List String) : Except Refusal Request := do
  let args ← readArguments initSwitches false arguments
  return .init ((args.value? .output).getD "swiftfacts.yaml")

/-- The names of the commands. -/
def names : List String := ["extract", "init", "help"]

/-- Why a command line that asks for help on a command is not carried out. -/
def readHelp : List String → Refusal
  | [] => .help
  | [name] => if names.contains name then .help else .unknownCommand
  | _ => .unknownCommand

/-- What a command line asks for. -/
def Request.ofArguments : List String → Except Refusal Request
  | [] => .error .noCommand
  | "extract" :: arguments => readExtract arguments
  | "init" :: arguments => readInit arguments
  | "help" :: arguments => .error (readHelp arguments)
  | first :: arguments =>
    match Form.ofText first with
    | .endOfOptions =>
      match arguments with
      | [] => .error .noCommand
      | name :: _ => .error (if names.contains name then .unknownArgument else .unknownCommand)
    | .long name value =>
      if name ≠ "help" && name ≠ "version" then .error .unknownArgument
      else if value.isSome then .error .unexpectedValue
      else .error (if name = "help" then .help else .version)
    | .short letter _ =>
      .error (if letter = 'h' then .help else if letter = 'V' then .version else .unknownArgument)
    | .text _ => .error .unknownCommand

end SwiftRelations.Command
