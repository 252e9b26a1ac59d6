import LogCalls.CommandLine.Path
import LogCalls.Text.Basic

/-! # Arguments

What the arguments of the program ask for. Options stand before, between or after the paths; `--` ends
them. No option may be given twice. -/

namespace LogCalls

/-- The paths and options that were given. -/
structure Settings where
  /-- Files and directories to work on. -/
  inputs : List Path := []
  /-- A configuration file. -/
  config : Option Path := none
  target : Option String := none
  rules : Option (List String) := none
  maxCycles : Option Nat := none
  loggerName : Option String := none
  noAddLogger : Bool := false
  /-- The name of an output format. -/
  emit : Option String := none
  /-- The directory for results. -/
  output : Option Path := none
  debug : Bool := false
  deriving DecidableEq, Repr

/-- What is asked for. -/
inductive Invocation where
  /-- The arguments make no sense. -/
  | misuse
  | help
  | version
  | run (settings : Settings)
  deriving DecidableEq, Repr

/-- Options without a value. -/
inductive Flag where
  | noAddLogger
  | debug
  | help
  | version
  deriving DecidableEq, Repr

/-- Options with a value. -/
inductive ValueOption where
  | config
  | target
  | rules
  | maxCycles
  | loggerName
  | emit
  | output
  deriving DecidableEq, Repr

namespace Settings

/-- A path, which has to have some text. -/
def path? (text : String) : Option Path := if text = "" then none else some ⟨text⟩

/-- The digits of a number, after a sign that may stand before them. -/
def digitsOf : List Char → List Char
  | '+' :: digits => digits
  | chars => chars

/-- A number that fits into 64 bits. -/
def number? (text : String) : Option Nat :=
  let digits := digitsOf text.toList
  if digits.isEmpty then none else (Text.decimal? digits).filter (· < Text.wordLimit)

/-- The texts between commas. -/
def commaSeparated (text : String) : List String :=
  (text.toList.splitOn ',').map String.ofList

/-- Give an option its value, unless it has one or the value is no good. -/
def set? {α : Type} (current : Option α) (value : Option α) : Option (Option α) :=
  match current with
  | some _ => none
  | none => value.map some

/-- The settings with the value of an option. -/
def withValue? (settings : Settings) (value : String) : ValueOption → Option Settings
  | .config => do return { settings with config := ← set? settings.config (path? value) }
  | .target => do return { settings with target := ← set? settings.target (some value) }
  | .rules => do
      return { settings with rules := ← set? settings.rules (some (commaSeparated value)) }
  | .maxCycles => do return { settings with maxCycles := ← set? settings.maxCycles (number? value) }
  | .loggerName => do
      return { settings with loggerName := ← set? settings.loggerName (some value) }
  | .emit => do return { settings with emit := ← set? settings.emit (some value) }
  | .output => do return { settings with output := ← set? settings.output (path? value) }

/-- The settings with a path to work on. -/
def withInput? (settings : Settings) (text : String) : Option Settings := do
  return { settings with inputs := settings.inputs ++ [← path? text] }

end Settings

namespace Invocation

/-- The long names of options without a value. -/
def flags : List (String × Flag) :=
  [("no-add-logger", .noAddLogger), ("debug", .debug), ("help", .help), ("version", .version)]

/-- The long names of options with a value. -/
def valueOptions : List (String × ValueOption) :=
  [("config", .config), ("target", .target), ("rules", .rules), ("max-cycles", .maxCycles),
   ("logger-name", .loggerName), ("emit", .emit), ("output", .output)]

/-- An argument. -/
inductive Argument where
  /-- The end of the options. -/
  | endOfOptions
  | flag (flag : Flag)
  /-- An option that takes a value, which may be attached to it. -/
  | valued (option : ValueOption) (attached : Option String)
  | path (text : String)
  | unknown
  deriving DecidableEq, Repr

/-- A text around the first equals sign. -/
def splitAtEquals (chars : List Char) : List Char × Option (List Char) :=
  let name := chars.takeWhile (· != '=')
  match chars.drop name.length with
  | [] => (name, none)
  | _ :: value => (name, some value)

/-- An option that starts with two dashes. -/
def readLong (chars : List Char) : Argument :=
  let (name, attached) := splitAtEquals chars
  match flags.lookup (String.ofList name), attached with
  | some flag, none => .flag flag
  | some _, some _ => .unknown
  | none, attached =>
    match valueOptions.lookup (String.ofList name) with
    | some option => .valued option (attached.map String.ofList)
    | none => .unknown

/-- Options that start with one dash. -/
def readShort : List Char → Argument
  | 'h' :: _ => .flag .help
  | 'V' :: _ => .flag .version
  | ['o'] => .valued .output none
  | 'o' :: '=' :: value => .valued .output (some (String.ofList value))
  | 'o' :: value => .valued .output (some (String.ofList value))
  | _ => .unknown

/-- The kind of an argument. -/
def read (text : String) : Argument :=
  match text.toList with
  | ['-', '-'] => .endOfOptions
  | '-' :: '-' :: rest => readLong rest
  | ['-'] => .path text
  | '-' :: rest => readShort rest
  | _ => .path text

/-- The text can be the value of the option before it. -/
def isValue (text : String) : Bool :=
  match read text with
  | .path _ => true
  | _ => false

/-- The invocation at the end of the arguments. -/
def finish (settings : Settings) : Invocation :=
  if settings.inputs.isEmpty then .misuse else .run settings

/-- Arguments that are paths, whatever they look like. -/
def parsePaths (settings : Settings) : List String → Invocation
  | [] => finish settings
  | text :: rest =>
    match settings.withInput? text with
    | some settings => parsePaths settings rest
    | none => .misuse

/-- Read arguments one after the other. -/
def parseFrom (settings : Settings) : List String → Invocation
  | [] => finish settings
  | text :: rest =>
    match read text with
    | .endOfOptions => parsePaths settings rest
    | .flag .help => .help
    | .flag .version => .version
    | .flag .debug =>
      if settings.debug then .misuse else parseFrom { settings with debug := true } rest
    | .flag .noAddLogger =>
      if settings.noAddLogger then .misuse
      else parseFrom { settings with noAddLogger := true } rest
    | .valued option (some value) =>
      match settings.withValue? value option with
      | some settings => parseFrom settings rest
      | none => .misuse
    | .valued option none =>
      match rest with
      | [] => .misuse
      | value :: rest =>
        match isValue value, settings.withValue? value option with
        | true, some settings => parseFrom settings rest
        | _, _ => .misuse
    | .path text =>
      match settings.withInput? text with
      | some settings => parseFrom settings rest
      | none => .misuse
    | .unknown => .misuse

/-- What a list of arguments asks for. -/
def parse (arguments : List String) : Invocation := parseFrom {} arguments

end Invocation

end LogCalls
