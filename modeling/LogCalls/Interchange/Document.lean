import LogCalls.Configuration
import LogCalls.Interchange.Decode
import LogCalls.Interchange.Encode
import LogCalls.Json.Printer
import LogCalls.Json.Reader

/-! # Documents

Units and configurations as texts. Arrays and objects may be nested 127 deep. -/

namespace LogCalls

namespace Interchange

open Decoder

/-- How deep arrays and objects may be nested in a document. -/
def maxNesting : Nat := 127

/-- A severity. -/
def decodeSeverity : Decoder Severity := choice severities

/-- A framework. -/
def decodeFramework : Decoder Framework := choice frameworks

/-- Replacements for severities. The last one for a severity counts. -/
def decodeOverrides : Decoder SeverityPolicy
  | levels + 1, .object members => members.foldlM (fun policy (name, value) => do
      return policy.insert (← severities.lookup name) (← decodeSeverity levels value)) {}
  | _, _ => none

/-- A severity policy. -/
def decodePolicy : Decoder SeverityPolicy :=
  record ["overrides"] fun fields => fields.withDefault "overrides" {} decodeOverrides

/-- The settings of the rule that changes levels. -/
def decodeChangeLevel : Decoder ChangeLevel :=
  record ["from", "to", "starts_with"] fun fields => do
    return {
      source := ← fields.required "from" decodeSeverity
      target := ← fields.required "to" decodeSeverity
      startsWith := ← fields.optional "starts_with" text }

/-- A configuration, in which everything has a default. -/
def decodeConfiguration : Decoder Configuration :=
  record ["target", "rules", "max_cycles", "logger_name", "add_logger_if_missing",
    "console_severity", "severity_policy", "collapse_error_accessors", "strip_to_string",
    "method_pattern", "change_level"] fun fields => do
    let default : Configuration := {}
    return {
      target := ← fields.withDefault "target" default.target decodeFramework
      rules := ← fields.withDefault "rules" default.rules (list text)
      maxCycles := ← fields.withDefault "max_cycles" default.maxCycles natural
      loggerName := ← fields.withDefault "logger_name" default.loggerName text
      addLoggerIfMissing :=
        ← fields.withDefault "add_logger_if_missing" default.addLoggerIfMissing boolean
      consoleSeverity :=
        ← fields.withDefault "console_severity" default.consoleSeverity decodeSeverity
      severityPolicy := ← fields.withDefault "severity_policy" default.severityPolicy decodePolicy
      collapseErrorAccessors := ← fields.flag "collapse_error_accessors"
      stripToString := ← fields.flag "strip_to_string"
      methodPattern := ← fields.optional "method_pattern" text
      changeLevel := ← fields.optional "change_level" decodeChangeLevel }

/-- The settings of the rule that changes levels. -/
def encodeChangeLevel (settings : ChangeLevel) : Json :=
  .object [
    ("from", .string settings.source.name),
    ("to", .string settings.target.name),
    ("starts_with", encodeOption .string settings.startsWith)]

/-- A configuration with all of its fields. -/
def encodeConfiguration (configuration : Configuration) : Json :=
  .object [
    ("target", .string configuration.target.name),
    ("rules", encodeTexts configuration.rules),
    ("max_cycles", .natural configuration.maxCycles),
    ("logger_name", .string configuration.loggerName),
    ("add_logger_if_missing", .boolean configuration.addLoggerIfMissing),
    ("console_severity", .string configuration.consoleSeverity.name),
    ("severity_policy", .object [("overrides", .object (configuration.severityPolicy.overrides.map
      fun (source, target) => (source.name, .string target.name)))]),
    ("collapse_error_accessors", .boolean configuration.collapseErrorAccessors),
    ("strip_to_string", .boolean configuration.stripToString),
    ("method_pattern", encodeOption .string configuration.methodPattern),
    ("change_level", encodeOption encodeChangeLevel configuration.changeLevel)]

end Interchange

open Interchange

namespace CompilationUnit

/-- The unit that a text describes. -/
def ofText (text : String) : Except Error CompilationUnit :=
  match (Json.parse? text).bind (decodeUnit maxNesting) with
  | some unit => .ok unit
  | none => .error .invalidDocument

/-- The unit as a text over several lines. -/
def document (unit : CompilationUnit) : String := (encodeUnit unit).pretty

end CompilationUnit

namespace Configuration

/-- The valid configuration that a value describes. -/
def ofJson (value : Json) : Except Error Configuration := do
  match decodeConfiguration maxNesting value with
  | some configuration =>
    configuration.validate
    return configuration
  | none => .error .invalidDocument

/-- The valid configuration that a text describes. -/
def ofText (text : String) : Except Error Configuration :=
  match Json.parse? text with
  | some value => ofJson value
  | none => .error .invalidDocument

end Configuration

end LogCalls
