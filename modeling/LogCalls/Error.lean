import LogCalls.Text.Quoted

/-! # Errors

Everything that can go wrong, by its cause, and the wording in which it is reported. -/

namespace LogCalls

/-- What is wrong with a configuration. -/
inductive ConfigurationError where
  /-- The budget of cycles is zero. -/
  | noCycles
  /-- The name for new logger fields is not an identifier. -/
  | invalidLoggerName (name : String)
  /-- A method pattern cannot be read. -/
  | invalidMethodPattern (pattern : String)
  /-- The rule that changes levels has no settings. -/
  | missingLevelChange
  deriving DecidableEq, Repr

/-- The wording of a configuration error. -/
def ConfigurationError.message : ConfigurationError → String
  | noCycles => "max_cycles must be at least 1"
  | invalidLoggerName name => "logger_name " ++ Text.quoted name ++ " is not a valid identifier"
  | invalidMethodPattern pattern => "invalid method pattern " ++ Text.quoted pattern
  | missingLevelChange => "change-level needs a change_level section"

/-- What a rule was looking at when it failed. -/
inductive FailureSite where
  /-- An expression in the class of this name. -/
  | expression (className : String)
  /-- A statement list. -/
  | block
  /-- A field of this name. -/
  | field (name : String)
  deriving DecidableEq, Repr

/-- The site as part of a sentence about the rule. -/
def FailureSite.phrase : FailureSite → String
  | expression className => "failed in " ++ className
  | block => "failed on a statement block"
  | field name => "failed on field " ++ name

/-- Errors of the library. -/
inductive Error where
  /-- The unit was still changing when the budget of cycles was used up. -/
  | nonConvergence (unit : String) (cycles : Nat)
  | configuration (cause : ConfigurationError)
  | unknownFramework (text : String)
  | unknownSeverity (text : String)
  | unknownRule (name : String)
  /-- A text is not a document of the wanted kind. -/
  | invalidDocument
  /-- Rules have nested the blocks of a body deeper than a pass goes. -/
  | nestedTooDeep
  /-- A rule failed, for the reason it gives. -/
  | ruleFailed (rule : String) (site : FailureSite) (reason : String)
  deriving DecidableEq, Repr

/-- The wording of an error. -/
def Error.message : Error → String
  | nonConvergence unit cycles =>
    "Rewrite of " ++ unit ++ " did not converge after " ++ toString cycles ++ " cycles"
  | configuration cause => "Configuration error: " ++ cause.message
  | unknownFramework text => "Unknown logging framework: " ++ text
  | unknownSeverity text => "Unknown severity: " ++ text
  | unknownRule name => "Unknown rule: " ++ name
  | invalidDocument => "JSON error: invalid document"
  | nestedTooDeep => "Blocks are nested too deeply"
  | ruleFailed rule site reason => "rule " ++ rule ++ " " ++ site.phrase ++ ": " ++ reason

end LogCalls
