import TokenLedger.Json.Shape
import TokenLedger.Fault
import TokenLedger.Variant

/-!
# Configuration from the environment

Three variables choose the level and the form of the log and the variant of the token factory.  An
empty variable counts as unset, and an unset one has its default.
-/

namespace TokenLedger

/-- How much is logged. -/
inductive LogLevel
  | fatal | error | warn | info | debug | trace | silent
deriving DecidableEq, Repr

/-- The names of the log levels. -/
def LogLevel.names : List (String × LogLevel) :=
  [("fatal", .fatal), ("error", .error), ("warn", .warn), ("info", .info), ("debug", .debug),
    ("trace", .trace), ("silent", .silent)]

/-- The name of a log level. -/
def LogLevel.name : LogLevel → String
  | .fatal => "fatal"
  | .error => "error"
  | .warn => "warn"
  | .info => "info"
  | .debug => "debug"
  | .trace => "trace"
  | .silent => "silent"

/-- What the environment decides. -/
structure Settings where
  logLevel : LogLevel
  logPretty : Bool
  variant : Variant
deriving DecidableEq, Repr

namespace Settings

variable {α : Type}

/-- Reads a variable that has one of some named values; unset or empty, it has the default. -/
def choice (env : List (String × String)) (variableName : String) (names : List (String × α))
    (default : α) : Checked α :=
  match (env.find? (·.1 == variableName)).map (·.2) with
  | none => .valid default
  | some "" => .valid default
  | some s =>
    Shape.oneOf (names.map fun n => "\"" ++ n.1 ++ "\"")
      (fun _ => (names.find? (·.1 == s)).map (·.2)) (.str s)

/-- Reads the configuration from the variables of an environment. -/
def ofEnvironment (env : List (String × String)) : Except Fault Settings :=
  let checked :=
    Settings.mk
      <$> choice env "LOG_LEVEL" LogLevel.names .info
      <*> choice env "LOG_PRETTY" [("true", true), ("false", false)] false
      <*> choice env "SIM_VARIANT" [("generic", .generic), ("coreum", .coreum)] .generic
  match checked with
  | .valid config => .ok config
  | .invalid issues => .error (.invalid (.environment issues))

/-- The variant of a factory that is to be built: the given one, else what the environment says. -/
def factoryVariant (given : Option Variant) (env : List (String × String)) :
    Except Fault Variant :=
  match given with
  | some variant => .ok variant
  | none => Settings.variant <$> ofEnvironment env

end Settings

end TokenLedger
