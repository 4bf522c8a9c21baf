import PgGateway.Config

/-!
# Options of the command line

A configuration can be given by options, each a flag and a value. Options are read in order and the
last one of a kind counts; what no option sets keeps its default.
-/

namespace PgGateway

/-- What an option sets. -/
inductive Setting
  | host
  | port
  | database
  | serverVersion
  | returning
deriving DecidableEq, Repr

/-- Why a command line is not accepted. -/
inductive UsageError
  | unknownFlag (flag : Text)
  | missingValue (flag : Text)
  | badValue (flag value : Text)
deriving DecidableEq, Repr

/-- What a rejected command line is reported as. -/
def UsageError.message : UsageError → Text
  | unknownFlag flag => "unexpected argument '" ++ flag ++ "' found"
  | missingValue flag => "a value is required for '" ++ flag ++ "' but none was supplied"
  | badValue flag value => "invalid value '" ++ value ++ "' for '" ++ flag ++ "'"

namespace Setting

/-- The flags, and what they set. -/
def flags : List (Text × Setting) :=
  [("--host", host), ("--port", port), ("-p", port), ("--database", database), ("-d", database),
   ("--server-version", serverVersion), ("--returning-completion", returning)]

/-- What a flag sets. -/
def ofFlag? (flag : Text) : Option Setting := flags.lookup flag

/-- Sets a value, if it is one that the setting can have. -/
def set (value : Text) (c : Config) : Setting → Option Config
  | host => some { c with host := value }
  | port => (Numeral.port? value).map fun port => { c with port }
  | database => some { c with database := value }
  | serverVersion => some { c with serverVersion := value }
  | returning =>
    match ReturningMode.ofName value with
    | .ok mode => some { c with returning := mode }
    | .error _ => none

end Setting

namespace Config

/-- Reads an option: a flag and its value. -/
def readOption (flag value : Text) (c : Config) : Except UsageError Config :=
  match Setting.ofFlag? flag with
  | none => .error (.unknownFlag flag)
  | some setting =>
    match setting.set value c with
    | none => .error (.badValue flag value)
    | some c => .ok c

/-- The flag of an argument, and the value that follows it after an equals sign. -/
def splitArgument (argument : Text) : Text × Option Text :=
  (argument.takeWhile (· != '='),
    match argument.dropWhile (· != '=') with
    | [] => none
    | _ :: value => some value)

/-- Reads the options of a command line into a configuration. A value follows its flag after an
equals sign or as the next argument. -/
def readOptions : List Text → Config → Except UsageError Config
  | [], c => .ok c
  | [argument], c =>
    match splitArgument argument with
    | (flag, some value) => readOption flag value c
    | (flag, none) =>
      .error (if (Setting.ofFlag? flag).isSome then .missingValue flag else .unknownFlag flag)
  | argument :: next :: rest, c =>
    match splitArgument argument with
    | (flag, some value) => (readOption flag value c).bind (readOptions (next :: rest))
    | (flag, none) => (readOption flag next c).bind (readOptions rest)

end Config

end PgGateway
