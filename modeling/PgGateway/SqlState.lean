import PgGateway.Text.Basic

/-!
# Error classes

The five-character codes that tell a client what kind of failure an error report is about, and the
severities of such reports.
-/

namespace PgGateway

/-- The classes of failure that are reported to clients. -/
inductive SqlState
  | protocolViolation
  | featureNotSupported
  | syntaxError
  | undefinedTable
  | duplicateTable
  | undefinedColumn
  | notNullViolation
  | foreignKeyViolation
  | uniqueViolation
  | checkViolation
  | internalError
deriving DecidableEq, Repr

/-- The code of a class. -/
def SqlState.code : SqlState → Text
  | protocolViolation => "08P01"
  | featureNotSupported => "0A000"
  | syntaxError => "42601"
  | undefinedTable => "42P01"
  | duplicateTable => "42P07"
  | undefinedColumn => "42703"
  | notNullViolation => "23502"
  | foreignKeyViolation => "23503"
  | uniqueViolation => "23505"
  | checkViolation => "23514"
  | internalError => "XX000"

/-- How grave a report is: the connection goes on after an error and ends after a fatal one. -/
inductive Severity
  | error
  | fatal
deriving DecidableEq, Repr

/-- The severity as it is written. -/
def Severity.text : Severity → Text
  | error => "ERROR"
  | fatal => "FATAL"

end PgGateway
