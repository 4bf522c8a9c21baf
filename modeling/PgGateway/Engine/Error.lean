import PgGateway.SqlState
import PgGateway.Text.Numeral

/-!
# Failures of the engine

What the engine, or the thread it works on, reports when a statement fails, and the class under
which the failure is passed on.
-/

namespace PgGateway

/-- A failure that the engine reports. -/
inductive EngineFailure
  /-- A failed statement, with the engine's number for the kind of failure. -/
  | coded (code : Int) (text : Text)
  /-- A failure that is only described in words. -/
  | described (text : Text)
  /-- A text that could not be read, and where reading stopped. -/
  | unreadable (text sql : Text) (offset : Int)
deriving DecidableEq, Repr

/-- Why a call of the engine has no result. -/
inductive EngineError
  | engine (failure : EngineFailure)
  /-- The thread that the engine works on failed. -/
  | worker (text : Text)
  /-- The engine is gone. -/
  | closed
deriving DecidableEq, Repr

namespace EngineFailure

/-- What the engine says. -/
def message : EngineFailure → Text
  | coded _ text => text
  | described text => text
  | unreadable text sql offset =>
    text ++ " in " ++ sql ++ " at offset " ++ Numeral.ofInt offset

/-- The class that a number of the engine stands for, if it is a broken constraint. -/
def stateOfCode : Int → Option SqlState
  | 2067 => some .uniqueViolation
  | 1555 => some .uniqueViolation
  | 1299 => some .notNullViolation
  | 787 => some .foreignKeyViolation
  | 275 => some .checkViolation
  | _ => none

/-- The class that the first of these phrases in a message stands for. -/
def statePhrases : List (Text × SqlState) :=
  [("UNIQUE constraint failed", .uniqueViolation),
   ("NOT NULL constraint failed", .notNullViolation),
   ("no such table", .undefinedTable),
   ("already exists", .duplicateTable),
   ("no such column", .undefinedColumn),
   ("syntax error", .syntaxError)]

/-- The class that a message stands for. -/
def stateOfMessage (message : Text) : SqlState :=
  match statePhrases.find? fun p => Text.Contains p.1 message with
  | some (_, state) => state
  | none => .internalError

/-- The class of a failure: by its number where that tells, and by its message otherwise. -/
def sqlState (f : EngineFailure) : SqlState :=
  let byCode := match f with
    | coded code _ => stateOfCode code
    | _ => none
  byCode.getD (stateOfMessage f.message)

end EngineFailure

namespace EngineError

/-- What a failure is reported as inside the server. -/
def message : EngineError → Text
  | engine failure => "SQLite error: " ++ failure.message
  | worker text => "SQLite worker error: " ++ text
  | closed => "Connection closed"

/-- What a client is told: the engine's own words where there are any. -/
def clientMessage : EngineError → Text
  | engine failure => failure.message
  | e => e.message

/-- The class under which a failure is passed on. -/
def sqlState : EngineError → SqlState
  | engine failure => failure.sqlState
  | _ => .internalError

/-- A failure of the thread for a reason that it only wraps. -/
def workerOther (text : Text) : EngineError := worker ("Other(\"" ++ text ++ "\")")

end EngineError

end PgGateway
