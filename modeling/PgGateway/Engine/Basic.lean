import PgGateway.Engine.Error
import PgGateway.Engine.Value

/-!
# The engine

The engine runs one statement after the other and keeps a state of its own. Nothing else is said
about it, so an engine is any function that answers calls and moves its state on. A script is the
simplest one: a list of answers that are given in order.
-/

namespace PgGateway

/-- The result of a statement. -/
structure ResultSet where
  columns : List Text
  /-- For each column the type declared for the table column that it reads, if it reads one. -/
  declared : List (Option Text)
  rows : List (List Value)
  /-- The number of rows changed; only counted calls tell it. -/
  changed : Nat
deriving DecidableEq, Repr

/-- A statement for the engine. -/
structure Call where
  sql : Text
  /-- The number of changed rows is wanted as well. -/
  counted : Bool
deriving DecidableEq, Repr

/-- The engine's answer to a call. -/
abbrev Outcome := Except EngineError ResultSet

/-- An engine with states of type `σ`. -/
abbrev Engine (σ : Type) := Call → σ → Outcome × σ

/-- The answers that an engine still has to give. -/
abbrev Script := List Outcome

/-- The engine that gives the answers of a script, whatever it is asked; after the last one it is
gone. -/
def Script.engine : Engine Script
  | _, [] => (.error .closed, [])
  | _, outcome :: rest => (outcome, rest)

end PgGateway
