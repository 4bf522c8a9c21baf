import PgGateway.Binary64.Printer
import PgGateway.Wire.Oid

/-!
# Values of the engine

The engine knows five classes of values. In a result every value travels as text.
-/

namespace PgGateway

/-- A value as the engine stores it. -/
inductive Value
  | null
  | integer (i : Int64)
  | real (x : Binary64)
  | text (t : Text)
  | blob (bytes : Bytes)
deriving DecidableEq, Repr

namespace Value

/-- The value that the engine's text of these bytes is read as. -/
def ofTextBytes (bytes : Bytes) : Value := text (Utf8.decode bytes)

/-- The value is NULL. -/
def isNull : Value → Bool
  | null => true
  | _ => false

/-- The value as an integer, if it is a number. -/
def asInt64? : Value → Option Int64
  | integer i => some i
  | real x => some x.toInt64
  | _ => none

/-- The value as a text, if it is one. -/
def asText? : Value → Option Text
  | text t => some t
  | _ => none

/-- The type by which a value is described when nothing was declared. -/
def inferredOid : Value → Oid
  | integer _ => .int4
  | real _ => .float8
  | blob _ => .bytea
  | text _ => .text
  | null => .text

/-- The value as it travels; NULL has no text. -/
def wireText : Value → Option Bytes
  | null => none
  | integer i => some (Utf8.encode (Numeral.ofInt i.toInt))
  | real x => some (Utf8.encode x.text)
  | text t => some (Utf8.encode t)
  | blob bytes => some (Utf8.encode (Numeral.bytea bytes))

end Value

end PgGateway
