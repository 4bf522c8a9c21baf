import PgGateway.Text.Basic

/-!
# Types of columns

The type that a client declares for a column is one of five; the engine stores it as one of three.
-/

namespace PgGateway

/-- How the engine stores the values of a column. -/
inductive StorageType
  | integer
  | real
  | text
deriving DecidableEq, Repr

/-- The type of a column as it was declared. -/
inductive ColumnType
  | integer
  | bigInt
  | real
  | doublePrecision
  | text
deriving DecidableEq, Repr

/-- The word for a storage type in a table definition. -/
def StorageType.name : StorageType → Text
  | integer => "INTEGER"
  | real => "REAL"
  | text => "TEXT"

namespace ColumnType

/-- The name of a declared type. -/
def name : ColumnType → Text
  | integer => "INTEGER"
  | bigInt => "BIGINT"
  | real => "REAL"
  | doublePrecision => "DOUBLE PRECISION"
  | text => "TEXT"

/-- How the values of a declared type are stored. -/
def storage : ColumnType → StorageType
  | integer => .integer
  | bigInt => .integer
  | real => .real
  | doublePrecision => .real
  | text => .text

/-- The words that stand for integers of four bytes or fewer. -/
def integerWords : List Text :=
  ["INT", "INTEGER", "SERIAL", "INT2", "INT4", "SMALLINT", "SMALLSERIAL", "SERIAL2", "SERIAL4"]

/-- The words that stand for integers of eight bytes. -/
def bigIntWords : List Text := ["BIGINT", "INT8", "BIGSERIAL", "SERIAL8"]

/-- The words that stand for double-precision numbers. -/
def doubleWords : List Text := ["DOUBLE", "FLOAT8", "FLOAT"]

/-- The words that stand for single-precision numbers. -/
def realWords : List Text := ["REAL", "FLOAT4"]

/-- The words for integers that number themselves. -/
def serialWords : List Text :=
  ["SERIAL", "BIGSERIAL", "SMALLSERIAL", "SERIAL2", "SERIAL4", "SERIAL8"]

/-- One of the words is among the names. -/
def mentions (words names : List Text) : Bool := words.any fun w => names.contains w

/-- The declared type that words in upper case stand for: integers before big ones, those before
doubles, and those before single-precision numbers; anything else is stored as text. -/
def ofWords (words : List Text) : ColumnType :=
  if mentions words integerWords then integer
  else if mentions words bigIntWords then bigInt
  else if mentions words doubleWords then doublePrecision
  else if mentions words realWords then real
  else text

end ColumnType

end PgGateway
