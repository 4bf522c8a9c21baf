import PgGateway.SqlState
import PgGateway.Text.Numeral

/-!
# Refused statements

Why a statement is not passed on: it is of a kind that is not supported, or it does not have the
shape that its kind must have.
-/

namespace PgGateway

namespace Sql

/-- The shapes that statements are held to. -/
inductive Shape
  | statement
  | createTable
  | insert
deriving DecidableEq, Repr

/-- The name of a shape in messages. -/
def Shape.name : Shape → Text
  | statement => "statement"
  | createTable => "CREATE TABLE"
  | insert => "INSERT"

/-- The ways to miss a shape. -/
inductive Fault
  /-- A quote opens at this byte of the normal form and is never closed. -/
  | unclosedQuote (byte : Nat)
  | severalStatements
  | missingTableName
  | unbalanced
  | guardNotAllowed
  | missingColumns
  | noColumns
  | emptyDefinition
  | notAColumnName (found : Text)
  | notWithoutNull
  | primaryWithoutKey
  | missingDefault
  | incompleteClause (keyword : Text)
  | keyWithoutList
  | badKeyList
  | unknownKeyColumn (name : Text)
  | missingInto
  | badColumnList
  | missingRow
  | missingValues
  | emptyReturning
deriving DecidableEq, Repr

/-- What a fault is reported as. -/
def Fault.message : Fault → Text
  | unclosedQuote byte => "unterminated quoted text starting at byte " ++ Numeral.ofNat byte
  | severalStatements => "multiple statements in one query are not supported"
  | missingTableName => "missing table name"
  | unbalanced => "unbalanced parentheses"
  | guardNotAllowed => "IF EXISTS is not allowed here"
  | missingColumns => "could not find column definitions"
  | noColumns => "no column definitions"
  | emptyDefinition => "empty column definition"
  | notAColumnName found => "expected a column name, found \"" ++ found ++ "\""
  | notWithoutNull => "expected NULL after NOT"
  | primaryWithoutKey => "expected KEY after PRIMARY"
  | missingDefault => "missing DEFAULT expression"
  | incompleteClause keyword => "incomplete " ++ keyword ++ " clause"
  | keyWithoutList => "PRIMARY KEY constraint needs a column list"
  | badKeyList => "bad PRIMARY KEY column list"
  | unknownKeyColumn name => "primary key column \"" ++ name ++ "\" is not defined"
  | missingInto => "expected INTO"
  | badColumnList => "bad column list"
  | missingRow => "expected a parenthesized VALUES row"
  | missingValues => "could not find VALUES"
  | emptyReturning => "RETURNING needs at least one item"

end Sql

/-- Why a statement is not passed on. -/
inductive SqlError
  /-- No supported kind of statement begins with this token. -/
  | unsupported (token : Text)
  /-- The statement does not have the shape of its kind. -/
  | malformed (shape : Sql.Shape) (fault : Sql.Fault)
deriving DecidableEq, Repr

/-- What a refusal is reported as. -/
def SqlError.message : SqlError → Text
  | unsupported token => "Unsupported statement: " ++ token
  | malformed shape fault => "Malformed " ++ shape.name ++ " statement: " ++ fault.message

/-- The class of a refusal. -/
def SqlError.sqlState : SqlError → SqlState
  | unsupported _ => .featureNotSupported
  | malformed _ _ => .syntaxError

end PgGateway
