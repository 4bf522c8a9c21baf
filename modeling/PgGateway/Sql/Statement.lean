import PgGateway.Sql.CreateTable
import PgGateway.Sql.Insert
import PgGateway.Sql.Normal

/-!
# Statements

A statement text is put into normal form, read as tokens, told apart by its first keywords and held
to the shape of its kind. Only table definitions are written anew; everything else is passed on in
normal form.
-/

namespace PgGateway

/-- The kinds of statement that are supported. -/
inductive StatementKind
  | createTable
  | select
  | insert
  | update
  | delete
  | drop
deriving DecidableEq, Repr

/-- The words that a kind of statement is completed under. -/
def StatementKind.keyword : StatementKind → Text
  | createTable => "CREATE TABLE"
  | select => "SELECT"
  | insert => "INSERT"
  | update => "UPDATE"
  | delete => "DELETE"
  | drop => "DROP"

/-- What a statement was recognised as. -/
inductive Statement
  | createTable (definition : CreateTable)
  /-- A query, and the first table it reads from. -/
  | select (table : Option Text)
  | insert (insertion : Insert)
  | update (table : Option Text)
  | delete (table : Option Text)
  /-- The kind of object that is dropped, and its name if it is a table. -/
  | drop (object : Option Text) (table : Option Text)
deriving DecidableEq, Repr

namespace Statement

open Sql

/-- The kind of a statement. -/
def kind : Statement → StatementKind
  | createTable _ => .createTable
  | select _ => .select
  | insert _ => .insert
  | update _ => .update
  | delete _ => .delete
  | drop _ _ => .drop

/-- The table whose declared columns describe the rows of the result. -/
def sourceTable : Statement → Option Text
  | select table => table
  | insert insertion => some insertion.table
  | _ => none

/-- The client expects rows. -/
def returnsRows : Statement → Bool
  | select _ => true
  | insert insertion => insertion.returning.isSome
  | _ => false

/-- The engine is asked how many rows changed. -/
def counted : Statement → Bool
  | insert _ | update _ | delete _ => true
  | _ => false

/-- The table named after the first `FROM` outside parentheses. -/
def tableFrom (ts : List Token) : Option Text :=
  (afterKeyword "FROM" ts).bind fun rest => tableNamed (skipKeyword "ONLY" rest)

/-- Recognises what follows `DROP`. -/
def readDrop (ts : List Token) : Statement :=
  match ts with
  | [] => drop none none
  | t :: rest =>
    let object := Text.upper t.text
    drop (some object) (if object = "TABLE" then tableNamed (readGuard rest).2 else none)

/-- Recognises a statement by its first keywords. -/
def ofTokens (ts : List Token) : Except SqlError Statement :=
  match ts with
  | [] => .error (.unsupported [])
  | t :: rest =>
    if t.isKeyword "CREATE" && Token.startsWith "TABLE" rest then
      ((CreateTable.ofTokens rest.tail).map createTable).mapError (.malformed .createTable)
    else if t.isKeyword "SELECT" || t.isKeyword "WITH" then .ok (select (tableFrom ts))
    else if t.isKeyword "INSERT" then
      ((Insert.ofTokens rest).map insert).mapError (.malformed .insert)
    else if t.isKeyword "UPDATE" then .ok (update (tableNamed (skipKeyword "ONLY" rest)))
    else if t.isKeyword "DELETE" then .ok (delete (tableFrom ts))
    else if t.isKeyword "DROP" then .ok (readDrop rest)
    else .error (.unsupported t.text)

/-- The text that the engine is given for a statement with a given normal form. -/
def engineText (normal : Text) : Statement → Text
  | createTable definition => definition.write
  | _ => normal

end Statement

/-- A statement and the text that the engine is given for it. -/
structure Translated where
  /-- The text as the client sent it. -/
  sent : Text
  /-- The text for the engine. -/
  text : Text
  statement : Statement
deriving DecidableEq, Repr

namespace Sql

/-- Reads the tokens of a normal form. It must hold no semicolon outside quotes, because the engine
runs only the first statement of a text. -/
def readStatement (normal : Text) : Except SqlError (List Token) :=
  match readTokens normal with
  | .error rest =>
    .error (.malformed .statement (.unclosedQuote (Text.byteLength normal - Text.byteLength rest)))
  | .ok ts =>
    if ts.any (·.isSymbol ';') then .error (.malformed .statement .severalStatements) else .ok ts

/-- Translates the text of one statement. -/
def translate (sql : Text) : Except SqlError Translated := do
  let normal := normalize sql
  let statement ← Statement.ofTokens (← readStatement normal)
  return ⟨sql, statement.engineText normal, statement⟩

end Sql

end PgGateway
