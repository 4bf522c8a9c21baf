import PgGateway.Sql.Token

/-!
# Names of tables

Reading the name of a table, with the words that can stand before it, and writing a name so that it
is read back as one token.
-/

namespace PgGateway.Sql

/-- The words between a verb and the name of a table that say when nothing is to be done. -/
inductive ExistenceGuard
  | unguarded
  | ifExists
  | ifNotExists
deriving DecidableEq, Repr

/-- Reads `IF EXISTS` or `IF NOT EXISTS`, and the rest. -/
def readGuard (ts : List Token) : ExistenceGuard × List Token :=
  if Token.startsWith "IF" ts then
    if Token.startsWith "EXISTS" ts.tail then (.ifExists, ts.drop 2)
    else if Token.startsWith "NOT" ts.tail && Token.startsWith "EXISTS" (ts.drop 2) then
      (.ifNotExists, ts.drop 3)
    else (.unguarded, ts)
  else (.unguarded, ts)

/-- The tokens without a first one that is the keyword. -/
def skipKeyword (keyword : Text) (ts : List Token) : List Token :=
  if Token.startsWith keyword ts then ts.tail else ts

/-- Reads the name of a table, perhaps with a schema before it, which is not kept. -/
def readTableName : List Token → Option (Text × List Token)
  | [] => none
  | t :: rest =>
    if t.isName then
      match rest with
      | dot :: u :: rest' =>
        if dot.isSymbol '.' && u.isName then some (u.name, rest') else some (t.name, rest)
      | _ => some (t.name, rest)
    else none

/-- The table named at the start of a run of tokens. -/
def tableNamed (ts : List Token) : Option Text := (readTableName ts).map Prod.fst

/-- A character of a name that needs no quotes. -/
def isPlain (c : Char) : Bool := c.isAlphanum || c == '_'

/-- A name that needs no quotes: letters, digits and underscores of ASCII, and no digit first. -/
def isPlainName (name : Text) : Bool :=
  match name with
  | [] => false
  | c :: _ => !c.isDigit && name.all isPlain

/-- A name as it is written in a statement. -/
def writeName (name : Text) : Text := if isPlainName name then name else Text.quote '"' name

end PgGateway.Sql
