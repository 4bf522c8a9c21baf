import PgGateway.Sql.Column
import PgGateway.Sql.Name

/-!
# Table definitions

Recognising the definition of a table, and writing it for the engine. The engine knows fewer types,
so the types of columns are replaced by their storage types; names, defaults and constraints are
passed on.
-/

namespace PgGateway

/-- The definition of a table. -/
structure CreateTable where
  table : Text
  ifNotExists : Bool
  columns : List Column
  /-- The constraints of the table other than its primary key, as written. -/
  constraints : List Text
deriving DecidableEq, Repr

namespace Sql

/-! ## Reading -/

/-- One part of the parenthesised block of a table definition. -/
inductive TableItem
  | column (column : Column)
  /-- A primary key, given by the names of its columns. -/
  | primaryKey (names : List Text)
  /-- Any other constraint, as written. -/
  | constraint (clause : Text)
deriving DecidableEq, Repr

/-- The part is a constraint of the table and no column. -/
def isTableConstraint (ts : List Token) : Bool :=
  (Token.startsWith "PRIMARY" ts && Token.startsWith "KEY" ts.tail) ||
  (Token.startsWith "FOREIGN" ts && Token.startsWith "KEY" ts.tail) ||
  Token.startsWith "UNIQUE" ts || Token.startsWith "CONSTRAINT" ts || Token.startsWith "CHECK" ts

/-- The name that an entry of a primary key begins with. -/
def keyName : List Token → Except Fault Text
  | [] => .error .badKeyList
  | t :: _ => if t.isName then .ok t.name else .error .badKeyList

/-- Reads a constraint of the table, perhaps with a name of its own. -/
def readTableConstraint (ts : List Token) : Except Fault TableItem :=
  let rest := if Token.startsWith "CONSTRAINT" ts then ts.drop 2 else ts
  if Token.startsWith "PRIMARY" rest && Token.startsWith "KEY" rest.tail then
    if Token.opensWith '(' (rest.drop 2) then
      match readGroup (rest.drop 2) with
      | none => .error .unbalanced
      | some (g, _) => ((parts g.inside).mapM keyName).map .primaryKey
    else .error .keyWithoutList
  else .ok (.constraint (Token.verbatim ts))

/-- Reads one part of the block. -/
def readTableItem (ts : List Token) : Except Fault TableItem :=
  if isTableConstraint ts then readTableConstraint ts else (Column.ofTokens ts).map .column

namespace TableItem

/-- The column that a part defines. -/
def column? : TableItem → Option Column
  | column c => some c
  | _ => none

/-- The constraint that a part states. -/
def constraint? : TableItem → Option Text
  | constraint clause => some clause
  | _ => none

/-- The columns that a part names as the primary key. -/
def keyNames : TableItem → List Text
  | primaryKey names => names
  | _ => []

end TableItem

/-- Makes the first column of a name part of the primary key. -/
def markKey (name : Text) : List Column → Except Fault (List Column)
  | [] => .error (.unknownKeyColumn name)
  | c :: cs =>
    if Text.SameWord c.name name then .ok ({ c with primaryKey := true } :: cs)
    else (markKey name cs).map (c :: ·)

end Sql

namespace CreateTable

open Sql

/-- The table that the parts of a block define. Keys are marked when all columns are known, so a
key may stand before its columns. -/
def ofItems (table : Text) (ifNotExists : Bool) (items : List TableItem) :
    Except Fault CreateTable := do
  let columns ← (items.flatMap (·.keyNames)).foldlM (fun cs name => markKey name cs)
    (items.filterMap (·.column?))
  return { table, ifNotExists, columns, constraints := items.filterMap (·.constraint?) }

/-- Recognises what follows `CREATE TABLE`. Nothing after the block is looked at. -/
def ofTokens (ts : List Token) : Except Fault CreateTable :=
  match readGuard ts with
  | (.ifExists, _) => .error .guardNotAllowed
  | (guarded, rest) =>
    match readTableName rest with
    | none => .error .missingTableName
    | some (table, rest) =>
      if Token.opensWith '(' rest then
        match readGroup rest with
        | none => .error .unbalanced
        | some (g, _) =>
          if g.inside.isEmpty then .error .noColumns
          else do ofItems table (guarded == .ifNotExists) (← (parts g.inside).mapM readTableItem)
      else .error .missingColumns

/-- The first column of a name. -/
def column? (c : CreateTable) (name : Text) : Option Column :=
  c.columns.find? fun d => Text.SameWord d.name name

end CreateTable

/-! ## Writing -/

namespace Sql

/-- The words that are literals by themselves. -/
def literalWords : List Text :=
  ["NULL", "TRUE", "FALSE", "CURRENT_TIMESTAMP", "CURRENT_DATE", "CURRENT_TIME"]

/-- The tokens are a literal, a number with a sign, or all in one pair of parentheses. -/
def isLiteral : List Token → Bool
  | [t] => t.kind == .number || t.kind == .string || literalWords.any t.isKeyword
  | [sign, n] => (sign.isSymbol '-' || sign.isSymbol '+') && n.kind == .number
  | ts =>
    match readGroup ts with
    | some (_, []) => true
    | _ => false

/-- A default expression as the engine takes it: in parentheses unless it is a literal. -/
def writeDefault (expression : Text) : Text :=
  match readTokens expression with
  | .ok ts => if isLiteral ts then expression else "(" ++ expression ++ ")"
  | .error _ => "(" ++ expression ++ ")"

end Sql

open Sql

/-- A column as the engine takes it; `inlineKey` tells whether its part in the primary key is said
here. -/
def Column.write (inlineKey : Bool) (c : Column) : Text :=
  writeName c.name ++ " " ++ c.type.storage.name ++ Text.only (!c.nullable) " NOT" ++ " NULL" ++
    Text.only (c.primaryKey && inlineKey) " PRIMARY KEY" ++ Text.only c.unique " UNIQUE" ++
    (match c.defaultText with
      | some expression => " DEFAULT " ++ writeDefault expression
      | none => []) ++
    c.constraints.flatMap fun clause => ' ' :: clause

namespace CreateTable

/-- The columns of the primary key. -/
def keyColumns (c : CreateTable) : List Column := c.columns.filter (·.primaryKey)

/-- The parts of the block as the engine takes them. A key of one column is said in that column,
and a longer one after all columns. -/
def blockParts (c : CreateTable) : List Text :=
  c.columns.map (Column.write (c.keyColumns.length == 1)) ++
    (if 1 < c.keyColumns.length then
      ["PRIMARY KEY (" ++ Text.join ", " (c.keyColumns.map fun k => writeName k.name) ++ ")"]
    else []) ++
    c.constraints

/-- The definition as the engine takes it. -/
def write (c : CreateTable) : Text :=
  "CREATE TABLE " ++ Text.only c.ifNotExists "IF NOT EXISTS " ++ writeName c.table ++
    " ( " ++ Text.join ", " c.blockParts ++ " );"

end CreateTable

end PgGateway
