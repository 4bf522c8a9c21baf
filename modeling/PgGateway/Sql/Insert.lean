import PgGateway.Sql.Error
import PgGateway.Sql.Group
import PgGateway.Sql.Name

/-!
# Insertions

An insertion is passed on as it stands. It is recognised only as far as its answer needs: the
table, the columns, the rows, and what it returns.
-/

namespace PgGateway

/-- An insertion. -/
structure Insert where
  table : Text
  /-- The columns named; none if there is no list of columns. -/
  columns : List Text
  /-- The inside of each row of values, as written; none for default values. -/
  rows : List Text
  /-- What the insertion returns, as written. -/
  returning : Option (List Text)
deriving DecidableEq, Repr

namespace Sql

/-- The name that an entry of a list of columns is. -/
def columnName : List Token → Except Fault Text
  | [t] => if t.isName then .ok t.name else .error .badColumnList
  | _ => .error .badColumnList

/-- Reads a list of columns, if there is one, and the rest. -/
def readColumnList (ts : List Token) : Except Fault (List Text × List Token) :=
  if Token.opensWith '(' ts then
    match readGroup ts with
    | none => .error .unbalanced
    | some (g, rest) => do return (← (parts g.inside).mapM columnName, rest)
  else .ok ([], ts)

/-- Reads rows of values with commas between them, and the rest. -/
def readRows (ts : List Token) : Except Fault (List Text × List Token) :=
  if Token.opensWith '(' ts then
    match _h : readGroup ts with
    | none => .error .unbalanced
    | some (g, rest) =>
      if Token.opensWith ',' rest then
        (readRows rest.tail).map fun r => (Token.verbatim g.inside :: r.1, r.2)
      else .ok ([Token.verbatim g.inside], rest)
  else .error .missingRow
termination_by ts.length
decreasing_by
  have := readGroup_length_lt _h
  simp only [List.length_tail] at this ⊢
  omega

/-- Reads the values of an insertion, and the rest. -/
def readValues (ts : List Token) : Except Fault (List Text × List Token) :=
  if Token.startsWith "DEFAULT" ts && Token.startsWith "VALUES" ts.tail then .ok ([], ts.drop 2)
  else if Token.startsWith "VALUES" ts then readRows ts.tail
  else .error .missingValues

/-- Finds what an insertion returns: the items after the first `RETURNING` outside parentheses. -/
def readReturning (ts : List Token) : Except Fault (Option (List Text)) :=
  match afterKeyword "RETURNING" ts with
  | none => .ok none
  | some rest =>
    let items := (parts rest).filter (!·.isEmpty)
    if items.isEmpty then .error .emptyReturning else .ok (some (items.map Token.verbatim))

end Sql

open Sql

/-- Recognises what follows `INSERT`. -/
def Insert.ofTokens (ts : List Token) : Except Fault Insert :=
  if Token.startsWith "INTO" ts then
    match readTableName ts.tail with
    | none => .error .missingTableName
    | some (table, rest) => do
      let (columns, rest) ← readColumnList (if Token.startsWith "AS" rest then rest.drop 2 else rest)
      let (rows, rest) ← readValues rest
      return { table, columns, rows, returning := ← readReturning rest }
  else .error .missingInto

end PgGateway
