import PgGateway.Sql.ColumnType
import PgGateway.Sql.Error
import PgGateway.Sql.Group

/-!
# Column definitions

A column definition is a name, words for its type, and clauses in any order. It is read as a list
of items, and the column is what the items say together.
-/

namespace PgGateway

namespace Sql

/-- The keywords that end the type of a column, or a clause, and begin the next clause. -/
inductive ColumnKeyword
  | not
  | null
  | primary
  | unique
  | default
  | check
  | references
  | constraint
  | generated
  | collate
deriving DecidableEq, Repr

namespace ColumnKeyword

/-- The keyword as it is written. -/
def text : ColumnKeyword → Text
  | not => "NOT"
  | null => "NULL"
  | primary => "PRIMARY"
  | unique => "UNIQUE"
  | default => "DEFAULT"
  | check => "CHECK"
  | references => "REFERENCES"
  | constraint => "CONSTRAINT"
  | generated => "GENERATED"
  | collate => "COLLATE"

/-- All keywords of column definitions. -/
def all : List ColumnKeyword :=
  [not, null, primary, unique, default, check, references, constraint, generated, collate]

/-- The keyword that a token is, if any. -/
def ofToken? (t : Token) : Option ColumnKeyword := all.find? fun k => t.isKeyword k.text

end ColumnKeyword

/-! ## Clauses -/

/-- Reads a clause up to the next column keyword outside parentheses. A keyword ends the clause
only where `ends` allows it: not as its first token, and not right after `SET`, which in referential
actions is followed by `NULL` or `DEFAULT`. -/
def readClauseFrom (ends : Bool) (ts : List Token) : Except Fault (List Token × List Token) :=
  match ts with
  | [] => .ok ([], [])
  | t :: rest =>
    if ends && (ColumnKeyword.ofToken? t).isSome then .ok ([], t :: rest)
    else if t.isSymbol '(' then
      match _h : readGroup (t :: rest) with
      | none => .error .unbalanced
      | some (g, rest') => (readClauseFrom true rest').map fun r => (g.tokens ++ r.1, r.2)
    else (readClauseFrom (!t.isKeyword "SET") rest).map fun r => (t :: r.1, r.2)
termination_by ts.length
decreasing_by
  · exact readGroup_length_lt _h
  · simp

/-- Reads the clause that follows its keyword, and the rest. -/
def readClause (ts : List Token) : Except Fault (List Token × List Token) :=
  readClauseFrom false ts

theorem readClauseFrom_length_le {ends : Bool} {ts : List Token} {r : List Token × List Token}
    (h : readClauseFrom ends ts = .ok r) : r.2.length ≤ ts.length := by
  fun_induction readClauseFrom ends ts generalizing r with
  | case1 => cases h; exact Nat.le_refl _
  | case2 => cases h; exact Nat.le_refl _
  | case3 => cases h
  | case4 ends t rest _ _ g rest' hg ih =>
    cases hr : readClauseFrom true rest' with
    | error e => rw [hr] at h; cases h
    | ok s =>
      rw [hr] at h
      cases h
      exact Nat.le_trans (ih (r := s) hr) (Nat.le_of_lt (readGroup_length_lt hg))
  | case5 ends t rest _ _ ih =>
    cases hr : readClauseFrom (!t.isKeyword "SET") rest with
    | error e => rw [hr] at h; cases h
    | ok s =>
      rw [hr] at h
      cases h
      exact Nat.le_succ_of_le (ih (r := s) hr)

/-- Reading a clause leaves no more tokens than there were. -/
theorem readClause_length_le {ts : List Token} {r : List Token × List Token}
    (h : readClause ts = .ok r) : r.2.length ≤ ts.length := readClauseFrom_length_le h

/-! ## Items -/

/-- What one part of a column definition says. -/
inductive ColumnItem
  /-- A word of the type, in upper case. -/
  | typeWord (word : Text)
  | notNull
  | null
  | primaryKey
  | unique
  /-- A default, with its expression as written. -/
  | default (expression : Text)
  /-- A clause that is passed on as written. -/
  | forwarded (clause : Text)
  /-- The column numbers itself. -/
  | identity
  /-- The name of a constraint or a collation, which is not kept. -/
  | dropped
deriving DecidableEq, Repr

/-- Reads the item that begins with the word `t`, and the rest. -/
def readItem (t : Token) (rest : List Token) : Except Fault (ColumnItem × List Token) :=
  match ColumnKeyword.ofToken? t with
  | some .not =>
    if Token.startsWith "NULL" rest then .ok (.notNull, rest.tail) else .error .notWithoutNull
  | some .null => .ok (.null, rest)
  | some .primary =>
    if Token.startsWith "KEY" rest then .ok (.primaryKey, rest.tail)
    else .error .primaryWithoutKey
  | some .unique => .ok (.unique, rest)
  | some .default =>
    match readClause rest with
    | .error e => .error e
    | .ok (clause, rest) =>
      if clause.isEmpty then .error .missingDefault
      else .ok (.default (Token.verbatim clause), rest)
  | some .check | some .references =>
    match readClause rest with
    | .error e => .error e
    | .ok (clause, rest) =>
      if clause.isEmpty then .error (.incompleteClause (Text.upper t.text))
      else .ok (.forwarded (Token.verbatim (t :: clause)), rest)
  | some .generated =>
    match readClause rest with
    | .error e => .error e
    | .ok (clause, rest) =>
      if clause.any (·.isKeyword "IDENTITY") then .ok (.identity, rest)
      else .ok (.forwarded (Token.verbatim (t :: clause)), rest)
  | some .constraint | some .collate => .ok (.dropped, rest.tail)
  | none => .ok (.typeWord (Text.upper t.text), rest)

/-- Reading an item leaves no more than what followed its first word. -/
theorem readItem_length_le {t : Token} {rest : List Token} {r : ColumnItem × List Token}
    (h : readItem t rest = .ok r) : r.2.length ≤ rest.length := by
  have tail_le : rest.tail.length ≤ rest.length := by simp
  unfold readItem at h
  split at h
  · split at h <;> cases h; exact tail_le
  · cases h; exact Nat.le_refl _
  · split at h <;> cases h; exact tail_le
  · cases h; exact Nat.le_refl _
  · split at h
    · cases h
    · next hc => split at h <;> cases h; exact readClause_length_le hc
  · split at h
    · cases h
    · next hc => split at h <;> cases h; exact readClause_length_le hc
  · split at h
    · cases h
    · next hc => split at h <;> cases h; exact readClause_length_le hc
  · split at h
    · cases h
    · next hc => split at h <;> cases h <;> exact readClause_length_le hc
  · cases h; exact tail_le
  · cases h; exact tail_le
  · cases h; exact Nat.le_refl _

/-- Reads the items after the name of a column. Arguments of types, in parentheses, and tokens
that are no words say nothing. -/
def readItems (ts : List Token) : Except Fault (List ColumnItem) :=
  match ts with
  | [] => .ok []
  | t :: rest =>
    if t.isSymbol '(' then
      match _h : readGroup (t :: rest) with
      | none => .error .unbalanced
      | some (_, rest') => readItems rest'
    else if t.kind = .word then
      match _h : readItem t rest with
      | .error e => .error e
      | .ok (item, rest') => (readItems rest').map (item :: ·)
    else readItems rest
termination_by ts.length
decreasing_by
  · exact readGroup_length_lt _h
  · exact Nat.lt_succ_of_le (readItem_length_le _h)
  · simp

namespace ColumnItem

/-- The word of the type that an item is. -/
def typeWord? : ColumnItem → Option Text
  | typeWord word => some word
  | _ => none

/-- The expression of a default. -/
def default? : ColumnItem → Option Text
  | default expression => some expression
  | _ => none

/-- The clause that an item passes on. -/
def forwarded? : ColumnItem → Option Text
  | forwarded clause => some clause
  | _ => none

end ColumnItem

end Sql

/-! ## Columns -/

/-- A column of a table definition. -/
structure Column where
  name : Text
  type : ColumnType
  primaryKey : Bool
  /-- The column numbers itself: its type is a serial one or it has an identity clause. -/
  autoIncrement : Bool
  /-- Whether the definition says NULL or NOT NULL. -/
  nullability : Option Bool
  unique : Bool
  /-- The default expression, as written. -/
  defaultText : Option Text
  /-- Checks, references and generated values, as written. -/
  constraints : List Text
deriving DecidableEq, Repr

namespace Column

open Sql

/-- The column can hold NULL: as its definition says, or else if it is not part of the key. -/
def nullable (c : Column) : Bool := c.nullability.getD (!c.primaryKey)

/-- The column that the items of a definition describe. NOT NULL wins over NULL, and the last
default over those before it. -/
def ofItems (name : Text) (items : List ColumnItem) : Column :=
  let words := items.filterMap (·.typeWord?)
  { name
    type := ColumnType.ofWords words
    primaryKey := items.contains .primaryKey
    autoIncrement :=
      items.contains .identity || ColumnType.mentions words ColumnType.serialWords
    nullability :=
      if items.contains .notNull then some false
      else if items.contains .null then some true
      else none
    unique := items.contains .unique
    defaultText := (items.filterMap (·.default?)).getLast?
    constraints := items.filterMap (·.forwarded?) }

/-- The column that the tokens of a definition describe. -/
def ofTokens : List Token → Except Fault Column
  | [] => .error .emptyDefinition
  | t :: rest =>
    if t.isName then (readItems rest).map (ofItems t.name)
    else .error (.notAColumnName t.text)

end Column

end PgGateway
