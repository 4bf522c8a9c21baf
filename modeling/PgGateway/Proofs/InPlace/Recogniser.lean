import PgGateway.Proofs.Sql.Spans

/-!
# Recognising statements in place

A recogniser can work on the text of a statement itself: a token knows the bytes that it stands on,
runs of tokens are slices, and loops go from index to index. Looking up an index, slicing a run,
cutting a text at bytes and taking one number from another are defined on some arguments only, and
abort on all others; a loop whose index does not grow aborts as well. The recogniser of statements is
written here with such operations (`InPlace.translate`), in the order in which it looks at a
statement.
-/

namespace PgGateway

/-! ## Texts as bytes -/

namespace Text

/-- Cuts so many bytes off the front of a text. There is no such cut behind the end of the text, and
none within a character. -/
def cut? : Nat → Text → Option (Text × Text)
  | 0, t => some ([], t)
  | _ + 1, [] => none
  | n + 1, c :: t =>
    if c.utf8Size ≤ n + 1 then (cut? (n + 1 - c.utf8Size) t).map fun r => (c :: r.1, r.2) else none

/-- The text from one byte up to another. -/
def slice? (start stop : Nat) (t : Text) : Option Text :=
  (cut? start t).bind fun r =>
    if start ≤ stop then (cut? (stop - start) r.2).map Prod.fst else none

/-- Keeps so many bytes of a text, or all if there are no more. -/
def truncate? (n : Nat) (t : Text) : Option Text :=
  if byteLength t < n then some t else (cut? n t).map Prod.fst

end Text

namespace Sql

/-- Works in place: it aborts, or fails, or gives a value. -/
abbrev InPlace (ε α : Type) := ExceptT ε Option α

/-- A token in place: its text, quotes included, the number of its first byte, and that of the byte
behind it. -/
structure Placed where
  kind : TokenKind
  text : Text
  start : Nat
  stop : Nat
deriving DecidableEq, Repr

/-- The token without its place. -/
def Placed.token (p : Placed) : Token := ⟨[], p.kind, p.text⟩

namespace InPlace

variable {ε ε' α σ : Type}

/-! ## Operations that abort -/

/-- The end without an answer. -/
def abort : InPlace ε α := ExceptT.mk none

/-- Aborts where there is no value. -/
def orAbort (value : Option α) : InPlace ε α := ExceptT.mk (value.map .ok)

/-- The element of that index. -/
def index (l : List α) (i : Nat) : InPlace ε α := orAbort l[i]?

/-- The elements from one index up to another. -/
def slice (l : List α) (start stop : Nat) : InPlace ε (List α) :=
  orAbort (if start ≤ stop ∧ stop ≤ l.length then some ((l.take stop).drop start) else none)

/-- The difference of two indices. -/
def minus (m n : Nat) : InPlace ε Nat := orAbort (if n ≤ m then some (m - n) else none)

/-- Goes on from index to index as long as they are below `stop`, with some state. A step is given
what is to be done from the next index on; it aborts unless that index is greater, as the loop would
not end then. -/
def whileBelow (stop : Nat) (behind : Nat → σ → InPlace ε α)
    (step : Nat → σ → (Nat → σ → InPlace ε α) → InPlace ε α) (i : Nat) (s : σ) : InPlace ε α :=
  if i < stop then
    step i s fun j s' => if i < j then whileBelow stop behind step j s' else abort
  else behind i s
termination_by stop - i

/-- Goes on with a failure as with a value. -/
def attempt (c : InPlace ε α) : InPlace ε' (Except ε α) := ExceptT.mk (c.run.map .ok)

/-- Fails for a statement that is held to a shape. -/
def refusedAs (shape : Shape) (c : InPlace Fault α) : InPlace SqlError α :=
  ExceptT.mk (c.run.map (Except.mapError (.malformed shape)))

/-! ## Tokens -/

/-- The normal form. The end of it is cut off by bytes. -/
def normal (sql : Text) : InPlace ε Text :=
  let out := squeeze (.outside .start) sql
  if out.getLast? = some ';' then
    orAbort (Text.truncate? (Text.byteLength (Text.trimEnd out.dropLast)) out)
  else pure out

/-- The byte behind the first quote from `start` on that is not written twice. -/
def closingQuote (bytes : Bytes) (quote : UInt8) (start : Nat) : InPlace ε (Option Nat) :=
  whileBelow bytes.length (fun _ _ => pure none) (fun i _ next => do
    if (← index bytes i) = quote then
      if bytes[i + 1]? = some quote then next (i + 2) () else return some (i + 1)
    else next (i + 1) ()) start ()

/-- The first byte from `start` on that the condition does not hold of. -/
def runEnd (bytes : Bytes) (p : UInt8 → Bool) (start : Nat) : InPlace ε Nat :=
  whileBelow bytes.length (fun i _ => pure i) (fun i _ next => do
    if p (← index bytes i) then next (i + 1) () else return i) start ()

/-- The kind of the token that begins with the byte `b` of number `start`, and the byte behind it. -/
def tokenEnd (sql : Text) (start : Nat) (b : UInt8) : InPlace Fault (TokenKind × Nat) := do
  if b = 0x27 ∨ b = 0x22 then
    match ← closingQuote (Utf8.encode sql) b (start + 1) with
    | none => throw (.unclosedQuote start)
    | some stop => return (if b = 0x22 then .quotedName else .string, stop)
  else if Bytewise.isDigit b then
    return (.number, ← runEnd (Utf8.encode sql) Bytewise.continuesNumber (start + 1))
  else if Bytewise.beginsWord b then
    return (.word, ← runEnd (Utf8.encode sql) Bytewise.continuesWord (start + 1))
  else
    let rest ← orAbort (Text.cut? start sql)
    return (.symbol, start + (rest.2.head?.elim 1 Char.utf8Size))

/-- The tokens of a text from the byte `start` on. -/
def tokensFrom (sql : Text) (start : Nat) : InPlace Fault (List Placed) :=
  whileBelow (Utf8.encode sql).length (fun _ _ => pure []) (fun i _ next => do
    let b ← index (Utf8.encode sql) i
    if Bytewise.isSpace b then next (i + 1) ()
    else
      let found ← tokenEnd sql i b
      let text ← orAbort (Text.slice? i found.2 sql)
      return ⟨found.1, text, i, found.2⟩ :: (← next found.2 ())) start ()

/-- The tokens of a text. -/
def tokenize (sql : Text) : InPlace Fault (List Placed) := tokensFrom sql 0

variable (sql : Text) (ps : List Placed)

/-- The name that a token stands for: without its quotes if it has any. -/
def name (p : Placed) : InPlace ε Text :=
  if p.kind = .quotedName then do
    let stop ← minus (Text.byteLength p.text) 1
    return Text.halve '"' (← orAbort (Text.slice? 1 stop p.text))
  else pure p.text

/-- The token of that index is there, and it is the keyword. -/
def isKeywordAt (i : Nat) (keyword : Text) : Bool := ps[i]?.any (·.token.isKeyword keyword)

/-- The token of that index is there, and it is the symbol. -/
def isSymbolAt (i : Nat) (c : Char) : Bool := ps[i]?.any (·.token.isSymbol c)

/-- The text that a run of tokens covers. -/
def span : InPlace ε Text :=
  match ps.head?, ps.getLast? with
  | some first, some last => orAbort (Text.slice? first.start last.stop sql)
  | _, _ => pure []

/-! ## Parentheses and commas -/

/-- The index behind the closing parenthesis from `start` on that closes the outermost of so many
open ones. -/
def groupEnd (start depth : Nat) : InPlace Fault Nat :=
  whileBelow ps.length (fun _ _ => throw .unbalanced) (fun i depth next => do
    let t ← index ps i
    if t.token.isSymbol '(' then next (i + 1) (depth + 1)
    else if t.token.isSymbol ')' then
      if depth - 1 = 0 then return i + 1 else next (i + 1) (depth - 1)
    else next (i + 1) depth) start depth

/-- The index behind the parenthesis that closes the one at `opening`. -/
def skipGroup (opening : Nat) : InPlace Fault Nat := groupEnd ps opening 0

/-- What is inside the group that the parenthesis at `opening` opens, and the index behind it. -/
def group (opening : Nat) : InPlace Fault (List Placed × Nat) := do
  let stop ← skipGroup ps opening
  return (← slice ps (opening + 1) (← minus stop 1), stop)

/-- The runs between the commas from `start` on that lie in no parentheses, with so many open at the
start. The first run begins at `first`. -/
def runsFrom (start depth first : Nat) : InPlace ε (List (List Placed)) :=
  whileBelow ps.length (fun _ s => do return [← slice ps s.2 ps.length]) (fun i s next => do
    let t ← index ps i
    if t.token.isSymbol '(' then next (i + 1) (s.1 + 1, s.2)
    else if t.token.isSymbol ')' then next (i + 1) (s.1 - 1, s.2)
    else if t.token.isSymbol ',' ∧ s.1 = 0 then do
      let run ← slice ps s.2 i
      return run :: (← next (i + 1) (s.1, i + 1))
    else next (i + 1) s) start (depth, first)

/-- The runs between the commas that lie in no parentheses. -/
def runs : InPlace ε (List (List Placed)) := runsFrom ps 0 0 0

/-- The index of the first keyword from `start` on that lies in no parentheses, with so many open at
the start. -/
def findFrom (keyword : Text) (start depth : Nat) : InPlace ε (Option Nat) :=
  whileBelow ps.length (fun _ _ => pure none) (fun i depth next => do
    let t ← index ps i
    if t.token.isSymbol '(' then next (i + 1) (depth + 1)
    else if t.token.isSymbol ')' then next (i + 1) (depth - 1)
    else if t.token.isKeyword keyword ∧ depth = 0 then return some i
    else next (i + 1) depth) start depth

/-- The index of the first keyword from `start` on that lies in no parentheses. -/
def findKeyword (start : Nat) (keyword : Text) : InPlace ε (Option Nat) :=
  findFrom ps keyword start 0

/-! ## Names of tables -/

/-- The name of a table at an index, perhaps with a schema before it, and the index behind it. -/
def tableName (i : Nat) : InPlace ε (Option (Text × Nat)) :=
  match ps[i]? with
  | none => pure none
  | some first =>
    if first.token.isName then
      if isSymbolAt ps (i + 1) '.' && ps[i + 2]?.any (·.token.isName) then do
        return some (← name (← index ps (i + 2)), i + 3)
      else do
        return some (← name first, i + 1)
    else pure none

/-- The index behind `IF EXISTS` or `IF NOT EXISTS`. -/
def skipGuard (i : Nat) : Nat :=
  if isKeywordAt ps i "IF" && isKeywordAt ps (i + 1) "EXISTS" then i + 2
  else if isKeywordAt ps i "IF" && isKeywordAt ps (i + 1) "NOT" &&
    isKeywordAt ps (i + 2) "EXISTS" then i + 3
  else i

/-! ## Column definitions -/

/-- The token in front of an index, if there is one, is `SET`. -/
def followsSet (i : Nat) : InPlace ε Bool :=
  if 0 < i then do
    let before ← index ps (← minus i 1)
    return before.token.isKeyword "SET"
  else pure false

/-- The end of the clause that begins at `start`, looked for from `here` on: the next column
keyword that lies in no parentheses, is not the first token and does not follow `SET`. -/
def clauseEndFrom (start here : Nat) : InPlace Fault Nat :=
  whileBelow ps.length (fun i _ => pure i) (fun i _ next => do
    let t ← index ps i
    let afterSet ← followsSet ps i
    if start < i ∧ afterSet = false ∧ (ColumnKeyword.ofToken? t.token).isSome then return i
    else if t.token.isSymbol '(' then next (← skipGroup ps i) ()
    else next (i + 1) ()) here ()

/-- The end of the clause that begins at `start`. -/
def clauseEnd (start : Nat) : InPlace Fault Nat := clauseEndFrom ps start start

/-- The item that begins with the word `t` of index `i`, and the index behind it. -/
def item (i : Nat) (t : Token) : InPlace Fault (ColumnItem × Nat) :=
  match ColumnKeyword.ofToken? t with
  | some .not => if isKeywordAt ps (i + 1) "NULL" then pure (.notNull, i + 2) else throw .notWithoutNull
  | some .null => pure (.null, i + 1)
  | some .primary =>
    if isKeywordAt ps (i + 1) "KEY" then pure (.primaryKey, i + 2) else throw .primaryWithoutKey
  | some .unique => pure (.unique, i + 1)
  | some .default => do
    let stop ← clauseEnd ps (i + 1)
    if stop = i + 1 then throw .missingDefault
    else return (.default (← span sql (← slice ps (i + 1) stop)), stop)
  | some .check | some .references => do
    let stop ← clauseEnd ps (i + 1)
    if stop = i + 1 then throw (.incompleteClause (Text.upper t.text))
    else return (.forwarded (← span sql (← slice ps i stop)), stop)
  | some .generated => do
    let stop ← clauseEnd ps (i + 1)
    if (← slice ps (i + 1) stop).any (·.token.isKeyword "IDENTITY") then return (.identity, stop)
    else return (.forwarded (← span sql (← slice ps i stop)), stop)
  | some .constraint | some .collate => pure (.dropped, i + 2)
  | none => pure (.typeWord (Text.upper t.text), i + 1)

/-- The items of a column definition, from an index on. -/
def items (start : Nat) : InPlace Fault (List ColumnItem) :=
  whileBelow ps.length (fun _ _ => pure []) (fun i _ next => do
    let t ← index ps i
    if t.token.isSymbol '(' then next (← skipGroup ps i) ()
    else if t.kind = .word then do
      let found ← item sql ps i t.token
      return found.1 :: (← next found.2 ())
    else next (i + 1) ()) start ()

/-- The column that a run of tokens defines. -/
def column : InPlace Fault Column := do
  let first ← index ps 0
  if first.token.isName then
    let found ← items sql ps 1
    return Column.ofItems (← name first) found
  else throw (.notAColumnName first.text)

/-! ## Table definitions -/

/-- The run is a constraint of the table and no column. -/
def isTableConstraint : InPlace ε Bool := do
  let first := (← index ps 0).token
  return (first.isKeyword "PRIMARY" && isKeywordAt ps 1 "KEY") ||
    (first.isKeyword "FOREIGN" && isKeywordAt ps 1 "KEY") ||
    first.isKeyword "UNIQUE" || first.isKeyword "CONSTRAINT" || first.isKeyword "CHECK"

/-- The name that an entry of a primary key begins with. -/
def keyName : InPlace Fault Text :=
  match ps.head? with
  | some t => if t.token.isName then name t else throw .badKeyList
  | none => throw .badKeyList

/-- The columns that a constraint names as the primary key, if it does. -/
def keyNames : InPlace Fault (Option (List Text)) := do
  let i := if (← index ps 0).token.isKeyword "CONSTRAINT" then 2 else 0
  if isKeywordAt ps i "PRIMARY" && isKeywordAt ps (i + 1) "KEY" then
    if isSymbolAt ps (i + 2) '(' then
      let inside ← group ps (i + 2)
      return some (← (← runs inside.1).mapM keyName)
    else throw .keyWithoutList
  else return none

/-- One part of the block. -/
def tableItem : InPlace Fault TableItem := do
  if ps.isEmpty then throw .emptyDefinition
  else if ← isTableConstraint ps then
    match ← keyNames ps with
    | some names => return .primaryKey names
    | none => return .constraint (← span sql ps)
  else return .column (← column sql ps)

/-- Makes the first column of a name part of the primary key. What the definition of each column says
of NULL is kept beside the columns. -/
def markKey (explicit : List (Option Bool)) (columns : List Column) (key : Text) :
    InPlace Fault (List Column) :=
  match columns.findIdx? fun c => decide (Text.SameWord c.name key) with
  | none => throw (.unknownKeyColumn key)
  | some i => do
    let c ← index columns i
    let nullability ← index explicit i
    return columns.set i { c with primaryKey := true, nullability }

/-- The table that a block defines. -/
def block (table : Text) (ifNotExists : Bool) : InPlace Fault CreateTable := do
  let items ← (← runs ps).mapM (tableItem sql)
  let columns := items.filterMap (·.column?)
  let columns ← (items.flatMap (·.keyNames)).foldlM
    (markKey (columns.map (·.nullability))) columns
  return ⟨table, ifNotExists, columns, items.filterMap (·.constraint?)⟩

/-- The table that is defined from an index on. -/
def definitionFrom (i : Nat) : InPlace Fault CreateTable := do
  match ← tableName ps i with
  | none => throw .missingTableName
  | some found =>
    if isSymbolAt ps found.2 '(' then
      let inside ← group ps found.2
      if inside.1.isEmpty then throw .noColumns else block sql inside.1 found.1 (i == 5)
    else throw .missingColumns

/-- The table that a definition defines. With `IF NOT EXISTS` in front of it, its name has the
index 5. -/
def definition : InPlace Fault CreateTable :=
  if skipGuard ps 2 = 4 then throw .guardNotAllowed else definitionFrom sql ps (skipGuard ps 2)

/-! ## Insertions -/

/-- The name that an entry of a list of columns is. -/
def columnName : InPlace Fault Text :=
  match ps with
  | [t] => if t.token.isName then name t else throw .badColumnList
  | _ => throw .badColumnList

/-- The list of columns at an index, if there is one, and the index behind it. -/
def columnList (i : Nat) : InPlace Fault (List Text × Nat) :=
  if isSymbolAt ps i '(' then do
    let inside ← group ps i
    return (← (← runs inside.1).mapM columnName, inside.2)
  else pure ([], i)

/-- The rows of values from an index on, and the index behind them. -/
def rows (start : Nat) : InPlace Fault (List Text × Nat) :=
  whileBelow (ps.length + 1) (fun _ _ => abort) (fun i _ next => do
    if isSymbolAt ps i '(' then
      let inside ← group ps i
      let row ← span sql inside.1
      if isSymbolAt ps inside.2 ',' then do
        let later ← next (inside.2 + 1) ()
        return (row :: later.1, later.2)
      else return ([row], inside.2)
    else throw .missingRow) start ()

/-- The values of an insertion, and the index behind them. -/
def values (i : Nat) : InPlace Fault (List Text × Nat) :=
  if isKeywordAt ps i "DEFAULT" && isKeywordAt ps (i + 1) "VALUES" then pure ([], i + 2)
  else if isKeywordAt ps i "VALUES" then rows sql ps (i + 1)
  else throw .missingValues

/-- What an insertion returns. -/
def returning (i : Nat) : InPlace Fault (Option (List Text)) := do
  match ← findKeyword ps i "RETURNING" with
  | none => return none
  | some found =>
    let found ← runs (← slice ps (found + 1) ps.length)
    let items ← (found.filter (!·.isEmpty)).mapM (span sql)
    if items.isEmpty then throw .emptyReturning else return some items

/-- The insertion that tokens stand for. -/
def insertion : InPlace Fault Insert :=
  if isKeywordAt ps 1 "INTO" then do
    match ← tableName ps 2 with
    | none => throw .missingTableName
    | some found =>
      let i := if isKeywordAt ps found.2 "AS" then found.2 + 2 else found.2
      let columns ← columnList ps i
      let rows ← values sql ps columns.2
      return ⟨found.1, columns.1, rows.1, ← returning sql ps rows.2⟩
  else throw .missingInto

/-! ## Writing table definitions -/

/-- The tokens are a literal, a number with a sign, or all in one pair of parentheses. -/
def isLiteral : InPlace ε Bool :=
  match ps with
  | [] => pure false
  | [t] => pure (t.kind == .number || t.kind == .string || literalWords.any t.token.isKeyword)
  | [sign, n] =>
    pure ((sign.token.isSymbol '-' || sign.token.isSymbol '+') && n.kind == .number)
  | first :: _ =>
    if first.token.isSymbol '(' then do
      match ← attempt (skipGroup ps 0) with
      | .ok stop => return stop == ps.length
      | .error _ => return false
    else pure false

/-- A default expression as the engine takes it. -/
def writeDefault (expression : Text) : InPlace ε Text := do
  match ← attempt (tokenize expression) with
  | .ok ps => return if ← isLiteral ps then expression else ("(" ++ expression ++ ")" : Text)
  | .error _ => return ("(" ++ expression ++ ")" : Text)

/-- The default of a column, if it has one, as the engine takes it. -/
def writeDefaultClause (c : Column) : InPlace ε Text :=
  match c.defaultText with
  | some expression => do return " DEFAULT " ++ (← writeDefault expression)
  | none => pure []

/-- A column as the engine takes it. -/
def writeColumn (inlineKey : Bool) (c : Column) : InPlace ε Text := do
  let default ← writeDefaultClause c
  let written : Text := writeName c.name ++ " " ++ c.type.storage.name ++
    Text.only (!c.nullable) " NOT" ++ " NULL" ++
    Text.only (c.primaryKey && inlineKey) " PRIMARY KEY" ++ Text.only c.unique " UNIQUE" ++
    default ++ c.constraints.flatMap fun clause => ' ' :: clause
  return written

/-- A table definition as the engine takes it. -/
def write (c : CreateTable) : InPlace ε Text := do
  let columns ← c.columns.mapM (writeColumn (c.keyColumns.length == 1))
  let key : List Text := if 1 < c.keyColumns.length then
      ["PRIMARY KEY (" ++ Text.join ", " (c.keyColumns.map fun k => writeName k.name) ++ ")"]
    else []
  let written : Text := "CREATE TABLE " ++ Text.only c.ifNotExists "IF NOT EXISTS " ++
    writeName c.table ++ " ( " ++ Text.join ", " (columns ++ key ++ c.constraints) ++ " );"
  return written

/-! ## Statements -/

/-- The table that is named at an index. -/
def tableAt (i : Nat) : InPlace ε (Option Text) := do return (← tableName ps i).map Prod.fst

/-- The table named after the first `FROM` that lies in no parentheses. -/
def tableFrom : InPlace ε (Option Text) := do
  match ← findKeyword ps 0 "FROM" with
  | none => return none
  | some i => tableAt ps (if isKeywordAt ps (i + 1) "ONLY" then i + 2 else i + 1)

/-- The statement that drops something. -/
def dropping : InPlace ε Statement := do
  let object := ps[1]?.map fun t => Text.upper t.text
  if object = some "TABLE" then return .drop object (← tableAt ps (skipGuard ps 2))
  else return .drop object none

/-- The statement that tokens stand for. -/
def statement : InPlace SqlError Statement :=
  match ps.head? with
  | none => throw (.unsupported [])
  | some p =>
    let t := p.token
    if t.isKeyword "CREATE" && isKeywordAt ps 1 "TABLE" then
      refusedAs .createTable do return .createTable (← definition sql ps)
    else if t.isKeyword "SELECT" || t.isKeyword "WITH" then do return .select (← tableFrom ps)
    else if t.isKeyword "INSERT" then refusedAs .insert do return .insert (← insertion sql ps)
    else if t.isKeyword "UPDATE" then do
      return .update (← tableAt ps (if isKeywordAt ps 1 "ONLY" then 2 else 1))
    else if t.isKeyword "DELETE" then do return .delete (← tableFrom ps)
    else if t.isKeyword "DROP" then dropping ps
    else throw (.unsupported t.text)

/-- The text that the engine is given for a statement. -/
def engineText (normal : Text) (s : Statement) : InPlace ε Text :=
  match s with
  | .createTable definition => write definition
  | _ => pure normal

/-- Translates the text of one statement. -/
def translate : InPlace SqlError Translated := do
  let normal ← normal sql
  let ps ← refusedAs .statement (tokenize normal)
  if ps.any (·.token.isSymbol ';') then throw (.malformed .statement .severalStatements)
  else
    let statement ← statement normal ps
    return ⟨sql, ← engineText normal statement, statement⟩

end InPlace

end Sql

end PgGateway
