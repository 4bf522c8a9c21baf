import PgGateway.Engine.Basic
import PgGateway.Sql.Statement
import PgGateway.Text.Blank
import PgGateway.Text.Lowercase

/-!
# The registry of tables

The engine forgets which types were declared. The registry keeps, for every table, the columns as
they were declared, so that results can be described as clients expect. All sessions share it.
Tables are found by their names in lower case.
-/

namespace PgGateway

/-- What is known about a column of a table. -/
structure ColumnInfo where
  name : Text
  type : ColumnType
  nullable : Bool
  defaultText : Option Text
  primaryKey : Bool
deriving DecidableEq, Repr

/-- What is known about a table. -/
structure TableInfo where
  name : Text
  columns : List ColumnInfo
deriving DecidableEq, Repr

/-- What a column definition declares. -/
def Column.info (c : Column) : ColumnInfo :=
  { name := c.name, type := c.type, nullable := c.nullable, defaultText := c.defaultText
    primaryKey := c.primaryKey }

/-- What a table definition declares. -/
def CreateTable.info (c : CreateTable) : TableInfo := ⟨c.table, c.columns.map Column.info⟩

/-- The first column of a name. -/
def TableInfo.column? (t : TableInfo) (name : Text) : Option ColumnInfo :=
  t.columns.find? fun c => Text.SameWord c.name name

/-- The tables known, each under its key. No key occurs twice. -/
structure Registry where
  entries : List (Text × TableInfo)
  distinct : (entries.map Prod.fst).Nodup

namespace Registry

/-- A registry without tables. -/
def empty : Registry := ⟨[], List.nodup_nil⟩

/-- The key of a table. -/
def key (table : Text) : Text := Text.lowercase table

theorem nodup_keys_filter {entries : List (Text × TableInfo)}
    (h : (entries.map Prod.fst).Nodup) (p : Text × TableInfo → Bool) :
    ((entries.filter p).map Prod.fst).Nodup :=
  h.sublist (List.filter_sublist.map Prod.fst)

/-- Removes the entry under a key. -/
def erase (r : Registry) (k : Text) : Registry :=
  ⟨r.entries.filter fun e => e.1 != k, nodup_keys_filter r.distinct _⟩

/-- Puts an entry under a key, in place of any other. -/
def insert (r : Registry) (k : Text) (info : TableInfo) : Registry :=
  ⟨(k, info) :: (r.erase k).entries, by
    refine List.nodup_cons.2 ⟨fun h => ?_, (r.erase k).distinct⟩
    obtain ⟨e, he, hk⟩ := List.mem_map.1 h
    have := (List.mem_filter.1 he).2
    simp_all⟩

/-- The entry under a key. -/
def find? (r : Registry) (k : Text) : Option TableInfo :=
  (r.entries.find? fun e => e.1 == k).map Prod.snd

/-- Removing an entry hides it and no other. -/
theorem find?_erase (r : Registry) (k j : Text) :
    (r.erase k).find? j = if j = k then none else r.find? j := by
  unfold find? erase
  by_cases hjk : j = k
  · have none_left : (r.entries.filter fun e => e.1 != k).find? (fun e => e.1 == j) = none := by
      rw [List.find?_eq_none]
      intro e he h
      have := (List.mem_filter.1 he).2
      simp_all
    rw [if_pos hjk, none_left]
    rfl
  · have same : (r.entries.filter fun e => e.1 != k).find? (fun e => e.1 == j) =
        r.entries.find? fun e => e.1 == j := by
      rw [List.find?_filter]
      congr 1
      funext e
      by_cases he : e.1 = j
      · simp_all
      · simp [he]
    rw [if_neg hjk, same]

/-- Putting an entry under a key changes what is found there and nowhere else. -/
theorem find?_insert (r : Registry) (k j : Text) (info : TableInfo) :
    (r.insert k info).find? j = if j = k then some info else r.find? j := by
  have later := find?_erase r k j
  unfold find? insert at *
  by_cases hjk : j = k
  · simp [hjk]
  · rw [if_neg hjk, List.find?_cons_of_neg (by simpa using fun h => hjk h.symm), later,
      if_neg hjk]

/-- What is known about a table. -/
def table? (r : Registry) (name : Text) : Option TableInfo := r.find? (key name)

/-- The declared type of a column of a table. -/
def declaredType? (r : Registry) (table column : Text) : Option ColumnType :=
  ((r.table? table).bind (·.column? column)).map (·.type)

/-- The number of tables. -/
def size (r : Registry) : Nat := r.entries.length

/-- There is no table. -/
def isEmpty (r : Registry) : Bool := r.entries.isEmpty

/-- The order of texts by the code points of their characters. -/
def precedes : Text → Text → Bool
  | [], _ => true
  | _ :: _, [] => false
  | a :: as, b :: bs => a.val < b.val || (a == b && precedes as bs)

/-- The names of the tables as they were declared, in order. -/
def names (r : Registry) : List Text := (r.entries.map (·.2.name)).mergeSort precedes

/-! ## Changes -/

/-- Records a table definition that the engine has carried out. Where the definition left an
existing table alone, its entry is left alone too. -/
def register (r : Registry) (c : CreateTable) : Registry :=
  if c.ifNotExists && (r.table? c.table).isSome then r else r.insert (key c.table) c.info

/-- Forgets a table. -/
def drop (r : Registry) (table : Text) : Registry := r.erase (key table)

/-- Records a statement that the engine has carried out. -/
def record (r : Registry) : Statement → Registry
  | .createTable definition => r.register definition
  | .drop _ (some table) => r.drop table
  | _ => r

/-! ## Tables of an existing database -/

/-- The query for the names of the tables that a database holds. -/
def tablesQuery : Text :=
  "\nSELECT name\nFROM sqlite_master\nWHERE type = 'table'\n  AND name NOT LIKE 'sqlite_%'\nORDER BY name\n"

/-- The query for the columns of a table. -/
def columnsQuery (table : Text) : Text := "PRAGMA table_info(" ++ Text.quote '\'' table ++ ")"

/-- The column that a row of the answer to `columnsQuery` describes: number, name, type, whether it
is not nullable, default, and place in the primary key. -/
def columnOfRow : List Value → Option ColumnInfo
  | [_, name, type, notNull, default, place] => do
    let name ← name.asText?
    return {
      name
      type := ColumnType.ofWords ((Text.words (type.asText?.getD [])).map Text.upper)
      nullable := notNull.asInt64? == some 0
      defaultText := default.asText?
      primaryKey := place.asInt64?.any (0 < ·) }
  | _ => none

/-- Loads the tables of the given names, one call of the engine for each. Tables loaded before a
call fails stay. -/
def loadTables {σ : Type} (engine : Engine σ) :
    List Text → Registry → σ → Except EngineError Nat × Registry × σ
  | [], r, s => (.ok 0, r, s)
  | name :: names, r, s =>
    match engine ⟨columnsQuery name, false⟩ s with
    | (.error e, s) => (.error e, r, s)
    | (.ok result, s) =>
      let (loaded, rest) := loadTables engine names
        (r.insert (key name) ⟨name, result.rows.filterMap columnOfRow⟩) s
      (loaded.map (· + 1), rest)

/-- Loads the tables that the database of an engine holds, and tells how many there are. -/
def load {σ : Type} (engine : Engine σ) (r : Registry) (s : σ) :
    Except EngineError Nat × Registry × σ :=
  match engine ⟨tablesQuery, false⟩ s with
  | (.error e, s) => (.error e, r, s)
  | (.ok result, s) =>
    loadTables engine (result.rows.filterMap fun row => row.head?.bind Value.asText?) r s

end Registry

end PgGateway
