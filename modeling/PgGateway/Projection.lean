import PgGateway.Registry
import PgGateway.Wire.Backend

/-!
# Results on the wire

The result of a statement becomes a description of its columns and a row of texts for each of its
rows. A column is described by the type declared for it, as long as its data bear that type out,
and by its first value otherwise.
-/

namespace PgGateway

/-- The wire type of a declared type. -/
def ColumnType.oid : ColumnType → Oid
  | integer => .int4
  | bigInt => .int8
  | real => .float4
  | doublePrecision => .float8
  | text => .text

/-- A column of the storage type can hold the value as it is. -/
def StorageType.admits : StorageType → Value → Bool
  | _, .null => true
  | integer, .integer _ => true
  | real, .integer _ => true
  | real, .real _ => true
  | text, .blob _ => false
  | text, _ => true
  | _, _ => false

/-- The storage type that the engine derives from a declared type: the first of three groups of
words that occurs in it. -/
def StorageType.ofDeclared (declared : Text) : Option StorageType :=
  let word := Text.upper declared
  let mentions (parts : List Text) : Bool := parts.any fun part => Text.Contains part word
  if mentions ["INT"] then some integer
  else if mentions ["CHAR", "CLOB", "TEXT"] then some text
  else if mentions ["REAL", "FLOA", "DOUB"] then some real
  else none

namespace ResultSet

/-- The values at one place of all rows that reach it. -/
def valuesAt (r : ResultSet) (index : Nat) : List Value := r.rows.filterMap (·[index]?)

/-- The type that the engine declares for a column. -/
def declaredAt (r : ResultSet) (index : Nat) : Option Text := (r.declared[index]?).getD none

/-- The column bears out a storage type: the engine declares no other one, and no value is of
another class. -/
def bearsOut (r : ResultSet) (index : Nat) (type : StorageType) : Bool :=
  (match r.declaredAt index with
    | some declared => StorageType.ofDeclared declared == some type
    | none => true) &&
    (r.valuesAt index).all type.admits

/-- The type of a column by its first value that is not NULL. -/
def sampledOid (r : ResultSet) (index : Nat) : Oid :=
  match (r.valuesAt index).find? (!·.isNull) with
  | some value => value.inferredOid
  | none => .text

/-- The type by which a column is described, given what is known about the source table. -/
def oidAt (r : ResultSet) (table : Option TableInfo) (index : Nat) (name : Text) : Oid :=
  match table.bind (·.column? name) with
  | some column =>
    if r.bearsOut index column.type.storage then column.type.oid else r.sampledOid index
  | none => r.sampledOid index

/-- The descriptions of the columns, numbered from one. -/
def fields (r : ResultSet) (table : Option TableInfo) : List Field :=
  r.columns.zipIdx.map fun (name, index) =>
    Field.plain name (Int16.ofNat (index + 1)) (r.oidAt table index name)

end ResultSet

/-- A result as it travels. -/
structure Projection where
  fields : List Field
  rows : List (List (Option Bytes))
deriving DecidableEq, Repr

namespace Projection

/-- The projection of a result, described by the declared columns of its source table. -/
def ofResult (result : ResultSet) (source : Option Text) (registry : Registry) : Projection :=
  { fields := result.fields (source.bind registry.table?)
    rows := result.rows.map fun row => row.map Value.wireText }

/-- The messages of a projection: one description, and the rows. -/
def messages (p : Projection) : List Backend :=
  .rowDescription p.fields :: p.rows.map .dataRow

end Projection

end PgGateway
