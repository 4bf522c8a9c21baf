import Mathlib.Data.List.Basic
import PgGateway.Proofs.Session.Failure
import PgGateway.Proofs.Sql.Translation
import PgGateway.Proofs.Text.LetterCase

/-!
# Columns described as they were declared

A client declares the type of a column, the engine is given the word for its storage type, and the
registry remembers what was declared. A column of a result that carries the data of a declared
column (`ResultSet.Carries`) is described with the declared type, whatever stands beside it and
however many rows there are (`described_as_declared`).
-/

namespace PgGateway

open Sql

/-! ## What was declared -/

namespace ColumnType

/-- The number of a declared type in the catalogue of types. -/
def catalogueNumber : ColumnType → Int32
  | integer => 23
  | bigInt => 20
  | real => 700
  | doublePrecision => 701
  | text => 25

theorem number_oid (type : ColumnType) : type.oid.number = type.catalogueNumber := by
  cases type <;> rfl

/-- A column of the declared type can hold the value: NULL, or an integer, or a number, or anything
but bytes. -/
def Stores : ColumnType → Value → Prop
  | _, .null => True
  | integer, value | bigInt, value => ∃ i, value = .integer i
  | real, value | doublePrecision, value => (∃ i, value = .integer i) ∨ ∃ x, value = .real x
  | text, value => ∀ bytes, value ≠ .blob bytes

theorem admits_of_stores {type : ColumnType} {value : Value} (h : type.Stores value) :
    type.storage.admits value = true := by
  cases type <;> cases value <;> simp [Stores, storage, StorageType.admits] at h ⊢

end ColumnType

/-- The engine derives the storage type again from its name. -/
theorem StorageType.ofDeclared_name (type : StorageType) : ofDeclared type.name = some type := by
  cases type <;> decide

namespace CreateTable

variable {c : CreateTable} {index : Nat} {column : Column} {word : Text}

/-- The word that the text for the engine has for the type of a column: in the part of the block
that is the column's, it stands behind the name, up to the next space. -/
def TypeWord (c : CreateTable) (index : Nat) (word : Text) : Prop :=
  ' ' ∉ word ∧ ∃ column tail, c.columns[index]? = some column ∧
    c.blockParts[index]? = some (writeName column.name ++ ' ' :: (word ++ ' ' :: tail))

theorem blockParts_getElem? (h : c.columns[index]? = some column) :
    c.blockParts[index]? = some (column.write (c.keyColumns.length == 1)) := by
  have hlt : index < c.columns.length := (List.getElem?_eq_some_iff.1 h).1
  rw [blockParts, List.append_assoc, List.getElem?_append_left (by simpa using hlt),
    List.getElem?_map, h]
  rfl

end CreateTable

/-- A column is written as its name, the name of its storage type, and what comes behind a space. -/
theorem Column.write_split (inlineKey : Bool) (c : Column) :
    ∃ tail, c.write inlineKey =
      writeName c.name ++ ' ' :: (c.type.storage.name ++ ' ' :: tail) := by
  obtain ⟨rest, hrest⟩ : ∃ rest, c.write inlineKey = writeName c.name ++ (" " : Text) ++
      c.type.storage.name ++ Text.only (!c.nullable) " NOT" ++ (" NULL" : Text) ++ rest :=
    ⟨_, by unfold Column.write; simp only [List.append_assoc]; rfl⟩
  rw [hrest]
  cases c.nullable with
  | true => exact ⟨"NULL".toList ++ rest, by simp [Text.only]⟩
  | false => exact ⟨"NOT NULL".toList ++ rest, by simp [Text.only]⟩

namespace CreateTable

variable {c : CreateTable} {index : Nat} {column : Column} {word : Text}

theorem takeWhile_space (h : ' ' ∉ word) (rest : Text) :
    (word ++ ' ' :: rest).takeWhile (· != ' ') = word := by
  refine (takeWhile_append_stop (fun d hd => ?_) (fun d hd => ?_)).1
  · exact bne_iff_ne.2 (ne_of_mem_of_not_mem hd h)
  · obtain rfl := Option.some.inj hd
    exact bne_self_eq_false ' '

/-- **A column is given the name of its storage type.** -/
theorem typeWord_iff (h : c.columns[index]? = some column) :
    c.TypeWord index word ↔ word = column.type.storage.name := by
  have hspace : ' ' ∉ column.type.storage.name := by
    cases column.type.storage <;> decide
  obtain ⟨tail, hwrite⟩ := column.write_split (c.keyColumns.length == 1)
  unfold TypeWord
  rw [blockParts_getElem? h, hwrite]
  constructor
  · rintro ⟨hword, other, rest, hother, hpart⟩
    obtain rfl : column = other := by rw [h] at hother; exact Option.some.inj hother
    have hsplit := (List.cons.inj (List.append_cancel_left (Option.some.inj hpart))).2
    -- both words are what stands before the first space
    have hfirst := congrArg (List.takeWhile (· != ' ')) hsplit
    rw [takeWhile_space hspace, takeWhile_space hword] at hfirst
    exact hfirst.symm
  · rintro rfl
    exact ⟨hspace, column, tail, h, rfl⟩

/-- Where no two columns have one name, a column is found by its name in any letter case. -/
theorem column?_info {name : Text} (distinct : Distinct c.columns) (hcolumn : column ∈ c.columns)
    (hname : Text.SameWord name column.name) : c.info.column? name = some column.info := by
  have hnames : (fun d : Column => decide (Text.SameWord d.info.name name)) =
      fun d => decide (Text.SameWord d.name name) := rfl
  have hfound : (c.columns.find? fun d => decide (Text.SameWord d.name name)) = some column := by
    cases hfind : c.columns.find? fun d => decide (Text.SameWord d.name name) with
    | none =>
      exact absurd (decide_eq_true hname.symm) (List.find?_eq_none.1 hfind column hcolumn)
    | some d =>
      have hd := List.find?_some hfind
      have hd : Text.SameWord d.name name := of_decide_eq_true hd
      rw [distinct.eq_of_sameWord (List.mem_of_find?_eq_some hfind) hcolumn (hd.trans hname)]
  rw [TableInfo.column?, info, List.find?_map]
  show ((c.columns.find? fun d => decide (Text.SameWord d.info.name name)).map Column.info) = _
  rw [hnames, hfound]
  rfl

end CreateTable

/-! ## What is remembered -/

/-- The statement takes away what is known of the table under the key: it drops the table, or
defines it whether there is one or not. -/
def Statement.Supplants (k : Text) : Statement → Prop
  | createTable c => Registry.key c.table = k ∧ c.ifNotExists = false
  | drop _ (some table) => Registry.key table = k
  | _ => False

namespace Registry

variable {r : Registry} {k : Text} {info : TableInfo} {later : List Statement}

/-- What is known of a table stays until a statement takes it away. -/
theorem find?_record_of_not_supplants {s : Statement} (hs : ¬s.Supplants k)
    (h : r.find? k = some info) : (r.record s).find? k = some info := by
  rw [find?_record_eq, h]
  cases s with
  | createTable c =>
    apply if_neg
    rintro ⟨hk, hnew⟩
    exact hs ⟨hk, by simpa using hnew⟩
  | drop object table =>
    cases table with
    | none => rfl
    | some table => exact if_neg hs
  | select | insert | update | delete => rfl

theorem find?_foldl_record (hlater : ∀ s ∈ later, ¬s.Supplants k) (h : r.find? k = some info) :
    (later.foldl record r).find? k = some info := by
  induction later generalizing r with
  | nil => exact h
  | cons s later ih =>
    rw [List.forall_mem_cons] at hlater
    exact ih hlater.2 (find?_record_of_not_supplants hlater.1 h)

/-- A definition that is carried out is known, unless it leaves a known table alone. -/
theorem find?_record_createTable {c : CreateTable}
    (hnew : c.ifNotExists = true → r.table? c.table = none) :
    (r.record (.createTable c)).find? (key c.table) = some c.info := by
  rw [find?_record_eq]
  refine if_pos ⟨rfl, ?_⟩
  rintro ⟨hguarded, hknown⟩
  have hnone : r.find? (key c.table) = none := hnew hguarded
  rw [hnone] at hknown
  cases hknown

end Registry

/-! ## What is described -/

namespace ResultSet

variable {r : ResultSet} {place : Nat} {name : Text} {table : Option TableInfo}

/-- The column of the result at `place` carries the data of the column at `index` of a definition:
it has its name, the engine declares no type for it but the word that it was given, and every value
is one that the declared type stores. -/
structure Carries (r : ResultSet) (place : Nat) (c : CreateTable) (index : Nat)
    (column : Column) : Prop where
  defined : c.columns[index]? = some column
  named : ∃ name, r.columns[place]? = some name ∧ Text.SameWord name column.name
  declared : ∀ word, r.declaredAt place = some word → c.TypeWord index word
  values : ∀ value ∈ r.valuesAt place, column.type.Stores value

theorem Carries.bearsOut {c : CreateTable} {index : Nat} {column : Column}
    (h : r.Carries place c index column) : r.bearsOut place column.type.storage = true := by
  rw [ResultSet.bearsOut, Bool.and_eq_true]
  constructor
  · split
    · next word hword =>
      rw [(CreateTable.typeWord_iff h.defined).1 (h.declared word hword),
        StorageType.ofDeclared_name, beq_self_eq_true]
    · rfl
  · rw [List.all_eq_true]
    exact fun value hvalue => ColumnType.admits_of_stores (h.values value hvalue)

theorem oidAt_of_bearsOut {info : TableInfo} {column : ColumnInfo}
    (hcolumn : info.column? name = some column)
    (h : r.bearsOut place column.type.storage = true) :
    r.oidAt (some info) place name = column.type.oid := by
  rw [oidAt, Option.bind_some, hcolumn]
  exact if_pos h

theorem fields_getElem? (h : r.columns[place]? = some name) :
    (r.fields table)[place]? =
      some (.plain name (Int16.ofNat (place + 1)) (r.oidAt table place name)) := by
  rw [fields, List.getElem?_map, List.getElem?_zipIdx, h]
  simp

end ResultSet

section

variable {sql : Text} {t : Translated} {c : CreateTable}

/-- **A column is described as it was declared.** After a definition was translated, carried out
and recorded, and as long as no later statement takes it away, every result of a statement whose
source is the table, in any letter case, describes each column that carries the data of a declared
one with the number of the declared type. -/
theorem described_as_declared (htranslate : translate sql = .ok t)
    (hdefinition : t.statement = .createTable c) (distinct : Distinct c.columns)
    {before : Registry} (hnew : c.ifNotExists = true → before.table? c.table = none)
    {later : List Statement} (hlater : ∀ s ∈ later, ¬s.Supplants (Registry.key c.table))
    {reader : Statement} {source : Text} (hsource : reader.sourceTable = some source)
    (htable : Text.SameWord source c.table ∨ Registry.key source = Registry.key c.table)
    {result : ResultSet} {place index : Nat} {column : Column}
    (hcarries : result.Carries place c index column) :
    t.text = c.write ∧
      ∃ fields rows, Session.resultMessages reader result
          (later.foldl Registry.record (before.record t.statement)) =
            .rowDescription fields :: rows ∧
        ∃ field, fields[place]? = some field ∧
          field.oid.number = column.type.catalogueNumber := by
  have hkey : Registry.key source = Registry.key c.table :=
    htable.elim Text.lowercase_eq_of_sameWord id
  have hknown : (later.foldl Registry.record (before.record t.statement)).table? source =
      some c.info := by
    rw [Registry.table?, hkey, hdefinition]
    exact Registry.find?_foldl_record hlater (Registry.find?_record_createTable hnew)
  obtain ⟨name, hplace, hname⟩ := hcarries.named
  have hcolumn := CreateTable.column?_info distinct
    (List.mem_of_getElem? hcarries.defined) hname
  constructor
  · obtain ⟨ts, s, -, -, rfl⟩ := translate_eq_ok.1 htranslate
    obtain rfl : s = .createTable c := hdefinition
    rfl
  · refine ⟨_, _, rfl, _, ResultSet.fields_getElem? hplace, ?_⟩
    rw [hsource, Option.bind_some, hknown]
    show (result.oidAt (some c.info) place name).number = _
    rw [ResultSet.oidAt_of_bearsOut hcolumn hcarries.bearsOut]
    exact column.type.number_oid

/-- A table with a big integer and a double-precision number. -/
def readings : CreateTable where
  table := "Readings"
  ifNotExists := false
  columns :=
    [ { name := "total", type := .bigInt, primaryKey := false, autoIncrement := false,
        nullability := none, unique := false, defaultText := none, constraints := [] },
      { name := "mean", type := .doublePrecision, primaryKey := false, autoIncrement := false,
        nullability := none, unique := false, defaultText := none, constraints := [] } ]
  constraints := []

/-- The definition of that table. -/
def definedReadings : Translated where
  sent := "create table Readings (total bigint, mean double precision)"
  text := "CREATE TABLE Readings ( total INTEGER NULL, mean REAL NULL );"
  statement := .createTable readings

/-- The second column carries the totals of `readings`; the first one carries nothing that was
declared. -/
def totals : ResultSet where
  columns := ["mean", "TOTAL"]
  declared := [some "BLOB", some "INTEGER"]
  rows := [[.text "x", .null], [.blob [1], .integer 5]]
  changed := 0

theorem described_as_declared_totals :
    ∃ fields rows, Session.resultMessages (.select (some "READINGS")) totals
        ((Registry.empty.record (.createTable readings)).record
          (.drop (some "TABLE") (some "notes"))) = .rowDescription fields :: rows ∧
      ∃ field, fields[1]? = some field ∧ field.oid.number = 20 := by
  have htranslate : translate definedReadings.sent = .ok definedReadings := by
    decide +kernel
  have hdistinct : Distinct readings.columns := by
    unfold Distinct
    decide
  have hlater : ∀ s ∈ [Statement.drop (some "TABLE") (some "notes")],
      ¬s.Supplants (Registry.key readings.table) := by
    simp only [List.mem_singleton, forall_eq, Statement.Supplants]
    decide +kernel
  have hcarries : totals.Carries 1 readings 0
      ⟨"total", .bigInt, false, false, none, false, none, []⟩ := by
    refine ⟨rfl, ⟨"TOTAL", rfl, by decide⟩, fun word hword => ?_, fun value hvalue => ?_⟩
    · obtain rfl : ("INTEGER" : Text) = word := Option.some.inj hword
      exact (CreateTable.typeWord_iff rfl).2 rfl
    · have hvalues : totals.valuesAt 1 = [.null, .integer 5] := rfl
      rw [hvalues, List.mem_cons, List.mem_singleton] at hvalue
      obtain rfl | rfl := hvalue
      · trivial
      · exact ⟨5, rfl⟩
  exact (described_as_declared htranslate rfl hdistinct (fun h => nomatch h) hlater rfl
    (.inl (by decide)) hcarries).2

end

end PgGateway
