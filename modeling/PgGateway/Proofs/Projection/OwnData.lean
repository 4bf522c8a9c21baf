import Mathlib.Logic.Relation
import PgGateway.Proofs.Projection.Legal

/-!
# What the description of a column depends on

A column of a result is described by its name, the type that the engine declares for it, what is
known of the source table, and its values other than NULL (`ResultColumn.oid`), and by nothing else
(`Projection.described_by_own_data`). Rows in which it is NULL, rows that do not reach it and all
other columns have no part in its description. More values can only take a declared type away.
-/

namespace PgGateway

/-! ## Columns by themselves -/

/-- A column of a result by itself. -/
structure ResultColumn where
  name : Text
  /-- The type that the engine declares for it. -/
  declared : Option Text
  /-- Its values other than NULL, in the order of the rows. -/
  data : List Value
deriving DecidableEq, Repr

namespace ResultColumn

/-- Nothing speaks against the storage type: neither the engine's declaration nor a value. -/
def Bears (c : ResultColumn) (type : StorageType) : Prop :=
  (∀ word ∈ c.declared, StorageType.ofDeclared word = some type) ∧
    ∀ value ∈ c.data, type.admits value = true

instance (c : ResultColumn) (type : StorageType) : Decidable (c.Bears type) :=
  inferInstanceAs (Decidable ((∀ word ∈ c.declared, StorageType.ofDeclared word = some type) ∧
    ∀ value ∈ c.data, type.admits value = true))

/-- Fewer values bear out what more values do. -/
theorem Bears.mono {c d : ResultColumn} {type : StorageType} (h : c.Bears type)
    (hdeclared : d.declared = c.declared) (hdata : d.data ⊆ c.data) : d.Bears type :=
  ⟨hdeclared ▸ h.1, fun value hvalue => h.2 value (hdata hvalue)⟩

/-- The type by which the first value is described, and that of texts if there is none. -/
def sampled (c : ResultColumn) : Oid := (c.data.head?.map Value.inferredOid).getD .text

/-- The type by which the column is described, given what is known of the source table. -/
def oid (c : ResultColumn) (table : Option TableInfo) : Oid :=
  match table.bind (·.column? c.name) with
  | some column => if c.Bears column.type.storage then column.type.oid else c.sampled
  | none => c.sampled

variable {c : ResultColumn} {table : Option TableInfo}

theorem oid_of_bears {column : ColumnInfo} (hknown : table.bind (·.column? c.name) = some column)
    (h : c.Bears column.type.storage) : c.oid table = column.type.oid := by
  rw [oid, hknown]
  exact if_pos h

theorem oid_of_not_bears (h : ∀ column, table.bind (·.column? c.name) = some column →
    ¬c.Bears column.type.storage) : c.oid table = c.sampled := by
  rw [oid]
  split
  · next column hknown => exact if_neg (h column hknown)
  · rfl

end ResultColumn

namespace ResultSet

variable {r s : ResultSet} {table : Option TableInfo} {place : Nat} {name : Text}

/-- The value of a row at a place, which is NULL if the row does not reach it. -/
def valueAt (place : Nat) (row : List Value) : Value := row[place]?.getD .null

/-- The values of a column that are not NULL. -/
def dataAt (r : ResultSet) (place : Nat) : List Value :=
  (r.rows.map (valueAt place)).filter fun value => !value.isNull

/-- The column at a place. -/
def column? (r : ResultSet) (place : Nat) : Option ResultColumn :=
  r.columns[place]?.map fun name => ⟨name, r.declaredAt place, r.dataAt place⟩

/-! ## Descriptions -/

/-- The values of the rows that reach a place, without NULL, are its data. -/
theorem filter_valuesAt (r : ResultSet) (place : Nat) :
    (r.valuesAt place).filter (fun value => !value.isNull) = r.dataAt place := by
  unfold valuesAt dataAt
  generalize r.rows = rows
  induction rows with
  | nil => rfl
  | cons row rows ih =>
    rw [List.filterMap_cons, List.map_cons, valueAt]
    cases row[place]? with
    | none => exact ih
    | some value =>
      show (value :: _).filter _ = (value :: _).filter _
      rw [List.filter_cons, List.filter_cons, ih]

theorem admits_of_isNull {value : Value} (h : value.isNull = true) (type : StorageType) :
    type.admits value = true := by
  cases value with
  | null => cases type <;> rfl
  | integer | real | text | blob => cases h

/-- NULL bears out every type. -/
theorem bearsOut_iff (type : StorageType) : r.bearsOut place type = true ↔
    ResultColumn.Bears ⟨name, r.declaredAt place, r.dataAt place⟩ type := by
  have hvalues : (r.valuesAt place).all type.admits = true ↔
      ∀ value ∈ r.dataAt place, type.admits value = true := by
    rw [List.all_eq_true, ← filter_valuesAt]
    constructor
    · intro h value hvalue
      exact h value (List.mem_filter.1 hvalue).1
    · -- the values that are not data are NULL, which speaks against no type
      intro h value hvalue
      by_cases hnull : value.isNull = true
      · exact admits_of_isNull hnull type
      · exact h value (List.mem_filter.2 ⟨hvalue, by simpa using hnull⟩)
  rw [bearsOut, Bool.and_eq_true, hvalues]
  refine and_congr_left' ?_
  cases r.declaredAt place <;> simp

theorem sampledOid_eq (r : ResultSet) (place : Nat) (name : Text) : r.sampledOid place =
    ResultColumn.sampled ⟨name, r.declaredAt place, r.dataAt place⟩ := by
  rw [sampledOid, ResultColumn.sampled, ← filter_valuesAt, List.head?_filter]
  cases (r.valuesAt place).find? (!·.isNull) <;> rfl

/-- A column of a result is described as it is by itself. -/
theorem oidAt_eq (r : ResultSet) (table : Option TableInfo) (place : Nat) (name : Text) :
    r.oidAt table place name =
      ResultColumn.oid ⟨name, r.declaredAt place, r.dataAt place⟩ table := by
  rw [oidAt, ResultColumn.oid, ← sampledOid_eq]
  cases table.bind (·.column? name) with
  | none => rfl
  | some column =>
    have hborne : r.bearsOut place column.type.storage = true ↔
        ResultColumn.Bears ⟨name, r.declaredAt place, r.dataAt place⟩ column.type.storage :=
      bearsOut_iff _
    simp only [hborne]

/-! ## Changes elsewhere -/

/-- A change of a result that is none of the column at the place. -/
inductive ChangesElsewhere (place : Nat) (r : ResultSet) : ResultSet → Prop
  /-- A row that is NULL there is put among the rows. -/
  | nullRow {before after : List (List Value)} {row : List Value}
    (rows : r.rows = before ++ after) (null : valueAt place row = .null) :
    ChangesElsewhere place r { r with rows := before ++ row :: after }
  /-- All else is changed: other names and declared types, other values in all other columns, and
  rows that no longer reach the place, or reach it now, where they are NULL. -/
  | others {s : ResultSet} (columns : s.columns[place]? = r.columns[place]?)
    (declared : s.declaredAt place = r.declaredAt place)
    (rows : s.rows.map (valueAt place) = r.rows.map (valueAt place)) : ChangesElsewhere place r s

theorem ChangesElsewhere.column?_eq (h : ChangesElsewhere place r s) :
    s.column? place = r.column? place := by
  cases h with
  | @nullRow before after row rows null =>
    have hdata : dataAt { r with rows := before ++ row :: after } place = r.dataAt place := by
      unfold dataAt
      rw [rows, List.map_append, List.map_append, List.map_cons, null, List.filter_append,
        List.filter_append, List.filter_cons_of_neg (by simp [Value.isNull])]
    rw [column?, hdata]
    rfl
  | others columns declared rows =>
    have hdata : s.dataAt place = r.dataAt place := by rw [dataAt, rows, dataAt]
    rw [column?, columns, declared, hdata, column?]

/-- However often a result is changed elsewhere, and changed back, the column stays. -/
theorem column?_eq_of_eqvGen (h : Relation.EqvGen (ChangesElsewhere place) r s) :
    s.column? place = r.column? place := by
  induction h with
  | rel _ _ h => exact h.column?_eq
  | refl => rfl
  | symm _ _ _ ih => exact ih.symm
  | trans _ _ _ _ _ ih ih' => exact ih'.trans ih

/-! ## Fewer rows -/

/-- The column is described by a declared type if it is known and its data bear that type out. -/
theorem asDeclared_iff : r.AsDeclared table place ↔ ∃ c column, r.column? place = some c ∧
    table.bind (·.column? c.name) = some column ∧ c.Bears column.type.storage := by
  constructor
  · rintro ⟨name, column, hname, hknown, hborne⟩
    exact ⟨⟨name, r.declaredAt place, r.dataAt place⟩, column, by rw [column?, hname]; rfl, hknown,
      (bearsOut_iff _).1 hborne⟩
  · rintro ⟨c, column, hc, hknown, hborne⟩
    obtain ⟨name, hname, rfl⟩ := Option.map_eq_some_iff.1 hc
    exact ⟨name, column, hname, hknown, (bearsOut_iff _).2 hborne⟩

theorem dataAt_subset (h : s.rows ⊆ r.rows) : s.dataAt place ⊆ r.dataAt place := by
  intro value hvalue
  obtain ⟨hvalue, hsome⟩ := List.mem_filter.1 hvalue
  exact List.mem_filter.2 ⟨List.map_subset _ h hvalue, hsome⟩

/-- A result with no other rows, in any order, keeps a declared type. -/
theorem AsDeclared.mono (h : r.AsDeclared table place)
    (hcolumns : s.columns[place]? = r.columns[place]?)
    (hdeclared : s.declaredAt place = r.declaredAt place) (hrows : s.rows ⊆ r.rows) :
    s.AsDeclared table place := by
  obtain ⟨c, column, hc, hknown, hborne⟩ := asDeclared_iff.1 h
  obtain ⟨name, hname, rfl⟩ := Option.map_eq_some_iff.1 hc
  refine asDeclared_iff.2 ⟨⟨name, s.declaredAt place, s.dataAt place⟩, column, ?_, hknown,
    hborne.mono hdeclared (dataAt_subset hrows)⟩
  rw [column?, hcolumns, hname]
  rfl

end ResultSet

/-! ## What is sent -/

/-- The number of the type that the class of a first value stands for, and that of texts if there is
no value. -/
def Value.classNumber : Option Value → Int32
  | some (.integer _) => 23
  | some (.real _) => 701
  | some (.blob _) => 17
  | _ => 25

theorem ResultColumn.number_sampled (c : ResultColumn) :
    c.sampled.number = Value.classNumber c.data.head? := by
  unfold sampled
  cases c.data.head? with
  | none => rfl
  | some value => cases value <;> rfl

namespace Projection

variable {r : ResultSet} {source : Option Text} {registry : Registry} {place : Nat}

/-- The type by which a projection describes the column at a place. -/
def oid? (p : Projection) (place : Nat) : Option Oid := p.fields[place]?.map (·.oid)

theorem oid?_ofResult (r : ResultSet) (source : Option Text) (registry : Registry) (place : Nat) :
    (ofResult r source registry).oid? place =
      (r.column? place).map (·.oid (source.bind registry.table?)) := by
  unfold oid? ResultSet.column?
  cases hname : r.columns[place]? with
  | none =>
    have hfield : (ofResult r source registry).fields[place]? = none := by
      have hlength : (r.fields (source.bind registry.table?)).length = r.columns.length := by
        simp [ResultSet.fields]
      rw [List.getElem?_eq_none_iff] at hname ⊢
      exact hlength.trans_le hname
    rw [hfield]
    rfl
  | some name =>
    rw [ofResult, ResultSet.fields_getElem? hname, Option.map_some, Option.map_some,
      Option.map_some, ← ResultSet.oidAt_eq]
    rfl

theorem oid?_of_asDeclared (h : r.AsDeclared (source.bind registry.table?) place) :
    ∃ name column, r.columns[place]? = some name ∧
      (source.bind registry.table?).bind (·.column? name) = some column ∧
      (ofResult r source registry).oid? place = some column.type.oid := by
  obtain ⟨c, column, hc, hknown, hborne⟩ := ResultSet.asDeclared_iff.1 h
  obtain ⟨name, hname, rfl⟩ := Option.map_eq_some_iff.1 hc
  refine ⟨name, column, hname, hknown, ?_⟩
  rw [oid?_ofResult, hc, Option.map_some, ResultColumn.oid_of_bears hknown hborne]

/-- **A column is described by its own data.** The type is a function of the column by itself and of
what is known of the source table, so it stays however the result is changed elsewhere. A declared
type that describes the column of a result describes that of every result with no other rows. Where
none does, the class of the first value that is not NULL tells the type. -/
theorem described_by_own_data (r : ResultSet) (source : Option Text) (registry : Registry)
    (place : Nat) :
    (ofResult r source registry).oid? place =
      (r.column? place).map (·.oid (source.bind registry.table?)) ∧
    (∀ s, Relation.EqvGen (ResultSet.ChangesElsewhere place) r s →
      (ofResult s source registry).oid? place = (ofResult r source registry).oid? place) ∧
    (r.AsDeclared (source.bind registry.table?) place → ∀ s : ResultSet,
      s.columns[place]? = r.columns[place]? → s.declaredAt place = r.declaredAt place →
      s.rows ⊆ r.rows → s.AsDeclared (source.bind registry.table?) place ∧
        (ofResult s source registry).oid? place = (ofResult r source registry).oid? place) ∧
    (place < r.columns.length → ¬r.AsDeclared (source.bind registry.table?) place →
      ((ofResult r source registry).oid? place).map (·.number) =
        some (Value.classNumber (r.dataAt place).head?)) := by
  refine ⟨oid?_ofResult r source registry place, ?_, ?_, ?_⟩
  · intro s hchanges
    rw [oid?_ofResult, oid?_ofResult, ResultSet.column?_eq_of_eqvGen hchanges]
  · intro hdeclared s hcolumns hdeclaration hrows
    have hkept := hdeclared.mono hcolumns hdeclaration hrows
    refine ⟨hkept, ?_⟩
    obtain ⟨name, column, hname, hknown, hoid⟩ := oid?_of_asDeclared hdeclared
    obtain ⟨name', column', hname', hknown', hoid'⟩ := oid?_of_asDeclared hkept
    obtain rfl : name' = name := by simpa [hcolumns, hname] using hname'.symm
    obtain rfl : column' = column := Option.some.inj (hknown'.symm.trans hknown)
    rw [hoid, hoid']
  · intro hplace hundeclared
    have hcolumn : r.column? place =
        some ⟨r.columns[place], r.declaredAt place, r.dataAt place⟩ := by
      rw [ResultSet.column?, List.getElem?_eq_getElem hplace]
      rfl
    rw [oid?_ofResult, hcolumn, Option.map_some, Option.map_some, ResultColumn.oid_of_not_bears,
      ResultColumn.number_sampled]
    intro column hknown hborne
    exact hundeclared (ResultSet.asDeclared_iff.2 ⟨_, column, hcolumn, hknown, hborne⟩)

/-- A row that does not reach the totals changes nothing, nor would the loss of all rows; the means
beside them are described by their first value, because they hold texts and bytes. -/
theorem described_by_own_data_totals :
    (ofResult { totals with rows := [] ++ [.blob [2]] :: totals.rows } (some "readings")
      (Registry.empty.register readings)).oid? 1 = some .int8 ∧
    (ofResult { totals with rows := [] } (some "readings")
      (Registry.empty.register readings)).oid? 1 = some .int8 ∧
    ((ofResult totals (some "readings") (Registry.empty.register readings)).oid? 0).map
      (·.number) = some 25 := by
  have hentry : (some "readings".toList).bind (Registry.empty.register readings).table? =
      some readings.info := by decide +kernel
  have htotals : (ofResult totals (some "readings")
      (Registry.empty.register readings)).oid? 1 = some .int8 := by decide +kernel
  obtain ⟨-, hchanges, hfewer, -⟩ :=
    described_by_own_data totals (some "readings") (Registry.empty.register readings) 1
  obtain ⟨-, -, -, hsampled⟩ :=
    described_by_own_data totals (some "readings") (Registry.empty.register readings) 0
  rw [hentry] at hfewer hsampled
  refine ⟨?_, ?_, ?_⟩
  · rw [hchanges _ (.rel _ _ (.nullRow rfl rfl)), htotals]
  · have hdeclared : totals.AsDeclared (some readings.info) 1 :=
      ResultSet.asDeclared_iff.2 ⟨_, _, rfl, rfl, by decide⟩
    rw [(hfewer hdeclared { totals with rows := [] } rfl rfl (List.nil_subset _)).2, htotals]
  · have hundeclared : ¬totals.AsDeclared (some readings.info) 0 := by
      rw [ResultSet.asDeclared_iff]
      rintro ⟨c, column, hc, hknown, hborne⟩
      cases hc
      cases hknown
      revert hborne
      decide
    rw [hsampled (by decide) hundeclared]
    rfl

end Projection

end PgGateway
