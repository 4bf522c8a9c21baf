import Mathlib.Algebra.Group.Int.Defs
import PgGateway.Proofs.Projection.Declared
import PgGateway.Proofs.Text.Numbers
import PgGateway.Proofs.Text.Utf8

/-!
# Legal values

A client reads each text of a row as a value of the type by which its column is described. The
texts are legal values of those types (`Projection.sends_legal`) but for two kinds of misfit: the
engine keeps integers of eight bytes in every column, and it keeps values of any class in one
column, while a column that is not described as it was declared is described by its first value.
Both kinds occur (`Projection.not_legal`).
-/

namespace PgGateway

open Text

/-! ## Input of the types -/

/-- The text is valid input for the type of the number. -/
def Oid.Accepts (oid : Oid) (t : Text) : Prop :=
  match oid.number.toInt with
  | 23 => ∃ i, Numeral.int? t = some i ∧ -2 ^ 31 ≤ i ∧ i < 2 ^ 31
  | 20 => ∃ i, Numeral.int? t = some i ∧ -2 ^ 63 ≤ i ∧ i < 2 ^ 63
  | 700 | 701 => IsFloat t
  | 17 => IsByteString t
  | 25 => True
  | _ => False

/-- The integer needs more than four bytes. -/
def Large (i : Int64) : Prop := i.toInt < -2 ^ 31 ∨ 2 ^ 31 ≤ i.toInt

theorem accepts_int4 {i : Int64} (h : ¬Large i) : Oid.int4.Accepts (Numeral.ofInt i.toInt) :=
  ⟨i.toInt, Numeral.int?_ofInt _, Int.not_lt.1 (not_or.1 h).1, Int.not_le.1 (not_or.1 h).2⟩

theorem accepts_int8 (i : Int64) : Oid.int8.Accepts (Numeral.ofInt i.toInt) :=
  ⟨i.toInt, Numeral.int?_ofInt _, i.le_toInt, i.toInt_lt⟩

/-- The text of a value; NULL has none. -/
def Value.Written : Value → Text → Prop
  | .null, _ => False
  | .integer i, t => t = Numeral.ofInt i.toInt
  | .real x, t => t = x.text
  | .text u, t => t = u
  | .blob bytes, t => t = Numeral.bytea bytes

theorem Value.exists_written {value : Value} {bytes : Bytes} (h : value.wireText = some bytes) :
    ∃ t, value.Written t ∧ bytes = Utf8.encode t := by
  cases value with
  | null => cases h
  | integer | real | text | blob => exact ⟨_, rfl, (Option.some.inj h).symm⟩

theorem Value.wireText_eq_none {value : Value} : value.wireText = none ↔ value = .null := by
  cases value <;> simp [wireText]

theorem Value.isFloat_of_written {value : Value} {t : Text} (h : value.Written t)
    (hnumber : (∃ i, value = .integer i) ∨ ∃ x, value = .real x) : IsFloat t := by
  obtain ⟨i, rfl⟩ | ⟨x, rfl⟩ := hnumber
  · obtain rfl : t = Numeral.ofInt i.toInt := h
    exact .inl (Numeral.isNumber_ofInt _)
  · obtain rfl : t = x.text := h
    exact x.isFloat_text

/-! ## What a projection sends -/

/-- The first message describes the columns, and all texts of the rows behind it fit: the text at a
place of the row of a number fits the description of the column at that place. -/
def Projection.Sends (p : Projection) (fits : Nat → Nat → Field → Text → Prop) : Prop :=
  ∃ fields, p.messages.head? = some (.rowDescription fields) ∧
    ∀ n texts, p.messages[n + 1]? = some (.dataRow texts) →
      ∀ place bytes, texts[place]? = some (some bytes) →
        ∃ field t, fields[place]? = some field ∧ bytes = Utf8.encode t ∧ fits n place field t

/-- Every text is valid input for the type of its column. -/
def Projection.Legal (p : Projection) : Prop := p.Sends fun _ _ field t => field.oid.Accepts t

namespace ResultSet

variable {r : ResultSet} {table : Option TableInfo} {place : Nat} {name : Text} {value : Value}

/-- Every row has one value for each column. -/
def FullWidth (r : ResultSet) : Prop := ∀ row ∈ r.rows, row.length = r.columns.length

/-- The value stands at the place of the row of the number. -/
def ValueAt (r : ResultSet) (n place : Nat) (value : Value) : Prop :=
  ∃ row, r.rows[n]? = some row ∧ row[place]? = some value

/-- Every value that is not NULL is sent, as its text, at its place in the row of its number. -/
def SentBy (r : ResultSet) (p : Projection) : Prop :=
  ∀ n place value, r.ValueAt n place value → value ≠ .null →
    ∃ texts t, p.messages[n + 1]? = some (.dataRow texts) ∧ value.Written t ∧
      texts[place]? = some (some (Utf8.encode t))

/-- The column of the result is described by a declared type. -/
def AsDeclared (r : ResultSet) (table : Option TableInfo) (place : Nat) : Prop :=
  ∃ name column, r.columns[place]? = some name ∧ table.bind (·.column? name) = some column ∧
    r.bearsOut place column.type.storage = true

end ResultSet

/-- The type by which the first value of a column is described takes the other value as well: it is
of the same class, or a number among numbers, or the first one is a text. -/
def Value.Covers : Value → Value → Prop
  | .text _, _ => True
  | .integer _, .integer _ => True
  | .real _, .integer _ => True
  | .real _, .real _ => True
  | .blob _, .blob _ => True
  | _, _ => False

namespace ResultSet

variable {r : ResultSet} {table : Option TableInfo} {place : Nat} {name : Text} {value : Value}
  {t : Text}

/-- A value of a column that is described by the type `oid`, and no value of that type. -/
inductive Misfit (r : ResultSet) (table : Option TableInfo) (place : Nat) (oid : Oid) :
    Value → Prop
  /-- An integer of more than four bytes, where the description says four. -/
  | large {i : Int64} (described : oid = .int4) (large : Large i) :
    Misfit r table place oid (.integer i)
  /-- A value unlike the first one, by which the column is described for want of a declared type
  that its values bear out. -/
  | unlike {first value : Value} (undeclared : ¬r.AsDeclared table place)
    (sampled : (r.valuesAt place).find? (!·.isNull) = some first)
    (described : oid = first.inferredOid) (unlike : ¬first.Covers value) :
    Misfit r table place oid value

/-- A value that the storage type of a declared type admits is a value of the declared type, unless
it is too large. -/
theorem accepts_of_admits {type : ColumnType} (hadmits : type.storage.admits value = true)
    (ht : value.Written t) :
    type.oid.Accepts t ∨ type.oid = .int4 ∧ ∃ i, value = .integer i ∧ Large i := by
  cases type with
  | integer =>
    cases value with
    | integer i =>
      obtain rfl : t = _ := ht
      by_cases hlarge : Large i
      · exact .inr ⟨rfl, i, rfl, hlarge⟩
      · exact .inl (accepts_int4 hlarge)
    | null => exact ht.elim
    | real | text | blob => cases hadmits
  | bigInt =>
    cases value with
    | integer i =>
      obtain rfl : t = _ := ht
      exact .inl (accepts_int8 i)
    | null => exact ht.elim
    | real | text | blob => cases hadmits
  | real | doublePrecision =>
    cases value with
    | integer i => exact .inl (Value.isFloat_of_written ht (.inl ⟨i, rfl⟩))
    | real x => exact .inl (Value.isFloat_of_written ht (.inr ⟨x, rfl⟩))
    | null => exact ht.elim
    | text | blob => cases hadmits
  | text => exact .inl trivial

/-- A value that the first one covers is a value of the type of the first one, unless it is too
large. -/
theorem accepts_of_covers {first : Value} (hcovers : first.Covers value) (ht : value.Written t) :
    first.inferredOid.Accepts t ∨
      first.inferredOid = .int4 ∧ ∃ i, value = .integer i ∧ Large i := by
  cases first with
  | text => exact .inl trivial
  | integer =>
    cases value with
    | integer i =>
      obtain rfl : t = _ := ht
      by_cases hlarge : Large i
      · exact .inr ⟨rfl, i, rfl, hlarge⟩
      · exact .inl (accepts_int4 hlarge)
    | null | real | text | blob => exact hcovers.elim
  | real =>
    cases value with
    | integer i => exact .inl (Value.isFloat_of_written ht (.inl ⟨i, rfl⟩))
    | real x => exact .inl (Value.isFloat_of_written ht (.inr ⟨x, rfl⟩))
    | null | text | blob => exact hcovers.elim
  | blob =>
    cases value with
    | blob bytes =>
      obtain rfl : t = _ := ht
      exact .inl (Numeral.isByteString_bytea bytes)
    | null | integer | real | text => exact hcovers.elim
  | null => exact hcovers.elim

/-- A column has a first value that is not NULL as soon as it has one. -/
theorem exists_sample (hvalue : value ∈ r.valuesAt place) (ht : value.Written t) :
    ∃ first, (r.valuesAt place).find? (!·.isNull) = some first := by
  rw [← Option.isSome_iff_exists, List.find?_isSome]
  refine ⟨value, hvalue, ?_⟩
  cases value with
  | null => exact ht.elim
  | integer | real | text | blob => rfl

/-- A column is described by a declared type or by its first value. -/
theorem oidAt_cases (table : Option TableInfo) (hname : r.columns[place]? = some name) :
    (∃ type : ColumnType, r.bearsOut place type.storage = true ∧
      r.oidAt table place name = type.oid) ∨
    ¬r.AsDeclared table place ∧ r.oidAt table place name = r.sampledOid place := by
  unfold oidAt
  cases hcolumn : table.bind (·.column? name) with
  | none =>
    refine .inr ⟨?_, rfl⟩
    rintro ⟨other, column, hother, hknown, -⟩
    obtain rfl : name = other := Option.some.inj (hname.symm.trans hother)
    rw [hcolumn] at hknown
    cases hknown
  | some column =>
    cases hborne : r.bearsOut place column.type.storage with
    | true => exact .inl ⟨column.type, hborne, if_pos hborne⟩
    | false =>
      refine .inr ⟨?_, if_neg (Bool.eq_false_iff.1 hborne)⟩
      rintro ⟨other, column', hother, hknown, hborne'⟩
      obtain rfl : name = other := Option.some.inj (hname.symm.trans hother)
      obtain rfl : column = column' := Option.some.inj (hcolumn.symm.trans hknown)
      rw [hborne] at hborne'
      cases hborne'

/-- **A value is a value of the type by which its column is described, or a misfit.** -/
theorem accepts_or_misfit (hname : r.columns[place]? = some name)
    (hvalue : value ∈ r.valuesAt place) (ht : value.Written t) :
    (r.oidAt table place name).Accepts t ∨
      r.Misfit table place (r.oidAt table place name) value := by
  obtain ⟨type, hborne, hoid⟩ | ⟨hundeclared, hoid⟩ := oidAt_cases table hname
  · have hadmits : type.storage.admits value = true :=
      List.all_eq_true.1 ((Bool.and_eq_true _ _ ▸ hborne).2) value hvalue
    rw [hoid]
    exact (accepts_of_admits hadmits ht).imp_right fun ⟨hint, i, hi, hlarge⟩ =>
      hi ▸ .large hint hlarge
  · obtain ⟨first, hfirst⟩ := exists_sample hvalue ht
    have hsampled : r.sampledOid place = first.inferredOid := by
      rw [sampledOid, hfirst]
    rw [hoid, hsampled]
    by_cases hcovers : first.Covers value
    · exact (accepts_of_covers hcovers ht).imp_right fun ⟨hint, i, hi, hlarge⟩ =>
        hi ▸ .large hint hlarge
    · exact .inr (.unlike hundeclared hfirst rfl hcovers)

end ResultSet

namespace Projection

variable {result : ResultSet}

theorem messages_row {registry : Registry} {source : Option Text} {n : Nat} :
    (ofResult result source registry).messages[n + 1]? =
      result.rows[n]?.map fun row => .dataRow (row.map Value.wireText) := by
  rw [messages, List.getElem?_cons_succ, ofResult, List.map_map, List.getElem?_map]
  rfl

theorem sentBy_ofResult (result : ResultSet) (source : Option Text) (registry : Registry) :
    result.SentBy (ofResult result source registry) := by
  rintro n place value ⟨row, hn, hplace⟩ hnull
  obtain ⟨bytes, hwire⟩ := Option.ne_none_iff_exists'.1 (Value.wireText_eq_none.not.2 hnull)
  obtain ⟨t, ht, rfl⟩ := Value.exists_written hwire
  refine ⟨row.map Value.wireText, t, ?_, ht, ?_⟩
  · rw [messages_row, hn]
    rfl
  · rw [List.getElem?_map, hplace, ← hwire]
    rfl

/-- **Every value sent is a legal value of the type it is described with, but for misfits**: large
integers described by four bytes, and values unlike the first one of a column that is not described
by a declared type. Every value that is not NULL is sent. -/
theorem sends_legal (registry : Registry) (source : Option Text) (hfull : result.FullWidth) :
    ((ofResult result source registry).Sends fun n place field t => field.oid.Accepts t ∨
      ∃ value, result.ValueAt n place value ∧
        result.Misfit (source.bind registry.table?) place field.oid value) ∧
    result.SentBy (ofResult result source registry) := by
  refine ⟨⟨_, rfl, fun n texts hrow place bytes htext => ?_⟩,
    sentBy_ofResult result source registry⟩
  -- the text is that of a value of the row of the number
  rw [messages_row] at hrow
  obtain ⟨row, hn, hdata⟩ := Option.map_eq_some_iff.1 hrow
  obtain rfl := Backend.dataRow.inj hdata
  rw [List.getElem?_map] at htext
  obtain ⟨value, hplace, hwire⟩ := Option.map_eq_some_iff.1 htext
  obtain ⟨t, ht, rfl⟩ := Value.exists_written hwire
  -- the row reaches no further than the columns
  have hmem := List.mem_of_getElem? hn
  have hwidth : place < result.columns.length :=
    hfull row hmem ▸ (List.getElem?_eq_some_iff.1 hplace).1
  have hname := List.getElem?_eq_getElem hwidth
  have hvalue : value ∈ result.valuesAt place := List.mem_filterMap.2 ⟨row, hmem, hplace⟩
  refine ⟨_, t, ResultSet.fields_getElem? hname, rfl, ?_⟩
  exact (ResultSet.accepts_or_misfit hname hvalue ht).imp_right fun hmisfit =>
    ⟨value, ⟨row, hn, hplace⟩, hmisfit⟩

/-- An integer and a text in one column. -/
def mixed : ResultSet where
  columns := ["a"]
  declared := [none]
  rows := [[.integer 1], [.text "x"]]
  changed := 0

theorem sends_legal_mixed :
    mixed.FullWidth ∧ ((ofResult mixed (some "t") .empty).Sends fun n place field t =>
      field.oid.Accepts t ∨ ∃ value, mixed.ValueAt n place value ∧
        mixed.Misfit none place field.oid value) ∧
    ∃ texts t, (ofResult mixed (some "t") .empty).messages[2]? = some (.dataRow texts) ∧
      (Value.text "x").Written t ∧ texts[0]? = some (some (Utf8.encode t)) := by
  have hfull : mixed.FullWidth := by
    unfold ResultSet.FullWidth
    decide
  obtain ⟨hlegal, hsent⟩ := sends_legal .empty (some "t") hfull
  exact ⟨hfull, hlegal, hsent 1 0 (.text "x") ⟨_, rfl, rfl⟩ (by simp)⟩

/-! ## Misfits -/

/-- An integer of five bytes. -/
def oversized : ResultSet where
  columns := ["a"]
  declared := [none]
  rows := [[.integer 2147483648]]
  changed := 0

theorem not_legal_of_text {p : Projection} (n place : Nat) (t : Text)
    {texts : List (Option Bytes)} {field : Field} (hrow : p.rows[n]? = some texts)
    (htext : texts[place]? = some (some (Utf8.encode t))) (hfield : p.fields[place]? = some field)
    (h : ¬field.oid.Accepts t) : ¬p.Legal := by
  rintro ⟨fields, hfields, hlegal⟩
  obtain rfl : p.fields = fields := Backend.rowDescription.inj (Option.some.inj hfields)
  have hsent : p.messages[n + 1]? = some (.dataRow texts) := by
    rw [messages, List.getElem?_cons_succ, List.getElem?_map, hrow]
    rfl
  obtain ⟨field', u, hfield', hu, haccepts⟩ := hlegal n texts hsent place _ htext
  obtain rfl : field = field' := Option.some.inj (hfield.symm.trans hfield')
  have htu : t = u := by
    rw [← Utf8.decode_encode t, hu, Utf8.decode_encode]
  exact h (htu ▸ haccepts)

/-- Neither kind of misfit can be left out. -/
theorem not_legal :
    (mixed.FullWidth ∧ ¬(ofResult mixed none .empty).Legal) ∧
      oversized.FullWidth ∧ ¬(ofResult oversized none .empty).Legal := by
  refine ⟨⟨?_, ?_⟩, ?_, ?_⟩
  · unfold ResultSet.FullWidth
    decide
  · refine not_legal_of_text 1 0 "x" rfl rfl rfl ?_
    rintro ⟨i, hi, -⟩
    cases hi
  · unfold ResultSet.FullWidth
    decide
  · have hrow : (ofResult oversized none .empty).rows[0]? =
        some [some (Utf8.encode "2147483648")] := by
      decide +kernel
    refine not_legal_of_text 0 0 "2147483648" hrow rfl rfl ?_
    rintro ⟨i, hi, -, hhigh⟩
    obtain rfl : 2147483648 = i := Option.some.inj hi
    omega

end Projection

end PgGateway
