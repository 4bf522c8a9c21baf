import PgGateway.Proofs.Sql.KeyOrder
import PgGateway.Proofs.Sql.OneStatement

/-!
# Columns that number themselves

The engine numbers a column by itself if it is declared as INTEGER and the whole key is said in it
(`NumbersRows`). A column that a client declares to number itself, by a serial type or an identity
clause, is written so if it is the whole key of its table and its type is one of integers, which
every serial type is (`key_numbers_itself`). A key of several columns stays as the client gave it,
and so do the key of another column and the type (`serial_not_numbered`).
-/

namespace PgGateway

open List (Forall₂)

/-! ## Types of integers -/

namespace ColumnType

variable {words : List Text}

/-- The words that stand for integers. -/
def allIntegerWords : List Text := integerWords ++ bigIntWords

theorem mentions_iff {names : List Text} :
    mentions words names = true ↔ ∃ w ∈ names, w ∈ words := by
  simp only [mentions, List.any_eq_true, List.contains_iff_mem]
  exact exists_congr fun w => and_comm

theorem storage_ofWords :
    (ofWords words).storage = .integer ↔ ∃ w ∈ allIntegerWords, w ∈ words := by
  have hsplit : (∃ w ∈ allIntegerWords, w ∈ words) ↔
      mentions words integerWords = true ∨ mentions words bigIntWords = true := by
    simp only [mentions_iff, allIntegerWords, List.mem_append, or_and_right, exists_or]
  rw [hsplit, ofWords]
  split
  · next hinteger => simp [hinteger, storage]
  · next hinteger =>
    split
    · next hbig => simp [hbig, storage]
    · next hbig =>
      -- doubles, single-precision numbers and texts
      simp only [hinteger, hbig]
      split
      · simp [storage]
      · split <;> simp [storage]

/-- A serial type is one of integers. -/
theorem serialWords_subset : serialWords ⊆ allIntegerWords := by decide

end ColumnType

namespace Sql

variable {x : Text} {t : Token} {p rest rest' : List Token} {c : Column}

/-! ## What follows the key in a column -/

theorem forwarded_keyword (hword : t.kind = .word)
    (h : readItem t rest = .ok (.forwarded x, rest')) :
    ∃ k : ColumnKeyword, t.isKeyword k.text = true ∧
      (k = .check ∨ k = .references ∨ k = .generated) := by
  obtain ⟨body, -, hdeclared⟩ := declaration_of_readItem hword h
  cases hdeclared with
  | check k => exact ⟨.check, k.2, .inl rfl⟩
  | references k => exact ⟨.references, k.2, .inr (.inl rfl)⟩
  | generated k => exact ⟨.generated, k.2, .inr (.inr rfl)⟩

/-- A clause that is passed on does not begin like the words for a key. -/
theorem PassedOn.not_key {last : Prop} (h : PassedOn x last) (more : Text) :
    ¬("PRIMARY KEY" : Text) <+: x ++ more := by
  obtain ⟨t, us, hx, hkeyword, hread⟩ := h
  obtain ⟨_, hfirst⟩ := isSome_ofToken?.1 hkeyword
  obtain ⟨k, hk, hkind⟩ :=
    forwarded_keyword (kind_of_isKeyword hfirst) (hread [] nofun fun _ => rfl)
  simp only [Token.isKeyword, Bool.and_eq_true, beq_iff_eq] at hk
  have htext : x = t.text ++ Token.render us := by rw [← hx.verbatim, Token.verbatim_cons]
  have hfirst : k.text.head?.map Char.toLower = t.text.head?.map Char.toLower := by
    rw [← List.head?_map, ← List.head?_map]
    exact congrArg List.head? hk.2.symm
  rintro ⟨tail, htail⟩
  rw [htext] at htail
  cases hcs : t.text with
  | nil =>
    rw [hcs] at hfirst
    rcases hkind with rfl | rfl | rfl <;> cases hfirst
  | cons d ds =>
    rw [hcs] at hfirst htail
    obtain rfl : 'P' = d := (List.cons.inj htail).1
    have hletter : k.text.head?.map Char.toLower = some 'p' := hfirst
    rcases hkind with rfl | rfl | rfl <;> exact absurd hletter (by decide)

end Sql

open Sql

/-! ## Columns as the engine numbers them -/

/-- The part of a block declares the column of this name as the engine numbers it: as INTEGER, with
the whole key said in it. -/
def NumbersRows (name part : Text) : Prop :=
  (writeName name ++ " INTEGER NULL PRIMARY KEY" : Text) <+: part ∨
    (writeName name ++ " INTEGER NOT NULL PRIMARY KEY" : Text) <+: part

instance (name part : Text) : Decidable (NumbersRows name part) :=
  inferInstanceAs (Decidable (_ <+: part ∨ _ <+: part))

namespace Column

variable {c : Column} {inlineKey : Bool}

/-- Nothing that a column says behind its key looks like a key. -/
theorem Lifted.back_not_key (h : c.Lifted) : ¬(" PRIMARY KEY" : Text) <+: c.back := by
  unfold back
  cases c.unique with
  | true => simp [Text.only]
  | false =>
    cases c.defaultText with
    | some e => simp [Text.only]
    | none =>
      have hclauses := h.clauses
      cases hc : c.constraints with
      | nil => simp [Text.only]
      | cons x xs =>
        rw [hc] at hclauses
        have hnot := hclauses.1.not_key (xs.flatMap fun clause => ' ' :: clause)
        simpa [Text.only] using hnot

/-- **A column is numbered if it is one of integers and the key is said in it.** -/
theorem numbersRows_write (h : c.Lifted) : NumbersRows c.name (c.write inlineKey) ↔
    (c.primaryKey && inlineKey) = true ∧ c.type.storage = .integer := by
  have hback : ¬[' ', 'P', 'R', 'I', 'M', 'A', 'R', 'Y', ' ', 'K', 'E', 'Y'] <+: c.back :=
    h.back_not_key
  have hinteger : StorageType.integer.name = "INTEGER" := rfl
  have hreal : StorageType.real.name = "REAL" := rfl
  have htext : StorageType.text.name = "TEXT" := rfl
  rw [write_eq, front, NumbersRows]
  cases c.type.storage <;> cases c.nullable <;> cases c.primaryKey && inlineKey <;>
    simp [hinteger, hreal, htext, Text.only, hback]

end Column

/-! ## Columns that a client declares to number themselves -/

/-- What the definition of a column declares of how it numbers itself, and where the text for the
engine says it: the column is marked by a serial type or an identity clause, and stored as an
integer if a word of its type says so. If the table has a key, the column is numbered if it is one
of integers and the whole key. Nothing is said here of a table without any key, and that is all that
`c.keyColumns ≠ []` leaves out. -/
structure CreateTable.Numbering (c : CreateTable) (p : List Token) (column : Column) : Prop where
  marked : column.autoIncrement = true ↔
    Declares p .identity ∨ ∃ w ∈ ColumnType.serialWords, Declares p (.typeWord w)
  integer : column.type.storage = .integer ↔
    ∃ w ∈ ColumnType.allIntegerWords, Declares p (.typeWord w)
  serial : (∃ w ∈ ColumnType.serialWords, Declares p (.typeWord w)) →
    column.type.storage = .integer
  numbered : c.keyColumns ≠ [] → (NumbersRows column.name (column.write c.inlineKey) ↔
    c.keyColumns = [column] ∧ column.type.storage = .integer)

namespace CreateTable

variable {c : CreateTable} {p : List Token} {column : Column}

theorem numbering (hlifted : column.Lifted) (hcolumn : column ∈ c.columns)
    (h : FollowsDefinition p column) : c.Numbering p column := by
  obtain ⟨items, hfollows, hdeclares⟩ := h.exists_items
  have hinteger : column.type.storage = .integer ↔
      ∃ w ∈ ColumnType.allIntegerWords, Declares p (.typeWord w) := by
    rw [hfollows.type]
    simp only [ColumnType.storage_ofWords, mem_typeWords, hdeclares]
  refine ⟨?_, hinteger, ?_, ?_⟩
  · simp only [hdeclares]
    exact hfollows.autoIncrement
  · rintro ⟨w, hw, hdeclared⟩
    exact hinteger.2 ⟨w, ColumnType.serialWords_subset hw, hdeclared⟩
  · intro _
    rw [Column.numbersRows_write hlifted, inlineKey, inline_eq hcolumn, decide_eq_true_eq]

end CreateTable

/-- **A key that is declared to number itself does so.** Of every accepted definition with a key, a
column that is marked by a serial type or an identity clause is written as INTEGER with the whole
key said in it if it is the whole key and its type is one of integers, which a serial type is, and
only then: a longer key stands behind the columns, and the key of another column in that one. -/
theorem key_numbers_itself {sql : Text} {t : Translated} {c : CreateTable}
    (h : translate sql = .ok t) (hc : t.statement = .createTable c) :
    ∃ ts g, readTokens (normalize sql) = .ok ts ∧ FirstGroup ts g ∧ c.DefinedBy (parts g.inside) ∧
      t.text = "CREATE TABLE " ++ Text.only c.ifNotExists "IF NOT EXISTS " ++ writeName c.table ++
        " ( " ++ Text.join ", " (
          c.columns.map (Column.write c.inlineKey) ++ c.keyParts ++ c.constraints) ++ " );" ∧
      Forall₂ c.Numbering ((parts g.inside).filter fun p => !isTableConstraint p) c.columns := by
  obtain ⟨ts, g, hread, hg, hdefined⟩ := CreateTable.definedBy_of_translate h hc
  have hlifted := lifted_of_translate h hc
  refine ⟨ts, g, hread, hg, hdefined, ?_, ?_⟩
  · rw [← CreateTable.blockParts_written, CreateTable.text_eq h hc]
    rfl
  · obtain ⟨hlength, hfollows⟩ := List.forall₂_iff_zip.1 hdefined.columns
    refine List.forall₂_iff_zip.2 ⟨hlength, fun {p column} hmem => ?_⟩
    have hcolumn : column ∈ c.columns := (List.of_mem_zip hmem).2
    exact CreateTable.numbering (hlifted.columns column hcolumn) hcolumn (hfollows hmem)

/-- A serial column that is the key. -/
def eventNumber : Column := ⟨"n", .bigInt, true, true, none, false, none, []⟩

def eventsTable : CreateTable where
  table := "events"
  ifNotExists := false
  columns := [eventNumber, ⟨"body", .text, false, false, none, false, some "''", []⟩]
  constraints := []

/-- The column says itself that it is the key. -/
def inlineEvents : Translated where
  sent := "create table events (n bigserial primary key, body text default '')"
  text := "CREATE TABLE events ( n INTEGER NOT NULL PRIMARY KEY, body TEXT NULL DEFAULT '' );"
  statement := .createTable eventsTable

/-- A constraint says that the column is the key. -/
def namedEvents : Translated where
  sent := "create table events (n bigserial, body text default '', primary key (N))"
  text := "CREATE TABLE events ( n INTEGER NOT NULL PRIMARY KEY, body TEXT NULL DEFAULT '' );"
  statement := .createTable eventsTable

/-- Either way the key is said in the column, and the engine numbers it. -/
theorem key_numbers_itself_events :
    (translate inlineEvents.sent = .ok inlineEvents ∧
      ∃ p, eventsTable.Numbering p eventNumber) ∧
    (translate namedEvents.sent = .ok namedEvents ∧ ∃ p, eventsTable.Numbering p eventNumber) ∧
    eventNumber.autoIncrement = true ∧
    NumbersRows "n" (eventNumber.write eventsTable.inlineKey) := by
  have hinline : translate inlineEvents.sent = .ok inlineEvents := by decide +kernel
  have hnamed : translate namedEvents.sent = .ok namedEvents := by decide +kernel
  obtain ⟨_, _, -, -, -, -, hcolumns⟩ := key_numbers_itself (c := eventsTable) hinline rfl
  obtain ⟨p, _, hnumbering, -, -⟩ := List.forall₂_cons_right_iff.1 hcolumns
  obtain ⟨_, _, -, -, -, -, hcolumns'⟩ := key_numbers_itself (c := eventsTable) hnamed rfl
  obtain ⟨p', _, hnumbering', -, -⟩ := List.forall₂_cons_right_iff.1 hcolumns'
  exact ⟨⟨hinline, p, hnumbering⟩, ⟨hnamed, p', hnumbering'⟩, rfl,
    (hnumbering.numbered (by decide)).2 ⟨by decide, rfl⟩⟩

/-! ## Columns that are not numbered -/

/-- The definition has a column that is declared to number itself, and that the engine does not
number. -/
def LeavesUnnumbered (t : Translated) (c : CreateTable) : Prop :=
  translate t.sent = .ok t ∧ t.statement = .createTable c ∧ ∃ column ∈ c.columns,
    column.autoIncrement = true ∧ ¬NumbersRows column.name (column.write c.inlineKey)

/-- A serial column in a key of two columns. -/
def sharedKey : CreateTable where
  table := "t"
  ifNotExists := false
  columns := [⟨"a", .integer, true, true, none, false, none, []⟩,
    ⟨"b", .integer, true, false, none, false, none, []⟩]
  constraints := []

/-- A serial column beside the key. -/
def otherKey : CreateTable where
  table := "t"
  ifNotExists := false
  columns := [⟨"id", .integer, true, false, none, false, none, []⟩,
    ⟨"n", .integer, false, true, none, false, none, []⟩]
  constraints := []

/-- An identity that is no integer. -/
def textKey : CreateTable where
  table := "t"
  ifNotExists := false
  columns := [⟨"id", .text, true, true, none, false, none, []⟩]
  constraints := []

/-- A serial column in a table without a key. -/
def noKey : CreateTable where
  table := "t"
  ifNotExists := false
  columns := [⟨"id", .integer, false, true, none, false, none, []⟩,
    ⟨"v", .text, false, false, none, false, none, []⟩]
  constraints := []

/-- **Not every column that is declared to number itself is numbered.** -/
theorem serial_not_numbered :
    LeavesUnnumbered ⟨"CREATE TABLE t (a SERIAL, b INT, PRIMARY KEY (a, b))",
      "CREATE TABLE t ( a INTEGER NOT NULL, b INTEGER NOT NULL, PRIMARY KEY (a, b) );",
      .createTable sharedKey⟩ sharedKey ∧
    LeavesUnnumbered ⟨"CREATE TABLE t (id INT PRIMARY KEY, n SERIAL)",
      "CREATE TABLE t ( id INTEGER NOT NULL PRIMARY KEY, n INTEGER NULL );",
      .createTable otherKey⟩ otherKey ∧
    LeavesUnnumbered ⟨"CREATE TABLE t (id TEXT GENERATED ALWAYS AS IDENTITY PRIMARY KEY)",
      "CREATE TABLE t ( id TEXT NOT NULL PRIMARY KEY );", .createTable textKey⟩ textKey ∧
    LeavesUnnumbered ⟨"CREATE TABLE t (id SERIAL, v TEXT)",
      "CREATE TABLE t ( id INTEGER NULL, v TEXT NULL );", .createTable noKey⟩ noKey := by
  refine ⟨⟨?_, rfl, ?_⟩, ⟨?_, rfl, ?_⟩, ⟨?_, rfl, ?_⟩, ⟨?_, rfl, ?_⟩⟩ <;> decide +kernel

end PgGateway
