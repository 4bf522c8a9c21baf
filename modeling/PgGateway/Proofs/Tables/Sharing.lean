import Mathlib.Data.List.Basic
import PgGateway.Proofs.Session.Failure
import PgGateway.Proofs.Text.LetterCase

/-!
# Names that share an entry

An entry of the registry is what the operations under its key have left (`Registry.find?_after`).
Names that are the same word have one key, and the engine takes no others for one table. But the
key folds every capital letter: names that differ in the case of a letter beyond ASCII share an
entry although the engine keeps two tables (`Registry.tables_not_kept_apart`). Where there are no
such names, entries are shared just as the engine shares its tables
(`Registry.entries_shared_by_name`).
-/

namespace PgGateway

/-! ## Letters beyond ASCII -/

/-- The text has no capital letter beyond ASCII: each character there is its own lower-case form. -/
def Text.FoldsAsAscii (t : Text) : Prop := ∀ c ∈ t, c.toNat < 128 ∨ lowercase [c] = [c]

instance (t : Text) : Decidable t.FoldsAsAscii :=
  List.decidableBAll (fun c : Char => c.toNat < 128 ∨ Text.lowercase [c] = [c]) t

namespace LetterCase

variable {c : Char}

theorem lowercase_singleton (hsigma : c ≠ 'Σ') (hdotted : c ≠ 'İ') :
    Text.lowercase [c] = [lowerChar c] := by
  rw [Text.lowercase, lowerAfter, if_neg hsigma, if_neg hdotted]
  rfl

/-- Such a character is folded alike by both, whatever stands around it. -/
theorem lowerChar_eq_toLower (h : c.toNat < 128 ∨ Text.lowercase [c] = [c]) :
    c ≠ 'Σ' ∧ c ≠ 'İ' ∧ lowerChar c = c.toLower := by
  have hsigma : c ≠ 'Σ' := by
    rintro rfl
    revert h
    decide +kernel
  have hdotted : c ≠ 'İ' := by
    rintro rfl
    revert h
    decide +kernel
  refine ⟨hsigma, hdotted, ?_⟩
  by_cases hascii : c.toNat < 128
  · have hall : ∀ n < 128, lowerChar (Char.ofNat n) = (Char.ofNat n).toLower := by decide +kernel
    have hc := hall c.toNat hascii
    rwa [Char.ofNat_toNat] at hc
  · have hown := h.resolve_left hascii
    rw [lowercase_singleton hsigma hdotted] at hown
    have htoLower : c.toLower = c := by
      rw [← Char.toNat_inj, toNat_toLower, if_neg (by omega)]
    rw [htoLower, (List.cons.inj hown).1]

theorem lowerAfter_eq_lower {t : Text} (h : t.FoldsAsAscii) (before : Text) :
    lowerAfter before t = Text.lower t := by
  induction t generalizing before with
  | nil => rfl
  | cons c t ih =>
    obtain ⟨hc, ht⟩ := List.forall_mem_cons.1 h
    obtain ⟨hsigma, hdotted, hlower⟩ := lowerChar_eq_toLower hc
    rw [lowerAfter, if_neg hsigma, if_neg hdotted, hlower, ih ht]
    rfl

end LetterCase

namespace Registry

variable {a b name : Text}

/-- Names without capital letters beyond ASCII have one key if they are the same word, and only
then. -/
theorem key_eq_iff (ha : a.FoldsAsAscii) (hb : b.FoldsAsAscii) :
    key a = key b ↔ Text.SameWord a b := by
  unfold key Text.lowercase
  rw [LetterCase.lowerAfter_eq_lower ha, LetterCase.lowerAfter_eq_lower hb]
  rfl

/-! ## Operations -/

/-- A change of what is known of one table. -/
inductive Operation
  | register (definition : CreateTable)
  | drop (table : Text)
deriving DecidableEq, Repr

namespace Operation

/-- The name of the table that the operation is on. -/
def table : Operation → Text
  | register definition => definition.table
  | drop table => table

/-- The registry after the operation. -/
def apply (r : Registry) : Operation → Registry
  | register definition => r.register definition
  | drop table => r.drop table

/-- What the operation leaves of the entry of its table. -/
def leaves (entry : Option TableInfo) : Operation → Option TableInfo
  | register definition =>
    if definition.ifNotExists = true ∧ entry.isSome = true then entry else some definition.info
  | drop _ => none

end Operation

/-- The registry after operations. -/
def after (r : Registry) (ops : List Operation) : Registry := ops.foldl Operation.apply r

/-- What operations on one table leave of its entry. -/
def leftBy (entry : Option TableInfo) (ops : List Operation) : Option TableInfo :=
  ops.foldl Operation.leaves entry

/-- The operations on the tables that the engine takes for the one of the name. -/
def onTable (name : Text) (ops : List Operation) : List Operation :=
  ops.filter fun op => Text.SameWord op.table name

/-- An operation changes the entry under its key, and no other. -/
theorem find?_apply (r : Registry) (op : Operation) (k : Text) :
    (op.apply r).find? k = if key op.table = k then op.leaves (r.find? k) else r.find? k := by
  cases op with
  | register definition =>
    show (r.record (.createTable definition)).find? k = _
    rw [find?_record_eq]
    show (if key definition.table = k ∧ ¬(definition.ifNotExists = true ∧ _) then _ else _) =
      if key definition.table = k then if _ then _ else _ else _
    by_cases hk : key definition.table = k
    · rw [if_pos hk]
      by_cases hkept : definition.ifNotExists = true ∧ (r.find? k).isSome = true
      · rw [if_pos hkept, if_neg (fun h => h.2 hkept)]
      · rw [if_neg hkept, if_pos ⟨hk, hkept⟩]
    · rw [if_neg hk, if_neg (fun h => hk h.1)]
  | drop table => exact find?_record_eq r (.drop none (some table)) k

/-- **An entry is what the operations under its key have left.** -/
theorem find?_after (r : Registry) (ops : List Operation) (k : Text) :
    (r.after ops).find? k = leftBy (r.find? k) (ops.filter fun op => key op.table = k) := by
  induction ops generalizing r with
  | nil => rfl
  | cons op ops ih =>
    show ((op.apply r).after ops).find? k = _
    rw [ih, find?_apply]
    by_cases hk : key op.table = k
    · rw [if_pos hk, List.filter_cons_of_pos (by simpa using hk)]
      rfl
    · rw [if_neg hk, List.filter_cons_of_neg (by simpa using hk)]

/-- **Entries are shared as the engine shares its tables.** If no operation is on a table that the
engine keeps apart from the one of the name although their keys are the same, the entry of the name
is what the operations on that table have left, in any letter case, and no other operation has a
part in it. -/
theorem entries_shared_by_name {ops : List Operation}
    (hapart : ∀ op ∈ ops, key op.table = key name → Text.SameWord op.table name) (r : Registry) :
    (r.after ops).table? name = leftBy (r.table? name) (onTable name ops) ∧
    (∀ other, Text.SameWord other name → (r.after ops).table? other = (r.after ops).table? name) ∧
    ∀ column, (r.after ops).declaredType? name column =
      ((leftBy (r.table? name) (onTable name ops)).bind (·.column? column)).map (·.type) := by
  have hentry : (r.after ops).table? name = leftBy (r.table? name) (onTable name ops) := by
    -- under the key of the name there are only operations on its own table
    have hsame : (ops.filter fun op => key op.table = key name) = onTable name ops := by
      apply List.filter_congr
      intro op hop
      rw [decide_eq_decide]
      exact ⟨hapart op hop, Text.lowercase_eq_of_sameWord⟩
    rw [table?, find?_after, hsame]
    rfl
  refine ⟨hentry, fun other hother => ?_, fun column => ?_⟩
  · rw [table?, table?, key, Text.lowercase_eq_of_sameWord hother]
    rfl
  · rw [declaredType?, hentry]

/-! ## Two tables of the engine -/

/-- A table with one column. -/
def oneColumn (table column : Text) (type : ColumnType) : CreateTable :=
  ⟨table, false, [⟨column, type, false, false, none, false, none, []⟩], []⟩

/-- Tables are made, found in another letter case and dropped; one has a name with small letters
beyond ASCII. -/
def plainRun : List Operation :=
  [.register (oneColumn "Größe" "a" .bigInt), .register (oneColumn "Users" "id" .integer),
    .drop "GRößE", .register (oneColumn "größe" "b" .real),
    .register { oneColumn "USERS" "name" .text with ifNotExists := true }]

theorem entries_shared_by_name_plainRun :
    (∀ op ∈ plainRun, key op.table = key "GRößE" → Text.SameWord op.table "GRößE") ∧
    (empty.after plainRun).table? "GRößE" = some (oneColumn "größe" "b" .real).info ∧
    (empty.after plainRun).declaredType? "GRÖSSE" "b" = none ∧
    (empty.after plainRun).declaredType? "GRößE" "B" = some .real := by
  have hplain : ∀ op ∈ plainRun, op.table.FoldsAsAscii := by decide +kernel
  have hname : Text.FoldsAsAscii "GRößE" := by decide +kernel
  have hapart : ∀ op ∈ plainRun, key op.table = key "GRößE" → Text.SameWord op.table "GRößE" :=
    fun op hop => (key_eq_iff (hplain op hop) hname).1
  obtain ⟨hentry, -, htype⟩ := entries_shared_by_name hapart empty
  refine ⟨hapart, hentry.trans ?_, ?_, (htype "B").trans ?_⟩
  all_goals decide +kernel

/-- A table whose name is a capital letter. -/
def capitalTable : CreateTable := oneColumn "É" "a" .integer

/-- A table whose name is the small letter. -/
def smallTable : CreateTable := oneColumn "é" "b" .real

/-- **Tables are not kept apart.** The engine has two tables whose names differ in the case of a
letter beyond ASCII. In the registry the second one is known by the columns of the first, takes the
place of the first, and takes the first with it when it is dropped. -/
theorem tables_not_kept_apart : ¬Text.SameWord capitalTable.table smallTable.table ∧
    (Sql.translate "CREATE TABLE É (a INT)").map (·.statement) =
      .ok (.createTable capitalTable) ∧
    (Sql.translate "CREATE TABLE é (b REAL)").map (·.statement) = .ok (.createTable smallTable) ∧
    leftBy none (onTable "é" [.register capitalTable]) = none ∧
    (empty.after [.register capitalTable]).table? "é" = some capitalTable.info ∧
    leftBy none (onTable "É" [.register capitalTable, .register smallTable]) =
      some capitalTable.info ∧
    (empty.after [.register capitalTable, .register smallTable]).table? "É" =
      some smallTable.info ∧
    leftBy none (onTable "É" [.register capitalTable, .drop "é"]) = some capitalTable.info ∧
    (empty.after [.register capitalTable, .drop "é"]).table? "É" = none := by
  decide +kernel

end Registry

end PgGateway
