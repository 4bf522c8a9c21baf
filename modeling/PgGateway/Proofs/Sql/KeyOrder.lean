import Mathlib.Data.List.Perm.Basic
import PgGateway.Proofs.Sql.Keys

/-!
# The order of a composite key

A table keeps of its key which columns are part of it, and not the order in which they were named. A
key of several columns is therefore written with its columns in the order in which they are declared
(`key_in_declared_order`): the same columns that the client named, but in the client's order only if
that is the same one. A client that names them in another order gets another key
(`key_order_not_kept`).
-/

namespace PgGateway

namespace Sql

open List (Forall₂)

variable {ts : List Token}

/-! ## The block of a definition -/

/-- There is one first group. -/
theorem FirstGroup.unique {g g' : Group} (h : FirstGroup ts g) (h' : FirstGroup ts g') :
    g = g' := by
  have hback : ∀ {g : Group}, FirstGroup ts g →
      ∃ after, ts.dropWhile (fun u => !u.isSymbol '(') = g.tokens ++ after := by
    rintro g ⟨hsound, after, front, rfl, hfront⟩
    refine ⟨after, ?_⟩
    rw [List.dropWhile_append_of_pos (by simpa using hfront)]
    exact List.dropWhile_cons_of_neg (by simp [hsound.opening])
  obtain ⟨after, hafter⟩ := hback h
  obtain ⟨after', hafter'⟩ := hback h'
  have hread := h.sound.readGroup after
  rw [← hafter, hafter', h'.sound.readGroup after'] at hread
  cases hread
  rfl

theorem KeyList.unique {p : List Token} {names names' : List Text} (h : KeyList p names)
    (h' : KeyList p names') : names = names' := by
  have hread := h.read
  rw [h'.read] at hread
  cases hread
  rfl

/-! ## Names of distinct columns -/

/-- The names of distinct columns differ even where their letters are in one case. -/
theorem Distinct.nodup {cs : List Column} (h : Distinct cs) :
    (cs.map fun c => Text.lower c.name).Nodup :=
  List.pairwise_map.2 h

/-- Where no two columns have one name, a name is first that of its only column. -/
theorem Distinct.firstNamed_iff {cs : List Column} (h : Distinct cs) {i : Nat} {c : Column}
    (hc : cs[i]? = some c) (name : Text) :
    firstNamed cs name = some i ↔ Text.SameWord c.name name := by
  obtain ⟨hi, rfl⟩ := List.getElem?_eq_some_iff.1 hc
  rw [firstNamed, List.findIdx?_eq_some_iff_getElem]
  constructor
  · rintro ⟨_, hsame, _⟩
    simpa using hsame
  · intro hsame
    refine ⟨hi, by simpa using hsame, fun j hj => ?_⟩
    have hother : ¬Text.SameWord cs[j].name cs[i].name := List.pairwise_iff_getElem.1 h j i _ hi hj
    simpa using fun hsame' : Text.SameWord cs[j].name name => hother (hsame'.trans hsame.symm)

end Sql

open Sql

/-! ## Composite keys -/

/-- The parts have one key, of these names, two or more and each of another column; no definition of
a column says that it is in the key, and no two columns have one name. -/
structure CreateTable.CompositeKey (c : CreateTable) (ps : List (List Token)) (names : List Text) :
    Prop where
  single : ∃ p, ps.filter isKeyPart = [p] ∧ KeyList p names
  unsaid : ∀ p ∈ ps, isTableConstraint p = false → ¬Declares p .primaryKey
  distinct : Distinct c.columns
  several : 2 ≤ names.length
  apart : names.Pairwise fun a b => ¬Text.SameWord a b

namespace CreateTable

variable {c : CreateTable} {ps : List (List Token)} {names : List Text} {name : Text}

theorem CompositeKey.namedInKey_iff (h : c.CompositeKey ps names) :
    NamedInKey ps name ↔ name ∈ names := by
  obtain ⟨p, hsingle, hnames⟩ := h.single
  have hp : p ∈ ps := (List.mem_filter.1 (hsingle ▸ List.mem_singleton_self p)).1
  constructor
  · rintro ⟨q, hq, names', hnames', hname⟩
    have hmem : q ∈ ps.filter isKeyPart := List.mem_filter.2 ⟨hq, hnames'.isKeyPart⟩
    obtain rfl : q = p := by simpa [hsingle] using hmem
    rwa [hnames.unique hnames']
  · intro hname
    exact ⟨p, hp, names, hnames, hname⟩

theorem text_eq {sql : Text} {t : Translated} (h : translate sql = .ok t)
    (hc : t.statement = .createTable c) : t.text = c.write := by
  obtain ⟨ts, s, -, -, rfl⟩ := translate_eq_ok.1 h
  obtain rfl : s = .createTable c := hc
  rfl

theorem DefinedBy.exists_part (h : c.DefinedBy ps) {i : Nat} {column : Column}
    (hcolumn : c.columns[i]? = some column) : ∃ p ∈ ps, isTableConstraint p = false ∧
      (column.primaryKey = true ↔ Declares p .primaryKey ∨
        ∃ name, NamedInKey ps name ∧ firstNamed c.columns name = some i) := by
  obtain ⟨hlength, hget⟩ := List.forall₂_iff_get.1 h.key
  obtain ⟨hi, rfl⟩ := List.getElem?_eq_some_iff.1 hcolumn
  have hi' : i < c.columns.zipIdx.length := by rwa [List.length_zipIdx]
  have hkey := hget i (hlength ▸ hi') hi'
  have hmem := List.get_mem (ps.filter fun p => !isTableConstraint p) ⟨i, hlength ▸ hi'⟩
  obtain ⟨hp, hdefinition⟩ := List.mem_filter.1 hmem
  exact ⟨_, hp, by simpa using hdefinition, by simpa using hkey⟩

/-- **The key is of the columns that are named.** -/
theorem CompositeKey.primaryKey_iff (h : c.CompositeKey ps names) (hdefined : c.DefinedBy ps)
    {column : Column} (hcolumn : column ∈ c.columns) :
    column.primaryKey = true ↔ ∃ name ∈ names, Text.SameWord column.name name := by
  obtain ⟨i, hi⟩ := List.getElem?_of_mem hcolumn
  obtain ⟨p, hp, hdefinition, hkey⟩ := hdefined.exists_part hi
  rw [hkey, or_iff_right (h.unsaid p hp hdefinition)]
  simp only [h.namedInKey_iff, h.distinct.firstNamed_iff hi]

/-- The names of the columns in the key, in the order in which the columns are declared. -/
def keyOrder (c : CreateTable) : List Text := c.keyColumns.map (·.name)

theorem keyOrder_sublist (c : CreateTable) : c.keyOrder.Sublist (c.columns.map (·.name)) :=
  List.Sublist.map _ List.filter_sublist

/-- Up to their order and the case of their letters, the columns in the key have the names that were
given. -/
theorem CompositeKey.keyOrder_perm (h : c.CompositeKey ps names) (hdefined : c.DefinedBy ps) :
    (c.keyOrder.map Text.lower).Perm (names.map Text.lower) := by
  have hnodup : (c.keyOrder.map Text.lower).Nodup := by
    rw [keyOrder, List.map_map]
    exact h.distinct.nodup.sublist (List.Sublist.map _ List.filter_sublist)
  rw [List.perm_ext_iff_of_nodup hnodup (List.pairwise_map.2 h.apart)]
  intro word
  simp only [keyOrder, List.map_map, List.mem_map, keyColumns, List.mem_filter, Function.comp_apply]
  constructor
  · rintro ⟨column, ⟨hcolumn, hkey⟩, rfl⟩
    obtain ⟨name, hname, hsame⟩ := (h.primaryKey_iff hdefined hcolumn).1 hkey
    exact ⟨name, hname, hsame.symm⟩
  · rintro ⟨name, hname, rfl⟩
    obtain ⟨column, hcolumn, hsame⟩ := hdefined.defined name (h.namedInKey_iff.2 hname)
    exact ⟨column, ⟨hcolumn, (h.primaryKey_iff hdefined hcolumn).2 ⟨name, hname, hsame⟩⟩, hsame⟩

/-- The names are in the order in which they were given if the columns are declared in that order,
and only then. -/
theorem CompositeKey.keyOrder_eq_iff (h : c.CompositeKey ps names) (hdefined : c.DefinedBy ps) :
    c.keyOrder.map Text.lower = names.map Text.lower ↔
      (names.map Text.lower).Sublist (c.columns.map fun column => Text.lower column.name) := by
  have hdeclared : (c.keyOrder.map Text.lower).Sublist
      (c.columns.map fun column => Text.lower column.name) := by
    rw [keyOrder, List.map_map]
    exact List.Sublist.map _ List.filter_sublist
  constructor
  · intro heq
    rwa [← heq]
  · intro hsub
    -- of one list without repetitions, two parts in its order with the same members are the same
    have hone := List.Nodup.perm_iff_eq_of_sublist h.distinct.nodup hdeclared hsub
    exact hone.1 (h.keyOrder_perm hdefined)

/-- A composite key is written behind the columns, and in none of them. -/
theorem CompositeKey.blockParts_eq (h : c.CompositeKey ps names) (hdefined : c.DefinedBy ps) :
    c.blockParts = c.columns.map (fun column => column.front ++ column.back) ++
      keyClause c.keyOrder :: c.constraints := by
  have hlength : c.keyColumns.length = names.length := by
    simpa [keyOrder] using (h.keyOrder_perm hdefined).length_eq
  have hseveral : 2 ≤ c.keyColumns.length := hlength ▸ h.several
  have hinline : ∀ column, Text.only (decide (c.keyColumns = [column])) " PRIMARY KEY" = [] := by
    intro column
    have hnot : c.keyColumns ≠ [column] := by
      intro hone
      rw [hone, List.length_singleton] at hseveral
      omega
    rw [decide_eq_false hnot]
    rfl
  rw [CreateTable.blockParts_eq, keyParts, if_pos hseveral]
  simp only [hinline, List.append_nil, List.append_assoc, List.singleton_append]
  rfl

end CreateTable

/-- **Composite keys are written in the order of the columns.** Of every accepted definition with
one key of several columns, none of which says so itself, the key is written once, behind the
columns. It names the columns that the client named, in the order in which they are declared; that
is the client's order if the client named them in it, and only then. -/
theorem key_in_declared_order {sql : Text} {t : Translated} {c : CreateTable} {ts : List Token}
    {g : Group} {names : List Text} (h : translate sql = .ok t)
    (hc : t.statement = .createTable c) (hread : readTokens (normalize sql) = .ok ts)
    (hg : FirstGroup ts g) (hkey : c.CompositeKey (parts g.inside) names) :
    ∃ written : List Text, t.text = "CREATE TABLE " ++ Text.only c.ifNotExists "IF NOT EXISTS " ++
      writeName c.table ++ " ( " ++ Text.join ", " (
        c.columns.map (fun column => column.front ++ column.back) ++
        CreateTable.keyClause written :: c.constraints) ++ " );" ∧
    written.Sublist (c.columns.map (·.name)) ∧
    (written.map Text.lower).Perm (names.map Text.lower) ∧
    (written.map Text.lower = names.map Text.lower ↔
      (names.map Text.lower).Sublist (c.columns.map fun column => Text.lower column.name)) := by
  obtain ⟨ts', g', hread', hg', hdefined⟩ := CreateTable.definedBy_of_translate h hc
  obtain rfl : ts' = ts := by simpa [hread'] using hread
  obtain rfl : g' = g := hg'.unique hg
  refine ⟨c.keyOrder, ?_, c.keyOrder_sublist, hkey.keyOrder_perm hdefined,
    hkey.keyOrder_eq_iff hdefined⟩
  rw [← hkey.blockParts_eq hdefined, CreateTable.text_eq h hc]
  rfl

/-- A key that names the later column first. -/
def reversedNames : Group := grouped [] [⟨[], .word, "b"⟩, .mark [] ',', .bare "a"]

/-- The block of a table with that key. -/
def reversedBlock : Group :=
  grouped [] ([⟨[], .word, "a"⟩, .bare "INT", .mark [] ',', .bare "b", .bare "INT", .mark [] ',',
    .bare "PRIMARY", .bare "KEY"] ++ reversedNames.tokens)

def reversedTokens : List Token :=
  [⟨[], .word, "CREATE"⟩, .bare "TABLE", .bare "t"] ++ reversedBlock.tokens

def reversedTable : CreateTable where
  table := "t"
  ifNotExists := false
  columns := [⟨"a", .integer, true, false, none, false, none, []⟩,
    ⟨"b", .integer, true, false, none, false, none, []⟩]
  constraints := []

def reversedKey : Translated where
  sent := "CREATE TABLE t (a INT, b INT, PRIMARY KEY (b, a))"
  text := "CREATE TABLE t ( a INTEGER NOT NULL, b INTEGER NOT NULL, PRIMARY KEY (a, b) );"
  statement := .createTable reversedTable

theorem translate_reversedKey : translate reversedKey.sent = .ok reversedKey := by decide +kernel

theorem readTokens_reversedKey :
    readTokens (normalize reversedKey.sent) = .ok reversedTokens := by decide +kernel

theorem firstGroup_reversedBlock : FirstGroup reversedTokens reversedBlock where
  sound := grouped_sound (by decide)
  reaches := ⟨[], reversedTokens.take 3, by decide, by decide⟩

theorem compositeKey_reversedTable :
    reversedTable.CompositeKey (parts reversedBlock.inside) ["b", "a"] where
  single := by
    refine ⟨[.bare "PRIMARY", .bare "KEY"] ++ reversedNames.tokens, by decide, ?_⟩
    have hread : readTableItem ([.bare "PRIMARY", .bare "KEY"] ++ reversedNames.tokens) =
        .ok (.primaryKey ["b", "a"]) := by decide
    exact isRead_of_readTableItem hread
  unsaid := by decide +kernel
  distinct := by
    unfold Distinct
    decide
  several := by decide
  apart := by decide

/-- Of that key the columns are written in the order in which they are declared. -/
theorem key_in_declared_order_reversedKey : translate reversedKey.sent = .ok reversedKey ∧
    readTokens (normalize reversedKey.sent) = .ok reversedTokens ∧
    FirstGroup reversedTokens reversedBlock ∧
    reversedTable.CompositeKey (parts reversedBlock.inside) ["b", "a"] ∧
    ∃ written : List Text, written.Sublist ["a", "b"] ∧ (written.map Text.lower).Perm ["b", "a"] ∧
      written.map Text.lower ≠ ["b", "a"] := by
  refine ⟨translate_reversedKey, readTokens_reversedKey, firstGroup_reversedBlock,
    compositeKey_reversedTable, ?_⟩
  obtain ⟨written, -, hsub, hperm, horder⟩ := key_in_declared_order translate_reversedKey rfl
    readTokens_reversedKey firstGroup_reversedBlock compositeKey_reversedTable
  exact ⟨written, hsub, hperm, fun heq => absurd (horder.1 heq) (by decide)⟩

/-- **The order of a composite key is not kept.** The client names the columns of its key in another
order than it declares them, and the engine is given another key. -/
theorem key_order_not_kept : translate reversedKey.sent = .ok reversedKey ∧
    readTokens (normalize reversedKey.sent) = .ok reversedTokens ∧
    FirstGroup reversedTokens reversedBlock ∧
    reversedTable.CompositeKey (parts reversedBlock.inside) ["b", "a"] ∧
    Text.Contains (CreateTable.keyClause ["a", "b"]) reversedKey.text ∧
    ¬Text.Contains (CreateTable.keyClause ["b", "a"]) reversedKey.text := by
  refine ⟨translate_reversedKey, readTokens_reversedKey, firstGroup_reversedBlock,
    compositeKey_reversedTable, ?_, ?_⟩
  all_goals decide +kernel

end PgGateway
