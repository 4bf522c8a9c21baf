import Mathlib.Data.List.Forall2
import Mathlib.Data.List.Nodup
import Mathlib.Data.Option.Defs
import PgGateway.Proofs.Projection.Legal
import PgGateway.Proofs.Sql.OneStatement

/-!
# The registry after a restart

A registry that starts with an existing database knows its tables from what the engine tells of
them: the names, type words and nullability that were written for the engine, and which columns are
in the key. It is the registry that there was before (`Registry.restart_restores`), but for the
declared types, of which only the storage types are left, and the defaults. So the same columns of
results are described by the registry as before.
-/

namespace PgGateway

open List (Forall₂)
open Sql

variable {σ : Type}

/-! ## Written columns -/

/-- What the text written for a column begins with. -/
structure WrittenColumn where
  name : Text
  typeWord : Text
  nullable : Bool
deriving DecidableEq, Repr

/-- Reads the name, the word for the type, and `NULL` or `NOT NULL`. -/
def WrittenColumn.read? (part : Text) : Option WrittenColumn :=
  match readTokens part with
  | .ok (own :: type :: rest) =>
    if Token.startsWith "NULL" rest then some ⟨own.name, type.text, true⟩
    else if Token.startsWith "NOT" rest && Token.startsWith "NULL" rest.tail then
      some ⟨own.name, type.text, false⟩
    else none
  | _ => none

namespace Column

variable {c : Column} {inlineKey : Bool}

/-- A column that was read is written as its tokens. -/
theorem readTokens_write (h : c.Lifted) :
    readTokens (c.write inlineKey) = .ok (setGap [] (c.tokens inlineKey)) := by
  have hverbatim : Token.verbatim (c.tokens inlineKey) = c.write inlineKey := by
    have hrender : Token.render (c.tokens inlineKey) = ' ' :: c.write inlineKey := render_tokens h
    rw [tokens, Token.render_cons, gap_nameToken] at hrender
    exact List.cons.inj hrender |>.2
  rw [← hverbatim]
  exact ((spaced_tokens h).clean.excerpt (List.cons_ne_nil _ _)).read

/-- The text of a column tells its name, its storage type and whether it can hold NULL. -/
theorem read?_write (h : c.Lifted) : WrittenColumn.read? (c.write inlineKey) =
    some ⟨c.name, c.type.storage.name, c.nullable⟩ := by
  obtain ⟨rest, hrest⟩ : ∃ rest, c.tokens inlineKey = nameToken c.name ::
      .bare c.type.storage.name ::
        ((if c.nullable then [.bare "NULL"] else [.bare "NOT", .bare "NULL"]) ++ rest) :=
    ⟨_, by unfold tokens headTokens; simp only [List.append_assoc]; rfl⟩
  have hname : Token.name { nameToken c.name with gap := [] } = c.name := name_nameToken c.name
  have hnull : Token.isKeyword (.bare "NULL") "NULL" = true := by decide
  have hnot : Token.isKeyword (.bare "NOT") "NOT" = true := by decide
  have hother : Token.isKeyword (.bare "NOT") "NULL" = false := by decide
  rw [WrittenColumn.read?, readTokens_write h, hrest, setGap_cons]
  dsimp only
  rw [hname]
  cases c.nullable with
  | true =>
    show (if Token.isKeyword (.bare "NULL") "NULL" then _ else _) = _
    rw [if_pos hnull]
    rfl
  | false =>
    show (if Token.isKeyword (.bare "NOT") "NULL" then _ else
      if Token.isKeyword (.bare "NOT") "NOT" && Token.isKeyword (.bare "NULL") "NULL" then _
      else _) = _
    rw [hother, hnot, hnull]
    rfl

end Column

/-! ## What the engine tells -/

/-- A row of the answer to `Registry.columnsQuery` tells what the part of the block that is written
for a column begins with, and whether the column is in the key. The number of the column and the
default may be any. -/
def Reports (part : Text) (inKey : Bool) (row : List Value) : Prop :=
  ∃ written number notNull default place, WrittenColumn.read? part = some written ∧
    row = [number, .text written.name, .text written.typeWord, .integer notNull, default,
      .integer place] ∧
    (notNull = 0 ↔ written.nullable = true) ∧ (0 < place ↔ inKey = true)

/-- The engine holds just these tables, in any of the states `held`: it lists them, in any order,
and of each it tells what was written for its columns, one after the other. -/
structure Engine.Holds (engine : Engine σ) (held : σ → Prop) (cs : List CreateTable) : Prop where
  lists : ∀ state, held state → ∃ result next, ∃ ds : List CreateTable,
    engine ⟨Registry.tablesQuery, false⟩ state = (.ok result, next) ∧ held next ∧
      ds.Perm cs ∧ result.rows = ds.map fun c => [.text c.table]
  reports : ∀ state, held state → ∀ c ∈ cs, ∃ result next,
    engine ⟨Registry.columnsQuery c.table, false⟩ state = (.ok result, next) ∧ held next ∧
      Forall₂ (fun (entry : Column × Text) row => Reports entry.2 entry.1.primaryKey row)
        (c.columns.zip c.blockParts) result.rows

/-! ## What is left of a table -/

/-- The second column is what is left of the first one: its default may be lost, and of its type
the storage type is left. -/
structure ColumnInfo.Restores (before after : ColumnInfo) : Prop where
  name : after.name = before.name
  type : after.type = before.type.storage.declared
  nullable : after.nullable = before.nullable
  primaryKey : after.primaryKey = before.primaryKey

/-- The second table is what is left of the first one, column by column. -/
structure TableInfo.Restores (before after : TableInfo) : Prop where
  name : after.name = before.name
  columns : Forall₂ ColumnInfo.Restores before.columns after.columns

/-- What is found in two lists that are related one by one is related. -/
theorem rel_find? {α β : Type} {R : α → β → Prop} {p : α → Bool} {q : β → Bool} {l : List α}
    {m : List β} (h : Forall₂ R l m) (hsame : ∀ a b, R a b → p a = q b) :
    Option.Rel R (l.find? p) (m.find? q) := by
  induction h with
  | nil => exact .none
  | @cons a b l m hab _ ih =>
    rw [List.find?_cons, List.find?_cons, ← hsame a b hab]
    cases p a with
    | true => exact .some hab
    | false => exact ih

theorem isSome_of_rel {α β : Type} {R : α → β → Prop} {a : Option α} {b : Option β}
    (h : Option.Rel R a b) : a.isSome = b.isSome := by
  cases h <;> rfl

theorem TableInfo.Restores.column? {before after : TableInfo} (h : before.Restores after)
    (name : Text) :
    Option.Rel ColumnInfo.Restores (before.column? name) (after.column? name) :=
  rel_find? h.columns fun _ _ hcolumn => by rw [hcolumn.name]

/-- A column is described by what is left of a table just as it was by the table. -/
theorem ResultSet.asDeclared_restores {before after : Option TableInfo}
    (h : Option.Rel TableInfo.Restores before after) (result : ResultSet) (place : Nat) :
    result.AsDeclared after place ↔ result.AsDeclared before place := by
  cases h with
  | none => rfl
  | @some before after h =>
    refine exists_congr fun name => ?_
    have hcolumn := h.column? name
    show (∃ column, _ ∧ after.column? name = some column ∧ _) ↔
      ∃ column, _ ∧ before.column? name = some column ∧ _
    revert hcolumn
    generalize before.column? name = known
    generalize after.column? name = restored
    intro hcolumn
    cases hcolumn with
    | none => simp
    | @some known restored hrestores =>
      have hstorage : restored.type.storage = known.type.storage := by
        rw [hrestores.type, StorageType.storage_declared]
      simp [hstorage]

namespace Registry

variable {c : CreateTable} {column : Column} {row : List Value}

theorem columnOfRow_reports {inlineKey : Bool} (h : column.Lifted)
    (hrow : Reports (column.write inlineKey) column.primaryKey row) :
    ∃ info, columnOfRow row = some info ∧ column.info.Restores info := by
  obtain ⟨written, number, notNull, default, place, hread, rfl, hnull, hplace⟩ := hrow
  obtain rfl : written = _ := Option.some.inj (hread.symm.trans (column.read?_write h))
  refine ⟨_, rfl, rfl, ?_, ?_, ?_⟩
  · -- the storage types are single words, each read as itself
    have hwords : (Text.words column.type.storage.name).map Text.upper =
        [column.type.storage.name] := by
      cases column.type.storage <;> decide
    show ColumnType.ofWords ((Text.words column.type.storage.name).map Text.upper) = _
    rw [hwords, ColumnType.ofWords_storage]
    rfl
  · show ((some notNull : Option Int64) == some 0) = column.nullable
    rw [Bool.eq_iff_iff, beq_iff_eq, Option.some_inj]
    exact hnull
  · show decide (0 < place) = column.primaryKey
    rw [Bool.eq_iff_iff, decide_eq_true_iff]
    exact hplace

/-- The first parts of the block are those of the columns. -/
theorem zip_blockParts (c : CreateTable) : c.columns.zip c.blockParts =
    c.columns.map fun column => (column, column.write (c.keyColumns.length == 1)) := by
  unfold CreateTable.blockParts
  rw [List.append_assoc]
  generalize (c.keyColumns.length == 1) = inlineKey
  generalize c.columns = columns
  induction columns with
  | nil => rfl
  | cons column columns ih =>
    rw [List.map_cons, List.cons_append, List.zip_cons_cons, ih, List.map_cons]

theorem restores_of_reports (h : c.Lifted) {rows : List (List Value)}
    (hrows : Forall₂ (fun (entry : Column × Text) row => Reports entry.2 entry.1.primaryKey row)
      (c.columns.zip c.blockParts) rows) :
    c.info.Restores ⟨c.table, rows.filterMap columnOfRow⟩ := by
  refine ⟨rfl, ?_⟩
  rw [zip_blockParts, List.forall₂_map_left_iff] at hrows
  have hcolumns := h.columns
  show Forall₂ _ (c.columns.map Column.info) _
  generalize c.columns = columns at hrows hcolumns
  induction hrows with
  | nil => exact .nil
  | @cons column row columns rows hrow _ ih =>
    obtain ⟨hcolumn, hlater⟩ := List.forall_mem_cons.1 hcolumns
    obtain ⟨info, hinfo, hrestores⟩ := columnOfRow_reports hcolumn hrow
    rw [List.filterMap_cons_some hinfo]
    exact .cons hrestores (ih hlater)

/-! ## Tables put in one after the other -/

/-- The registry with a table, in place of any other under its key. -/
def put (r : Registry) (info : TableInfo) : Registry := r.insert (key info.name) info

/-- Tables under different keys are all found. -/
theorem find?_foldl_put {infos : List TableInfo} (h : (infos.map fun i => key i.name).Nodup)
    (r : Registry) (k : Text) : (infos.foldl put r).find? k =
      (infos.find? fun i => key i.name = k).or (r.find? k) := by
  induction infos generalizing r with
  | nil => rfl
  | cons info infos ih =>
    obtain ⟨hfresh, hlater⟩ := List.nodup_cons.1 h
    rw [List.foldl_cons, ih hlater, put, find?_insert]
    by_cases hk : key info.name = k
    · -- no later table takes its place
      have hnone : (infos.find? fun i => decide (key i.name = k)) = none := by
        rw [List.find?_eq_none]
        intro i hi hsame
        exact hfresh (List.mem_map.2 ⟨i, hi, (of_decide_eq_true hsame).trans hk.symm⟩)
      rw [hnone, if_pos hk.symm, List.find?_cons_of_pos (by simpa using hk)]
      rfl
    · rw [if_neg (Ne.symm hk), List.find?_cons_of_neg (by simpa using hk)]

/-- Definitions of different tables are all registered, guarded or not. -/
theorem foldl_register {cs : List CreateTable} (h : (cs.map fun c => key c.table).Nodup)
    {r : Registry} (hnew : ∀ c ∈ cs, r.table? c.table = none) :
    cs.foldl register r = (cs.map CreateTable.info).foldl put r := by
  induction cs generalizing r with
  | nil => rfl
  | cons c cs ih =>
    obtain ⟨hfresh, hlater⟩ := List.nodup_cons.1 h
    obtain ⟨hc, hcs⟩ := List.forall_mem_cons.1 hnew
    have hput : r.register c = r.put c.info := by
      unfold register
      rw [hc]
      simp [put, CreateTable.info]
    rw [List.foldl_cons, List.map_cons, List.foldl_cons, hput]
    refine ih hlater fun d hd => ?_
    have hother : key d.table ≠ key c.table := fun hsame =>
      hfresh (List.mem_map.2 ⟨d, hd, hsame⟩)
    rw [table?, put, find?_insert]
    exact (if_neg hother).trans (hcs d hd)

/-- Of tables under different keys the one of a key is found, in whatever order they are. -/
theorem find?_eq_some_iff {infos : List TableInfo} (h : (infos.map fun i => key i.name).Nodup)
    {k : Text} {info : TableInfo} :
    (infos.find? fun i => key i.name = k) = some info ↔ info ∈ infos ∧ key info.name = k := by
  constructor
  · intro hfound
    have hk := List.find?_some hfound
    exact ⟨List.mem_of_find?_eq_some hfound, of_decide_eq_true hk⟩
  · rintro ⟨hmem, hk⟩
    cases hfound : infos.find? fun i => key i.name = k with
    | none => exact absurd (decide_eq_true hk) (List.find?_eq_none.1 hfound info hmem)
    | some other =>
      have hother := List.find?_some hfound
      rw [List.inj_on_of_nodup_map h (List.mem_of_find?_eq_some hfound) hmem
        ((of_decide_eq_true hother).trans hk.symm)]

theorem find?_perm {infos others : List TableInfo} (h : (infos.map fun i => key i.name).Nodup)
    (hperm : infos.Perm others) (k : Text) :
    (infos.find? fun i => key i.name = k) = others.find? fun i => key i.name = k := by
  have hothers : (others.map fun i => key i.name).Nodup := (hperm.map _).nodup_iff.1 h
  apply Option.ext
  intro info
  rw [find?_eq_some_iff h, find?_eq_some_iff hothers, hperm.mem_iff]

theorem keys_restores {infos others : List TableInfo}
    (h : Forall₂ TableInfo.Restores infos others) :
    (others.map fun i => key i.name) = infos.map fun i => key i.name := by
  induction h with
  | nil => rfl
  | cons hinfo _ ih => rw [List.map_cons, List.map_cons, ih, hinfo.name]

/-! ## Loading -/

variable {engine : Engine σ} {held : σ → Prop} {cs ds : List CreateTable} {state : σ}

theorem loadTables_holds (h : engine.Holds held cs) (hlifted : ∀ c ∈ cs, c.Lifted) (hds : ds ⊆ cs)
    (r : Registry) (hstate : held state) : ∃ infos next,
      loadTables engine (ds.map (·.table)) r state = (.ok ds.length, infos.foldl put r, next) ∧
        Forall₂ (fun c info => c.info.Restores info) ds infos := by
  induction ds generalizing r state with
  | nil => exact ⟨[], state, rfl, .nil⟩
  | cons c ds ih =>
    obtain ⟨hc, hlater⟩ := List.cons_subset.1 hds
    obtain ⟨result, next, hanswer, hnext, hrows⟩ := h.reports state hstate c hc
    obtain ⟨infos, last, hloaded, hrestores⟩ :=
      ih hlater (r.put ⟨c.table, result.rows.filterMap columnOfRow⟩) hnext
    -- a table put in is not looked at again: the others are put in whatever the registry is
    refine ⟨⟨c.table, result.rows.filterMap columnOfRow⟩ :: infos, last, ?_,
      .cons (restores_of_reports (hlifted c hc) hrows) hrestores⟩
    rw [put] at hloaded
    rw [List.map_cons, loadTables, hanswer]
    dsimp only
    rw [hloaded]
    rfl

/-- **A restart restores the registry.** The tables of accepted definitions, under different keys,
are just those that are loaded from an engine that holds them. Each has the name, the columns, the
nullability and the key that it had when it was registered, and the storage types of its columns.
So a column of a result is described as it was declared if it was before, and only then. -/
theorem restart_restores (h : engine.Holds held cs)
    (haccepted : ∀ c ∈ cs, ∃ sql t, translate sql = .ok t ∧ t.statement = .createTable c)
    (hkeys : (cs.map fun c => key c.table).Nodup) (hstate : held state) :
    ∃ restarted next, load engine empty state = (.ok cs.length, restarted, next) ∧
      (∀ name, (restarted.table? name).isSome = true ↔ ∃ c ∈ cs, key c.table = key name) ∧
      (∀ c ∈ cs, ∃ info, (cs.foldl register empty).table? c.table = some c.info ∧
        restarted.table? c.table = some info ∧ c.info.Restores info) ∧
      ∀ (source : Option Text) (result : ResultSet) place,
        result.AsDeclared (source.bind restarted.table?) place ↔
          result.AsDeclared (source.bind (cs.foldl register empty).table?) place := by
  have hlifted : ∀ c ∈ cs, c.Lifted := by
    intro c hc
    obtain ⟨sql, t, ht, hdefinition⟩ := haccepted c hc
    exact lifted_of_translate ht hdefinition
  obtain ⟨result, next, ds, hanswer, hnext, hperm, hrows⟩ := h.lists state hstate
  obtain ⟨infos, last, hloaded, hrestores⟩ :=
    loadTables_holds h hlifted hperm.subset empty hnext
  have hinfos : Forall₂ TableInfo.Restores (ds.map CreateTable.info) infos :=
    List.forall₂_map_left_iff.2 hrestores
  -- before and after, what is known of a name is what is found among the tables
  have hcs : ((cs.map CreateTable.info).map fun i => key i.name).Nodup := by
    rw [List.map_map]
    exact hkeys
  have hbefore : ∀ name, (cs.foldl register empty).table? name =
      (cs.map CreateTable.info).find? fun i => key i.name = key name := by
    intro name
    rw [foldl_register hkeys fun _ _ => rfl, table?, find?_foldl_put hcs]
    exact Option.or_none
  have hafter : ∀ name, (infos.foldl put empty).table? name =
      infos.find? fun i => key i.name = key name := by
    intro name
    rw [table?, find?_foldl_put]
    · exact Option.or_none
    · rw [keys_restores hinfos]
      exact ((hperm.map _).map _).nodup_iff.2 hcs
  have hrel : ∀ name, Option.Rel TableInfo.Restores ((cs.foldl register empty).table? name)
      ((infos.foldl put empty).table? name) := by
    intro name
    rw [hbefore, hafter, find?_perm hcs (hperm.map _).symm]
    exact rel_find? hinfos fun _ _ hinfo => by rw [hinfo.name]
  refine ⟨infos.foldl put empty, last, ?_, ?_, ?_, ?_⟩
  · have hlist : (result.rows.filterMap fun row => row.head?.bind Value.asText?) =
        ds.map (·.table) := by
      rw [hrows, List.filterMap_map]
      exact congrFun List.filterMap_eq_map ds
    rw [load, hanswer]
    dsimp only
    rw [hlist, hloaded, hperm.length_eq]
  · intro name
    rw [← (isSome_of_rel (hrel name)), hbefore, List.find?_isSome]
    simp [CreateTable.info]
  · intro c hc
    have hlive : (cs.foldl register empty).table? c.table = some c.info := by
      rw [hbefore, find?_eq_some_iff hcs]
      exact ⟨List.mem_map_of_mem hc, rfl⟩
    have hc := hrel c.table
    rw [hlive] at hc ⊢
    generalize (infos.foldl put empty).table? c.table = restored at hc ⊢
    cases hc with
    | some hc => exact ⟨_, rfl, rfl, hc⟩
  · intro source result place
    cases source with
    | none => rfl
    | some source => exact ResultSet.asDeclared_restores (hrel source) result place

/-- A table with a key column, and declared types that the engine does not have. -/
def orders : CreateTable :=
  ⟨"Orders", false, [⟨"id", .bigInt, true, false, none, false, none, []⟩,
    ⟨"total", .doublePrecision, false, false, some false, false, some "0.0".toList, []⟩], []⟩

/-- A table with a quoted name and a key of two columns. -/
def orderLines : CreateTable :=
  ⟨"order lines", false, [⟨"order id", .bigInt, true, false, none, false, none, []⟩,
    ⟨"place", .integer, true, false, none, false, none, []⟩,
    ⟨"note", .text, false, false, none, false, none, []⟩], []⟩

/-- An engine that holds two tables, in a state that never changes. -/
def twoTables : Engine Unit := fun call state =>
  if call.sql = tablesQuery then
    (.ok ⟨["name"], [none], [[.text "Orders"], [.text "order lines"]], 0⟩, state)
  else if call.sql = columnsQuery "Orders" then
    (.ok ⟨[], [], [[.integer 0, .text "id", .text "INTEGER", .integer 1, .null, .integer 1],
      [.integer 1, .text "total", .text "REAL", .integer 1, .text "0.0", .integer 0]], 0⟩, state)
  else if call.sql = columnsQuery "order lines" then
    (.ok ⟨[], [], [[.integer 0, .text "order id", .text "INTEGER", .integer 1, .null, .integer 1],
      [.integer 1, .text "place", .text "INTEGER", .integer 1, .null, .integer 2],
      [.integer 2, .text "note", .text "TEXT", .integer 0, .null, .integer 0]], 0⟩, state)
  else (.error .closed, state)

theorem twoTables_holds : twoTables.Holds (fun _ => True) [orderLines, orders] where
  lists _ _ := ⟨_, (), [orders, orderLines], rfl, trivial, .swap _ _ _, rfl⟩
  reports := by
    rintro ⟨⟩ - c hc
    rw [List.mem_pair] at hc
    obtain rfl | rfl := hc
    · refine ⟨_, (), rfl, trivial, ?_⟩
      rw [zip_blockParts]
      refine .cons ⟨⟨"order id", "INTEGER", false⟩, _, _, _, _, ?_, rfl, ?_, ?_⟩
        (.cons ⟨⟨"place", "INTEGER", false⟩, _, _, _, _, ?_, rfl, ?_, ?_⟩
          (.cons ⟨⟨"note", "TEXT", true⟩, _, _, _, _, ?_, rfl, ?_, ?_⟩ .nil))
      all_goals decide +kernel
    · refine ⟨_, (), rfl, trivial, ?_⟩
      rw [zip_blockParts]
      refine .cons ⟨⟨"id", "INTEGER", false⟩, _, _, _, _, ?_, rfl, ?_, ?_⟩
        (.cons ⟨⟨"total", "REAL", false⟩, _, _, _, _, ?_, rfl, ?_, ?_⟩ .nil)
      all_goals decide +kernel

/-- Two tables are known after a restart, the big integers as integers. -/
theorem restart_restores_twoTables :
    ∃ restarted, load twoTables empty () = (.ok 2, restarted, ()) ∧
      (restarted.table? "ORDERS").isSome = true ∧ (restarted.table? "order line").isSome = false ∧
      ∃ info, restarted.table? "Orders" = some info ∧ orders.info.Restores info := by
  have haccepted : ∀ c ∈ [orderLines, orders], ∃ sql t, Sql.translate sql = .ok t ∧
      t.statement = .createTable c := by
    have hread (sql : Text) {c : CreateTable}
        (h : (Sql.translate sql).map (·.statement) = .ok (.createTable c)) :
        ∃ sql t, Sql.translate sql = .ok t ∧ t.statement = .createTable c := by
      cases ht : Sql.translate sql with
      | error e => rw [ht] at h; cases h
      | ok t => rw [ht] at h; exact ⟨sql, t, ht, Except.ok.inj h⟩
    intro c hc
    rw [List.mem_pair] at hc
    obtain rfl | rfl := hc
    · exact hread "CREATE TABLE \"order lines\" (\"order id\" BIGINT, place INT, note TEXT,
        PRIMARY KEY (\"order id\", place))" (by decide +kernel)
    · exact hread "CREATE TABLE Orders (id BIGINT PRIMARY KEY,
        total FLOAT8 NOT NULL DEFAULT 0.0)" (by decide +kernel)
  obtain ⟨restarted, next, hload, hknown, hsame, -⟩ :=
    restart_restores twoTables_holds haccepted (by decide +kernel)
      (show (fun _ => True) () from trivial)
  obtain ⟨info, -, hinfo, hrestores⟩ := hsame orders (by simp)
  refine ⟨restarted, hload, (hknown "ORDERS").2 ⟨orders, by simp, by decide +kernel⟩, ?_, info,
    hinfo, hrestores⟩
  rw [Bool.eq_false_iff]
  intro hother
  obtain ⟨c, hc, hkey⟩ := (hknown "order line").1 hother
  revert hkey
  revert c
  decide +kernel

end Registry

end PgGateway
