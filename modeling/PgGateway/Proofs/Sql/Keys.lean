import PgGateway.Proofs.Sql.Declarations
import PgGateway.Proofs.Sql.Translation

/-!
# Keys and nullability of whole tables

A table is what the parts of its block make of it (`CreateTable.DefinedBy`): the definitions of
columns among them give its columns, each as its tokens declare it (`FollowsDefinition`), the keys
mark the first column of each name that stands in them, wherever they stand, and the other
constraints are kept as they are. The key is written in its column or, if it has more than one,
behind the columns (`CreateTable.blockParts_eq`).
-/

namespace PgGateway

namespace Sql

open List (Forall₂)

variable {α β ε : Type} {name x : Text} {names : List Text} {p ts : List Token}
  {ps : List (List Token)} {c : Column} {cs ds : List Column} {items : List TableItem}

/-! ## Marking keys -/

/-- The number of the first column of a name. -/
def firstNamed (cs : List Column) (name : Text) : Option Nat :=
  cs.findIdx? fun c => Text.SameWord c.name name

/-- The columns with those as part of the key that are the first ones of these names. -/
def markFirst (names : List Text) (cs : List Column) : List Column :=
  cs.mapIdx fun i c =>
    { c with primaryKey := c.primaryKey || decide (∃ name ∈ names, firstNamed cs name = some i) }

theorem firstNamed_congr (h : cs.map (·.name) = ds.map (·.name)) (name : Text) :
    firstNamed cs name = firstNamed ds name := by
  have hnames : ∀ cs : List Column, firstNamed cs name =
      (cs.map (·.name)).findIdx? fun other => Text.SameWord other name := by
    intro cs
    rw [List.findIdx?_map]
    rfl
  rw [hnames, hnames, h]

theorem getElem?_markFirst (names : List Text) (cs : List Column) (i : Nat) :
    (markFirst names cs)[i]? = cs[i]?.map fun c =>
      { c with primaryKey :=
          c.primaryKey || decide (∃ name ∈ names, firstNamed cs name = some i) } :=
  List.getElem?_mapIdx

theorem zipIdx_markFirst (names : List Text) (cs : List Column) :
    (markFirst names cs).zipIdx = cs.mapIdx fun i c =>
      ({ c with primaryKey :=
          c.primaryKey || decide (∃ name ∈ names, firstNamed cs name = some i) }, i) := by
  apply List.ext_getElem?
  intro i
  rw [List.getElem?_zipIdx, getElem?_markFirst, List.getElem?_mapIdx, Option.map_map, Nat.zero_add]
  rfl

theorem map_name_markFirst (names : List Text) (cs : List Column) :
    (markFirst names cs).map (·.name) = cs.map (·.name) := by
  apply List.ext_getElem?
  intro i
  rw [List.getElem?_map, List.getElem?_map, getElem?_markFirst, Option.map_map]
  rfl

theorem markFirst_nil (cs : List Column) : markFirst [] cs = cs := by
  apply List.ext_getElem?
  intro i
  rw [getElem?_markFirst]
  simp

theorem markFirst_markFirst (name : Text) (names : List Text) (cs : List Column) :
    markFirst names (markFirst [name] cs) = markFirst (name :: names) cs := by
  have hfirst : ∀ other, firstNamed (markFirst [name] cs) other = firstNamed cs other :=
    firstNamed_congr (map_name_markFirst [name] cs)
  apply List.ext_getElem?
  intro i
  rw [getElem?_markFirst, getElem?_markFirst, getElem?_markFirst, Option.map_map]
  simp only [Function.comp_def, hfirst, List.mem_cons, List.not_mem_nil, or_false, exists_eq_left,
    exists_eq_or_imp, Bool.decide_or, Bool.or_assoc]

/-- One name marks the first column that has it. -/
theorem markKey_eq_set (h : markKey name cs = .ok ds) : ∃ i c, firstNamed cs name = some i ∧
    cs[i]? = some c ∧ ds = cs.set i { c with primaryKey := true } := by
  induction cs generalizing ds with
  | nil => cases h
  | cons c cs ih =>
    rw [markKey] at h
    split at h
    · next hsame =>
      cases h
      exact ⟨0, c, by simp [firstNamed, List.findIdx?_cons, hsame], rfl, rfl⟩
    · next hother =>
      obtain ⟨es, hes, rfl⟩ := map_eq_ok.1 h
      obtain ⟨i, d, hfirst, hd, rfl⟩ := ih hes
      refine ⟨i + 1, d, ?_, hd, rfl⟩
      rw [firstNamed] at hfirst
      simp [firstNamed, List.findIdx?_cons, hother, hfirst]

theorem markKey_eq (h : markKey name cs = .ok ds) :
    (firstNamed cs name).isSome ∧ ds = markFirst [name] cs := by
  obtain ⟨i, c, hfirst, hc, rfl⟩ := markKey_eq_set h
  -- place by place, since marking a column moves none
  refine ⟨by rw [hfirst]; rfl, List.ext_getElem? fun j => ?_⟩
  rw [getElem?_markFirst, List.getElem?_set]
  split
  · next hij =>
    subst hij
    have hlt : i < cs.length := (List.getElem?_eq_some_iff.1 hc).1
    rw [if_pos hlt, hc]
    simp [hfirst]
  · next hij => simp [hfirst, hij]

/-- **Keys mark the first column of each name**, and every name is that of a column. -/
theorem foldlM_markKey_eq (h : names.foldlM (fun cs name => markKey name cs) cs = .ok ds) :
    (∀ name ∈ names, (firstNamed cs name).isSome) ∧ ds = markFirst names cs := by
  induction names generalizing cs with
  | nil =>
    cases h
    exact ⟨nofun, (markFirst_nil _).symm⟩
  | cons name names ih =>
    rw [List.foldlM_cons] at h
    obtain ⟨es, hes, h⟩ := bind_eq_ok.1 h
    obtain ⟨hfirst, rfl⟩ := markKey_eq hes
    obtain ⟨hlater, rfl⟩ := ih h
    refine ⟨List.forall_mem_cons.2 ⟨hfirst, fun other hother => ?_⟩,
      markFirst_markFirst name names cs⟩
    rw [← firstNamed_congr (map_name_markFirst [name] cs)]
    exact hlater other hother

/-! ## The parts of a block -/

/-- The part begins like a constraint of the table, and is no column. -/
inductive ConstraintPart : List Token → Prop
  | primaryKey (primary : Keyword "PRIMARY") (key : Keyword "KEY") (rest : List Token) :
    ConstraintPart (primary.1 :: key.1 :: rest)
  | foreignKey (foreign : Keyword "FOREIGN") (key : Keyword "KEY") (rest : List Token) :
    ConstraintPart (foreign.1 :: key.1 :: rest)
  | unique (unique : Keyword "UNIQUE") (rest : List Token) : ConstraintPart (unique.1 :: rest)
  | constraint (constraint : Keyword "CONSTRAINT") (rest : List Token) :
    ConstraintPart (constraint.1 :: rest)
  | check (check : Keyword "CHECK") (rest : List Token) : ConstraintPart (check.1 :: rest)

/-- A part is told for a constraint by its first words. -/
theorem isTableConstraint_iff : isTableConstraint p = true ↔ ConstraintPart p := by
  simp only [isTableConstraint, Bool.or_eq_true, Bool.and_eq_true]
  constructor
  · rintro ((((⟨hprimary, hkey⟩ | ⟨hforeign, hkey⟩) | hunique) | hconstraint) | hcheck)
    · obtain ⟨t, _, rfl, ht⟩ := startsWith_iff.1 hprimary
      obtain ⟨u, us, rfl, hu⟩ := startsWith_iff.1 hkey
      exact .primaryKey ⟨t, ht⟩ ⟨u, hu⟩ us
    · obtain ⟨t, _, rfl, ht⟩ := startsWith_iff.1 hforeign
      obtain ⟨u, us, rfl, hu⟩ := startsWith_iff.1 hkey
      exact .foreignKey ⟨t, ht⟩ ⟨u, hu⟩ us
    · obtain ⟨t, ts, rfl, ht⟩ := startsWith_iff.1 hunique
      exact .unique ⟨t, ht⟩ ts
    · obtain ⟨t, ts, rfl, ht⟩ := startsWith_iff.1 hconstraint
      exact .constraint ⟨t, ht⟩ ts
    · obtain ⟨t, ts, rfl, ht⟩ := startsWith_iff.1 hcheck
      exact .check ⟨t, ht⟩ ts
  · intro h
    cases h with
    | primaryKey primary key rest => exact .inl (.inl (.inl (.inl ⟨primary.2, key.2⟩)))
    | foreignKey foreign key rest => exact .inl (.inl (.inl (.inr ⟨foreign.2, key.2⟩)))
    | unique unique rest => exact .inl (.inl (.inr unique.2))
    | constraint constraint rest => exact .inl (.inr constraint.2)
    | check check rest => exact .inr check.2

/-- A primary key as it is written: perhaps a name of its own, two keywords, and in parentheses a
list of which each entry begins with the name of a column. Nothing behind the list is looked at. -/
inductive KeyList : List Token → List Text → Prop
  | mk {label : List Token} {primary key : Token} {g : Group} {names : List Text}
    (hlabel : IsLabel label)
    (hprimary : primary.isKeyword "PRIMARY" = true) (hkey : key.isKeyword "KEY" = true)
    (hg : g.Sound)
    (hnames : Forall₂ (fun entry name => ∃ u us, entry = u :: us ∧ u.isName = true ∧ u.name = name)
      (parts g.inside) names)
    (after : List Token) : KeyList (label ++ primary :: key :: (g.tokens ++ after)) names

theorem keyName_eq_ok_iff : keyName ts = .ok name ↔
    ∃ u us, ts = u :: us ∧ u.isName = true ∧ u.name = name := by
  cases ts with
  | nil => simp [keyName]
  | cons u us =>
    rw [keyName]
    split
    · next hname => simp [hname]
    · next hname => simp [hname]

/-- What a part of a block is, for what it is read as. -/
def TableItem.IsRead (p : List Token) : TableItem → Prop
  | column c => isTableConstraint p = false ∧ Column.ofTokens p = .ok c
  | primaryKey names => KeyList p names
  | constraint clause => isTableConstraint p = true ∧ isKeyPart p = false ∧
    clause = Token.verbatim p

theorem KeyList.isKeyPart (h : KeyList p names) : isKeyPart p = true := by
  cases h with
  | mk hlabel hprimary hkey => exact isKeyPart_iff.2 ⟨_, _, _, _, rfl, hlabel, hprimary, hkey⟩

/-- A key as it is written is read. -/
theorem KeyList.read (h : KeyList p names) : readTableItem p = .ok (.primaryKey names) := by
  cases h with
  | @mk _ _ _ g _ hlabel hprimary hkey hg hnames after =>
    have hopen : Token.opensWith '(' (g.tokens ++ after) = true := hg.opening
    have hread : (parts g.inside).mapM keyName = .ok names :=
      mapM_eq_ok_iff.2 (hnames.imp fun _ _ hentry => keyName_eq_ok_iff.2 hentry)
    rw [readTableItem_keyPart hlabel hprimary hkey, readKeyList, if_pos hopen, hg.readGroup]
    simp only [hread]
    rfl

/-- **A part is read as what it is.** -/
theorem isRead_of_readTableItem {item : TableItem} (h : readTableItem p = .ok item) :
    item.IsRead p := by
  by_cases hpart : isKeyPart p = true
  · obtain ⟨label, primary, key, rest, rfl, hlabel, hprimary, hkey⟩ := isKeyPart_iff.1 hpart
    rw [readTableItem_keyPart hlabel hprimary hkey, readKeyList] at h
    split at h
    · split at h
      · cases h
      · next g after hread =>
        obtain ⟨names, hnames, rfl⟩ := map_eq_ok.1 h
        rw [readGroup_eq hread]
        exact .mk hlabel hprimary hkey (readGroup_sound hread)
          ((mapM_eq_ok_iff.1 hnames).imp fun _ _ hentry => keyName_eq_ok_iff.1 hentry) after
    · cases h
  · rw [readTableItem] at h
    split at h
    · next hconstraint =>
      rw [readTableConstraint_eq, if_neg hpart] at h
      cases h
      exact ⟨hconstraint, by simpa using hpart, rfl⟩
    · next hcolumn =>
      obtain ⟨column, hread, rfl⟩ := map_eq_ok.1 h
      exact ⟨by simpa using hcolumn, hread⟩

/-! ## The parts of each kind -/

/-- The name stands in one of the keys among the parts. -/
def NamedInKey (ps : List (List Token)) (name : Text) : Prop :=
  ∃ p ∈ ps, ∃ names, KeyList p names ∧ name ∈ names

theorem columns_of_parts (h : Forall₂ (fun p item => readTableItem p = .ok item) ps items) :
    Forall₂ (fun p own => Column.ofTokens p = .ok own) (ps.filter fun p => !isTableConstraint p)
      (items.filterMap (·.column?)) := by
  induction h with
  | nil => exact .nil
  | @cons p item ps items hread hlater ih =>
    have hitem := isRead_of_readTableItem hread
    cases item with
    | column own =>
      obtain ⟨hcolumn, hown⟩ := hitem
      rw [List.filter_cons_of_pos (by simp [hcolumn])]
      exact .cons hown ih
    | primaryKey names =>
      have hconstraint := isTableConstraint_of_isKeyPart hitem.isKeyPart
      rw [List.filter_cons_of_neg (by simp [hconstraint])]
      exact ih
    | constraint clause =>
      obtain ⟨hconstraint, -, -⟩ := hitem
      rw [List.filter_cons_of_neg (by simp [hconstraint])]
      exact ih

theorem constraints_of_parts (h : Forall₂ (fun p item => readTableItem p = .ok item) ps items) :
    items.filterMap (·.constraint?) =
      (ps.filter fun p => isTableConstraint p && !isKeyPart p).map Token.verbatim := by
  induction h with
  | nil => rfl
  | @cons p item ps items hread hlater ih =>
    have hitem := isRead_of_readTableItem hread
    cases item with
    | column own =>
      obtain ⟨hcolumn, -⟩ := hitem
      rw [List.filter_cons_of_neg (by simp [hcolumn])]
      exact ih
    | primaryKey names =>
      rw [List.filter_cons_of_neg (by simp [hitem.isKeyPart])]
      exact ih
    | constraint clause =>
      obtain ⟨hconstraint, hkey, rfl⟩ := hitem
      rw [List.filter_cons_of_pos (by simp [hconstraint, hkey]), List.map_cons, ← ih]
      rfl

theorem mem_keyNames_iff (h : Forall₂ (fun p item => readTableItem p = .ok item) ps items) :
    name ∈ items.flatMap (·.keyNames) ↔ NamedInKey ps name := by
  induction h with
  | nil => simp [NamedInKey]
  | @cons p item ps items hread hlater ih =>
    have hhere : name ∈ item.keyNames ↔ ∃ names, KeyList p names ∧ name ∈ names := by
      constructor
      · intro hname
        cases item with
        | primaryKey names => exact ⟨names, isRead_of_readTableItem hread, hname⟩
        | column | constraint => cases hname
      · rintro ⟨names, hkey, hname⟩
        rw [hkey.read] at hread
        cases hread
        exact hname
    rw [List.flatMap_cons, List.mem_append, ih, hhere]
    simp [NamedInKey]

theorem forall₂_mapIdx {γ : Type} {R : α → β → Prop} {S : α → γ → Prop} {f : Nat → β → γ}
    {l : List α} {r : List β} (h : Forall₂ R l r) (hf : ∀ i a b, R a b → S a (f i b)) :
    Forall₂ S l (r.mapIdx f) := by
  obtain ⟨hlength, hget⟩ := List.forall₂_iff_get.1 h
  refine List.forall₂_iff_get.2 ⟨by rw [hlength, List.length_mapIdx], fun i hl hr => ?_⟩
  rw [List.length_mapIdx] at hr
  simpa using hf i _ _ (hget i hl hr)

/-! ## The column of a definition -/

/-- The column is as a definition declares it that declares these things, but for its part in the
key. NOT NULL wins over NULL, and the last default over those before it. -/
structure FollowsItems (items : List ColumnItem) (c : Column) : Prop where
  type : c.type = ColumnType.ofWords (items.filterMap (·.typeWord?))
  autoIncrement : c.autoIncrement = true ↔
    .identity ∈ items ∨ ∃ w ∈ ColumnType.serialWords, .typeWord w ∈ items
  notNull : .notNull ∈ items → c.nullable = false
  null : .notNull ∉ items → .null ∈ items → c.nullable = true
  unsaid : .notNull ∉ items → .null ∉ items → c.nullable = !c.primaryKey
  unique : c.unique = true ↔ .unique ∈ items
  default : c.defaultText = (items.filterMap (·.default?)).getLast?
  constraints : c.constraints = items.filterMap (·.forwarded?)

/-- The column is the one that the tokens of the definition name and declare. -/
structure FollowsDefinition (p : List Token) (c : Column) : Prop where
  named : ∃ own more, p = own :: more ∧ own.isName = true ∧ c.name = own.name
  declared : ∃ items, Declarations p.tail items ∧ FollowsItems items c

theorem mem_typeWords {w : Text} {items : List ColumnItem} :
    w ∈ items.filterMap (·.typeWord?) ↔ .typeWord w ∈ items := by
  rw [List.mem_filterMap]
  constructor
  · rintro ⟨item, hitem, hw⟩
    cases item <;> cases hw
    exact hitem
  · intro hitem
    exact ⟨_, hitem, rfl⟩

theorem followsItems_ofItems (name : Text) (items : List ColumnItem) (key : Bool) :
    FollowsItems items { Column.ofItems name items with primaryKey := key } := by
  constructor
  case type => rfl
  case autoIncrement =>
    simp only [Column.ofItems, Bool.or_eq_true, List.contains_iff_mem, ColumnType.mentions,
      List.any_eq_true, mem_typeWords]
    exact or_congr_right (exists_congr fun w => and_comm)
  case unique => exact List.contains_iff_mem
  case default => rfl
  case constraints => rfl
  all_goals simp only [Column.nullable, Column.ofItems, List.contains_iff_mem]
  case notNull =>
    intro hnotNull
    rw [if_pos hnotNull]
    rfl
  case null =>
    intro hnotNull hnull
    rw [if_neg hnotNull, if_pos hnull]
    rfl
  case unsaid =>
    intro hnotNull hnull
    rw [if_neg hnotNull, if_neg hnull]
    rfl

theorem ofTokens_eq_ok_iff : Column.ofTokens p = .ok c ↔ ∃ own more items,
    p = own :: more ∧ own.isName = true ∧ Declarations more items ∧
      c = Column.ofItems own.name items := by
  cases p with
  | nil => simp [Column.ofTokens]
  | cons t rest =>
    rw [Column.ofTokens]
    split
    · next hname =>
      constructor
      · intro h
        obtain ⟨items, hitems, rfl⟩ := map_eq_ok.1 h
        exact ⟨t, rest, items, rfl, hname, declarations_iff.2 hitems, rfl⟩
      · rintro ⟨own, more, items, hsplit, -, hitems, rfl⟩
        cases hsplit
        exact map_eq_ok.2 ⟨items, hitems.read, rfl⟩
    · next hname =>
      refine iff_of_false (fun h => by cases h) ?_
      rintro ⟨own, more, items, hsplit, hown, -⟩
      cases hsplit
      exact absurd hown hname

theorem followsDefinition (h : Column.ofTokens p = .ok c) (key : Bool) :
    FollowsDefinition p { c with primaryKey := key } := by
  obtain ⟨own, more, items, rfl, hown, hitems, rfl⟩ := ofTokens_eq_ok_iff.1 h
  exact ⟨⟨own, more, rfl, hown, rfl⟩, items, hitems, followsItems_ofItems own.name items key⟩

theorem primaryKey_iff_declares (h : Column.ofTokens p = .ok c) :
    c.primaryKey = true ↔ Declares p .primaryKey := by
  obtain ⟨own, more, items, rfl, -, hitems, rfl⟩ := ofTokens_eq_ok_iff.1 h
  rw [declares_iff hitems]
  exact List.contains_iff_mem

/-- What a definition declares, it declares of its column. -/
theorem FollowsDefinition.exists_items (h : FollowsDefinition p c) :
    ∃ items, FollowsItems items c ∧ ∀ item, Declares p item ↔ item ∈ items := by
  obtain ⟨⟨own, more, rfl, -⟩, items, hitems, hfollows⟩ := h
  exact ⟨items, hfollows, fun item => declares_iff hitems⟩

end Sql

open Sql

namespace CreateTable

open List (Forall₂)

variable {c : CreateTable} {ps : List (List Token)}

/-- What the parts of its block make of a table. Its columns are those of the definitions among the
parts, in their order, and its constraints the others that are no keys, in theirs. A column is part
of the key if its definition declares so, or if it is the first one of a name in a key. -/
structure DefinedBy (c : CreateTable) (ps : List (List Token)) : Prop where
  columns : Forall₂ FollowsDefinition (ps.filter fun p => !isTableConstraint p) c.columns
  key : Forall₂ (fun p (column : Column × Nat) => column.1.primaryKey = true ↔
      Declares p .primaryKey ∨
        ∃ name, NamedInKey ps name ∧ firstNamed c.columns name = some column.2)
    (ps.filter fun p => !isTableConstraint p) c.columns.zipIdx
  defined : ∀ name, NamedInKey ps name → ∃ column ∈ c.columns, Text.SameWord column.name name
  constraints : c.constraints =
    (ps.filter fun p => isTableConstraint p && !isKeyPart p).map Token.verbatim

theorem Recognised.definedBy {inside : List Token} {items : List TableItem}
    (h : c.Recognised inside items) : c.DefinedBy (parts inside) := by
  have hread := mapM_eq_ok_iff.1 h.read
  have hown := columns_of_parts hread
  obtain ⟨hfirst, hcolumns⟩ := foldlM_markKey_eq h.columns
  have hnamed : ∀ name, firstNamed c.columns name =
      firstNamed (items.filterMap (·.column?)) name := by
    rw [hcolumns]
    exact firstNamed_congr (map_name_markFirst _ _)
  constructor
  case columns =>
    rw [hcolumns]
    exact forall₂_mapIdx hown fun i p own hdefinition => followsDefinition hdefinition _
  case key =>
    simp only [hnamed]
    rw [hcolumns, zipIdx_markFirst]
    refine forall₂_mapIdx hown fun i p own hdefinition => ?_
    simp only [Bool.or_eq_true, decide_eq_true_eq, primaryKey_iff_declares hdefinition,
      mem_keyNames_iff hread]
  case defined =>
    intro name hname
    have hsome := hfirst name ((mem_keyNames_iff hread).2 hname)
    rw [← hnamed, firstNamed, List.findIdx?_isSome, List.any_eq_true] at hsome
    simpa using hsome
  case constraints => rw [h.constraints, constraints_of_parts hread]

end CreateTable

/-! ## Keys as they are written -/

/-- What is written of a column in front of its part in the key. -/
def Column.front (c : Column) : Text :=
  writeName c.name ++ " " ++ c.type.storage.name ++ Text.only (!c.nullable) " NOT" ++ " NULL"

/-- What is written of a column behind its part in the key. -/
def Column.back (c : Column) : Text :=
  Text.only c.unique " UNIQUE" ++
    (match c.defaultText with
      | some expression => " DEFAULT " ++ writeDefault expression
      | none => []) ++
    c.constraints.flatMap fun clause => ' ' :: clause

theorem Column.write_eq (inlineKey : Bool) (c : Column) :
    c.write inlineKey =
      c.front ++ Text.only (c.primaryKey && inlineKey) " PRIMARY KEY" ++ c.back := by
  unfold write front back
  cases c.defaultText <;> simp

namespace CreateTable

variable {c : CreateTable}

theorem inline_eq {column : Column} (h : column ∈ c.columns) :
    (column.primaryKey && c.keyColumns.length == 1) = decide (c.keyColumns = [column]) := by
  rw [Bool.eq_iff_iff, Bool.and_eq_true, beq_iff_eq, decide_eq_true_eq, List.length_eq_one_iff]
  constructor
  · rintro ⟨hkey, other, hother⟩
    have hmem : column ∈ c.keyColumns := List.mem_filter.2 ⟨h, hkey⟩
    rw [hother, List.mem_singleton] at hmem
    rw [hother, hmem]
  · intro hone
    have hmem : column ∈ c.keyColumns := by simp [hone]
    exact ⟨(List.mem_filter.1 hmem).2, column, hone⟩

/-- A key of columns of these names, as a part of its own. -/
def keyClause (names : List Text) : Text :=
  "PRIMARY KEY (" ++ Text.join ", " (names.map writeName) ++ ")"

/-- The key of a table as a part of its own, if it has two columns or more. -/
def keyParts (c : CreateTable) : List Text :=
  if 2 ≤ c.keyColumns.length then [keyClause (c.keyColumns.map (·.name))] else []

theorem blockParts_written (c : CreateTable) :
    c.blockParts = c.columns.map (Column.write c.inlineKey) ++ c.keyParts ++ c.constraints := by
  have hnames : (c.keyColumns.map fun k => writeName k.name) =
      (c.keyColumns.map (·.name)).map writeName := by
    rw [List.map_map]
    rfl
  rw [blockParts, hnames]
  rfl

/-- **Where the key is written.** -/
theorem blockParts_eq (c : CreateTable) : c.blockParts =
    c.columns.map (fun column => column.front ++
      Text.only (decide (c.keyColumns = [column])) " PRIMARY KEY" ++ column.back) ++
    c.keyParts ++ c.constraints := by
  have hcolumns : c.columns.map (Column.write c.inlineKey) =
      c.columns.map fun column => column.front ++
        Text.only (decide (c.keyColumns = [column])) " PRIMARY KEY" ++ column.back := by
    apply List.map_congr_left
    intro column hcolumn
    rw [Column.write_eq, inlineKey, inline_eq hcolumn]
  rw [blockParts_written, hcolumns]

theorem definedBy_of_translate {sql : Text} {t : Translated} (h : translate sql = .ok t)
    (hc : t.statement = .createTable c) : ∃ ts g, readTokens (normalize sql) = .ok ts ∧
      FirstGroup ts g ∧ c.DefinedBy (parts g.inside) := by
  obtain ⟨ts, s, hread, hs, rfl⟩ := translate_eq_ok.1 h
  obtain rfl : s = .createTable c := hc
  obtain ⟨rest, hreaches, hrest⟩ := reaches_createTable hs
  obtain ⟨g, items, hfirst, hrecognised⟩ := firstGroup_of_ofTokens hrest
  obtain ⟨after, hafter⟩ := hfirst.reaches
  exact ⟨ts, g, (readStatement_eq_ok.1 hread).1, ⟨hfirst.sound, after, hreaches.trans hafter⟩,
    hrecognised.definedBy⟩

end CreateTable

/-- **Keys and nullability of whole tables.** A table is what the parts of its block make of it: its
columns and constraints in their order, a column in the key if the tokens of its definition declare
so or if it is the first of a name in a key, and nullable as they declare or else if it is not in
the key. Which parts are constraints is told by their first words. Of every table the key is written
in a column if that is its only one, and once behind the columns if it has more. -/
theorem keys_of_tables :
    (∀ sql t c, translate sql = .ok t → t.statement = .createTable c →
      ∃ ts g, readTokens (normalize sql) = .ok ts ∧ FirstGroup ts g ∧
        c.DefinedBy (parts g.inside)) ∧
    (∀ p, isTableConstraint p = true ↔ ConstraintPart p) ∧
    ∀ c : CreateTable, c.write = "CREATE TABLE " ++ Text.only c.ifNotExists "IF NOT EXISTS " ++
      writeName c.table ++ " ( " ++ Text.join ", " (
        c.columns.map (fun column => column.front ++
          Text.only (decide (c.keyColumns = [column])) " PRIMARY KEY" ++ column.back) ++
        c.keyParts ++ c.constraints) ++ " );" := by
  refine ⟨fun sql t c h hc => CreateTable.definedBy_of_translate h hc,
    fun p => isTableConstraint_iff, fun c => ?_⟩
  rw [← CreateTable.blockParts_eq]
  rfl

/-- A table with two columns of one name, and one with a key of its own. -/
def repeatedTable : CreateTable where
  table := "t"
  ifNotExists := false
  columns := [⟨"a", .integer, true, false, some true, false, none, []⟩,
    ⟨"b", .text, false, false, some false, false, none, []⟩,
    ⟨"A", .real, false, false, none, false, none, []⟩,
    ⟨"c", .bigInt, true, false, none, false, none, []⟩]
  constraints := ["unique (b)"]

/-- One of its keys has a name of its own and stands in front of the columns, the other one stands
in a column. -/
def repeatedName : Translated where
  sent := "create table t (constraint k primary key (A), a int null, b text not null, A real, " ++
    "unique (b), c bigint primary key)"
  text := "CREATE TABLE t ( a INTEGER NULL, b TEXT NOT NULL, A REAL NULL, c INTEGER NOT NULL, " ++
    "PRIMARY KEY (a, c), unique (b) );"
  statement := .createTable repeatedTable

/-- Only the first column of the name is in the key, and it is nullable because it says so; so is
the column that says it, and that one is not nullable. -/
theorem keys_of_tables_repeatedName : translate repeatedName.sent = .ok repeatedName ∧
    (∃ ts g, readTokens (normalize repeatedName.sent) = .ok ts ∧ FirstGroup ts g ∧
      repeatedTable.DefinedBy (parts g.inside)) ∧
    repeatedTable.columns.map (·.primaryKey) = [true, false, false, true] ∧
    repeatedTable.columns.map (·.nullable) = [true, false, true, false] := by
  have htranslate : translate repeatedName.sent = .ok repeatedName := by decide +kernel
  have hdefined := keys_of_tables.1 repeatedName.sent repeatedName repeatedTable htranslate rfl
  exact ⟨htranslate, hdefined, rfl, rfl⟩

end PgGateway
