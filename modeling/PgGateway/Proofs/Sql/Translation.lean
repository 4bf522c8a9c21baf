import Mathlib.Data.List.Forall2
import PgGateway.Proofs.Sql.Recognition
import PgGateway.Sql.Statement

/-!
# Translating a translation

The text that the engine is given is itself a statement that can be translated, and its translation
is the same text (`translate_text`). A statement that is passed on is in normal form already. A
table definition is recognised again as the table it was written for, and written as it was.
-/

namespace PgGateway

namespace Sql

variable {c : Char} {cs : Text} {kind : TokenKind} {ts : List Token}

/-! ## The end of a statement -/

/-- No token ends in a semicolon but the semicolon itself. -/
theorem WholeToken.eq_of_getLast? (h : WholeToken c cs kind)
    (hlast : (c :: cs).getLast? = some ';') : kind = .symbol ∧ c :: cs = [';'] := by
  have hrun : ∀ p : Char → Bool, p ';' = false → ¬∀ d ∈ c :: cs, p d = true := by
    intro p hp hall
    have hmem := hall ';' (List.mem_of_getLast? hlast)
    rw [hp] at hmem
    cases hmem
  cases h with
  | quoted hquote hcs =>
    rw [List.getLast?_cons, hcs.getLast?] at hlast
    obtain rfl : c = ';' := Option.some.inj hlast
    exact absurd hquote (by decide)
  | number hquote hdigit hcs =>
    refine absurd (List.forall_mem_cons.2 ⟨?_, hcs⟩) (hrun continuesNumber (by decide))
    simp [continuesNumber, hdigit]
  | word hquote hdigit hword hcs =>
    refine absurd (List.forall_mem_cons.2 ⟨?_, hcs⟩) (hrun continuesWord (by decide))
    simp [continuesWord, hword]
  | symbol =>
    obtain rfl : c = ';' := Option.some.inj hlast
    exact ⟨rfl, rfl⟩

/-- A statement does not end in a semicolon, which would begin another one. -/
theorem Clean.getLast?_render (h : Clean ts) : (Token.render ts).getLast? ≠ some ';' := by
  rcases List.eq_nil_or_concat ts with rfl | ⟨front, t, rfl⟩
  · nofun
  · obtain ⟨c, cs, htext, -, hwhole⟩ := (h.spelled.sound t (by simp)).whole
    intro hlast
    rw [List.concat_eq_append, Token.render_append, Token.render_cons, Token.render_nil,
      List.append_nil, ← List.append_assoc, htext,
      List.getLast?_append_of_ne_nil _ (List.cons_ne_nil c cs)] at hlast
    obtain ⟨hkind, hsemicolon⟩ := hwhole.eq_of_getLast? hlast
    have hsingle := h.single t (by simp)
    rw [Token.isSymbol, hkind, htext, hsemicolon] at hsingle
    cases hsingle

/-! ## Normal forms as statements -/

theorem readStatement_eq_ok {normal : Text} : readStatement normal = .ok ts ↔
    readTokens normal = .ok ts ∧ ∀ t ∈ ts, t.isSymbol ';' = false := by
  unfold readStatement
  constructor
  · intro h
    split at h
    · cases h
    · next hread =>
      split at h
      · cases h
      · next hnone =>
        cases h
        exact ⟨hread, by simpa using hnone⟩
  · rintro ⟨hread, hnone⟩
    rw [hread]
    dsimp only
    rw [if_neg (by simpa using hnone)]

theorem translate_eq_ok {sql : Text} {t : Translated} : translate sql = .ok t ↔
    ∃ ts statement, readStatement (normalize sql) = .ok ts ∧ Statement.ofTokens ts = .ok statement ∧
      t = ⟨sql, statement.engineText (normalize sql), statement⟩ := by
  simp only [translate, bind_eq_ok]
  constructor
  · rintro ⟨ts, hts, statement, hstatement, ht⟩
    cases ht
    exact ⟨ts, statement, hts, hstatement, rfl⟩
  · rintro ⟨ts, statement, hts, hstatement, rfl⟩
    exact ⟨ts, hts, statement, hstatement, rfl⟩

/-- The tokens of a statement in normal form make it up. -/
theorem clean_of_readStatement {sql : Text} (h : readStatement (normalize sql) = .ok ts) :
    Clean ts ∧ Token.render ts = normalize sql := by
  obtain ⟨hread, hsingle⟩ := readStatement_eq_ok.1 h
  obtain ⟨hspelled, hrender, -⟩ := spelled_readTokens (squeezed_normalize sql) hread
  exact ⟨⟨hspelled, hsingle⟩, hrender⟩

/-- The normal form of a statement is its own. -/
theorem normalize_normalize {sql : Text} (h : readStatement (normalize sql) = .ok ts) :
    normalize (normalize sql) = normalize sql := by
  obtain ⟨hclean, hrender⟩ := clean_of_readStatement h
  apply normalize_of_squeezed (squeezed_normalize sql)
  rw [← hrender]
  exact hclean.getLast?_render

/-! ## Written definitions as statements -/

/-- A table definition is recognised from what follows its first two words. -/
theorem ofTokens_create {create table : Token} (hcreate : create.isKeyword "CREATE" = true)
    (htable : table.isKeyword "TABLE" = true) (rest : List Token) :
    Statement.ofTokens (create :: table :: rest) =
      ((CreateTable.ofTokens rest).map .createTable).mapError (.malformed .createTable) := by
  have hwords : (create.isKeyword "CREATE" && Token.startsWith "TABLE" (table :: rest)) = true := by
    rw [hcreate]
    exact htable
  rw [Statement.ofTokens, if_pos hwords]
  rfl

theorem ofTokens_eq_createTable {c : CreateTable} :
    Statement.ofTokens ts = .ok (.createTable c) ↔ ∃ create table rest,
      ts = create :: table :: rest ∧ create.isKeyword "CREATE" = true ∧
        table.isKeyword "TABLE" = true ∧ CreateTable.ofTokens rest = .ok c := by
  constructor
  · intro h
    cases ts with
    | nil => cases h
    | cons create rest =>
      by_cases hwords : (create.isKeyword "CREATE" && Token.startsWith "TABLE" rest) = true
      · rw [Bool.and_eq_true] at hwords
        obtain ⟨table, rest, rfl, htable⟩ := startsWith_iff.1 hwords.2
        rw [ofTokens_create hwords.1 htable] at h
        obtain ⟨d, hd, hc⟩ := map_eq_ok.1 (mapError_eq_ok.1 h)
        cases hc
        exact ⟨create, table, rest, rfl, hwords.1, htable, hd⟩
      · rw [Statement.ofTokens, if_neg hwords] at h
        split at h
        · cases h
        · split at h
          · obtain ⟨insertion, -, hc⟩ := map_eq_ok.1 (mapError_eq_ok.1 h)
            cases hc
          · split at h
            · cases h
            · split at h
              · cases h
              · split at h
                · cases rest <;> cases h
                · cases h
  · rintro ⟨create, table, rest, rfl, hcreate, htable, hc⟩
    rw [ofTokens_create hcreate htable, hc]
    rfl

theorem reaches_createTable {c : CreateTable} (h : Statement.ofTokens ts = .ok (.createTable c)) :
    ∃ rest, Reaches ts rest ∧ CreateTable.ofTokens rest = .ok c := by
  obtain ⟨create, table, rest, rfl, hcreate, htable, hc⟩ := ofTokens_eq_createTable.1 h
  have hrest : Reaches (create :: table :: rest) rest :=
    .cons (isSymbol_of_isKeyword hcreate) (.cons (isSymbol_of_isKeyword htable) (.refl rest))
  exact ⟨rest, hrest, hc⟩

theorem ofTokens_createTable {c : CreateTable} (h : Statement.ofTokens ts = .ok (.createTable c)) :
    ∃ rest, rest <:+ ts ∧ CreateTable.ofTokens rest = .ok c := by
  obtain ⟨rest, hreaches, hrest⟩ := reaches_createTable h
  exact ⟨rest, hreaches.suffix, hrest⟩

theorem spelled_write {c : CreateTable} (h : c.Lifted) : Spelled (c.tokens ++ [.mark [] ';']) := by
  apply (CreateTable.clean_tokens h).spelled.append
  · exact ⟨by simpa using sound_mark (.inl rfl) (by decide), .singleton _⟩
  · intro t _ u hu
    cases hu
    exact adjoins_mark (by decide) rfl

theorem render_write {c : CreateTable} (h : c.Lifted) :
    Token.render (c.tokens ++ [.mark [] ';']) = c.write := by
  rw [Token.render_append, ← CreateTable.render_tokens h]
  rfl

theorem normalize_write {c : CreateTable} (h : c.Readable) :
    normalize c.write = Token.render c.tokens := by
  have hsqueezed : Squeezed (.outside .start) (Token.render (c.tokens ++ [.mark [] ';'])) := by
    apply squeezed_render (spelled_write h.lifted)
    right
    intro t ht
    cases ht
    rfl
  rw [Token.render_append] at hsqueezed
  rw [← CreateTable.render_tokens h.lifted]
  exact normalize_append_semicolon hsqueezed (CreateTable.not_blank_getLast c)

theorem readStatement_write {c : CreateTable} (h : c.Readable) :
    readStatement (normalize c.write) = .ok c.tokens := by
  have hclean := CreateTable.clean_tokens h.lifted
  rw [normalize_write h]
  exact readStatement_eq_ok.2 ⟨readTokens_render hclean.spelled, hclean.single⟩

theorem ofTokens_tokens {c : CreateTable} (h : c.Readable) (hnames : c.WellNamed) :
    Statement.ofTokens c.tokens = .ok (.createTable c.rewritten) := by
  show ((CreateTable.ofTokens c.nameTokens).map Statement.createTable).mapError _ = _
  rw [CreateTable.ofTokens_nameTokens h hnames]
  rfl

end Sql

open Sql

/-! ## Statements that say the same -/

/-- The columns are the same for the engine: what it is told of one it is told of the other. -/
structure Column.Agrees (c d : Column) : Prop where
  name : d.name = c.name
  storage : d.type.storage = c.type.storage
  primaryKey : d.primaryKey = c.primaryKey
  nullable : d.nullable = c.nullable
  unique : d.unique = c.unique
  constraints : d.constraints = c.constraints

/-- The definitions are of one table, column by column. -/
structure CreateTable.Agrees (c d : CreateTable) : Prop where
  table : d.table = c.table
  ifNotExists : d.ifNotExists = c.ifNotExists
  columns : List.Forall₂ Column.Agrees c.columns d.columns
  constraints : d.constraints = c.constraints

/-- Definitions of tables agree; statements of the other kinds are the same. -/
def Statement.Agrees : Statement → Statement → Prop
  | .createTable c, .createTable d => c.Agrees d
  | s, s' => s' = s

theorem CreateTable.agrees_rewritten (c : CreateTable) : c.Agrees c.rewritten := by
  refine ⟨rfl, rfl, ?_, rfl⟩
  show List.Forall₂ Column.Agrees c.columns (c.columns.map Column.rewritten)
  rw [List.forall₂_map_right_iff, List.forall₂_same]
  intro column _
  exact ⟨rfl, by simp [Column.rewritten, Column.readBack], rfl, rfl, rfl, rfl⟩

namespace Sql

/-- The definition can be written so that the same table is read back: its columns have names of
their own that are read as names, and its clauses are complete. -/
def Faithful (s : Statement) : Prop :=
  ∀ c, s = .createTable c → c.WellNamed ∧ c.WholeClauses

variable {sql : Text} {t : Translated}

theorem translate_write {c : CreateTable} (h : c.Readable) (hnames : c.WellNamed) :
    translate c.write = .ok ⟨c.write, c.write, .createTable c.rewritten⟩ := by
  refine translate_eq_ok.2 ⟨c.tokens, _, readStatement_write h, ofTokens_tokens h hnames, ?_⟩
  rw [Statement.engineText, CreateTable.write_rewritten h]

theorem translate_normalize {ts : List Token} {s : Statement}
    (hread : readStatement (normalize sql) = .ok ts) (hs : Statement.ofTokens ts = .ok s) :
    translate (normalize sql) = .ok ⟨normalize sql, s.engineText (normalize sql), s⟩ := by
  refine translate_eq_ok.2 ⟨ts, s, ?_, hs, ?_⟩
  · rw [normalize_normalize hread, hread]
  · rw [normalize_normalize hread]

/-- **Translation is idempotent.** The text that the engine is given for a statement is accepted, is
translated to itself, and is recognised as a statement of the same kind that agrees with the first:
as the same statement, if it is passed on, and as a definition of the same table, if it is one. -/
theorem translate_idempotent (h : translate sql = .ok t) (hfaithful : Faithful t.statement) :
    ∃ u, translate t.text = .ok u ∧ u.text = t.text ∧ u.statement.kind = t.statement.kind ∧
      t.statement.Agrees u.statement := by
  obtain ⟨ts, s, hread, hs, rfl⟩ := translate_eq_ok.1 h
  cases s with
  | createTable c =>
    -- a definition is written anew
    obtain ⟨hnames, hwhole⟩ := hfaithful c rfl
    obtain ⟨rest, hsuffix, hc⟩ := ofTokens_createTable hs
    have hclean := (clean_of_readStatement hread).1.piece hsuffix.isInfix
    have hreadable := CreateTable.readable_of_ofTokens hclean hc hwhole
    exact ⟨_, translate_write hreadable hnames, rfl, rfl, c.agrees_rewritten⟩
  -- anything else is passed on in normal form
  | select table => exact ⟨_, translate_normalize hread hs, rfl, rfl, rfl⟩
  | insert insertion => exact ⟨_, translate_normalize hread hs, rfl, rfl, rfl⟩
  | update table => exact ⟨_, translate_normalize hread hs, rfl, rfl, rfl⟩
  | delete table => exact ⟨_, translate_normalize hread hs, rfl, rfl, rfl⟩
  | drop object table => exact ⟨_, translate_normalize hread hs, rfl, rfl, rfl⟩

/-- A definition with a name in quotes, a key of two columns and a default that is no literal. -/
def orderLines : Translated where
  sent := "create table \"Order Lines\" (id bigint, line serial default f(1), " ++
    "primary key (id, line))"
  text := "CREATE TABLE \"Order Lines\" ( id INTEGER NOT NULL, " ++
    "line INTEGER NOT NULL DEFAULT (f(1)), PRIMARY KEY (id, line) );"
  statement := .createTable
    { table := "Order Lines"
      ifNotExists := false
      columns :=
        [ { name := "id", type := .bigInt, primaryKey := true, autoIncrement := false,
            nullability := none, unique := false, defaultText := none, constraints := [] },
          { name := "line", type := .integer, primaryKey := true, autoIncrement := true,
            nullability := none, unique := false, defaultText := some "f(1)", constraints := [] } ]
      constraints := [] }

theorem translate_idempotent_orderLines : ∃ u, translate orderLines.text = .ok u ∧
    u.text = orderLines.text ∧ u.statement.kind = .createTable ∧
      orderLines.statement.Agrees u.statement := by
  have htranslate : translate orderLines.sent = .ok orderLines := by
    decide +kernel
  apply translate_idempotent htranslate
  intro c hc
  cases hc
  constructor
  · exact ⟨by unfold Distinct; decide, by decide⟩
  · unfold CreateTable.WholeClauses
    decide +kernel

/-! ## Where translation is not idempotent -/

/-- A column named by a keyword in quotes: the name is written without them, and what follows is
read as a constraint. -/
def quotedKeyword : Translated where
  sent := "CREATE TABLE t (\"check\" INT, a INT)"
  text := "CREATE TABLE t ( check INTEGER NULL, a INTEGER NULL );"
  statement := .createTable
    { table := "t"
      ifNotExists := false
      columns :=
        [ { name := "check", type := .integer, primaryKey := false, autoIncrement := false,
            nullability := none, unique := false, defaultText := none, constraints := [] },
          { name := "a", type := .integer, primaryKey := false, autoIncrement := false,
            nullability := none, unique := false, defaultText := none, constraints := [] } ]
      constraints := [] }

/-- Two columns of one name, both in the key: the key is written behind the columns, where its names
stand for the first column twice. -/
def repeatedKey : Translated where
  sent := "CREATE TABLE t (a INT PRIMARY KEY, a INT PRIMARY KEY)"
  text := "CREATE TABLE t ( a INTEGER NOT NULL, a INTEGER NOT NULL, PRIMARY KEY (a, a) );"
  statement := .createTable
    { table := "t"
      ifNotExists := false
      columns :=
        [ { name := "a", type := .integer, primaryKey := true, autoIncrement := false,
            nullability := none, unique := false, defaultText := none, constraints := [] },
          { name := "a", type := .integer, primaryKey := true, autoIncrement := false,
            nullability := none, unique := false, defaultText := none, constraints := [] } ]
      constraints := [] }

/-- A parenthesis in the place of a collation, which is dropped: the check behind it goes on to the
parenthesis that closes the dropped one. -/
def openedCollation : Translated where
  sent := "CREATE TABLE t (a TEXT COLLATE (CHECK (b)))"
  text := "CREATE TABLE t ( a TEXT NULL CHECK (b)) );"
  statement := .createTable
    { table := "t"
      ifNotExists := false
      columns :=
        [ { name := "a", type := .text, primaryKey := false, autoIncrement := false,
            nullability := none, unique := false, defaultText := none,
            constraints := ["CHECK (b))"] } ]
      constraints := [] }

/-- The translation of the text for the engine is another text, or there is none. -/
def Drifts (t : Translated) : Prop :=
  translate t.sent = .ok t ∧ ¬∃ u, translate t.text = .ok u ∧ u.text = t.text

theorem drifts_of_ne (h : translate t.sent = .ok t)
    (hagain : (translate t.text).map (·.text) ≠ .ok t.text) : Drifts t := by
  refine ⟨h, ?_⟩
  rintro ⟨u, hu, htext⟩
  rw [hu] at hagain
  exact hagain (congrArg Except.ok htext)

/-- None of the conditions on table definitions can be left out. -/
theorem translate_not_idempotent :
    Drifts quotedKeyword ∧ Drifts repeatedKey ∧ Drifts openedCollation := by
  refine ⟨drifts_of_ne ?_ ?_, drifts_of_ne ?_ ?_, drifts_of_ne ?_ ?_⟩ <;> decide +kernel

end Sql

end PgGateway
