import PgGateway.Proofs.Sql.Translation

/-!
# Where the definition of a table ends

Every text that is recognised as the definition of a table begins with one, but need not end with
it. What follows the block is not looked at: the text is answered as its definition alone is
(`definition_ends_with_block`). So options of the table behind the block are neither refused nor
passed on (`options_dropped`).
-/

namespace PgGateway

namespace Sql

variable {sql : Text} {c : CreateTable} {ts after : List Token}

/-- The definition of a table, with its first two words. -/
structure TableStatement where
  create : Keyword "CREATE"
  table : Keyword "TABLE"
  definition : TableSyntax

namespace TableStatement

/-- The tokens of the definition, up to the end of its block. -/
def tokens (d : TableStatement) : List Token :=
  d.create.1 :: d.table.1 :: d.definition.tokens

/-- The answer to a text that begins with the definition. -/
def answer (d : TableStatement) (sql : Text) : Except SqlError Translated :=
  match d.definition.read with
  | .ok c => .ok ⟨sql, c.write, .createTable c⟩
  | .error e => .error (.malformed .createTable e)

/-- Whatever is recognised as a definition begins with one. -/
theorem exists_of_ofTokens (h : Statement.ofTokens ts = .ok (.createTable c)) :
    ∃ (d : TableStatement) (after : List Token),
      ts = d.tokens ++ after ∧ d.definition.read = .ok c := by
  obtain ⟨create, table, rest, rfl, hcreate, htable, hc⟩ := ofTokens_eq_createTable.1 h
  obtain ⟨d, after, rfl, hread⟩ := TableSyntax.exists_of_ofTokens hc
  exact ⟨⟨⟨create, hcreate⟩, ⟨table, htable⟩, d⟩, after, rfl, hread⟩

/-- The text is answered by its definition, whatever follows that. -/
theorem translate_eq_answer (d : TableStatement)
    (hread : readStatement (normalize sql) = .ok (d.tokens ++ after)) :
    translate sql = d.answer sql := by
  have hstatement : Statement.ofTokens (d.tokens ++ after) =
      (d.definition.read.map .createTable).mapError (.malformed .createTable) := by
    rw [← d.definition.ofTokens_append after]
    exact ofTokens_create d.create.2 d.table.2 _
  rw [answer]
  cases hdefinition : d.definition.read with
  | ok c =>
    rw [hdefinition] at hstatement
    exact translate_eq_ok.2 ⟨_, .createTable c, hread, hstatement, rfl⟩
  | error e =>
    rw [hdefinition] at hstatement
    simp only [translate, hread]
    show (Statement.ofTokens (d.tokens ++ after) >>= _) = _
    rw [hstatement]
    rfl

/-- A text that is recognised as a definition begins with one. -/
theorem exists_of_translate {t : Translated} (h : translate sql = .ok t)
    (hc : t.statement = .createTable c) : ∃ (d : TableStatement) (after : List Token),
      readStatement (normalize sql) = .ok (d.tokens ++ after) ∧ d.definition.read = .ok c := by
  obtain ⟨ts, s, hread, hs, rfl⟩ := translate_eq_ok.1 h
  obtain rfl : s = .createTable c := hc
  obtain ⟨d, after, rfl, hdefinition⟩ := exists_of_ofTokens hs
  exact ⟨d, after, hread, hdefinition⟩

end TableStatement

/-- Tokens that are one statement are read from the text that they make up. -/
theorem readStatement_render (h : Clean ts) (hflush : ∀ t ∈ ts.head?, t.gap = []) :
    readStatement (normalize (Token.render ts)) = .ok ts := by
  have hsqueezed : Squeezed (.outside .start) (Token.render ts) :=
    squeezed_render h.spelled (.inr hflush)
  rw [normalize_of_squeezed hsqueezed h.getLast?_render]
  exact readStatement_eq_ok.2 ⟨readTokens_render h.spelled, h.single⟩

/-- The tokens of a definition are read from its own text. -/
theorem readStatement_definition {d : TableStatement}
    (hread : readStatement (normalize sql) = .ok (d.tokens ++ after)) :
    readStatement (normalize (Token.render d.tokens)) = .ok d.tokens := by
  apply readStatement_render
  · exact (clean_of_readStatement hread).1.piece (List.prefix_append _ _).isInfix
  · obtain ⟨-, -, hgap⟩ :=
      spelled_readTokens (squeezed_normalize sql) (readStatement_eq_ok.1 hread).1
    have hfirst := hgap.resolve_left nofun
    intro t ht
    cases ht
    exact hfirst _ rfl

/-- **A definition ends with its block.** The tokens of every text that is recognised as the
definition of a table begin with the words for it, the name of the table and a block in balanced
parentheses, and the table is read from these. Whatever follows the block, the text is answered as
its definition alone would be: with the same table and the same text for the engine, or with the
same refusal. -/
theorem definition_ends_with_block (sql : Text) :
    (∀ t c, translate sql = .ok t → t.statement = .createTable c →
      ∃ (d : TableStatement) (after : List Token),
        readStatement (normalize sql) = .ok (d.tokens ++ after) ∧ d.definition.read = .ok c) ∧
    ∀ (d : TableStatement) (after : List Token),
      readStatement (normalize sql) = .ok (d.tokens ++ after) →
        translate sql = d.answer sql ∧
        translate (Token.render d.tokens) = d.answer (Token.render d.tokens) := by
  constructor
  · exact fun t c => TableStatement.exists_of_translate
  · intro d after hread
    have halone : readStatement (normalize (Token.render d.tokens)) = .ok (d.tokens ++ []) := by
      rw [List.append_nil]
      exact readStatement_definition hread
    exact ⟨d.translate_eq_answer hread, d.translate_eq_answer halone⟩

/-- A definition with a guard and a schema. -/
def itemsDefinition : TableStatement where
  create := ⟨⟨[], .word, "create"⟩, rfl⟩
  table := ⟨.bare "table", rfl⟩
  definition :=
    { guard := some ⟨⟨.bare "if", rfl⟩, ⟨.bare "not", rfl⟩, ⟨.bare "exists", rfl⟩⟩
      name := ⟨some (⟨.bare "app", rfl⟩, ⟨.mark [] '.', rfl⟩), ⟨⟨[], .word, "items"⟩, rfl⟩⟩
      block := ⟨grouped [] [⟨[], .word, "a"⟩, .bare "int"], grouped_sound (by decide)⟩ }

/-- The table of that definition. -/
def itemsTable : CreateTable where
  table := "items"
  ifNotExists := true
  columns := [⟨"a", .integer, false, false, none, false, none, []⟩]
  constraints := []

/-- A text that begins with that definition. -/
def itemsText : Text := "create table if not exists app.items (a int) inherits (parents)"

/-- The table is read from the text and from its definition alone. -/
theorem definition_ends_with_block_items :
    (∃ after, readStatement (normalize itemsText) = .ok (itemsDefinition.tokens ++ after)) ∧
    itemsDefinition.answer itemsText = .ok ⟨itemsText, itemsTable.write, .createTable itemsTable⟩ ∧
    translate itemsText = itemsDefinition.answer itemsText ∧
    translate "create table if not exists app.items (a int)" =
      itemsDefinition.answer "create table if not exists app.items (a int)" ∧
    ∃ (d : TableStatement) (after : List Token),
      readStatement (normalize itemsText) = .ok (d.tokens ++ after) ∧
        d.definition.read = .ok itemsTable := by
  have hread : readStatement (normalize itemsText) = .ok (itemsDefinition.tokens ++
      ([.bare "inherits"] ++ (grouped [] [⟨[], .word, "parents"⟩]).tokens)) := by
    decide +kernel
  have hanswer : itemsDefinition.answer itemsText =
      .ok ⟨itemsText, itemsTable.write, .createTable itemsTable⟩ := by
    decide +kernel
  have hdefinition : Token.render itemsDefinition.tokens =
      "create table if not exists app.items (a int)" := by
    decide +kernel
  obtain ⟨htext, halone⟩ := (definition_ends_with_block itemsText).2 itemsDefinition _ hread
  rw [hdefinition] at halone
  exact ⟨⟨_, hread⟩, hanswer, htext, halone,
    (definition_ends_with_block itemsText).1 _ itemsTable (htext.trans hanswer) rfl⟩

/-! ## What follows the block -/

/-- A definition with an option of the table. -/
def filledTable : Translated where
  sent := "CREATE TABLE t (a INT) WITH (fillfactor = 70)"
  text := "CREATE TABLE t ( a INTEGER NULL );"
  statement := .createTable
    { table := "t"
      ifNotExists := false
      columns := [⟨"a", .integer, false, false, none, false, none, []⟩]
      constraints := [] }

def filledDefinition : TableStatement where
  create := ⟨⟨[], .word, "CREATE"⟩, rfl⟩
  table := ⟨.bare "TABLE", rfl⟩
  definition :=
    { guard := none
      name := ⟨none, ⟨.bare "t", rfl⟩⟩
      block := ⟨grouped [] [⟨[], .word, "a"⟩, .bare "INT"], grouped_sound (by decide)⟩ }

/-- **Options of a table are dropped.** A definition with an option behind its block is accepted,
and the engine is not given the option. -/
theorem options_dropped : translate filledTable.sent = .ok filledTable ∧
    (∃ t after, readStatement (normalize filledTable.sent) =
      .ok (filledDefinition.tokens ++ t :: after) ∧ t.isKeyword "WITH" = true) ∧
    Text.Contains "fillfactor" filledTable.sent ∧ ¬Text.Contains "fillfactor" filledTable.text := by
  refine ⟨by decide +kernel, ⟨.bare "WITH", (grouped [] [⟨[], .word, "fillfactor"⟩,
    .mark [' '] '=', ⟨[' '], .number, "70"⟩]).tokens, by decide +kernel, by decide⟩, ?_, ?_⟩
  all_goals decide +kernel

end Sql

end PgGateway
