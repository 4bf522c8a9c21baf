import PgGateway.Proofs.Sql.KeyOrder
import PgGateway.Proofs.Sql.OneStatement
import PgGateway.Proofs.Sql.Recasing
import PgGateway.Proofs.Sql.TableShape

/-!
# Names in the text for the engine

A name is written as one token that is read back as the same name, wherever it stands in the
definition of a table (`names_read_back`). Whether it is written in quotes depends on its characters
alone, so a name that the client had to put in quotes, because it is a keyword, is written without
them. It is then the keyword that is read: a column named like the first word of a constraint is
taken for one (`quotes_not_kept`).
-/

namespace PgGateway

open List (Forall₂)

namespace Sql

variable {gap name word : Text} {names : List Text} {t u : Token} {ts : List Token}

/-! ## Names as tokens -/

/-- The token is a name and stands for this one. It is in quotes if a character of the name needs
them, and only then, so the name is a keyword in the text if it is one by its letters. -/
structure Token.Names (u : Token) (name : Text) : Prop where
  isName : u.isName = true
  stands : u.name = name
  quoted : u.kind = .quotedName ↔ isPlainName name = false
  keyword : ∀ word, isPlainName word = true → (u.isKeyword word = true ↔ Text.SameWord name word)

/-- A word of letters is written without quotes, in any letter case. -/
theorem isPlainName_of_sameWord (h : Text.SameWord name word) (hword : isPlainName word = true) :
    isPlainName name = true := by
  rw [← isPlainName_lower, h, isPlainName_lower, hword]

theorem names_nameToken (name : Text) : (nameToken name).Names name := by
  refine ⟨isName_nameToken name, name_nameToken name, ?_, ?_⟩
  · unfold nameToken
    cases isPlainName name <;> simp [Token.bare]
  · intro word hword
    unfold nameToken
    split
    · simp [Token.bare, Token.isKeyword, Text.SameWord]
    · next hplain =>
      have hother : ¬Text.SameWord name word := fun h => hplain (isPlainName_of_sameWord h hword)
      simp [Token.isKeyword, hother]

theorem Token.Names.setGap (h : u.Names name) (gap : Text) : Token.Names { u with gap } name :=
  ⟨h.isName, h.stands, h.quoted, h.keyword⟩

/-! ## The parts of a block -/

/-- The part is written for the definition of a column. It begins with the name of the column and is
taken for a constraint if that name is the first word of one, and only then. -/
def NamesColumn (p run : List Token) : Prop :=
  ∃ own more u rest, p = own :: more ∧ own.isName = true ∧ run = u :: rest ∧ u.Names own.name ∧
    (isTableConstraint run = true ↔
      ∃ word ∈ Column.constraintWords, Text.SameWord own.name word)

/-- The part is a key of columns of these names. -/
def NamesKey (names : List Text) (run : List Token) : Prop :=
  ∃ g : Group, g.Sound ∧ run = .bare "PRIMARY" :: .bare "KEY" :: g.tokens ∧
    Forall₂ (fun name part => ∃ u : Token, part = [u] ∧ u.Names name) names (parts g.inside)

theorem namesKey_keyTokens (hne : names ≠ []) : NamesKey names (keyTokens names) := by
  refine ⟨keyGroup names, keyGroup_sound hne, rfl, ?_⟩
  have hlater : ∀ names : List Text, Forall₂ (fun name part => ∃ u : Token, part = [u] ∧
      u.Names name) names (names.map fun name => [nameToken name]) := by
    intro names
    rw [List.forall₂_map_right_iff, List.forall₂_same]
    exact fun name _ => ⟨nameToken name, rfl, names_nameToken name⟩
  show Forall₂ _ names (parts (setGap [] (nameList names)))
  rw [parts_setGap, (parts_nameList hne).1]
  obtain ⟨name, names, rfl⟩ := List.exists_cons_of_ne_nil hne
  -- the first name stands right behind the parenthesis
  exact .cons ⟨_, rfl, (names_nameToken name).setGap []⟩ (hlater names)

theorem namesColumn_tokens {p : List Token} {c : Column} {inlineKey : Bool}
    (h : FollowsDefinition p c) : NamesColumn p (c.tokens inlineKey) := by
  obtain ⟨own, more, rfl, hisName, hname⟩ := h.named
  have hnames := names_nameToken c.name
  refine ⟨own, more, nameToken c.name, _, rfl, hisName, rfl, hname ▸ hnames, ?_⟩
  rw [Column.isTableConstraint_tokens, ← hname]
  refine exists_congr fun word => and_congr_right fun hword => hnames.keyword word ?_
  revert word
  decide

end Sql

open Sql

/-! ## The names of a table -/

namespace CreateTable

variable {c : CreateTable} {d : TableSyntax} {columns keys : List (List Token)} {table : Token}

/-- The names of a definition in the tokens that are written for it: that of the table, those of the
columns, and those of the columns in the key, if the key has two or more. -/
structure NamedBy (c : CreateTable) (d : TableSyntax) (table : Token)
    (columns keys : List (List Token)) : Prop where
  own : c.table = d.name.name.1.name
  table : table.Names c.table
  columns : Forall₂ NamesColumn ((parts d.block.1.inside).filter fun p => !isTableConstraint p)
    columns
  key : Forall₂ NamesKey (if 2 ≤ c.keyColumns.length then [c.keyColumns.map (·.name)] else []) keys

theorem DefinedBy.namedBy (h : c.DefinedBy (parts d.block.1.inside))
    (htable : c.table = d.name.name.1.name) : c.NamedBy d (nameToken c.table)
      (c.columns.map (Column.tokens c.inlineKey)) c.keyRuns where
  own := htable
  table := names_nameToken c.table
  columns := List.forall₂_map_right_iff.2 (h.columns.imp fun _ _ => namesColumn_tokens)
  key := by
    show Forall₂ NamesKey (if 1 < c.keyColumns.length then _ else []) _
    unfold keyRuns
    split
    · next hlong => exact .cons (namesKey_keyTokens (keyNames_ne_nil hlong)) .nil
    · exact .nil

theorem firstGroup_tokens (h : c.Readable) :
    FirstGroup (c.tokens ++ [.mark [] ';']) c.block := by
  have hwritten := (c.written h).firstGroup [.mark [] ';']
  rw [tokens_written] at hwritten
  obtain ⟨after, hafter⟩ := hwritten.reaches
  exact ⟨hwritten.sound, after, .cons rfl (.cons rfl hafter)⟩

end CreateTable

/-- **Names are read back.** The text for the engine of every accepted definition is read as tokens
in which each name of the client stands as a name of this value: of the table, first in the part of
each column, and alone between the commas of a key. It stands in quotes if a character of it needs
them, whether the client wrote it so or not. If the clauses of the definition are complete, these
parts are those that the block is read as, so a column is read as one unless its name is the first
word of a constraint. -/
theorem names_read_back {sql : Text} {t : Translated} {c : CreateTable}
    (h : translate sql = .ok t) (hc : t.statement = .createTable c) :
    ∃ (d : TableStatement) (after again : List Token) (table : Token)
      (columns keys others : List (List Token)),
      readTokens (normalize sql) = .ok (d.tokens ++ after) ∧
      c.DefinedBy (parts d.definition.block.1.inside) ∧
      readTokens t.text = .ok again ∧
      again = ⟨[], .word, "CREATE"⟩ :: .bare "TABLE" :: (c.guardTokens ++ table ::
        (grouped [' '] (separate (.mark [] ',') (columns ++ keys ++ others))).tokens) ++
          [.mark [] ';'] ∧
      c.NamedBy d.definition table columns keys ∧
      (c.WholeClauses →
        ∃ g, FirstGroup again g ∧ parts g.inside = columns ++ keys ++ others) := by
  obtain ⟨d, after, hread, hdefinition⟩ := TableStatement.exists_of_translate h hc
  obtain ⟨htable, items, hrecognised⟩ := CreateTable.recognised_of_read hdefinition
  have hdefined := hrecognised.definedBy
  have hagain : readTokens t.text = .ok (c.tokens ++ [.mark [] ';']) := by
    rw [CreateTable.text_eq h hc]
    exact readTokens_write (lifted_of_translate h hc)
  refine ⟨d, after, _, _, _, _, c.constraints.map spacedTokens, (readStatement_eq_ok.1 hread).1,
    hdefined, hagain, rfl, hdefined.namedBy htable, ?_⟩
  intro hwhole
  have hreadable := readable_of_translate h hc hwhole
  exact ⟨c.block, CreateTable.firstGroup_tokens hreadable, (CreateTable.parts_block hreadable).1⟩

/-- A table, a column and a key with names in quotes. -/
def orderKeys : CreateTable where
  table := "Order Lines"
  ifNotExists := false
  columns := [⟨"ID", .integer, true, false, none, false, none, []⟩,
    ⟨"line no", .integer, true, false, none, false, none, []⟩]
  constraints := []

/-- Only the names with a space are written in quotes. -/
def orderKeysText : Translated where
  sent := "create table \"Order Lines\" (\"ID\" int, \"line no\" int, " ++
    "primary key (\"ID\", \"line no\"))"
  text := "CREATE TABLE \"Order Lines\" ( ID INTEGER NOT NULL, \"line no\" INTEGER NOT NULL, " ++
    "PRIMARY KEY (ID, \"line no\") );"
  statement := .createTable orderKeys

theorem names_read_back_orderKeys : translate orderKeysText.sent = .ok orderKeysText ∧
    ∃ again g table, readTokens orderKeysText.text = .ok again ∧ FirstGroup again g ∧
      table ∈ again ∧ table.Names "Order Lines" ∧ table.kind = .quotedName ∧
      ∃ key ∈ parts g.inside, NamesKey ["ID", "line no"] key := by
  have htranslate : translate orderKeysText.sent = .ok orderKeysText := by decide +kernel
  have hwhole : orderKeys.WholeClauses := by
    unfold CreateTable.WholeClauses
    decide +kernel
  obtain ⟨_, _, again, table, columns, keys, others, -, -, hagain, htokens, hnames, hparts⟩ :=
    names_read_back htranslate rfl
  obtain ⟨g, hg, hblock⟩ := hparts hwhole
  obtain ⟨key, _, hkey, -, rfl⟩ := List.forall₂_cons_left_iff.1 hnames.key
  refine ⟨htranslate, again, g, table, hagain, hg, ?_, hnames.table, hnames.table.quoted.2 rfl, key,
    ?_, hkey⟩
  · simp [htokens]
  · simp [hblock]

/-! ## Names that lose their quotes -/

/-- A table and columns that are named by keywords, in quotes. -/
def quotedWords : Translated where
  sent := "CREATE TABLE \"check\" (\"unique\" INT, \"default\" TEXT)"
  text := "CREATE TABLE check ( unique INTEGER NULL, default TEXT NULL );"
  statement := .createTable
    { table := "check"
      ifNotExists := false
      columns := [⟨"unique", .integer, false, false, none, false, none, []⟩,
        ⟨"default", .text, false, false, none, false, none, []⟩]
      constraints := [] }

/-- The text for the engine of that definition, and what is read from it. -/
def bareWords : Translated where
  sent := quotedWords.text
  text := "CREATE TABLE check ( default TEXT NULL, unique INTEGER NULL );"
  statement := .createTable
    { table := "check"
      ifNotExists := false
      columns := [⟨"default", .text, false, false, some true, false, none, []⟩]
      constraints := ["unique INTEGER NULL"] }

/-- The names in quotes among the tokens of a text. -/
def quotedNames (ts : List Token) : List Text := (ts.filter (·.kind = .quotedName)).map (·.name)

/-- **Quotes around keywords are not kept.** The client writes every name in quotes, and the engine
is given none of them in quotes; read again, one of the columns is a constraint. -/
theorem quotes_not_kept : translate quotedWords.sent = .ok quotedWords ∧
    (readTokens (normalize quotedWords.sent)).map quotedNames =
      .ok ["check", "unique", "default"] ∧
    (readTokens quotedWords.text).map quotedNames = .ok [] ∧
    translate quotedWords.text = .ok bareWords := by
  refine ⟨?_, ?_, ?_, ?_⟩ <;> decide +kernel

end PgGateway
