import PgGateway.Proofs.Sql.Translation

/-!
# One statement for the engine

The engine runs a text up to its first semicolon outside quotes, and what a client wrote goes into
that text: names, defaults, checks, references, generated values and constraints of the table. The
text is checked before it is recognised and written anew afterwards, so the check has to be carried
over. It is, because every text of the client is read on its own as whole tokens, and these stand in
what is written (`StandsIn`). So the text for the engine is one statement (`one_statement`).
-/

namespace PgGateway

namespace Sql

variable {e name x : Text} {comma : Token} {ts us : List Token} {tss : List (List Token)}

/-- The text is read on its own, as tokens of one statement, and these tokens stand in the others
one after the other, whatever the white space in front of them: the text neither opens nor closes a
quote of what it stands in, and it ends no statement. -/
def StandsIn (x : Text) (ts : List Token) : Prop :=
  ∃ us gap, readTokens x = .ok us ∧ us ≠ [] ∧ (∀ u ∈ us, u.isSymbol ';' = false) ∧
    setGap gap us <:+: ts

theorem StandsIn.mono (h : StandsIn x us) (hpiece : us <:+: ts) : StandsIn x ts := by
  obtain ⟨vs, gap, hread, hne, hsingle, hstands⟩ := h
  exact ⟨vs, gap, hread, hne, hsingle, hstands.trans hpiece⟩

theorem Excerpt.standsIn (h : Excerpt x us) (gap : Text) (hpiece : setGap gap us <:+: ts) :
    StandsIn x ts :=
  ⟨us, gap, h.read, h.nonempty, h.clean.single, hpiece⟩

theorem Excerpt.standsIn_spaced (h : Excerpt x us) : StandsIn x (Sql.spacedTokens x) := by
  rw [h.spacedTokens]
  exact h.standsIn [' '] (List.infix_refl _)

/-! ## The texts of a client -/

/-- A name stands as one token, with its quotes doubled if it has any. -/
theorem standsIn_name (name : Text) : StandsIn (writeName name) [nameToken name] := by
  have hexcerpt := (Chunk.name name).clean.excerpt nofun
  have htext : Token.verbatim [nameToken name] = writeName name := by
    rw [Token.verbatim_cons, Token.render_nil, List.append_nil, text_nameToken]
  rw [htext] at hexcerpt
  have hspaced : setGap [' '] (setGap [] [nameToken name]) = [nameToken name] := by
    show [{ nameToken name with gap := [' '] }] = [nameToken name]
    rw [← gap_nameToken name]
  exact hexcerpt.standsIn [' '] ⟨[], [], by rw [hspaced, List.nil_append, List.append_nil]⟩

/-- A default stands as it is, in parentheses or without. -/
theorem standsIn_default (h : Excerpt e us) : StandsIn e (spacedTokens (writeDefault e)) := by
  rcases writeDefault_cases h with ⟨-, hwritten⟩ | hgroup
  · rw [hwritten]
    exact h.standsIn_spaced
  · have hflush : setGap [] us = us := by
      obtain ⟨u, us, rfl⟩ := List.exists_cons_of_ne_nil h.nonempty
      rw [setGap_cons, ← h.flush u rfl]
    rw [hgroup.spacedTokens]
    refine h.standsIn [] ?_
    rw [hflush]
    exact ⟨[.mark [' '] '('], [.mark [] ')'], rfl⟩

theorem infix_flatMap {α : Type} {l : List α} {f : α → List Token} {a : α} (h : a ∈ l) :
    f a <:+: l.flatMap f := by
  obtain ⟨front, rest, rfl⟩ := List.append_of_mem h
  exact ⟨front.flatMap f, rest.flatMap f, by simp⟩

theorem infix_separate (h : ts ∈ tss) : ts <:+: separate comma tss := by
  induction tss with
  | nil => cases h
  | cons us tss ih =>
    cases tss with
    | nil =>
      obtain rfl := List.mem_singleton.1 h
      exact List.infix_refl _
    | cons vs tss =>
      rcases List.mem_cons.1 h with rfl | h
      · exact (List.prefix_append _ _).isInfix
      · exact (ih h).trans ((List.suffix_cons comma _).trans (List.suffix_append us _)).isInfix

end Sql

open Sql

namespace Column

variable {c : Column} {inlineKey : Bool} {x : Text}

/-- What a column takes from the text of a client: its name, its default and its clauses. -/
def clientTexts (c : Column) : List Text := writeName c.name :: c.kept

theorem standsIn_tokens (h : c.Lifted) (hx : x ∈ c.clientTexts) :
    StandsIn x (c.tokens inlineKey) := by
  have htail : defaultTokens c.defaultText ++ c.constraints.flatMap spacedTokens <:+:
      c.tokens inlineKey :=
    ((List.suffix_append _ _).trans (List.suffix_cons _ _)).isInfix
  rcases List.mem_cons.1 hx with rfl | hx
  · exact (standsIn_name c.name).mono ((List.prefix_append [nameToken c.name] _).isInfix)
  · rcases List.mem_append.1 hx with hx | hx
    · have hdefault : c.defaultText = some x := by simpa using hx
      obtain ⟨us, hus⟩ := h.default x hdefault
      refine (standsIn_default hus).mono (List.IsInfix.trans ?_ htail)
      rw [hdefault]
      exact ((List.suffix_cons (.bare "DEFAULT") _).isInfix).trans (List.prefix_append _ _).isInfix
    · obtain ⟨us, hus⟩ := h.clauses.excerpt x hx
      exact hus.standsIn_spaced.mono
        ((infix_flatMap hx).trans ((List.suffix_append _ _).isInfix.trans htail))

end Column

namespace CreateTable

variable {c : CreateTable} {x : Text}

/-- What a definition takes from the text of a client. -/
def clientTexts (c : CreateTable) : List Text :=
  writeName c.table :: (c.columns.flatMap Column.clientTexts ++ c.constraints)

theorem infix_blockRuns {ts : List Token} (h : ts ∈ c.blockRuns) : ts <:+: c.tokens := by
  have hinside : c.block.inside <:+: c.block.tokens :=
    ⟨[c.block.opening], [c.block.closing], by simp [Group.tokens]⟩
  have hblock : c.block.tokens <:+: c.tokens := by
    have hname : c.block.tokens <:+ c.nameTokens :=
      (List.suffix_cons _ _).trans (List.suffix_append c.guardTokens _)
    exact (hname.trans ((List.suffix_cons _ _).trans (List.suffix_cons _ _))).isInfix
  exact ((infix_separate h).trans hinside).trans hblock

/-- **Every text of the client stands in what is written.** -/
theorem standsIn_tokens (h : c.Lifted) (hx : x ∈ c.clientTexts) : StandsIn x c.tokens := by
  rcases List.mem_cons.1 hx with rfl | hx
  · apply (standsIn_name c.table).mono
    exact ⟨⟨[], .word, "CREATE"⟩ :: .bare "TABLE" :: c.guardTokens, c.block.tokens,
      by simp [tokens, nameTokens]⟩
  · rcases List.mem_append.1 hx with hx | hx
    · obtain ⟨column, hcolumn, hx⟩ := List.mem_flatMap.1 hx
      have hstands : StandsIn x (column.tokens c.inlineKey) :=
        Column.standsIn_tokens (h.columns column hcolumn) hx
      apply hstands.mono
      apply infix_blockRuns
      exact List.mem_append_left _ (List.mem_append_left _ (List.mem_map_of_mem hcolumn))
    · obtain ⟨us, hus⟩ := h.constraints x hx
      apply hus.standsIn_spaced.mono
      apply infix_blockRuns
      exact List.mem_append_right _ (List.mem_map_of_mem hx)

end CreateTable

namespace Sql

variable {sql : Text} {t : Translated} {ts : List Token}

/-! ## The text for the engine -/

/-- A definition that was recognised is read from its text as the tokens it is written as. -/
theorem readTokens_write {c : CreateTable} (h : c.Lifted) :
    readTokens c.write = .ok (c.tokens ++ [.mark [] ';']) := by
  rw [← render_write h]
  exact readTokens_render (spelled_write h)

/-- A definition that a text was translated to was recognised from tokens of it. -/
theorem ofTokens_of_translate {c : CreateTable} (h : translate sql = .ok t)
    (hc : t.statement = .createTable c) :
    ∃ rest, Clean rest ∧ CreateTable.ofTokens rest = .ok c := by
  obtain ⟨ts, s, hread, hs, rfl⟩ := translate_eq_ok.1 h
  obtain rfl : s = .createTable c := hc
  obtain ⟨rest, hsuffix, hrest⟩ := ofTokens_createTable hs
  exact ⟨rest, (clean_of_readStatement hread).1.piece hsuffix.isInfix, hrest⟩

/-- What is known of a definition that a text was translated to. -/
theorem lifted_of_translate {c : CreateTable} (h : translate sql = .ok t)
    (hc : t.statement = .createTable c) : c.Lifted := by
  obtain ⟨rest, hclean, hrest⟩ := ofTokens_of_translate h hc
  exact CreateTable.lifted_of_ofTokens hclean hrest

/-- If its clauses are complete, it is read back when it is written. -/
theorem readable_of_translate {c : CreateTable} (h : translate sql = .ok t)
    (hc : t.statement = .createTable c) (hwhole : c.WholeClauses) : c.Readable := by
  obtain ⟨rest, hclean, hrest⟩ := ofTokens_of_translate h hc
  exact CreateTable.readable_of_ofTokens hclean hrest hwhole

/-- The tokens are one statement of this kind. A definition is written with a semicolon at its end
and no other, and the texts of the client stand in front of it; anything else has no semicolon. -/
def HoldsOne : Statement → List Token → Prop
  | .createTable c, ts => ts = c.tokens ++ [.mark [] ';'] ∧
      (∀ u ∈ c.tokens, u.isSymbol ';' = false) ∧ ∀ x ∈ c.clientTexts, StandsIn x c.tokens
  | _, ts => ∀ u ∈ ts, u.isSymbol ';' = false

/-- What is passed on was read as one statement before. -/
theorem holdsOne_normalize (h : readStatement (normalize sql) = .ok ts) :
    ∃ us, readTokens (normalize sql) = .ok us ∧ Token.render us = normalize sql ∧
      ∀ u ∈ us, u.isSymbol ';' = false := by
  obtain ⟨hread, hsingle⟩ := readStatement_eq_ok.1 h
  exact ⟨ts, hread, (clean_of_readStatement h).2, hsingle⟩

/-- **No second statement reaches the engine.** The text that the engine is given for a statement is
read as tokens that make it up and are one statement. -/
theorem one_statement (h : translate sql = .ok t) :
    ∃ ts, readTokens t.text = .ok ts ∧ Token.render ts = t.text ∧ HoldsOne t.statement ts := by
  obtain ⟨ts, s, hread, hs, rfl⟩ := translate_eq_ok.1 h
  cases s with
  | createTable c =>
    -- a definition is written anew
    have hlifted := lifted_of_translate h rfl
    exact ⟨_, readTokens_write hlifted, render_write hlifted, rfl,
      (CreateTable.clean_tokens hlifted).single, fun x => CreateTable.standsIn_tokens hlifted⟩
  -- anything else is passed on in normal form
  | select table => exact holdsOne_normalize hread
  | insert insertion => exact holdsOne_normalize hread
  | update table => exact holdsOne_normalize hread
  | delete table => exact holdsOne_normalize hread
  | drop object table => exact holdsOne_normalize hread

/-- A definition with semicolons and quotes in a name, a default, a check and a constraint. -/
def guardedNotes : Translated where
  sent := "create table \"a;b\" (\"it\"\"s;\" text default 'x;''y', " ++
    "n int default f(';') check (n <> ';'), constraint \"c;\" check (n > 0))"
  text := "CREATE TABLE \"a;b\" ( \"it\"\"s;\" TEXT NULL DEFAULT 'x;''y', " ++
    "n INTEGER NULL DEFAULT (f(';')) check (n <> ';'), constraint \"c;\" check (n > 0) );"
  statement := .createTable
    { table := "a;b"
      ifNotExists := false
      columns :=
        [ { name := "it\"s;", type := .text, primaryKey := false, autoIncrement := false,
            nullability := none, unique := false, defaultText := some "'x;''y'",
            constraints := [] },
          { name := "n", type := .integer, primaryKey := false, autoIncrement := false,
            nullability := none, unique := false, defaultText := some "f(';')",
            constraints := ["check (n <> ';')"] } ]
      constraints := ["constraint \"c;\" check (n > 0)"] }

theorem one_statement_guardedNotes : translate guardedNotes.sent = .ok guardedNotes ∧
    ∃ ts, readTokens guardedNotes.text = .ok ts ∧ Token.render ts = guardedNotes.text ∧
      HoldsOne guardedNotes.statement ts := by
  have htranslate : translate guardedNotes.sent = .ok guardedNotes := by
    decide +kernel
  exact ⟨htranslate, one_statement htranslate⟩

end Sql

end PgGateway
