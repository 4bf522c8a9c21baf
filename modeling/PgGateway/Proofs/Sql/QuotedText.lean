import PgGateway.Proofs.Sql.Runs
import PgGateway.Registry

/-!
# Quotes are undone by reading

A text between two quotes, with the quotes inside it written twice, is one token, and the text is
read from it again, whatever it holds and whatever follows it, as long as no quote does. So a name
is read as it was written, in quotes or not, and a name in the query for the columns of a table
cannot end the quotes that it stands in (`quoting_undone`).
-/

namespace PgGateway.Sql

variable {t : Token} {rest : Text} {c : Char}

/-- The token with nothing in front of it. -/
def Token.flush (t : Token) : Token := { t with gap := [] }

theorem Token.Sound.flush (h : t.Sound) : t.flush.Sound := ⟨h.whole, .inl rfl, h.unblank⟩

/-! ## Names -/

/-- The characters that a name is read in front of, in quotes or not. -/
def nameEnds : List Char := [' ', ',', '(', ')']

theorem stops_nameToken (name : Text) (hc : c ∈ nameEnds) :
    (nameToken name).kind.stops c = true := by
  have hstops : TokenKind.word.stops c = true ∧ TokenKind.quotedName.stops c = true := by
    simp only [nameEnds, List.mem_cons, List.not_mem_nil, or_false] at hc
    rcases hc with rfl | rfl | rfl | rfl <;> exact ⟨by decide, by decide⟩
  unfold nameToken
  split
  · exact hstops.1
  · exact hstops.2

/-- A name is read whatever it is, and then the rest. -/
theorem readTokens_writeName_append (name : Text)
    (hnext : ∀ d ∈ rest.head?, (nameToken name).kind.stops d = true) :
    readTokens (writeName name ++ rest) = (readTokens rest).map ((nameToken name).flush :: ·) := by
  rw [← text_nameToken]
  exact (sound_nameToken name).flush.read_append hnext

theorem readTokens_writeName (name : Text) :
    readTokens (writeName name) = .ok [(nameToken name).flush] := by
  have hread : readTokens (writeName name ++ []) = _ := readTokens_writeName_append name nofun
  rwa [List.append_nil, readTokens_nil] at hread

/-! ## The query for the columns of a table -/

/-- A text in single quotes. -/
def literalToken (x : Text) : Token := ⟨[], .string, Text.quote '\'' x⟩

theorem sound_literalToken (x : Text) : (literalToken x).Sound :=
  ⟨⟨'\'', _, rfl, by decide, .quoted (.inl rfl) (quoted_double '\'' x)⟩, .inl rfl, nofun⟩

/-- The tokens of the query around its literal. -/
def columnsQueryTokens (literal : Token) : List Token :=
  [⟨[], .word, "PRAGMA"⟩, .bare "table_info", .mark [] '(', literal, .mark [] ')']

theorem spelled_columnsQueryTokens (table : Text) :
    Spelled (columnsQueryTokens (literalToken table)) where
  sound := by
    have hpragma : (Token.bare "PRAGMA").flush.Sound := (sound_bare (by decide)).flush
    simp only [columnsQueryTokens, List.forall_mem_cons]
    exact ⟨hpragma, sound_bare (by decide), sound_mark (.inl rfl) (by decide),
      sound_literalToken table, sound_mark (.inl rfl) (by decide), nofun⟩
  adjoins := by
    refine .cons_cons nofun (.cons_cons ?_ (.cons_cons ?_ (.cons_cons ?_ (.singleton _))))
    · rintro - d ⟨⟩
      exact ⟨by decide, nofun⟩
    · rintro - d ⟨⟩
      refine ⟨rfl, ?_⟩
      rintro c ⟨⟩
      decide
    · rintro - d ⟨⟩
      refine ⟨(by decide : TokenKind.string.stops ')' = true), fun c hc => ?_⟩
      -- a text in quotes has two characters or more
      have hlength := congrArg List.length hc
      simp [literalToken, Text.quote] at hlength

theorem render_columnsQueryTokens (table : Text) :
    Token.render (columnsQueryTokens (literalToken table)) = Registry.columnsQuery table := by
  have hfront : "PRAGMA" ++ ' ' :: ("table_info" ++ ['(']) = ("PRAGMA table_info(" : Text) := by
    decide +kernel
  have hback : [')'] = (")" : Text) := by decide
  unfold Registry.columnsQuery
  simp only [← hfront, ← hback, columnsQueryTokens, literalToken, Token.bare, Token.mark,
    Token.render_cons, Token.render_nil, List.append_nil, List.nil_append, List.cons_append,
    List.append_assoc]

theorem readTokens_columnsQuery (table : Text) :
    readTokens (Registry.columnsQuery table) = .ok (columnsQueryTokens (literalToken table)) := by
  rw [← render_columnsQueryTokens]
  exact readTokens_render (spelled_columnsQueryTokens table)

/-- **Quotes are undone by reading.** Every name is written as one token that is read as the same
name, by itself and in front of whatever begins with a space, a comma or a parenthesis, where the
rest is read as it is alone. The query for the columns of a table of that name has always the same
tokens but for one literal, which is the name once its quotes are taken off and those inside it are
read two by two. -/
theorem quoting_undone (name : Text) :
    (∃ u : Token, u.isName = true ∧ u.name = name ∧ readTokens (writeName name) = .ok [u] ∧
      ∀ c ∈ nameEnds, ∀ rest,
        readTokens (writeName name ++ c :: rest) = (readTokens (c :: rest)).map (u :: ·)) ∧
    ∃ literal body, literal.kind = .string ∧ literal.text = '\'' :: (body ++ ['\'']) ∧
      Text.halve '\'' body = name ∧
      readTokens (Registry.columnsQuery name) = .ok (columnsQueryTokens literal) := by
  constructor
  · refine ⟨(nameToken name).flush, isName_nameToken name, name_nameToken name,
      readTokens_writeName name, fun c hc rest => ?_⟩
    apply readTokens_writeName_append
    rintro d ⟨⟩
    exact stops_nameToken name hc
  · exact ⟨literalToken name, Text.double '\'' name, rfl, rfl, halve_double '\'' name,
      readTokens_columnsQuery name⟩

/-- A name of quotes only is read from between its quotes, and the parenthesis behind it is not part
of it. -/
theorem quoting_undone_quotes :
    writeName "\"'\"" = "\"\"\"'\"\"\"" ∧
    Registry.columnsQuery "\"'\"" = "PRAGMA table_info('\"''\"')" ∧
    (∃ u : Token, u.name = "\"'\"" ∧
      readTokens "\"\"\"'\"\"\")" = (readTokens ")").map (u :: ·)) ∧
    ∃ literal body, literal.text = '\'' :: (body ++ ['\'']) ∧ Text.halve '\'' body = "\"'\"" ∧
      readTokens "PRAGMA table_info('\"''\"')" = .ok (columnsQueryTokens literal) := by
  have hname : writeName "\"'\"" = "\"\"\"'\"\"\"" := by decide +kernel
  have hquery : Registry.columnsQuery "\"'\"" = "PRAGMA table_info('\"''\"')" := by decide +kernel
  obtain ⟨⟨u, -, hu, -, hfollowed⟩, literal, body, -, htext, hbody, hread⟩ :=
    quoting_undone "\"'\""
  have hparen := hfollowed ')' (by decide) []
  rw [hname] at hparen
  rw [hquery] at hread
  exact ⟨hname, hquery, ⟨u, hu, hparen⟩, literal, body, htext, hbody, hread⟩

end PgGateway.Sql
