import PgGateway.Proofs.Sql.OneStatement
import PgGateway.Proofs.Sql.TableShape

/-!
# Insertions, part by part

An insertion as it is put together: the table, perhaps another name for it and a list of columns,
rows of values or the words for default values, anything else, and perhaps a list of what it returns
(`InsertSyntax`). Each part is read by its own reader, whatever follows it. `RETURNING` is looked
for behind the values only, and only outside parentheses. So every statement put together in this
way is recognised with exactly its parts (`insertion_of_parts`).
-/

namespace PgGateway

namespace Sql

variable {sql : Text} {ts rest : List Token}

/-- A token that can be a name. -/
abbrev Identifier : Type := { t : Token // t.isName = true }

/-! ## The syntax of an insertion -/

/-- A list of columns in parentheses. -/
structure ColumnList where
  opening : { t : Token // t.isSymbol '(' = true }
  names : Series Identifier
  closing : { t : Token // t.isSymbol ')' = true }

/-- What is inserted. Between the parentheses of a row stands anything that is balanced, or nothing.
-/
inductive InsertValues
  | defaults (default : Keyword "DEFAULT") (values : Keyword "VALUES")
  | rows (values : Keyword "VALUES") (groups : Series { g : Group // g.Sound })

/-- What stands behind the values, such as what is to be done on a conflict. -/
structure InsertTail where
  tokens : List Token
  balanced : Balanced 0 tokens
  apart : ∀ t ∈ tokens.head?, t.isSymbol ',' = false
  unreturning : NoneOutside (·.isKeyword "RETURNING") 0 tokens

/-- One thing that an insertion returns. -/
structure ReturningItem where
  tokens : List Token
  nonempty : tokens ≠ []
  balanced : Balanced 0 tokens
  single : NoneOutside (·.isSymbol ',') 0 tokens

/-- An insertion. -/
structure InsertSyntax where
  insert : Keyword "INSERT"
  into : Keyword "INTO"
  table : TableName
  /-- Another name for the table. -/
  asName : Option (Keyword "AS" × Identifier)
  columns : Option ColumnList
  values : InsertValues
  tail : InsertTail
  returning : Option (Keyword "RETURNING" × Series ReturningItem)

/-- The parentheses of a list of columns and what is between them. -/
def ColumnList.group (c : ColumnList) : Group :=
  ⟨c.opening.1, c.names.tokens fun name => [name.1], c.closing.1⟩

namespace InsertValues

/-- The tokens of what is inserted. -/
def tokens : InsertValues → List Token
  | defaults default values => [default.1, values.1]
  | rows values groups => values.1 :: groups.tokens fun g => g.1.tokens

/-- The inside of each row, as it stands in the text. -/
def rowTexts : InsertValues → List Text
  | defaults _ _ => []
  | rows _ groups => groups.entries.map fun g => Token.verbatim g.1.inside

end InsertValues

namespace InsertSyntax

/-- The tokens of another name for the table. -/
def asTokens (d : InsertSyntax) : List Token := d.asName.elim [] fun k => [k.1.1, k.2.1]

/-- The tokens of the list of columns. -/
def columnTokens (d : InsertSyntax) : List Token := d.columns.elim [] (·.group.tokens)

/-- The tokens of what is returned. -/
def returningTokens (d : InsertSyntax) : List Token :=
  d.returning.elim [] fun r => r.1.1 :: r.2.tokens (·.tokens)

/-- The tokens of an insertion. -/
def tokens (d : InsertSyntax) : List Token :=
  d.insert.1 :: d.into.1 :: (d.table.tokens ++ (d.asTokens ++ (d.columnTokens ++
    (d.values.tokens ++ (d.tail.tokens ++ d.returningTokens)))))

/-- The parts of an insertion that its answer depends on. Rows and what is returned are kept as they
stand in the text. -/
def insertion (d : InsertSyntax) : Insert where
  table := d.table.name.1.name
  columns := d.columns.elim [] fun c => c.names.entries.map (·.1.name)
  rows := d.values.rowTexts
  returning := d.returning.map fun r => r.2.entries.map fun item => Token.verbatim item.tokens

end InsertSyntax

/-! ## Lists of columns -/

theorem Identifier.enclosed (name : Identifier) : Enclosed [name.1] :=
  .token (isSymbol_of_isName name.2) (isSymbol_of_isName name.2) (isSymbol_of_isName name.2)

namespace ColumnList

theorem parts_names (c : ColumnList) :
    parts (c.names.tokens fun name => [name.1]) = c.names.entries.map (fun name => [name.1]) ∧
      Balanced 0 (c.names.tokens fun name => [name.1]) :=
  c.names.parts_tokens fun name _ => Identifier.enclosed name

theorem sound (c : ColumnList) : c.group.Sound := ⟨c.opening.2, c.parts_names.2, c.closing.2⟩

/-- A list of columns is read as its names. -/
theorem readColumnList (c : ColumnList) (rest : List Token) :
    readColumnList (c.group.tokens ++ rest) = .ok (c.names.entries.map (·.1.name), rest) := by
  have hopen : Token.opensWith '(' (c.group.tokens ++ rest) = true := c.opening.2
  have hnames : (parts c.group.inside).mapM columnName = .ok (c.names.entries.map (·.1.name)) := by
    show (parts (c.names.tokens fun name => [name.1])).mapM columnName = _
    rw [c.parts_names.1, mapM_eq_ok_iff, List.forall₂_map_left_iff, List.forall₂_map_right_iff,
      List.forall₂_same]
    exact fun name _ => if_pos name.2
  rw [Sql.readColumnList, if_pos hopen, c.sound.readGroup]
  dsimp only
  rw [hnames]
  rfl

end ColumnList

/-! ## Values -/

/-- Rows are read as their insides, up to the first group that no comma follows. -/
theorem readRows_series (groups : Series { g : Group // g.Sound })
    (hrest : Token.opensWith ',' rest = false) :
    readRows (groups.tokens (fun g => g.1.tokens) ++ rest) =
      .ok (groups.entries.map fun g => Token.verbatim g.1.inside, rest) := by
  obtain ⟨g, later⟩ := groups
  induction later generalizing g with
  | nil =>
    have hopen : Token.opensWith '(' (g.1.tokens ++ rest) = true := g.2.opening
    simp only [Series.tokens, Series.entries, List.flatMap_nil, List.append_nil, List.map_nil,
      List.map_cons]
    rw [readRows, if_pos hopen]
    split
    · next hnone => rw [g.2.readGroup] at hnone; cases hnone
    · next hsome =>
      rw [g.2.readGroup] at hsome
      cases hsome
      exact if_neg (Bool.eq_false_iff.1 hrest)
  | cons row later ih =>
    obtain ⟨comma, g'⟩ := row
    rw [Series.tokens_cons, List.append_assoc, List.cons_append]
    generalize hlater : Series.tokens ⟨g', later⟩ (fun g => g.1.tokens) ++ rest = ts
    have hopen : Token.opensWith '(' (g.1.tokens ++ comma.1 :: ts) = true := g.2.opening
    have hcomma : Token.opensWith ',' (comma.1 :: ts) = true := comma.2
    rw [readRows, if_pos hopen]
    split
    · next hnone => rw [g.2.readGroup] at hnone; cases hnone
    · next hsome =>
      rw [g.2.readGroup] at hsome
      cases hsome
      rw [if_pos hcomma, List.tail_cons, ← hlater, ih g']
      rfl

namespace InsertValues

/-- What is inserted begins with a keyword. -/
theorem exists_keyword (v : InsertValues) : ∃ t ts, v.tokens = t :: ts ∧
    (t.isKeyword "DEFAULT" = true ∨ t.isKeyword "VALUES" = true) := by
  cases v with
  | defaults default values => exact ⟨_, _, rfl, .inl default.2⟩
  | rows values groups => exact ⟨_, _, rfl, .inr values.2⟩

/-- Values are read up to where no comma follows them. -/
theorem readValues (v : InsertValues) (hrest : Token.opensWith ',' rest = false) :
    readValues (v.tokens ++ rest) = .ok (v.rowTexts, rest) := by
  cases v with
  | defaults default values =>
    have hwords : (Token.startsWith "DEFAULT" (default.1 :: values.1 :: rest) &&
        Token.startsWith "VALUES" (values.1 :: rest)) = true := by
      rw [Bool.and_eq_true]
      exact ⟨default.2, values.2⟩
    exact if_pos hwords
  | rows values groups =>
    have hrows := readRows_series groups hrest
    generalize hbehind : groups.tokens (fun g => g.1.tokens) ++ rest = behind at hrows
    have hother : Token.startsWith "DEFAULT" (values.1 :: behind) = false :=
      isKeyword_ne values.2 (by decide)
    have hvalues : Token.startsWith "VALUES" (values.1 :: behind) = true := values.2
    rw [tokens, List.cons_append, hbehind, Sql.readValues, hother, Bool.false_and,
      if_neg Bool.false_ne_true, if_pos hvalues]
    exact hrows

end InsertValues

/-! ## What is returned -/

theorem ReturningItem.enclosed (item : ReturningItem) : Enclosed item.tokens :=
  ⟨item.balanced, splitCommas_of_noneOutside item.single⟩

/-- What is returned is read as it stands behind the first `RETURNING` outside parentheses. -/
theorem readReturning_tail (d : InsertSyntax) :
    readReturning (d.tail.tokens ++ d.returningTokens) = .ok d.insertion.returning := by
  have hskip : afterKeyword "RETURNING" (d.tail.tokens ++ d.returningTokens) =
      afterKeyword "RETURNING" d.returningTokens :=
    afterKeywordFrom_append d.tail.balanced d.tail.unreturning
  rw [readReturning, hskip, InsertSyntax.returningTokens, InsertSyntax.insertion]
  cases d.returning with
  | none => rfl
  | some r =>
    obtain ⟨returning, items⟩ := r
    have hafter : afterKeyword "RETURNING" (returning.1 :: items.tokens (·.tokens)) =
        some (items.tokens (·.tokens)) := if_pos ⟨returning.2, rfl⟩
    have hparts := (items.parts_tokens fun item _ => ReturningItem.enclosed item).1
    have hnonempty : (items.entries.map (·.tokens)).filter (!·.isEmpty) =
        items.entries.map (·.tokens) := by
      rw [List.filter_eq_self]
      intro ts hts
      obtain ⟨item, -, rfl⟩ := List.mem_map.1 hts
      simpa using item.nonempty
    have hsome : (items.entries.map (·.tokens)).isEmpty = false := rfl
    rw [Option.elim_some, hafter]
    dsimp only
    rw [hparts, hnonempty, hsome, if_neg Bool.false_ne_true, List.map_map]
    rfl

/-! ## Whole insertions -/

namespace InsertSyntax

theorem head_values (d : InsertSyntax) (rest : List Token) :
    Token.startsWith "AS" (d.values.tokens ++ rest) = false ∧
      ∀ u ∈ (d.values.tokens ++ rest).head?, ∀ c, u.isSymbol c = false := by
  obtain ⟨t, ts, htokens, hkeyword⟩ := d.values.exists_keyword
  rw [htokens]
  constructor
  · rcases hkeyword with h | h
    · exact isKeyword_ne h (by decide)
    · exact isKeyword_ne h (by decide)
  · rintro u ⟨⟩ c
    rcases hkeyword with h | h
    · exact isSymbol_of_isKeyword h
    · exact isSymbol_of_isKeyword h

/-- What is no symbol opens nothing. -/
theorem opensWith_of_head {c : Char} (h : ∀ u ∈ ts.head?, u.isSymbol c = false) :
    Token.opensWith c ts = false := by
  cases ts with
  | nil => rfl
  | cons t ts => exact h t rfl

/-- Neither what stands behind the values nor what is returned begins with a comma. -/
theorem opensWith_tail (d : InsertSyntax) :
    Token.opensWith ',' (d.tail.tokens ++ d.returningTokens) = false := by
  apply opensWith_of_head
  intro u hu
  cases htail : d.tail.tokens with
  | cons t ts =>
    rw [htail] at hu
    exact d.tail.apart u (by rw [htail]; exact hu)
  | nil =>
    rw [htail, List.nil_append, returningTokens] at hu
    cases hreturning : d.returning with
    | none =>
      rw [hreturning] at hu
      cases hu
    | some r =>
      rw [hreturning] at hu
      cases hu
      exact isSymbol_of_isKeyword r.1.2

theorem readColumnList_columnTokens (d : InsertSyntax) (rest : List Token) :
    readColumnList (d.columnTokens ++ (d.values.tokens ++ rest)) =
      .ok (d.insertion.columns, d.values.tokens ++ rest) := by
  rw [columnTokens, insertion]
  cases d.columns with
  | some c => exact c.readColumnList _
  | none =>
    have hopen : Token.opensWith '(' (d.values.tokens ++ rest) = false :=
      opensWith_of_head fun u hu => (d.head_values rest).2 u hu '('
    exact if_neg (Bool.eq_false_iff.1 hopen)

/-- Behind the name of the table stand `AS`, a parenthesis or what is inserted. -/
theorem head_columnTokens (d : InsertSyntax) (rest : List Token) :
    Token.startsWith "AS" (d.columnTokens ++ (d.values.tokens ++ rest)) = false ∧
      ∀ u ∈ (d.columnTokens ++ (d.values.tokens ++ rest)).head?, u.isSymbol '.' = false := by
  rw [columnTokens]
  cases d.columns with
  | some c =>
    have hsymbol : c.opening.1.isSymbol '(' = true := c.opening.2
    constructor
    · show c.opening.1.isKeyword "AS" = false
      simp [Token.isKeyword, not_word_of_symbol hsymbol]
    · rintro u ⟨⟩
      exact isSymbol_ne hsymbol (by decide)
  | none =>
    obtain ⟨hword, hsymbol⟩ := d.head_values rest
    exact ⟨hword, fun u hu => hsymbol u hu '.'⟩

/-- **An insertion is read as its parts.** -/
theorem ofTokens (d : InsertSyntax) : Insert.ofTokens d.tokens.tail = .ok d.insertion := by
  have hcolumns := d.readColumnList_columnTokens (d.tail.tokens ++ d.returningTokens)
  obtain ⟨has, hdot⟩ := d.head_columnTokens (d.tail.tokens ++ d.returningTokens)
  generalize hbehind : d.columnTokens ++
    (d.values.tokens ++ (d.tail.tokens ++ d.returningTokens)) = behind at hcolumns has hdot
  -- another name for the table is passed over
  have hskip : (if Token.startsWith "AS" (d.asTokens ++ behind) then (d.asTokens ++ behind).drop 2
      else d.asTokens ++ behind) = behind := by
    rw [asTokens]
    cases d.asName with
    | some k => exact if_pos k.1.2
    | none => exact if_neg (Bool.eq_false_iff.1 has)
  have hname : readTableName (d.table.tokens ++ (d.asTokens ++ behind)) =
      some (d.table.name.1.name, d.asTokens ++ behind) := by
    apply readTableName_tokens
    rw [asTokens]
    cases d.asName with
    | some k =>
      rintro u ⟨⟩
      exact isSymbol_of_isKeyword k.1.2
    | none => exact hdot
  have hinto : Token.startsWith "INTO"
      (d.into.1 :: (d.table.tokens ++ (d.asTokens ++ behind))) = true := d.into.2
  rw [tokens, hbehind, List.tail_cons, Insert.ofTokens, if_pos hinto, List.tail_cons, hname]
  dsimp only
  rw [hskip, hcolumns]
  show (Sql.readValues (d.values.tokens ++ (d.tail.tokens ++ d.returningTokens)) >>= _) = _
  rw [d.values.readValues d.opensWith_tail]
  show (readReturning (d.tail.tokens ++ d.returningTokens) >>= _) = _
  rw [readReturning_tail]
  rfl

theorem statement (d : InsertSyntax) : Statement.ofTokens d.tokens = .ok (.insert d.insertion) := by
  have hother : ∀ word : Text, Text.lower "INSERT" ≠ Text.lower word →
      d.insert.1.isKeyword word = false := fun _ => isKeyword_ne d.insert.2
  have hread := d.ofTokens
  rw [tokens, List.tail_cons] at hread
  rw [tokens, Statement.ofTokens, hother "CREATE" (by decide), hother "SELECT" (by decide),
    hother "WITH" (by decide), d.insert.2, hread]
  rfl

end InsertSyntax

/-- A piece of a statement stands in its normal form as it was written. -/
theorem contains_verbatim {us : List Token} (hread : readStatement (normalize sql) = .ok ts)
    (hpiece : us <:+: ts) : Text.Contains (Token.verbatim us) (normalize sql) := by
  obtain ⟨front, back, rfl⟩ := hpiece
  rw [← (clean_of_readStatement hread).2]
  cases us with
  | nil => exact ⟨[], _, rfl⟩
  | cons u us =>
    refine ⟨Token.render front ++ u.gap, Token.render back, ?_⟩
    simp [Token.verbatim_cons]

theorem Series.infix_tokens {α : Type} {s : Series α} {a : α} (f : α → List Token)
    (h : a ∈ s.entries) : f a <:+: s.tokens f := by
  rcases List.mem_cons.1 h with rfl | h
  · exact (List.prefix_append _ _).isInfix
  · obtain ⟨entry, hentry, rfl⟩ := List.mem_map.1 h
    let written := fun entry : Comma × α => entry.1.1 :: f entry.2
    have hentry : written entry <:+: s.later.flatMap written := infix_flatMap hentry
    exact ((List.suffix_cons _ _).isInfix.trans hentry).trans (List.suffix_append _ _).isInfix

namespace InsertSyntax

/-- The rows and what is returned are pieces of the statement. -/
theorem exists_piece (d : InsertSyntax) {x : Text}
    (hx : x ∈ d.insertion.rows ++ d.insertion.returning.getD []) :
    ∃ us, us <:+: d.tokens ∧ x = Token.verbatim us := by
  rcases List.mem_append.1 hx with hx | hx
  · obtain ⟨us, hus, rfl⟩ : ∃ us, us <:+: d.values.tokens ∧ x = Token.verbatim us := by
      rw [insertion] at hx
      cases hvalues : d.values with
      | defaults default values =>
        rw [hvalues] at hx
        cases hx
      | rows values groups =>
        rw [hvalues] at hx
        obtain ⟨g, hg, rfl⟩ := List.mem_map.1 hx
        have hinside : g.1.inside <:+: g.1.tokens := ⟨[g.1.opening], [g.1.closing], rfl⟩
        have hrow := Series.infix_tokens (fun g => g.1.tokens) hg
        exact ⟨_, (hinside.trans hrow).trans (List.suffix_cons _ _).isInfix, rfl⟩
    refine ⟨us, hus.trans ?_, rfl⟩
    exact ⟨d.insert.1 :: d.into.1 :: (d.table.tokens ++ (d.asTokens ++ d.columnTokens)),
      d.tail.tokens ++ d.returningTokens, by simp [tokens]⟩
  · obtain ⟨us, hus, rfl⟩ : ∃ us, us <:+: d.returningTokens ∧ x = Token.verbatim us := by
      rw [insertion] at hx
      rw [returningTokens]
      cases hreturning : d.returning with
      | none =>
        rw [hreturning] at hx
        cases hx
      | some r =>
        rw [hreturning] at hx
        obtain ⟨item, hitem, rfl⟩ := List.mem_map.1 hx
        have hreturned := Series.infix_tokens (·.tokens) hitem
        exact ⟨_, hreturned.trans (List.suffix_cons _ _).isInfix, rfl⟩
    refine ⟨us, hus.trans ?_, rfl⟩
    exact ⟨d.insert.1 :: d.into.1 :: (d.table.tokens ++ (d.asTokens ++ (d.columnTokens ++
      (d.values.tokens ++ d.tail.tokens)))), [], by simp [tokens]⟩

theorem translate (d : InsertSyntax) (hread : readStatement (normalize sql) = .ok d.tokens) :
    translate sql = .ok ⟨sql, normalize sql, .insert d.insertion⟩ :=
  translate_eq_ok.2 ⟨d.tokens, .insert d.insertion, hread, d.statement, rfl⟩

end InsertSyntax

/-- **An insertion is recognised as its parts.** Every text whose tokens are those of an insertion
is passed on in normal form, and its table, its columns, its rows and what it returns are those that
it was put together from, where the rows and what is returned stand in the normal form as they are.
Such a text is what the tokens make up, if they can be written one after the other and are one
statement. -/
theorem insertion_of_parts (d : InsertSyntax) :
    (∀ sql, readStatement (normalize sql) = .ok d.tokens →
      translate sql = .ok ⟨sql, normalize sql, .insert d.insertion⟩ ∧
        ∀ x ∈ d.insertion.rows ++ d.insertion.returning.getD [],
          Text.Contains x (normalize sql)) ∧
    (Clean d.tokens → d.insert.1.gap = [] →
      translate (Token.render d.tokens) =
        .ok ⟨Token.render d.tokens, Token.render d.tokens, .insert d.insertion⟩) := by
  constructor
  · intro sql hread
    refine ⟨d.translate hread, fun x hx => ?_⟩
    obtain ⟨us, hpiece, rfl⟩ := d.exists_piece hx
    exact contains_verbatim hread hpiece
  · intro hclean hflush
    have hhead : ∀ t ∈ d.tokens.head?, t.gap = [] := by
      rintro t ⟨⟩
      exact hflush
    have hread := readStatement_render hclean hhead
    have hnormal : normalize (Token.render d.tokens) = Token.render d.tokens :=
      normalize_of_squeezed (squeezed_render hclean.spelled (.inr hhead)) hclean.getLast?_render
    have htranslate := d.translate hread
    rwa [hnormal] at htranslate

/-- An insertion with a comma, a quote or a keyword in every place where it does not count. -/
def notesInsert : InsertSyntax where
  insert := ⟨⟨[], .word, "insert"⟩, rfl⟩
  into := ⟨.bare "into", rfl⟩
  table :=
    ⟨some (⟨.bare "main", rfl⟩, ⟨.mark [' '] '.', rfl⟩), ⟨⟨[], .quotedName, "\"my \"\"notes\""⟩, rfl⟩⟩
  asName := some (⟨.bare "as", rfl⟩, ⟨.bare "n", rfl⟩)
  columns := some
    { opening := ⟨.mark [' '] '(', rfl⟩
      names := ⟨⟨⟨[], .word, "id"⟩, rfl⟩,
        [(⟨.mark [] ',', rfl⟩, ⟨⟨[' '], .quotedName, "\"a,b\""⟩, rfl⟩)]⟩
      closing := ⟨.mark [] ')', rfl⟩ }
  values := .rows ⟨.bare "values", rfl⟩
    ⟨⟨grouped [] [⟨[], .number, "1"⟩, .mark [] ',', .bare "f", .mark [] '(',
        ⟨[], .string, "'('"⟩, .mark [] ')'], grouped_sound (by decide)⟩,
      [(⟨.mark [] ',', rfl⟩, ⟨grouped [] [], grouped_sound (by decide)⟩)]⟩
  tail :=
    { tokens := [.bare "on", .bare "conflict"] ++ (grouped [] [⟨[], .word, "returning"⟩]).tokens ++
        [.bare "do", .bare "update", .bare "set", ⟨[' '], .quotedName, "\"returning\""⟩,
          .mark [' '] '=', ⟨[' '], .string, "'returning'"⟩]
      balanced := by decide
      apart := by decide
      unreturning := by decide }
  returning := some (⟨.bare "returning", rfl⟩,
    ⟨⟨[.bare "id"], by decide, by decide, by decide⟩,
      [(⟨.mark [] ',', rfl⟩, ⟨[.bare "f", .mark [] '(', ⟨[], .word, "id"⟩, .mark [] ',',
        ⟨[' '], .number, "2"⟩, .mark [] ')', .bare "as", .bare "v"],
        by decide, by decide, by decide⟩)]⟩)

/-- A text that is put together so, with white space of its own. -/
def notesText : Text :=
  "insert into main .\"my \"\"notes\"  as n (id, \"a,b\")\nvalues (1, f('(')), ()\n" ++
    "on conflict (returning) do update set \"returning\" = 'returning'\n" ++
    "returning id, f(id, 2) as v;"

theorem insertion_of_parts_notes :
    readStatement (normalize notesText) = .ok notesInsert.tokens ∧
    translate notesText = .ok ⟨notesText, normalize notesText, .insert
      { table := "my \"notes"
        columns := ["id", "a,b"]
        rows := ["1, f('(')", ""]
        returning := some ["id", "f(id, 2) as v"] }⟩ ∧
    translate (Token.render notesInsert.tokens) = .ok ⟨Token.render notesInsert.tokens,
      Token.render notesInsert.tokens, .insert notesInsert.insertion⟩ := by
  have hread : readStatement (normalize notesText) = .ok notesInsert.tokens := by
    decide +kernel
  have hinsertion : notesInsert.insertion = ⟨"my \"notes", ["id", "a,b"], ["1, f('(')", ""],
      some ["id", "f(id, 2) as v"]⟩ := by
    decide +kernel
  obtain ⟨hsent, hmade⟩ := insertion_of_parts notesInsert
  have htranslate := (hsent notesText hread).1
  rw [hinsertion] at htranslate
  exact ⟨hread, htranslate, hmade (clean_of_readStatement hread).1 rfl⟩

end Sql

end PgGateway
