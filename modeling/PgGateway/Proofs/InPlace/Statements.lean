import PgGateway.Proofs.InPlace.Insertions

/-!
# Translation in place

Whatever text a client sends, translating it in place aborts nowhere: the outcome is that of
`Sql.translate`, a statement or a failure (`InPlace.translation_never_aborts`). The statement that is
read decides the text for the engine, and writing a table definition reads each of its default
expressions in place once more.
-/

namespace PgGateway.Sql.InPlace

variable {ε α β : Type} {sql : Text} {ps : List Placed} {ts : List Token}

/-! ## Writing table definitions -/

theorem isLiteral_eq (h : Lies sql ps ts) :
    (isLiteral ps : InPlace ε Bool) = pure (Sql.isLiteral ts) := by
  have hall := h.stand
  cases hall with
  | nil => rfl
  | @cons p t ps ts his hrest =>
    cases hrest with
    | nil =>
      have hwords : p.token.isKeyword = t.isKeyword := funext his.isKeyword
      simp only [isLiteral, Sql.isLiteral, his.kind, hwords]
    | @cons q u ps ts hisu hrest =>
      cases hrest with
      | nil => simp only [isLiteral, Sql.isLiteral, his.isSymbol, hisu.kind]
      | @cons r v ps ts =>
        rw [isLiteral, his.isSymbol, Sql.isLiteral]
        · by_cases hopen : t.isSymbol '(' = true
          · rw [if_pos hopen, skipGroup_eq h.stand (i := 0) hopen, List.drop_zero]
            cases hread : readGroup (t :: u :: v :: ts) with
            | none => rfl
            | some r =>
              obtain ⟨g, after⟩ := r
              have hlength := congrArg List.length (readGroup_eq hread)
              rw [← h.length_eq, List.length_append] at hlength
              have hwhole : (0 + g.tokens.length == (p :: q :: r :: ps).length) = after.isEmpty := by
                rw [hlength, Bool.eq_iff_iff, beq_iff_eq, List.isEmpty_iff_length_eq_zero]
                omega
              show (pure (0 + g.tokens.length == _) : InPlace ε Bool) = _
              rw [hwhole]
              cases after <;> rfl
          · rw [if_neg hopen, readGroup, if_neg hopen]
        -- the other goals say that three tokens are not fewer
        all_goals simp

/-- **Default expressions** are read once more to be written. -/
theorem writeDefault_eq (expression : Text) :
    (writeDefault expression : InPlace ε Text) = pure (Sql.writeDefault expression) := by
  obtain ⟨outcome, htokens, hagree⟩ := tokenize_completes expression
  rw [writeDefault, htokens, Sql.writeDefault]
  cases hread : readTokens expression with
  | error rest =>
    rw [hread] at hagree
    cases hagree
    rfl
  | ok ts =>
    rw [hread] at hagree
    cases hagree with
    | ok hps =>
      show (do return if ← isLiteral _ then _ else _ : InPlace ε Text) = _
      rw [isLiteral_eq hps]
      rfl

theorem writeColumn_eq (inlineKey : Bool) (c : Column) :
    (writeColumn inlineKey c : InPlace ε Text) = pure (c.write inlineKey) := by
  rw [writeColumn, writeDefaultClause, Column.write]
  cases c.defaultText with
  | none => rfl
  | some expression =>
    dsimp only
    rw [writeDefault_eq]
    rfl

/-- **Every table definition can be written.** -/
theorem write_eq (c : CreateTable) : (write c : InPlace ε Text) = pure c.write := by
  have hcolumns : ∀ inlineKey, writeColumn (ε := ε) inlineKey = fun c => pure (c.write inlineKey) :=
    fun inlineKey => funext (writeColumn_eq inlineKey)
  rw [write, hcolumns, List.mapM_pure, pure_bind]
  rfl

/-! ## Statements -/

theorem Completes.refusedAs {A : α → β → Prop} {c : InPlace Fault α} {x : Except Fault β}
    (h : Completes A c x) (shape : Shape) :
    Completes A (InPlace.refusedAs shape c) (x.mapError (.malformed shape)) := by
  obtain ⟨x', rfl, hagree⟩ := h
  exact ⟨_, rfl, hagree.mapError (congrArg _)⟩

theorem tableAt_eq (h : Lies sql ps ts) (i : Nat) :
    (tableAt ps i : InPlace ε (Option Text)) = pure (tableNamed (ts.drop i)) := by
  obtain ⟨found, htable, hrel⟩ := tableName_eq (ε := ε) h i
  rw [tableAt, htable, pure_bind, tableNamed]
  generalize readTableName (ts.drop i) = read at hrel
  cases hrel with
  | none => rfl
  | some hq => rw [Option.map_some, Option.map_some, hq.1]

theorem tableAt_skip (h : Lies sql ps ts) (keyword : Text) (i : Nat) :
    (tableAt ps (if isKeywordAt ps i keyword then i + 1 else i) : InPlace ε (Option Text)) =
      pure (tableNamed (skipKeyword keyword (ts.drop i))) := by
  rw [tableAt_eq h, h.isKeywordAt, skipKeyword, List.tail_drop]
  split <;> rfl

theorem tableFrom_eq (h : Lies sql ps ts) :
    (tableFrom ps : InPlace ε (Option Text)) = pure (Statement.tableFrom ts) := by
  obtain ⟨found, hfind, hrel⟩ := findFrom_eq (ε := ε) (i := 0) "FROM" 0 h rfl
  rw [tableFrom, findKeyword, hfind, pure_bind, Statement.tableFrom, afterKeyword]
  rw [List.drop_zero] at hrel
  generalize afterKeywordFrom "FROM" 0 ts = read at hrel
  cases hrel with
  | none => rfl
  | @some j after hfound => exact hfound.2 ▸ tableAt_skip h "ONLY" (j + 1)

theorem dropping_eq (h : Lies sql ps ts) :
    (dropping ps : InPlace ε Statement) = pure (Statement.readDrop (ts.drop 1)) := by
  have hguard := (skipGuard_eq h 2).2
  rw [dropping]
  cases hi : ts.drop 1 with
  | nil =>
    rw [h.lookup_none hi]
    rfl
  | cons t rest =>
    obtain ⟨p, hp, his⟩ := h.lookup hi
    have hobject : some (Text.upper t.text) = some "TABLE" ↔ Text.upper t.text = "TABLE" :=
      Option.some_inj
    rw [drop_succ hi] at hguard
    rw [hp, Statement.readDrop, Option.map_some, his.text, tableAt_eq h, hguard]
    simp only [hobject]
    split <;> rfl

/-- **Statements.** -/
theorem statement_completes (h : Lies sql ps ts) :
    Completes Eq (statement sql ps) (Statement.ofTokens ts) := by
  cases ts with
  | nil =>
    obtain rfl := h.eq_nil
    exact .throw _
  | cons t rest =>
    obtain ⟨p, hp, his⟩ := h.lookup (i := 0) rfl
    have hnext : (t :: rest).drop 1 = rest := rfl
    have htext : p.token.text = t.text := his.text
    rw [statement, List.head?_eq_getElem?, hp, Statement.ofTokens]
    simp only [his.isKeyword, htext, h.isKeywordAt, hnext]
    split
    · have hdefinition := definition_completes h
      rw [show (t :: rest).drop 2 = rest.tail from List.drop_one] at hdefinition
      refine Completes.refusedAs (hdefinition.map ?_) .createTable
      exact fun heq => by rw [heq]
    split
    · rw [tableFrom_eq h, pure_bind]
      exact .pure rfl
    split
    · refine Completes.refusedAs ((insertion_completes h).map ?_) .insert
      exact fun heq => by rw [heq]
    split
    · have hskip := tableAt_skip (ε := SqlError) h "ONLY" 1
      rw [h.isKeywordAt, hnext] at hskip
      rw [hskip, pure_bind]
      exact .pure rfl
    split
    · rw [tableFrom_eq h, pure_bind]
      exact .pure rfl
    split
    · rw [dropping_eq h]
      exact .pure rfl
    · exact .throw _

theorem engineText_eq (normal : Text) (s : Statement) :
    (engineText normal s : InPlace ε Text) = pure (s.engineText normal) := by
  cases s with
  | createTable definition => exact write_eq definition
  | _ => rfl

/-- **Translation never aborts.** For every text, each index that is looked up, each slice of a run
and each cut of a text is there, and each loop goes on to a greater index: the outcome in place is
the outcome of translation, a statement or a failure. -/
theorem translation_never_aborts (sql : Text) :
    (InPlace.translate sql).run = some (Sql.translate sql) := by
  refine Completes.run_eq ?_
  have htokens := (tokenize_completes (normalize sql)).refusedAs .statement
  rw [InPlace.translate, Sql.translate, normal_eq, pure_bind]
  cases hread : readTokens (normalize sql) with
  | error rest =>
    rw [hread] at htokens
    rw [htokens.of_error, readStatement, hread]
    exact .throw _
  | ok ts =>
    rw [hread] at htokens
    obtain ⟨ps, hps, h⟩ := htokens.of_ok
    rw [hps, pure_bind, readStatement, hread, h.any_eq fun his => his.isSymbol ';']
    dsimp only
    split
    · exact .throw _
    · refine (statement_completes h).bind ?_
      rintro s _ rfl
      rw [engineText_eq, pure_bind]
      exact .pure rfl

end PgGateway.Sql.InPlace
