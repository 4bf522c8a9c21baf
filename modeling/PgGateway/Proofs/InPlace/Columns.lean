import PgGateway.Proofs.InPlace.Runs

/-!
# Column definitions in place

A column definition is read in place as it is read from its tokens. The end of a clause is an index
behind its start and not behind the end of the run, so the slices of the clause are there
(`InPlace.clauseEnd_completes`); and every item goes on behind its first word
(`InPlace.items_completes`).
-/

namespace PgGateway.Sql.InPlace

variable {ε α : Type} {sql : Text} {ps : List Placed} {ts rest : List Token} {t : Token} {p : Placed}
  {i start : Nat} {ends : Bool}

/-! ## Clauses -/

/-- Whether a column keyword ends a clause at an index: not at its start, and not right after
`SET`. -/
def EndsAt (ts : List Token) (start i : Nat) : Bool :=
  decide (start < i) && !Token.startsWith "SET" (ts.drop (i - 1))

theorem clauseEndFrom_nil (h : Lies sql ps ts) (hi : ts.drop i = []) :
    clauseEndFrom ps start i = pure i :=
  whileBelow_behind (h.length_eq ▸ List.drop_eq_nil_iff.1 hi)

theorem followsSet_eq (h : Lies sql ps ts) (hi : ts.drop i = t :: rest) :
    (followsSet ps i : InPlace ε Bool) =
      pure (decide (0 < i) && Token.startsWith "SET" (ts.drop (i - 1))) := by
  rw [followsSet]
  by_cases hpos : 0 < i
  · have hlt : i - 1 < ts.length := (Nat.sub_le i 1).trans_lt (lt_of_drop hi)
    have hbefore := List.drop_eq_getElem_cons hlt
    obtain ⟨p, hp, his⟩ := h.index (ε := ε) hbefore
    rw [if_pos hpos, minus_eq hpos, pure_bind, hp, pure_bind, his.isKeyword, hbefore,
      decide_eq_true hpos]
    rfl
  · rw [if_neg hpos, decide_eq_false hpos]
    rfl

theorem clauseEndFrom_cons (h : Lies sql ps ts) (hi : ts.drop i = t :: rest) :
    clauseEndFrom ps start i =
      if EndsAt ts start i && (ColumnKeyword.ofToken? t).isSome then pure i
      else if t.isSymbol '(' then do onward i (fun j _ => clauseEndFrom ps start j) (← skipGroup ps i) ()
      else clauseEndFrom ps start (i + 1) := by
  obtain ⟨p, hp, his⟩ := h.index (ε := Fault) hi
  have hends : (start < i ∧ (decide (0 < i) && Token.startsWith "SET" (ts.drop (i - 1))) = false ∧
      (ColumnKeyword.ofToken? t).isSome = true) ↔
        (EndsAt ts start i && (ColumnKeyword.ofToken? t).isSome) = true := by
    simp only [EndsAt, Bool.and_eq_true, decide_eq_true_eq, Bool.not_eq_true', and_assoc]
    refine and_congr_right fun hlt => ?_
    rw [decide_eq_true (Nat.zero_lt_of_lt hlt), Bool.true_and]
  rw [clauseEndFrom, whileBelow_below (h.length_eq ▸ lt_of_drop hi), hp, pure_bind,
    followsSet_eq h hi, pure_bind, his.isSymbol, his.ofToken?, onward_eq (Nat.lt_add_one i)]
  simp only [hends]
  rfl

/-- **Clauses end where they are read to.** -/
theorem clauseEndFrom_completes (h : Lies sql ps ts) (hi : ts.drop i = rest) (hstart : start ≤ i)
    (hends : ends = EndsAt ts start i) :
    Completes (fun j r => j = i + r.1.length) (clauseEndFrom ps start i) (readClauseFrom ends rest) := by
  fun_induction readClauseFrom ends rest generalizing i with
  | case1 =>
    rw [clauseEndFrom_nil h hi]
    exact .pure rfl
  | case2 ends t rest hstop =>
    rw [clauseEndFrom_cons h hi, ← hends, if_pos hstop]
    exact .pure rfl
  | case3 ends t rest hstop hopen hread =>
    rw [clauseEndFrom_cons h hi, ← hends, if_neg hstop, if_pos hopen,
      skipGroup_eq h.stand (by rw [hi]; exact hopen), hi, hread]
    exact .throw _
  | case4 ends t rest hstop hopen g rest' hread ih =>
    have hall : ts.drop i = g.opening :: g.inside ++ g.closing :: rest' := by
      rw [hi, readGroup_eq hread, Group.tokens]
      simp
    have hlast : true = EndsAt ts start (i + g.tokens.length) := by
      have hclosing : ts.drop (i + g.tokens.length - 1) = g.closing :: rest' := by
        have hindex : i + g.tokens.length - 1 = i + (g.opening :: g.inside).length := by
          rw [length_tokens, List.length_cons]
          omega
        rw [hindex, drop_add _ hall]
      have hlt : start < i + g.tokens.length := by
        rw [length_tokens]
        omega
      rw [EndsAt, hclosing, Token.startsWith, isKeyword_of_isSymbol (readGroup_sound hread).closing,
        decide_eq_true hlt]
      rfl
    rw [clauseEndFrom_cons h hi, ← hends, if_neg hstop, if_pos hopen,
      skipGroup_eq h.stand (by rw [hi]; exact hopen), hi, hread]
    dsimp only
    rw [pure_bind, onward_eq (by rw [length_tokens]; omega)]
    refine (ih (drop_add g.tokens (by rw [hi, readGroup_eq hread])) (by omega) hlast).imp_map ?_
    rintro j r rfl
    rw [List.length_append, Nat.add_assoc]
  | case5 ends t rest hstop hopen ih =>
    have hlast : (!t.isKeyword "SET") = EndsAt ts start (i + 1) := by
      rw [EndsAt, Nat.add_sub_cancel, hi, decide_eq_true (Nat.lt_add_one_of_le hstart)]
      rfl
    rw [clauseEndFrom_cons h hi, ← hends, if_neg hstop, if_neg hopen]
    refine (ih (drop_succ hi) (Nat.le_succ_of_le hstart) hlast).imp_map ?_
    rintro j r rfl
    rw [List.length_cons]
    omega

theorem clauseEnd_completes (h : Lies sql ps ts) (hi : ts.drop i = rest) :
    Completes (fun j r => j = i + r.1.length) (clauseEnd ps i) (readClause rest) := by
  have hends : false = EndsAt ts i i := by simp [EndsAt]
  exact clauseEndFrom_completes h hi (Nat.le_refl i) hends

/-! ## Items -/

/-- What is read, and what is left behind the index. -/
def Resumes (ts : List Token) (q : α × Nat) (r : α × List Token) : Prop :=
  q.1 = r.1 ∧ ts.drop q.2 = r.2

theorem isEmpty_iff_length (clause : List Token) :
    i + clause.length = i ↔ clause.isEmpty = true := by
  rw [List.isEmpty_iff, ← List.length_eq_zero_iff]
  omega

theorem clauseEnd_throw {e : Fault} (h : Lies sql ps ts) (hi : ts.drop i = rest)
    (hread : readClause rest = .error e) : clauseEnd ps i = throw e := by
  have hclause := clauseEnd_completes h hi
  rw [hread] at hclause
  exact hclause.of_error

/-- The clause behind a word is a slice of the run, and so are the two together. -/
theorem clauseEnd_eq {clause rest' : List Token} (h : Lies sql ps ts) (hi : ts.drop i = t :: rest)
    (hread : readClause rest = .ok (clause, rest')) :
    clauseEnd ps (i + 1) = pure (i + 1 + clause.length) ∧
      (∃ qs, (slice ps (i + 1) (i + 1 + clause.length) : InPlace Fault (List Placed)) = pure qs ∧
        Lies sql qs clause) ∧
      (∃ qs, (slice ps i (i + 1 + clause.length) : InPlace Fault (List Placed)) = pure qs ∧
        Lies sql qs (t :: clause)) ∧
      ts.drop (i + 1 + clause.length) = rest' := by
  have hclause := clauseEnd_completes h (drop_succ hi)
  rw [hread] at hclause
  obtain ⟨stop, hstop, rfl⟩ := hclause.of_ok
  have hbehind : ts.drop (i + 1) = clause ++ rest' := (drop_succ hi).trans (readClauseFrom_eq hread)
  have hwhole : ts.drop i = (t :: clause) ++ rest' := by
    rw [hi, readClauseFrom_eq hread]
    rfl
  refine ⟨hstop, h.slice (lt_of_drop hi) hbehind, ?_, drop_add clause hbehind⟩
  rw [Nat.add_right_comm]
  exact h.slice (lt_of_drop hi).le hwhole

/-- **Items go on behind what is read of them.** -/
theorem item_completes (h : Lies sql ps ts) (hi : ts.drop i = t :: rest) (his : p.Is t) :
    Completes (Resumes ts) (item sql ps i p.token) (readItem t rest) := by
  have hnext := drop_succ hi
  have htext : p.token.text = t.text := his.text
  have htail : ts.drop (i + 2) = rest.tail := by rw [← hnext, List.tail_drop]
  unfold item readItem
  rw [his.ofToken?, htext, h.isKeywordAt, h.isKeywordAt, hnext]
  cases ColumnKeyword.ofToken? t with
  | none => exact .pure ⟨rfl, hnext⟩
  | some keyword =>
    cases keyword with
    | not | primary =>
      dsimp only
      split
      · exact .pure ⟨rfl, htail⟩
      · exact .throw _
    | null | unique => exact .pure ⟨rfl, hnext⟩
    | constraint | collate => exact .pure ⟨rfl, htail⟩
    | default =>
      dsimp only
      split
      · next e hread =>
        rw [clauseEnd_throw h hnext hread]
        exact .throw e
      · next clause rest' hread =>
        obtain ⟨hstop, ⟨qs, hslice, hqs⟩, -, hrest⟩ := clauseEnd_eq h hi hread
        rw [hstop, pure_bind]
        simp only [isEmpty_iff_length]
        split
        · exact .throw _
        · rw [hslice, pure_bind, hqs.span, pure_bind]
          exact .pure ⟨rfl, hrest⟩
    | check | references =>
      dsimp only
      split
      · next e hread =>
        rw [clauseEnd_throw h hnext hread]
        exact .throw e
      · next clause rest' hread =>
        obtain ⟨hstop, -, ⟨qs, hslice, hqs⟩, hrest⟩ := clauseEnd_eq h hi hread
        rw [hstop, pure_bind]
        simp only [isEmpty_iff_length]
        split
        · exact .throw _
        · rw [hslice, pure_bind, hqs.span, pure_bind]
          exact .pure ⟨rfl, hrest⟩
    | generated =>
      dsimp only
      split
      · next e hread =>
        rw [clauseEnd_throw h hnext hread]
        exact .throw e
      · next clause rest' hread =>
        obtain ⟨hstop, ⟨qs, hslice, hqs⟩, ⟨rs, hwhole, hrs⟩, hrest⟩ := clauseEnd_eq h hi hread
        rw [hstop, pure_bind, hslice, pure_bind, hqs.any_eq fun his => his.isKeyword "IDENTITY"]
        split
        · exact .pure ⟨rfl, hrest⟩
        · rw [hwhole, pure_bind, hrs.span, pure_bind]
          exact .pure ⟨rfl, hrest⟩

theorem items_nil (h : Lies sql ps ts) (hi : ts.drop i = []) : items sql ps i = pure [] :=
  whileBelow_behind (h.length_eq ▸ List.drop_eq_nil_iff.1 hi)

theorem items_cons (h : Lies sql ps ts) (hi : ts.drop i = t :: rest) : ∃ p : Placed, p.Is t ∧
    items sql ps i =
      if t.isSymbol '(' then do onward i (fun j _ => items sql ps j) (← skipGroup ps i) ()
      else if t.kind = .word then do
        let found ← item sql ps i p.token
        return found.1 :: (← onward i (fun j _ => items sql ps j) found.2 ())
      else items sql ps (i + 1) := by
  obtain ⟨p, hp, his⟩ := h.index (ε := Fault) hi
  refine ⟨p, his, ?_⟩
  rw [items, whileBelow_below (h.length_eq ▸ lt_of_drop hi), hp, pure_bind, his.isSymbol, his.kind,
    onward_eq (Nat.lt_add_one i)]
  rfl

/-- **The items of a definition.** -/
theorem items_completes (h : Lies sql ps ts) (hi : ts.drop i = rest) :
    Completes Eq (items sql ps i) (readItems rest) := by
  fun_induction readItems rest generalizing i with
  | case1 =>
    rw [items_nil h hi]
    exact .pure rfl
  | case2 t rest hopen hread =>
    obtain ⟨p, his, hitems⟩ := items_cons h hi
    rw [hitems, if_pos hopen, skipGroup_eq h.stand (by rw [hi]; exact hopen), hi, hread]
    exact .throw _
  | case3 t rest hopen g rest' hread ih =>
    obtain ⟨p, his, hitems⟩ := items_cons h hi
    rw [hitems, if_pos hopen, skipGroup_eq h.stand (by rw [hi]; exact hopen), hi, hread]
    dsimp only
    rw [pure_bind, onward_eq (by rw [length_tokens]; omega)]
    exact ih (drop_add g.tokens (by rw [hi, readGroup_eq hread]))
  | case4 t rest hopen hword e hread =>
    obtain ⟨p, his, hitems⟩ := items_cons h hi
    have hitem := item_completes h hi his
    rw [hread] at hitem
    rw [hitems, if_neg hopen, if_pos hword, hitem.of_error]
    exact .throw e
  | case5 t rest hopen hword item rest' hread ih =>
    obtain ⟨p, his, hitems⟩ := items_cons h hi
    have hitem := item_completes h hi his
    rw [hread] at hitem
    obtain ⟨⟨_, j⟩, hfound, rfl, hj⟩ := hitem.of_ok
    -- less is left, so the index is greater
    have hlater : i < j := by
      have hlength : (ts.drop j).length ≤ (ts.drop (i + 1)).length := by
        rw [hj, drop_succ hi]
        exact readItem_length_le hread
      have hlt := lt_of_drop hi
      simp only [List.length_drop] at hlength
      omega
    rw [hitems, if_neg hopen, if_pos hword, hfound, pure_bind, onward_eq hlater]
    exact (ih hj).map fun heq => by rw [heq]
  | case6 t rest hopen hword ih =>
    obtain ⟨p, his, hitems⟩ := items_cons h hi
    rw [hitems, if_neg hopen, if_neg hword]
    exact ih (drop_succ hi)

/-- **A column definition** that is not empty. -/
theorem column_completes (h : Lies sql ps (t :: rest)) :
    Completes Eq (column sql ps) (Column.ofTokens (t :: rest)) := by
  obtain ⟨p, hp, his⟩ := h.index (ε := Fault) (i := 0) rfl
  rw [column, Column.ofTokens, hp, pure_bind, his.isName, his.text]
  split
  · simp only [h.name List.mem_cons_self his, pure_bind]
    exact (items_completes h (i := 1) rfl).map fun heq => by rw [heq]
  · exact .throw _

end PgGateway.Sql.InPlace
