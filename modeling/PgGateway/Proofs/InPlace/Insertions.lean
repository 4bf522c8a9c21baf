import PgGateway.Proofs.InPlace.Tables

/-!
# Insertions in place

The columns, the rows and the items that an insertion returns come to the same in place as on the
tokens (`InPlace.insertion_completes`). A row is looked for inside the run or right behind it, and
its group is not empty, so the next row is looked for at a greater index; what follows `RETURNING`
is a slice of the run because the keyword is.
-/

namespace PgGateway.Sql.InPlace

variable {ε : Type} {sql : Text} {ps : List Placed} {ts rest : List Token} {i : Nat}

/-! ## Columns -/

/-- The name of an entry. -/
theorem columnName_completes (h : Lies sql ps ts) :
    Completes Eq (columnName ps) (Sql.columnName ts) := by
  cases h.stand with
  | nil => exact .throw _
  | cons his hrest =>
    cases hrest with
    | nil =>
      rw [columnName, Sql.columnName, his.isName, h.name List.mem_cons_self his]
      split
      · exact .pure rfl
      · exact .throw _
    | cons => exact .throw _

/-- **Lists of columns.** -/
theorem columnList_completes (h : Lies sql ps ts) (i : Nat) :
    Completes (Resumes ts) (columnList ps i) (readColumnList (ts.drop i)) := by
  rw [columnList, readColumnList, h.isSymbolAt]
  split
  · next hopen =>
    cases hread : readGroup (ts.drop i) with
    | none =>
      rw [group_eq_throw h hopen hread]
      exact .throw _
    | some r =>
      obtain ⟨qs, hgroup, hqs, hafter, -⟩ := group_eq h hopen hread
      obtain ⟨pss, hruns, hpss⟩ := runs_eq (ε := Fault) hqs
      rw [hgroup, pure_bind]
      dsimp only
      rw [hruns, pure_bind]
      refine (Completes.mapM hpss columnName_completes).bind ?_
      intro names names' hnames
      exact .pure ⟨eq_of_forall₂ hnames, hafter⟩
  · exact .pure ⟨rfl, rfl⟩

/-! ## Rows -/

/-- The next row, inside the run or right behind it. -/
theorem rows_cons (h : Lies sql ps ts) (hi : i ≤ ts.length) : rows sql ps i =
    if Token.opensWith '(' (ts.drop i) then do
      let inside ← group ps i
      let row ← span sql inside.1
      if isSymbolAt ps inside.2 ',' then do
        let later ← onward i (fun j _ => rows sql ps j) (inside.2 + 1) ()
        return (row :: later.1, later.2)
      else return ([row], inside.2)
    else throw .missingRow := by
  have hlt : i < ps.length + 1 := Nat.lt_add_one_of_le (h.length_eq ▸ hi)
  rw [rows, whileBelow_below hlt, h.isSymbolAt]
  rfl

/-- **Rows of values.** -/
theorem rows_completes (h : Lies sql ps ts) (hle : i ≤ ts.length) (hi : ts.drop i = rest) :
    Completes (Resumes ts) (rows sql ps i) (readRows rest) := by
  fun_induction readRows rest generalizing i with
  | case1 rest hopen hread =>
    rw [rows_cons h hle, hi, if_pos hopen, group_eq_throw h (hi ▸ hopen) (hi ▸ hread)]
    exact .throw _
  | case2 rest hopen g after hread hcomma ih =>
    obtain ⟨qs, hgroup, hqs, hafter, -⟩ := group_eq h (hi ▸ hopen) (hi ▸ hread)
    have hnext : ts.drop (i + g.tokens.length + 1) = after.tail := by rw [← hafter, List.tail_drop]
    have hbound : i + g.tokens.length < ts.length := by
      rw [← Nat.not_le, ← List.drop_eq_nil_iff, hafter]
      rintro rfl
      cases hcomma
    rw [rows_cons h hle, hi, if_pos hopen, hgroup, pure_bind, hqs.span, pure_bind, h.isSymbolAt,
      hafter, if_pos hcomma, onward_eq (by rw [length_tokens]; omega)]
    refine (ih hbound hnext).map ?_
    rintro q r ⟨hq, hr⟩
    exact ⟨by rw [hq], hr⟩
  | case3 rest hopen g after hread hcomma =>
    obtain ⟨qs, hgroup, hqs, hafter, -⟩ := group_eq h (hi ▸ hopen) (hi ▸ hread)
    rw [rows_cons h hle, hi, if_pos hopen, hgroup, pure_bind, hqs.span, pure_bind, h.isSymbolAt,
      hafter, if_neg hcomma]
    exact .pure ⟨rfl, hafter⟩
  | case4 rest hopen =>
    rw [rows_cons h hle, hi, if_neg hopen]
    exact .throw _

theorem values_completes (h : Lies sql ps ts) (i : Nat) :
    Completes (Resumes ts) (values sql ps i) (readValues (ts.drop i)) := by
  rw [values, readValues]
  simp only [h.isKeywordAt, List.tail_drop, List.drop_drop]
  split
  · exact .pure ⟨rfl, rfl⟩
  split
  · next hvalues =>
    have hlt : i < ts.length := by
      rw [← Nat.not_le, ← List.drop_eq_nil_iff]
      intro hnil
      rw [hnil] at hvalues
      cases hvalues
    exact rows_completes h hlt rfl
  · exact .throw _

/-! ## What an insertion returns -/

theorem mapM_span {pss : List (List Placed)} {tss : List (List Token)}
    (h : List.Forall₂ (Lies sql) pss tss) :
    (pss.mapM (span sql) : InPlace ε (List Text)) = pure (tss.map Token.verbatim) := by
  induction h with
  | nil => rfl
  | cons hhead _ ih =>
    rw [List.mapM_cons, hhead.span, pure_bind, ih, pure_bind]
    rfl

/-- **What is returned.** Items that are empty are left out in both. -/
theorem returning_completes (h : Lies sql ps ts) (i : Nat) :
    Completes Eq (returning sql ps i) (readReturning (ts.drop i)) := by
  obtain ⟨found, hfind, hrel⟩ := findFrom_eq (ε := Fault) (i := i) "RETURNING" 0 h rfl
  rw [returning, findKeyword, hfind, pure_bind, readReturning, afterKeyword]
  generalize afterKeywordFrom "RETURNING" 0 (ts.drop i) = read at hrel
  cases hrel with
  | none => exact .pure rfl
  | @some j after hfound =>
    obtain ⟨hlt, hafter⟩ := hfound
    obtain ⟨qs, hslice, hqs⟩ := h.slice_length (ε := Fault) hlt hafter
    obtain ⟨pss, hruns, hpss⟩ := runs_eq (ε := Fault) hqs
    have hkept : List.Forall₂ (Lies sql) (pss.filter (!·.isEmpty))
        ((parts after).filter (!·.isEmpty)) :=
      List.rel_filter (fun _ _ hrun => by simp only [hrun.isEmpty_eq]) hpss
    dsimp only
    rw [hslice, pure_bind, hruns, pure_bind, mapM_span hkept, pure_bind, List.isEmpty_map]
    split
    · exact .throw _
    · exact .pure rfl

/-! ## Insertions -/

/-- **Insertions.** -/
theorem insertion_completes (h : Lies sql ps ts) :
    Completes Eq (insertion sql ps) (Insert.ofTokens (ts.drop 1)) := by
  obtain ⟨found, htable, hrel⟩ := tableName_eq (ε := Fault) h 2
  rw [insertion, Insert.ofTokens, h.isKeywordAt, List.tail_drop]
  split
  · rw [htable, pure_bind]
    generalize readTableName (ts.drop (1 + 1)) = read at hrel
    cases hrel with
    | none => exact .throw _
    | @some q r hq =>
      obtain ⟨table, j⟩ := q
      obtain ⟨_, after⟩ := r
      obtain ⟨rfl, rfl⟩ := hq
      have halias : ts.drop (if isKeywordAt ps j "AS" then j + 2 else j) =
          if Token.startsWith "AS" (ts.drop j) then (ts.drop j).drop 2 else ts.drop j := by
        rw [h.isKeywordAt, List.drop_drop]
        split <;> rfl
      dsimp only
      rw [← halias]
      refine (columnList_completes h _).bind ?_
      rintro ⟨columns, k⟩ ⟨_, _⟩ ⟨rfl, rfl⟩
      refine (values_completes h k).bind ?_
      rintro ⟨rows, l⟩ ⟨_, _⟩ ⟨rfl, rfl⟩
      refine (returning_completes h l).bind ?_
      rintro returning _ rfl
      exact .pure rfl
  · exact .throw _

end PgGateway.Sql.InPlace
