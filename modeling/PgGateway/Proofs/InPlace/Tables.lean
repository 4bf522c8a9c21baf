import PgGateway.Proofs.InPlace.Columns

/-!
# Table definitions in place

The name of a table, the parts of the block behind it and the marking of keys come to the same in
place as on the tokens (`InPlace.definition_completes`). A part that is empty is refused before its
first token is looked up, and a column that is marked is one that was found.
-/

namespace PgGateway.Sql.InPlace

variable {ε : Type} {sql : Text} {ps : List Placed} {ts rest : List Token} {t : Token} {i : Nat}

/-! ## Names of tables -/

/-- **Names of tables**, with or without a schema. -/
theorem tableName_eq (h : Lies sql ps ts) (i : Nat) : ∃ found,
    (tableName ps i : InPlace ε (Option (Text × Nat))) = pure found ∧
      Option.Rel (Resumes ts) found (readTableName (ts.drop i)) := by
  rw [tableName]
  cases hi : ts.drop i with
  | nil =>
    rw [h.lookup_none hi]
    exact ⟨none, rfl, .none⟩
  | cons t rest =>
    obtain ⟨p, hp, his⟩ := h.lookup hi
    have hplain : (name p : InPlace ε Text) = pure t.name :=
      h.name (List.mem_of_mem_drop (hi ▸ List.mem_cons_self)) his
    have hnext := drop_succ hi
    have hsecond : ps[i + 2]?.any (fun q => q.token.isName) = rest.tail.head?.any (·.isName) := by
      rw [h.any_lookup fun his => his.isName, ← hnext, List.tail_drop]
    rw [hp, readTableName.eq_def]
    simp only [his.isName, h.isSymbolAt, hnext, hplain, hsecond]
    by_cases hname : t.isName = true
    · rw [if_pos hname, if_pos hname]
      match rest, hnext with
      | [], hnext => exact ⟨_, rfl, .some ⟨rfl, hnext⟩⟩
      | [dot], hnext =>
        rw [List.tail_cons, List.head?_nil, Option.any_none, Bool.and_false]
        exact ⟨_, rfl, .some ⟨rfl, hnext⟩⟩
      | dot :: u :: rest', hnext =>
        have hu : ts.drop (i + 2) = u :: rest' := drop_succ hnext
        obtain ⟨q, hq, hisu⟩ := h.index (ε := ε) hu
        have hqualified : (name q : InPlace ε Text) = pure u.name :=
          h.name (List.mem_of_mem_drop (hu ▸ List.mem_cons_self)) hisu
        dsimp only [Token.opensWith, List.tail_cons, List.head?_cons, Option.any_some]
        by_cases hschema : (dot.isSymbol '.' && u.isName) = true
        · simp only [if_pos hschema, hq, pure_bind, hqualified]
          exact ⟨_, rfl, .some ⟨rfl, drop_succ hu⟩⟩
        · simp only [if_neg hschema, pure_bind]
          exact ⟨_, rfl, .some ⟨rfl, hnext⟩⟩
    · rw [if_neg hname, if_neg hname]
      exact ⟨none, rfl, .none⟩

/-- The number of words of a guard. -/
def guardLength : ExistenceGuard → Nat
  | .unguarded => 0
  | .ifExists => 2
  | .ifNotExists => 3

theorem skipGuard_eq (h : Lies sql ps ts) (i : Nat) :
    skipGuard ps i = i + guardLength (readGuard (ts.drop i)).1 ∧
      ts.drop (skipGuard ps i) = (readGuard (ts.drop i)).2 := by
  have hone : ts.drop (i + 1) = (ts.drop i).tail := by rw [List.tail_drop]
  have htwo : ts.drop (i + 2) = (ts.drop i).drop 2 := by rw [List.drop_drop]
  have hthree : ts.drop (i + 3) = (ts.drop i).drop 3 := by rw [List.drop_drop]
  simp only [skipGuard, readGuard, h.isKeywordAt, hone, htwo]
  cases Token.startsWith "IF" (ts.drop i) with
  | false => exact ⟨rfl, rfl⟩
  | true =>
    simp only [Bool.true_and, if_true]
    split
    · exact ⟨rfl, htwo⟩
    · split
      · exact ⟨rfl, hthree⟩
      · exact ⟨rfl, rfl⟩

/-! ## Constraints -/

theorem isTableConstraint_eq (h : Lies sql ps (t :: rest)) :
    (isTableConstraint ps : InPlace ε Bool) = pure (Sql.isTableConstraint (t :: rest)) := by
  obtain ⟨p, hp, his⟩ := h.index (ε := ε) (i := 0) rfl
  rw [isTableConstraint, hp, pure_bind]
  simp only [his.isKeyword, h.isKeywordAt]
  rfl

/-- The name of an entry. -/
theorem keyName_completes (h : Lies sql ps ts) : Completes Eq (keyName ps) (Sql.keyName ts) := by
  cases ts with
  | nil =>
    obtain rfl := h.eq_nil
    exact .throw _
  | cons t rest =>
    obtain ⟨p, hp, his⟩ := h.lookup (i := 0) rfl
    rw [keyName, List.head?_eq_getElem?, hp, Sql.keyName]
    dsimp only
    rw [his.isName, h.name List.mem_cons_self his]
    split
    · exact .pure rfl
    · exact .throw _

theorem eq_of_forall₂ {α : Type} {l l' : List α} (h : List.Forall₂ Eq l l') : l = l' :=
  List.forall₂_eq_eq_eq ▸ h

/-- **Constraints of a table.** -/
theorem keyNames_completes (h : Lies sql ps (t :: rest)) :
    Completes (fun names item => item = match names with
        | some names => .primaryKey names
        | none => .constraint (Token.verbatim (t :: rest)))
      (keyNames ps) (readTableConstraint (t :: rest)) := by
  obtain ⟨p, hp, his⟩ := h.index (ε := Fault) (i := 0) rfl
  have hstart : (t :: rest).drop (if t.isKeyword "CONSTRAINT" then 2 else 0) =
      if Token.startsWith "CONSTRAINT" (t :: rest) then (t :: rest).drop 2 else t :: rest := by
    rw [Token.startsWith]
    split <;> rfl
  rw [keyNames, hp, pure_bind, his.isKeyword, readTableConstraint, ← hstart]
  generalize (if t.isKeyword "CONSTRAINT" = true then 2 else 0) = i
  simp only [h.isKeywordAt, h.isSymbolAt, List.tail_drop, List.drop_drop]
  split
  · split
    · next hopen =>
      cases hread : readGroup ((t :: rest).drop (i + 2)) with
      | none =>
        rw [group_eq_throw h hopen hread]
        exact .throw _
      | some r =>
        obtain ⟨qs, hgroup, hqs, -⟩ := group_eq h hopen hread
        obtain ⟨pss, hruns, hpss⟩ := runs_eq (ε := Fault) hqs
        rw [hgroup, pure_bind]
        dsimp only
        rw [hruns, pure_bind]
        refine (Completes.mapM hpss keyName_completes).map ?_
        intro names names' hnames
        rw [eq_of_forall₂ hnames]
    · exact .throw _
  · exact .pure rfl

/-- **Parts of a block.** -/
theorem tableItem_completes (h : Lies sql ps ts) :
    Completes Eq (tableItem sql ps) (readTableItem ts) := by
  cases ts with
  | nil =>
    obtain rfl := h.eq_nil
    exact .throw _
  | cons t rest =>
    have hsome : ps.isEmpty = false := h.isEmpty_eq
    rw [tableItem, hsome, if_neg (by simp), isTableConstraint_eq h, pure_bind, readTableItem]
    split
    · refine (keyNames_completes h).bindLeft ?_
      rintro (_ | names) item rfl
      · dsimp only
        rw [h.span, pure_bind]
        exact .pure rfl
      · exact .pure rfl
    · exact (column_completes h).map fun heq => by rw [heq]

/-! ## Keys -/

/-- The first column of a name is made part of the key where it is found. -/
theorem markKey_eq (key : Text) (columns : List Column) : Sql.markKey key columns =
    match columns.findIdx? fun c => decide (Text.SameWord c.name key) with
    | none => .error (.unknownKeyColumn key)
    | some i => .ok (columns.modify i fun c => { c with primaryKey := true }) := by
  induction columns with
  | nil => rfl
  | cons c columns ih =>
    rw [Sql.markKey, List.findIdx?_cons]
    by_cases hname : Text.SameWord c.name key
    · rw [if_pos hname, if_pos (decide_eq_true hname)]
      rfl
    · rw [if_neg hname, decide_eq_false hname, if_neg (by simp), ih]
      cases columns.findIdx? fun c => decide (Text.SameWord c.name key) with
      | none => rfl
      | some i => rfl

/-- **A column that is marked was found**, and what its definition says of NULL stands beside it. -/
theorem markKey_completes {explicit : List (Option Bool)} {columns : List Column} (key : Text)
    (hexplicit : explicit = columns.map (·.nullability)) :
    Completes (fun cs cs' => cs = cs' ∧ explicit = cs.map (·.nullability))
      (markKey explicit columns key) (Sql.markKey key columns) := by
  subst hexplicit
  rw [markKey, markKey_eq]
  cases hfound : columns.findIdx? fun c => decide (Text.SameWord c.name key) with
  | none => exact .throw _
  | some i =>
    obtain ⟨hlt, -⟩ := List.findIdx?_eq_some_iff_getElem.1 hfound
    have hcolumn : columns[i]? = some columns[i] := List.getElem?_eq_getElem hlt
    have hexplicit : (columns.map (·.nullability))[i]? = some columns[i].nullability := by
      rw [List.getElem?_map, hcolumn]
      rfl
    dsimp only
    rw [index_eq hcolumn, pure_bind, index_eq hexplicit, pure_bind]
    refine .pure ⟨?_, ?_⟩
    · rw [List.modify_eq_set_getElem?, hcolumn]
      rfl
    · have hlt' : i < (columns.map (·.nullability)).length := by rwa [List.length_map]
      have hself := List.set_getElem_self hlt'
      rw [List.getElem_map] at hself
      rw [List.map_set, hself]

/-- Keys are marked one after the other. -/
theorem markKeys_completes {explicit : List (Option Bool)} {columns : List Column}
    (keys : List Text) (hexplicit : explicit = columns.map (·.nullability)) :
    Completes Eq (keys.foldlM (markKey explicit) columns)
      (keys.foldlM (fun cs name => Sql.markKey name cs) columns) := by
  induction keys generalizing columns with
  | nil => exact .pure rfl
  | cons key keys ih =>
    rw [List.foldlM_cons, List.foldlM_cons]
    refine (markKey_completes key hexplicit).bind ?_
    rintro cs _ ⟨rfl, hmarked⟩
    exact ih hmarked

/-! ## Definitions -/

/-- **Blocks.** -/
theorem block_completes (h : Lies sql ps ts) (table : Text) (ifNotExists : Bool) :
    Completes Eq (block sql ps table ifNotExists)
      (do CreateTable.ofItems table ifNotExists (← (parts ts).mapM readTableItem)) := by
  obtain ⟨pss, hruns, hpss⟩ := runs_eq (ε := Fault) h
  rw [block, hruns, pure_bind]
  refine (Completes.mapM hpss tableItem_completes).bind ?_
  intro items items' hitems
  obtain rfl := eq_of_forall₂ hitems
  refine (markKeys_completes _ rfl).map ?_
  rintro columns _ rfl
  rfl

theorem definitionFrom_completes (h : Lies sql ps ts) (hi : ts.drop i = rest) :
    Completes Eq (definitionFrom sql ps i)
      (match readTableName rest with
        | none => .error .missingTableName
        | some (table, rest) =>
          if Token.opensWith '(' rest then
            match readGroup rest with
            | none => .error .unbalanced
            | some (g, _) =>
              if g.inside.isEmpty then .error .noColumns
              else do CreateTable.ofItems table (i == 5) (← (parts g.inside).mapM readTableItem)
          else .error .missingColumns) := by
  obtain ⟨found, htable, hrel⟩ := tableName_eq (ε := Fault) h i
  rw [hi] at hrel
  rw [definitionFrom, htable, pure_bind]
  generalize readTableName rest = read at hrel
  cases hrel with
  | none => exact .throw _
  | @some q r hq =>
    obtain ⟨table, j⟩ := q
    obtain ⟨_, after⟩ := r
    obtain ⟨rfl, rfl⟩ := hq
    dsimp only
    rw [h.isSymbolAt]
    split
    · next hopen =>
      cases hgroup : readGroup (ts.drop j) with
      | none =>
        rw [group_eq_throw h hopen hgroup]
        exact .throw _
      | some r =>
        obtain ⟨qs, hinside, hqs, -⟩ := group_eq h hopen hgroup
        rw [hinside, pure_bind]
        dsimp only
        rw [hqs.isEmpty_eq]
        split
        · exact .throw _
        · exact block_completes hqs table _
    · exact .throw _

/-- **Table definitions.** -/
theorem definition_completes (h : Lies sql ps ts) :
    Completes Eq (definition sql ps) (CreateTable.ofTokens (ts.drop 2)) := by
  obtain ⟨hlength, hrest⟩ := skipGuard_eq h 2
  have hfrom := definitionFrom_completes h hrest
  rw [definition, CreateTable.ofTokens]
  cases hguard : readGuard (ts.drop 2) with
  | mk guarded after =>
    rw [hguard] at hlength hfrom
    cases guarded with
    | unguarded =>
      rw [hlength] at hfrom ⊢
      exact hfrom
    | ifExists =>
      rw [hlength]
      exact .throw _
    | ifNotExists =>
      rw [hlength] at hfrom ⊢
      exact hfrom

end PgGateway.Sql.InPlace
