import PgGateway.Proofs.Sql.Matching

/-!
# Statements up to letter case

Matched tokens are recognised alike: as statements of one kind and shape, whose names and clauses
are those of matched tokens and whose flags and types are the same (`Statement.ofTokens_alike`), or
with one fault. There is one lemma for each step of the recognition, from clauses up to statements.
-/

namespace PgGateway

open Sql
open List (Forall₂)

variable {R : Token → Token → Prop} {ts us rest rest' : List Token} {t u : Token} {n m : Text}

/-! ## Faults -/

namespace Sql

/-- What a fault tells of its statement: a place in it or a text of it. -/
def Fault.detail? : Fault → Option Text
  | unclosedQuote byte => some (Numeral.ofNat byte)
  | notAColumnName found => some found
  | incompleteClause keyword => some keyword
  | unknownKeyColumn name => some name
  | _ => none

/-- The faults are the same, and tell at most texts of matched tokens. -/
inductive Fault.Alike (R : Token → Token → Prop) : Fault → Fault → Prop
  | same {e : Fault} (h : e.detail? = none) : Fault.Alike R e e
  | notAColumnName {t u : Token} (h : R t u) :
    Fault.Alike R (.notAColumnName t.text) (.notAColumnName u.text)
  | incompleteClause {t u : Token} (h : R t u) :
    Fault.Alike R (.incompleteClause (Text.upper t.text)) (.incompleteClause (Text.upper u.text))
  | unknownKeyColumn {n m : Text} (h : NameAlike R n m) :
    Fault.Alike R (.unknownKeyColumn n) (.unknownKeyColumn m)

/-! ## Clauses -/

theorem ofToken?_eq (h : t.Alike u) : ColumnKeyword.ofToken? t = ColumnKeyword.ofToken? u := by
  unfold ColumnKeyword.ofToken?
  congr 1
  funext k
  exact h.isKeyword k.text

theorem readClauseFrom_cons (ends : Bool) (t : Token) (rest : List Token) :
    readClauseFrom ends (t :: rest) =
      if ends && (ColumnKeyword.ofToken? t).isSome then .ok ([], t :: rest)
      else if t.isSymbol '(' then
        match readGroup (t :: rest) with
        | none => .error .unbalanced
        | some r => (readClauseFrom true r.2).map fun s => (r.1.tokens ++ s.1, s.2)
      else (readClauseFrom (!t.isKeyword "SET") rest).map fun r => (t :: r.1, r.2) := by
  rw [readClauseFrom]
  repeat' split
  all_goals simp_all

theorem readClauseFrom_alike (hR : Token.Matching R) (h : Forall₂ R ts us) (ends : Bool) :
    Agree (Fault.Alike R) (fun r s => Forall₂ R r.1 s.1 ∧ Forall₂ R r.2 s.2)
      (readClauseFrom ends ts) (readClauseFrom ends us) := by
  fun_induction readClauseFrom ends ts generalizing us with
  | case1 ends =>
    cases h
    rw [readClauseFrom]
    exact .ok ⟨.nil, .nil⟩
  | case2 ends t rest hends =>
    cases h with
    | cons htu hrest =>
      rw [readClauseFrom_cons, ← ofToken?_eq (hR htu), if_pos hends]
      exact .ok ⟨.nil, .cons htu hrest⟩
  | case3 ends t rest hends hopen hgroup =>
    have hgroups := readGroup_alike hR h
    cases h with
    | cons htu hrest =>
      rw [readClauseFrom_cons, ← ofToken?_eq (hR htu), if_neg hends,
        ← (hR htu).isSymbol, if_pos hopen]
      rw [hgroup] at hgroups
      generalize readGroup _ = r at hgroups ⊢
      cases hgroups
      exact .error (.same rfl)
  | case4 ends t rest hends hopen g after hgroup ih =>
    have hgroups := readGroup_alike hR h
    cases h with
    | cons htu hrest =>
      rw [readClauseFrom_cons, ← ofToken?_eq (hR htu), if_neg hends,
        ← (hR htu).isSymbol, if_pos hopen]
      rw [hgroup] at hgroups
      generalize readGroup _ = r at hgroups ⊢
      cases hgroups with
      | some hsome =>
        obtain ⟨hg, hafter⟩ := hsome
        exact (ih hafter).map fun h => ⟨forall₂_append hg.tokens h.1, h.2⟩
  | case5 ends t rest hends hopen ih =>
    cases h with
    | cons htu hrest =>
      rw [readClauseFrom_cons, ← ofToken?_eq (hR htu), if_neg hends,
        ← (hR htu).isSymbol, if_neg hopen, ← (hR htu).isKeyword]
      exact (ih hrest).map fun h => ⟨.cons htu h.1, h.2⟩

/-! ## Items of columns -/

/-- The items are the same, but for matched clauses. -/
inductive ColumnItem.Alike (R : Token → Token → Prop) : ColumnItem → ColumnItem → Prop
  | same {i : ColumnItem} (hdefault : i.default? = none) (hforwarded : i.forwarded? = none) :
    ColumnItem.Alike R i i
  | default {x y : Text} (h : ClauseAlike R x y) : ColumnItem.Alike R (.default x) (.default y)
  | forwarded {x y : Text} (h : ClauseAlike R x y) :
    ColumnItem.Alike R (.forwarded x) (.forwarded y)

theorem readItem_alike (hR : Token.Matching R) (htu : R t u) (h : Forall₂ R ts us) :
    Agree (Fault.Alike R) (fun r s => r.1.Alike R s.1 ∧ Forall₂ R r.2 s.2)
      (readItem t ts) (readItem u us) := by
  have hclause : Agree (Fault.Alike R) _ (readClause ts) (readClause us) :=
    readClauseFrom_alike hR h false
  unfold readItem
  rw [← ofToken?_eq (hR htu), startsWith_eq hR h, startsWith_eq hR h]
  generalize readClause ts = clause, readClause us = clause' at hclause
  cases ColumnKeyword.ofToken? t with
  | none =>
    dsimp only
    rw [(hR htu).upper]
    exact .ok ⟨.same rfl rfl, h⟩
  | some keyword =>
    cases keyword with
    | not | primary =>
      dsimp only
      split
      · exact .ok ⟨.same rfl rfl, forall₂_tail h⟩
      · exact .error (.same rfl)
    | null | unique => exact .ok ⟨.same rfl rfl, h⟩
    | default =>
      cases hclause with
      | error he => exact .error he
      | ok hread =>
        obtain ⟨hclause, hafter⟩ := hread
        dsimp only
        rw [isEmpty_eq hclause]
        split
        · exact .error (.same rfl)
        · exact .ok ⟨.default ⟨_, _, hclause, rfl, rfl⟩, hafter⟩
    | check | references =>
      cases hclause with
      | error he => exact .error he
      | ok hread =>
        obtain ⟨hclause, hafter⟩ := hread
        dsimp only
        rw [isEmpty_eq hclause]
        split
        · exact .error (.incompleteClause htu)
        · exact .ok ⟨.forwarded ⟨_, _, .cons htu hclause, rfl, rfl⟩, hafter⟩
    | generated =>
      cases hclause with
      | error he => exact .error he
      | ok hread =>
        obtain ⟨hclause, hafter⟩ := hread
        dsimp only
        rw [any_isKeyword_eq hR hclause]
        split
        · exact .ok ⟨.same rfl rfl, hafter⟩
        · exact .ok ⟨.forwarded ⟨_, _, .cons htu hclause, rfl, rfl⟩, hafter⟩
    | constraint | collate => exact .ok ⟨.same rfl rfl, forall₂_tail h⟩

theorem readItems_cons (t : Token) (rest : List Token) :
    readItems (t :: rest) =
      if t.isSymbol '(' then
        match readGroup (t :: rest) with
        | none => .error .unbalanced
        | some r => readItems r.2
      else if t.kind = .word then
        match readItem t rest with
        | .error e => .error e
        | .ok r => (readItems r.2).map (r.1 :: ·)
      else readItems rest := by
  rw [readItems]
  repeat' split
  all_goals simp_all

theorem readItems_alike (hR : Token.Matching R) (h : Forall₂ R ts us) :
    Agree (Fault.Alike R) (Forall₂ (ColumnItem.Alike R)) (readItems ts) (readItems us) := by
  fun_induction readItems ts generalizing us with
  | case1 =>
    cases h
    rw [readItems]
    exact .ok .nil
  | case2 t rest hopen hgroup =>
    have hgroups := readGroup_alike hR h
    cases h with
    | cons htu hrest =>
      rw [readItems_cons, ← (hR htu).isSymbol, if_pos hopen]
      rw [hgroup] at hgroups
      generalize readGroup _ = r at hgroups ⊢
      cases hgroups
      exact .error (.same rfl)
  | case3 t rest hopen g after hgroup ih =>
    have hgroups := readGroup_alike hR h
    cases h with
    | cons htu hrest =>
      rw [readItems_cons, ← (hR htu).isSymbol, if_pos hopen]
      rw [hgroup] at hgroups
      generalize readGroup _ = r at hgroups ⊢
      cases hgroups with
      | some hsome => exact ih hsome.2
  | case4 t rest hopen hword e hitem =>
    cases h with
    | cons htu hrest =>
      have hitems := readItem_alike hR htu hrest
      rw [readItems_cons, ← (hR htu).isSymbol, if_neg hopen, ← (hR htu).kind,
        if_pos hword]
      rw [hitem] at hitems
      generalize readItem _ _ = r at hitems ⊢
      cases hitems with
      | error he => exact .error he
  | case5 t rest hopen hword item after hitem ih =>
    cases h with
    | cons htu hrest =>
      have hitems := readItem_alike hR htu hrest
      rw [readItems_cons, ← (hR htu).isSymbol, if_neg hopen, ← (hR htu).kind,
        if_pos hword]
      rw [hitem] at hitems
      generalize readItem _ _ = r at hitems ⊢
      cases hitems with
      | ok hok => exact (ih hok.2).map (.cons hok.1)
  | case6 t rest hopen hword ih =>
    cases h with
    | cons htu hrest =>
      rw [readItems_cons, ← (hR htu).isSymbol, if_neg hopen, ← (hR htu).kind,
        if_neg hword]
      exact ih hrest

/-! ## What items say together -/

theorem filterMap_eq_of_alike {α : Type} {f : ColumnItem → Option α} {is js : List ColumnItem}
    (hf : ∀ {i j : ColumnItem}, i.Alike R j → f i = f j) (h : Forall₂ (ColumnItem.Alike R) is js) :
    is.filterMap f = js.filterMap f := by
  induction h with
  | nil => rfl
  | cons hij _ ih => rw [List.filterMap_cons, List.filterMap_cons, hf hij, ih]

theorem typeWords_eq {is js : List ColumnItem} (h : Forall₂ (ColumnItem.Alike R) is js) :
    is.filterMap (·.typeWord?) = js.filterMap (·.typeWord?) :=
  filterMap_eq_of_alike (fun hij => by cases hij <;> rfl) h

/-- An item without a clause is said in both columns or in none. -/
theorem contains_eq {x : ColumnItem} (hdefault : x.default? = none)
    (hforwarded : x.forwarded? = none) {is js : List ColumnItem}
    (h : Forall₂ (ColumnItem.Alike R) is js) : is.contains x = js.contains x := by
  have hitem : ∀ {i j : ColumnItem}, i.Alike R j → (x == i) = (x == j) := by
    intro i j hij
    cases hij with
    | same => rfl
    | default => cases x <;> first | rfl | cases hdefault
    | forwarded => cases x <;> first | rfl | cases hforwarded
  induction h with
  | nil => rfl
  | cons hij _ ih => rw [List.contains_cons, List.contains_cons, hitem hij, ih]

theorem rel_getLast? {α β : Type} {A : α → β → Prop} {as : List α} {bs : List β}
    (h : Forall₂ A as bs) : Option.Rel A as.getLast? bs.getLast? := by
  have hreverse : Forall₂ A as.reverse bs.reverse := List.rel_reverse h
  rw [← List.head?_reverse, ← List.head?_reverse]
  generalize as.reverse = xs, bs.reverse = ys at hreverse ⊢
  cases hreverse with
  | nil => exact .none
  | cons hab _ => exact .some hab

end Sql

/-! ## Columns -/

/-- The columns are the same, but for matched names and clauses. -/
structure Column.Alike (R : Token → Token → Prop) (c d : Column) : Prop where
  name : NameAlike R c.name d.name
  type : c.type = d.type
  primaryKey : c.primaryKey = d.primaryKey
  autoIncrement : c.autoIncrement = d.autoIncrement
  nullability : c.nullability = d.nullability
  unique : c.unique = d.unique
  defaultText : Option.Rel (ClauseAlike R) c.defaultText d.defaultText
  constraints : Forall₂ (ClauseAlike R) c.constraints d.constraints

namespace Column

theorem ofItems_alike (hname : NameAlike R n m) {is js : List ColumnItem}
    (h : Forall₂ (ColumnItem.Alike R) is js) : (ofItems n is).Alike R (ofItems m js) := by
  refine ⟨hname, ?_, contains_eq rfl rfl h, ?_, ?_, contains_eq rfl rfl h, ?_, ?_⟩
  · exact congrArg ColumnType.ofWords (typeWords_eq h)
  · dsimp only [ofItems]
    rw [contains_eq rfl rfl h, typeWords_eq h]
  · dsimp only [ofItems]
    rw [contains_eq rfl rfl h, contains_eq rfl rfl h]
  · refine rel_getLast? (List.rel_filterMap ?_ h)
    intro i j hij
    dsimp only
    cases hij with
    | same hdefault => rw [hdefault]; exact .none
    | default h => exact .some h
    | forwarded => exact .none
  · refine List.rel_filterMap ?_ h
    intro i j hij
    dsimp only
    cases hij with
    | same _ hforwarded => rw [hforwarded]; exact .none
    | default => exact .none
    | forwarded h => exact .some h

theorem ofTokens_alike (hR : Token.Matching R) (h : Forall₂ R ts us) :
    Agree (Fault.Alike R) (Column.Alike R) (ofTokens ts) (ofTokens us) := by
  cases h with
  | nil => exact .error (.same rfl)
  | cons htu hrest =>
    rw [ofTokens, ofTokens, ← (hR htu).isName]
    split
    · next hname =>
      exact (readItems_alike hR hrest).map (ofItems_alike ⟨_, _, htu, hname, rfl, rfl⟩)
    · exact .error (.notAColumnName htu)

theorem Alike.nullable {c d : Column} (h : c.Alike R d) : c.nullable = d.nullable := by
  rw [Column.nullable, Column.nullable, h.nullability, h.primaryKey]

end Column

/-! ## Tables -/

namespace Sql

/-- The parts of a block are of one kind and matched. -/
inductive TableItem.Alike (R : Token → Token → Prop) : TableItem → TableItem → Prop
  | column {c d : Column} (h : c.Alike R d) : TableItem.Alike R (.column c) (.column d)
  | primaryKey {ns ms : List Text} (h : Forall₂ (NameAlike R) ns ms) :
    TableItem.Alike R (.primaryKey ns) (.primaryKey ms)
  | constraint {x y : Text} (h : ClauseAlike R x y) :
    TableItem.Alike R (.constraint x) (.constraint y)

theorem isTableConstraint_eq (hR : Token.Matching R) (h : Forall₂ R ts us) :
    isTableConstraint ts = isTableConstraint us := by
  have htail := forall₂_tail h
  simp only [isTableConstraint, startsWith_eq hR h, startsWith_eq hR htail]

theorem keyName_alike (hR : Token.Matching R) (h : Forall₂ R ts us) :
    Agree (Fault.Alike R) (NameAlike R) (keyName ts) (keyName us) := by
  cases h with
  | nil => exact .error (.same rfl)
  | cons htu _ =>
    rw [keyName, keyName, ← (hR htu).isName]
    split
    · next hname => exact .ok ⟨_, _, htu, hname, rfl, rfl⟩
    · exact .error (.same rfl)

theorem readTableConstraint_alike (hR : Token.Matching R) (h : Forall₂ R ts us) :
    Agree (Fault.Alike R) (TableItem.Alike R)
      (readTableConstraint ts) (readTableConstraint us) := by
  have hbody : Forall₂ R (if Token.startsWith "CONSTRAINT" ts then ts.drop 2 else ts)
      (if Token.startsWith "CONSTRAINT" us then us.drop 2 else us) := by
    rw [startsWith_eq hR h]
    split
    · exact List.forall₂_drop 2 h
    · exact h
  unfold readTableConstraint
  generalize (if Token.startsWith "CONSTRAINT" ts then ts.drop 2 else ts) = body,
    (if Token.startsWith "CONSTRAINT" us then us.drop 2 else us) = body' at hbody
  have hlist := List.forall₂_drop 2 hbody
  have hgroup := readGroup_alike hR hlist
  dsimp only
  rw [startsWith_eq hR hbody, startsWith_eq hR (forall₂_tail hbody), opensWith_eq hR hlist]
  split
  · split
    · generalize readGroup (body.drop 2) = g, readGroup (body'.drop 2) = g' at hgroup ⊢
      cases hgroup with
      | none => exact .error (.same rfl)
      | some hsome =>
        exact (Agree.mapM (parts_alike hR hsome.1.inside) (keyName_alike hR)).map .primaryKey
    · exact .error (.same rfl)
  · exact .ok (.constraint ⟨_, _, h, rfl, rfl⟩)

theorem readTableItem_alike (hR : Token.Matching R) (h : Forall₂ R ts us) :
    Agree (Fault.Alike R) (TableItem.Alike R) (readTableItem ts) (readTableItem us) := by
  rw [readTableItem, readTableItem, isTableConstraint_eq hR h]
  split
  · exact readTableConstraint_alike hR h
  · exact (Column.ofTokens_alike hR h).map .column

theorem markKey_alike (hR : Token.Matching R) (hname : NameAlike R n m) {cs ds : List Column}
    (h : Forall₂ (Column.Alike R) cs ds) :
    Agree (Fault.Alike R) (Forall₂ (Column.Alike R)) (markKey n cs) (markKey m ds) := by
  induction h with
  | nil => exact .error (.unknownKeyColumn hname)
  | @cons c d cs ds hcd hrest ih =>
    have hsame : Text.SameWord c.name n ↔ Text.SameWord d.name m := by
      have hcolumn : Text.lower c.name = Text.lower d.name := hcd.name.sameWord hR
      have hkey : Text.lower n = Text.lower m := hname.sameWord hR
      unfold Text.SameWord
      rw [hcolumn, hkey]
    rw [markKey, markKey, if_congr hsame rfl rfl]
    split
    · exact .ok (.cons { hcd with primaryKey := rfl } hrest)
    · exact ih.map (.cons hcd)

end Sql

/-- The definitions are the same, but for matched names and clauses. -/
structure CreateTable.Alike (R : Token → Token → Prop) (c d : CreateTable) : Prop where
  table : NameAlike R c.table d.table
  ifNotExists : c.ifNotExists = d.ifNotExists
  columns : Forall₂ (Column.Alike R) c.columns d.columns
  constraints : Forall₂ (ClauseAlike R) c.constraints d.constraints

namespace CreateTable

theorem ofItems_alike (hR : Token.Matching R) (hname : NameAlike R n m) (guarded : Bool)
    {is js : List TableItem} (h : Forall₂ (TableItem.Alike R) is js) :
    Agree (Fault.Alike R) (CreateTable.Alike R) (ofItems n guarded is) (ofItems m guarded js) := by
  have hkeys : Forall₂ (NameAlike R) (is.flatMap (·.keyNames)) (js.flatMap (·.keyNames)) := by
    refine List.rel_flatMap h ?_
    intro i j hij
    cases hij with
    | primaryKey h => exact h
    | column | constraint => exact .nil
  have hcolumns : Forall₂ (Column.Alike R) (is.filterMap (·.column?))
      (js.filterMap (·.column?)) := by
    refine List.rel_filterMap ?_ h
    intro i j hij
    cases hij with
    | column h => exact .some h
    | primaryKey | constraint => exact .none
  have hconstraints : Forall₂ (ClauseAlike R) (is.filterMap (·.constraint?))
      (js.filterMap (·.constraint?)) := by
    refine List.rel_filterMap ?_ h
    intro i j hij
    cases hij with
    | constraint h => exact .some h
    | column | primaryKey => exact .none
  exact (Agree.foldlM hkeys (fun hcs hname => markKey_alike hR hname hcs) hcolumns).bind
    fun hmarked => .ok ⟨hname, rfl, hmarked, hconstraints⟩

theorem ofTokens_alike (hR : Token.Matching R) (h : Forall₂ R ts us) :
    Agree (Fault.Alike R) (CreateTable.Alike R) (ofTokens ts) (ofTokens us) := by
  obtain ⟨hguard, hrest⟩ := readGuard_alike hR h
  unfold ofTokens
  generalize readGuard ts = r, readGuard us = s at hguard hrest
  obtain ⟨guarded, rest⟩ := r
  obtain ⟨guarded', rest'⟩ := s
  obtain rfl : guarded = guarded' := hguard
  have hname := readTableName_alike hR hrest
  cases guarded with
  | ifExists => exact .error (.same rfl)
  | unguarded | ifNotExists =>
    dsimp only at hrest ⊢
    generalize readTableName rest = r, readTableName rest' = s at hname
    cases hname with
    | none => exact .error (.same rfl)
    | @some r s hsome =>
      obtain ⟨hname, hblock⟩ := hsome
      have hgroup := readGroup_alike hR hblock
      dsimp only
      rw [opensWith_eq hR hblock]
      split
      · generalize readGroup r.2 = g, readGroup s.2 = g' at hgroup
        cases hgroup with
        | none => exact .error (.same rfl)
        | some hsome =>
          have hinside := hsome.1.inside
          dsimp only
          rw [isEmpty_eq hinside]
          split
          · exact .error (.same rfl)
          · exact (Agree.mapM (parts_alike hR hinside) (readTableItem_alike hR)).bind
              (ofItems_alike hR hname _)
      · exact .error (.same rfl)

end CreateTable

/-! ## Insertions -/

namespace Sql

theorem columnName_alike (hR : Token.Matching R) (h : Forall₂ R ts us) :
    Agree (Fault.Alike R) (NameAlike R) (columnName ts) (columnName us) := by
  cases h with
  | nil => exact .error (.same rfl)
  | cons htu hrest =>
    cases hrest with
    | nil =>
      rw [columnName, columnName, ← (hR htu).isName]
      split
      · next hname => exact .ok ⟨_, _, htu, hname, rfl, rfl⟩
      · exact .error (.same rfl)
    | cons => exact .error (.same rfl)

theorem readColumnList_alike (hR : Token.Matching R) (h : Forall₂ R ts us) :
    Agree (Fault.Alike R) (fun r s => Forall₂ (NameAlike R) r.1 s.1 ∧ Forall₂ R r.2 s.2)
      (readColumnList ts) (readColumnList us) := by
  have hgroup := readGroup_alike hR h
  unfold readColumnList
  rw [opensWith_eq hR h]
  split
  · generalize readGroup ts = g, readGroup us = g' at hgroup
    cases hgroup with
    | none => exact .error (.same rfl)
    | some hsome =>
      obtain ⟨hg, hafter⟩ := hsome
      exact (Agree.mapM (parts_alike hR hg.inside) (columnName_alike hR)).bind
        fun hnames => .ok ⟨hnames, hafter⟩
  · exact .ok ⟨.nil, h⟩

theorem readRows_eq (ts : List Token) :
    readRows ts =
      if Token.opensWith '(' ts then
        match readGroup ts with
        | none => .error .unbalanced
        | some r =>
          if Token.opensWith ',' r.2 then
            (readRows r.2.tail).map fun s => (Token.verbatim r.1.inside :: s.1, s.2)
          else .ok ([Token.verbatim r.1.inside], r.2)
      else .error .missingRow := by
  rw [readRows]
  repeat' split
  all_goals simp_all

theorem readRows_alike (hR : Token.Matching R) (h : Forall₂ R ts us) :
    Agree (Fault.Alike R) (fun r s => Forall₂ (ClauseAlike R) r.1 s.1 ∧ Forall₂ R r.2 s.2)
      (readRows ts) (readRows us) := by
  fun_induction readRows ts generalizing us with
  | case1 ts hopen hread =>
    have hgroup := readGroup_alike hR h
    rw [readRows_eq, ← opensWith_eq hR h, if_pos hopen]
    rw [hread] at hgroup
    generalize readGroup us = g at hgroup ⊢
    cases hgroup
    exact .error (.same rfl)
  | case2 ts hopen g rest hread hcomma ih =>
    have hgroup := readGroup_alike hR h
    rw [readRows_eq us, ← opensWith_eq hR h, if_pos hopen]
    rw [hread] at hgroup
    generalize readGroup us = g' at hgroup ⊢
    cases hgroup with
    | some hsome =>
      obtain ⟨hg, hafter⟩ := hsome
      dsimp only
      rw [← opensWith_eq hR hafter, if_pos hcomma]
      exact (ih (forall₂_tail hafter)).map fun ⟨hrows, hlater⟩ =>
        ⟨.cons ⟨_, _, hg.inside, rfl, rfl⟩ hrows, hlater⟩
  | case3 ts hopen g rest hread hcomma =>
    have hgroup := readGroup_alike hR h
    rw [readRows_eq, ← opensWith_eq hR h, if_pos hopen]
    rw [hread] at hgroup
    generalize readGroup us = g' at hgroup ⊢
    cases hgroup with
    | some hsome =>
      obtain ⟨hg, hafter⟩ := hsome
      dsimp only
      rw [← opensWith_eq hR hafter, if_neg hcomma]
      exact .ok ⟨.cons ⟨_, _, hg.inside, rfl, rfl⟩ .nil, hafter⟩
  | case4 ts hopen =>
    rw [readRows_eq, ← opensWith_eq hR h, if_neg hopen]
    exact .error (.same rfl)

theorem readValues_alike (hR : Token.Matching R) (h : Forall₂ R ts us) :
    Agree (Fault.Alike R) (fun r s => Forall₂ (ClauseAlike R) r.1 s.1 ∧ Forall₂ R r.2 s.2)
      (readValues ts) (readValues us) := by
  have htail := forall₂_tail h
  unfold readValues
  rw [startsWith_eq hR h, startsWith_eq hR h, startsWith_eq hR htail]
  split
  · exact .ok ⟨.nil, List.forall₂_drop 2 h⟩
  · split
    · exact readRows_alike hR htail
    · exact .error (.same rfl)

theorem readReturning_alike (hR : Token.Matching R) (h : Forall₂ R ts us) :
    Agree (Fault.Alike R) (Option.Rel (Forall₂ (ClauseAlike R)))
      (readReturning ts) (readReturning us) := by
  have hafter := afterKeyword_alike (k := "RETURNING") hR h
  unfold readReturning
  generalize afterKeyword "RETURNING" ts = rest, afterKeyword "RETURNING" us = rest' at hafter
  cases hafter with
  | none => exact .ok .none
  | @some rest rest' hrest =>
    have hitems : Forall₂ (Forall₂ R) ((parts rest).filter (!·.isEmpty))
        ((parts rest').filter (!·.isEmpty)) := by
      refine List.rel_filter ?_ (parts_alike hR hrest)
      intro as bs hparts
      dsimp only
      rw [isEmpty_eq hparts]
    dsimp only
    rw [isEmpty_eq hitems]
    split
    · exact .error (.same rfl)
    · exact .ok (.some (List.rel_map (fun _ _ hparts => ⟨_, _, hparts, rfl, rfl⟩) hitems))

end Sql

/-- The insertions are the same, but for matched names and clauses. -/
structure Insert.Alike (R : Token → Token → Prop) (i j : Insert) : Prop where
  table : NameAlike R i.table j.table
  columns : Forall₂ (NameAlike R) i.columns j.columns
  rows : Forall₂ (ClauseAlike R) i.rows j.rows
  returning : Option.Rel (Forall₂ (ClauseAlike R)) i.returning j.returning

theorem Insert.ofTokens_alike (hR : Token.Matching R) (h : Forall₂ R ts us) :
    Agree (Fault.Alike R) (Insert.Alike R) (ofTokens ts) (ofTokens us) := by
  have hname := readTableName_alike hR (forall₂_tail h)
  unfold ofTokens
  rw [startsWith_eq hR h]
  split
  · generalize readTableName ts.tail = r, readTableName us.tail = s at hname
    cases hname with
    | none => exact .error (.same rfl)
    | @some r s hsome =>
      obtain ⟨hname, hrest⟩ := hsome
      have hlist : Forall₂ R (if Token.startsWith "AS" r.2 then r.2.drop 2 else r.2)
          (if Token.startsWith "AS" s.2 then s.2.drop 2 else s.2) := by
        rw [startsWith_eq hR hrest]
        split
        · exact List.forall₂_drop 2 hrest
        · exact hrest
      exact (readColumnList_alike hR hlist).bind fun ⟨hcolumns, hrest⟩ =>
        (readValues_alike hR hrest).bind fun ⟨hrows, hrest⟩ =>
          (readReturning_alike hR hrest).bind fun hreturning =>
            .ok ⟨hname, hcolumns, hrows, hreturning⟩
  · exact .error (.same rfl)

/-! ## Statements -/

/-- The statements are of one kind, and the same but for matched names and clauses. -/
inductive Statement.Alike (R : Token → Token → Prop) : Statement → Statement → Prop
  | createTable {c d : CreateTable} (h : c.Alike R d) :
    Statement.Alike R (.createTable c) (.createTable d)
  | select {n? m? : Option Text} (h : Option.Rel (NameAlike R) n? m?) :
    Statement.Alike R (.select n?) (.select m?)
  | insert {i j : Insert} (h : i.Alike R j) : Statement.Alike R (.insert i) (.insert j)
  | update {n? m? : Option Text} (h : Option.Rel (NameAlike R) n? m?) :
    Statement.Alike R (.update n?) (.update m?)
  | delete {n? m? : Option Text} (h : Option.Rel (NameAlike R) n? m?) :
    Statement.Alike R (.delete n?) (.delete m?)
  | drop {object : Option Text} {n? m? : Option Text} (h : Option.Rel (NameAlike R) n? m?) :
    Statement.Alike R (.drop object n?) (.drop object m?)

/-- The refusals are for the same reason, and quote matched tokens if any. -/
inductive SqlError.Alike (R : Token → Token → Prop) : SqlError → SqlError → Prop
  | empty : SqlError.Alike R (.unsupported []) (.unsupported [])
  | unsupported {t u : Token} (h : R t u) :
    SqlError.Alike R (.unsupported t.text) (.unsupported u.text)
  | malformed {shape : Shape} {e e' : Fault} (h : e.Alike R e') :
    SqlError.Alike R (.malformed shape e) (.malformed shape e')

theorem SqlError.Alike.sqlState_eq {e e' : SqlError} (h : e.Alike R e') :
    e.sqlState = e'.sqlState := by
  cases h <;> rfl

namespace Statement

theorem Alike.kind_eq {s s' : Statement} (h : s.Alike R s') : s.kind = s'.kind := by
  cases h <;> rfl

theorem Alike.returnsRows_eq {s s' : Statement} (h : s.Alike R s') :
    s.returnsRows = s'.returnsRows := by
  cases h with
  | @insert i j h =>
    have hreturning := h.returning
    rw [returnsRows, returnsRows]
    generalize i.returning = x, j.returning = y at hreturning ⊢
    cases hreturning <;> rfl
  | createTable | select | update | delete | drop => rfl

theorem tableFrom_alike (hR : Token.Matching R) (h : Forall₂ R ts us) :
    Option.Rel (NameAlike R) (tableFrom ts) (tableFrom us) :=
  rel_bind (afterKeyword_alike hR h) fun hrest => tableNamed_alike hR (skipKeyword_alike hR hrest)

theorem readDrop_alike (hR : Token.Matching R) (h : Forall₂ R ts us) :
    (readDrop ts).Alike R (readDrop us) := by
  cases h with
  | nil => exact .drop .none
  | cons htu hrest =>
    unfold readDrop
    dsimp only
    rw [(hR htu).upper]
    refine .drop ?_
    split
    · exact tableNamed_alike hR (readGuard_alike hR hrest).2
    · exact .none

/-- **Matched tokens are recognised alike**: as statements of one kind and shape, or not at all and
for the same reason. -/
theorem ofTokens_alike (hR : Token.Matching R) (h : Forall₂ R ts us) :
    Agree (SqlError.Alike R) (Statement.Alike R) (ofTokens ts) (ofTokens us) := by
  have hfrom := tableFrom_alike hR h
  cases h with
  | nil => exact .error .empty
  | cons htu hrest =>
    have hkeyword := (hR htu).isKeyword
    have htail := forall₂_tail hrest
    unfold ofTokens
    dsimp only
    simp only [hkeyword, startsWith_eq hR hrest]
    split
    · exact ((CreateTable.ofTokens_alike hR htail).map .createTable).mapError .malformed
    · split
      · exact .ok (.select hfrom)
      · split
        · exact ((Insert.ofTokens_alike hR hrest).map .insert).mapError .malformed
        · split
          · exact .ok (.update (tableNamed_alike hR (skipKeyword_alike hR hrest)))
          · split
            · exact .ok (.delete hfrom)
            · split
              · exact .ok (readDrop_alike hR hrest)
              · exact .error (.unsupported htu)

end Statement

end PgGateway
