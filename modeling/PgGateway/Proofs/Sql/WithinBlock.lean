import PgGateway.Proofs.InPlace.Runs
import PgGateway.Proofs.Sql.Parentheses
import PgGateway.Proofs.Sql.TableShape

/-!
# Inside a block whose parentheses match

Once the block of a table definition is found its parentheses match, and those of each part of it
match as well. Reading a part, token after token, leaves a run that closes every parenthesis it
opens, so no later group is missing its end (`parentheses_match`). The texts that a part keeps, its
defaults and clauses, are cut out of such runs. The parentheses of these texts match too, unless a
parenthesis stands in the place of a name that is dropped: what it opened is closed later, perhaps
in a text that is kept (`clause_closes_dropped`).
-/

namespace PgGateway

namespace Sql

variable {depth i : Nat} {ends : Bool} {x : Text} {t : Token} {ts us rest p : List Token}

/-! ## Groups in place -/

section

variable {ps : List Placed} {j : Nat}
  (hopen : Token.opensWith '(' ((ps.map Placed.token).drop i) = true)
include hopen

theorem skipGroup_eq_pure_iff :
    InPlace.skipGroup ps i = pure j ↔ ClosesAt (ps.map Placed.token) i j := by
  rw [closesAt_iff hopen, InPlace.skipGroup_eq (InPlace.Stand.tokens ps) hopen]
  rcases readGroup ((ps.map Placed.token).drop i) with _ | ⟨g, rest⟩
  · exact ⟨nofun, nofun⟩
  · constructor
    · rintro ⟨⟩
      exact ⟨g, rest, rfl, rfl⟩
    · rintro ⟨_, _, ⟨⟩, rfl⟩
      rfl

theorem skipGroup_eq_throw_iff :
    InPlace.skipGroup ps i = throw .unbalanced ↔ NeverCloses (ps.map Placed.token) i := by
  rw [← readGroup_eq_none_iff hopen, InPlace.skipGroup_eq (InPlace.Stand.tokens ps) hopen]
  rcases readGroup ((ps.map Placed.token).drop i) with _ | ⟨g, rest⟩
  · exact ⟨fun _ => rfl, fun _ => rfl⟩
  · exact ⟨nofun, nofun⟩

end

/-! ## Runs that close what they open -/

/-- Every parenthesis that the tokens open is closed by them. -/
def Closing (ts : List Token) : Prop :=
  ∀ i, Token.opensWith '(' (ts.drop i) = true → ∃ j, ClosesAt ts i j

theorem Balanced.exists_readGroup (h : Balanced depth ts) (hopen : Token.opensWith '(' ts = true) :
    ∃ g rest, readGroup ts = some (g, rest) ∧ Balanced depth rest := by
  cases ts with
  | nil => cases hopen
  | cons t ts =>
    obtain ⟨g, rest, hsound, hsplit, hrest⟩ := h.exists_group hopen
    exact ⟨g, rest, by rw [hsplit, hsound.readGroup], hrest⟩

theorem Balanced.readGroup_ne_none (h : Balanced depth ts)
    (hopen : Token.opensWith '(' ts = true) : readGroup ts ≠ none := by
  obtain ⟨g, rest, hread, -⟩ := h.exists_readGroup hopen
  simp [hread]

theorem Balanced.behind_group {g : Group} (h : Balanced depth ts)
    (hopen : Token.opensWith '(' ts = true) (hread : readGroup ts = some (g, rest)) :
    Balanced depth rest := by
  obtain ⟨g', rest', hgroup, hrest⟩ := h.exists_readGroup hopen
  rw [hread] at hgroup
  cases hgroup
  exact hrest

theorem Balanced.suffix (h : Balanced depth ts) (hsuffix : us <:+ ts) : ∃ n, Balanced n us := by
  obtain ⟨front, rfl⟩ := hsuffix
  induction front generalizing depth with
  | nil => exact ⟨depth, h⟩
  | cons t front ih => exact ih h.2

theorem Balanced.closing (h : Balanced depth ts) : Closing ts := by
  intro i hopen
  obtain ⟨n, hn⟩ := h.suffix (List.drop_suffix i ts)
  obtain ⟨g, rest, hread, -⟩ := hn.exists_readGroup hopen
  exact ⟨_, closesAt_of_readGroup hread⟩

theorem balanced_cons (h : t.kind ≠ .symbol) : Balanced depth (t :: ts) ↔ Balanced depth ts := by
  have hsymbol : ∀ c, t.isSymbol c = false := fun c => by simp [Token.isSymbol, h]
  simp [Balanced, Token.depthAfter, hsymbol]

theorem balanced_word (h : t.kind = .word) : Balanced depth (t :: ts) ↔ Balanced depth ts :=
  balanced_cons (h ▸ nofun)

/-! ## Failures that are not reported -/

section

variable {α β : Type} {P : α → Prop} {Q : β → Prop} {c : Except Fault α}

/-- No parenthesis is reported as missing, and a value has the property. -/
def Unreported (P : α → Prop) : Except Fault α → Prop
  | .ok a => P a
  | .error e => e ≠ .unbalanced

theorem unreported_error {e : Fault} (h : e ≠ .unbalanced) : Unreported P (.error e) := h

theorem Unreported.ne_error (h : Unreported P c) : c ≠ .error .unbalanced := by
  rintro rfl
  exact h rfl

theorem Unreported.of_ok {a : α} (h : Unreported P c) (hc : c = .ok a) : P a := by
  subst hc
  exact h

theorem Unreported.imp {P' : α → Prop} (h : Unreported P c) (hP : ∀ a, P a → P' a) :
    Unreported P' c := by
  cases c with
  | error e => exact h
  | ok a => exact hP a h

theorem Unreported.bind {f : α → Except Fault β} (h : Unreported P c)
    (hf : ∀ a, P a → Unreported Q (f a)) : Unreported Q (c >>= f) := by
  cases c with
  | error e => exact h
  | ok a => exact hf a h

theorem Unreported.map {f : α → β} (h : Unreported P c) (hf : ∀ a, P a → Q (f a)) :
    Unreported Q (c.map f) := by
  cases c with
  | error e => exact h
  | ok a => exact hf a h

theorem unreported_mapM {f : α → Except Fault β} {l : List α} (h : ∀ a ∈ l, Unreported Q (f a)) :
    Unreported (fun bs => ∀ b ∈ bs, Q b) (l.mapM f) := by
  induction l with
  | nil => exact List.forall_mem_nil _
  | cons a l ih =>
    rw [List.mapM_cons]
    refine (h a List.mem_cons_self).bind fun b hb => ?_
    refine (ih fun a ha => h a (List.mem_cons_of_mem _ ha)).bind fun bs hbs => ?_
    exact List.forall_mem_cons.2 ⟨hb, hbs⟩

theorem unreported_foldlM {f : β → α → Except Fault β} (h : ∀ b a, Q b → Unreported Q (f b a))
    (l : List α) {b : β} (hb : Q b) : Unreported Q (l.foldlM f b) := by
  induction l generalizing b with
  | nil => exact hb
  | cons a l ih =>
    rw [List.foldlM_cons]
    exact (h b a hb).bind fun b' hb' => ih hb'

end

/-! ## Clauses -/

/-- **A clause is read from every run that closes what it opens**, and what it leaves closes what it
opens as well. -/
theorem exists_readClauseFrom (ends : Bool) (h : Balanced depth ts) :
    ∃ clause rest m n, readClauseFrom ends ts = .ok (clause, rest) ∧ Balanced m clause ∧
      Balanced n rest ∧ m + n = depth := by
  fun_induction readClauseFrom ends ts generalizing depth with
  | case1 => exact ⟨[], [], 0, depth, rfl, rfl, h, Nat.zero_add depth⟩
  | case2 ends t rest => exact ⟨[], t :: rest, 0, depth, rfl, rfl, h, Nat.zero_add depth⟩
  | case3 ends t rest _ hopen hread => exact absurd hread (h.readGroup_ne_none hopen)
  | case4 ends t rest _ hopen g rest' hread ih =>
    obtain ⟨clause, later, m, n, hclause, hm, hn, hsum⟩ := ih (h.behind_group hopen hread)
    refine ⟨g.tokens ++ clause, later, m, n, by rw [hclause]; rfl, ?_, hn, hsum⟩
    rw [← Nat.zero_add m]
    exact (readGroup_sound hread).enclosed.balanced.append hm
  | case5 ends t rest _ hopen ih =>
    obtain ⟨clause, later, m, n, hclause, hm, hn, hsum⟩ := ih h.2
    -- the token closes one of the parentheses that are open before the clause, or none
    by_cases hclose : t.isSymbol ')' = true
    · have hdepth : depth ≠ 0 := fun hzero => h.1 ⟨hclose, hzero⟩
      rw [Token.depthAfter, if_neg hopen, if_pos hclose] at hsum
      refine ⟨t :: clause, later, m + 1, n, by rw [hclause]; rfl, ⟨by simp, ?_⟩, hn, by omega⟩
      rwa [Token.depthAfter, if_neg hopen, if_pos hclose, Nat.add_sub_cancel]
    · rw [Token.depthAfter, if_neg hopen, if_neg hclose] at hsum
      refine ⟨t :: clause, later, m, n, by rw [hclause]; rfl, ⟨by simp [hclose], ?_⟩, hn, hsum⟩
      rwa [Token.depthAfter, if_neg hopen, if_neg hclose]

/-! ## Items -/

/-- The text that an item keeps. -/
def ColumnItem.kept? (item : ColumnItem) : Option Text := item.default?.or item.forwarded?

/-- Outside other parentheses one stands in the place of the name of a constraint or a collation. -/
def OpensName (ts : List Token) : Prop :=
  ∃ front word paren back, ts = front ++ word :: paren :: back ∧ Paired front ∧
    (word.isKeyword "CONSTRAINT" = true ∨ word.isKeyword "COLLATE" = true) ∧
      paren.isSymbol '(' = true

theorem OpensName.behind (h : OpensName ts) (hus : Balanced 0 us) : OpensName (us ++ ts) := by
  obtain ⟨front, word, paren, back, rfl, hfront, hword, hparen⟩ := h
  refine ⟨us ++ front, word, paren, back, (List.append_assoc ..).symm, ?_, hword, hparen⟩
  exact paired_iff.2 (hus.append (paired_iff.1 hfront))

/-- What is left behind an item closes what it opens, and so does the text that the item keeps. Both
close nothing more if nothing more is open in front of the item, unless it drops a parenthesis for a
name. -/
structure ItemCloses (depth : Nat) (t : Token) (rest : List Token) (item : ColumnItem)
    (rest' : List Token) : Prop where
  suffix : rest' <:+ rest
  behind : ∃ n, Balanced n rest' ∧ (depth = 0 → n = 0 ∨ OpensName (t :: rest))
  text : ∀ x ∈ item.kept?, ∃ run m, run <:+: t :: rest ∧ run ≠ [] ∧ x = Token.verbatim run ∧
    Balanced m run ∧ m ≤ depth

/-- An item that keeps no text. -/
theorem ItemCloses.plain {item : ColumnItem} {rest' : List Token} (hsuffix : rest' <:+ rest)
    (h : Balanced depth rest') (hkept : item.kept? = none) :
    ItemCloses depth t rest item rest' where
  suffix := hsuffix
  behind := ⟨depth, h, .inl⟩
  text := by
    rintro x hx
    rw [hkept] at hx
    cases hx

/-- An item with a clause. -/
theorem ItemCloses.clause {item : ColumnItem} {clause rest' : List Token} (hword : t.kind = .word)
    (h : Balanced depth rest) (hclause : readClause rest = .ok (clause, rest'))
    (hkept : ∀ x ∈ item.kept?, x = Token.verbatim clause ∧ clause ≠ [] ∨
      x = Token.verbatim (t :: clause)) : ItemCloses depth t rest item rest' := by
  obtain ⟨clause', rest'', m, n, hread, hm, hn, hsum⟩ := exists_readClauseFrom false h
  rw [readClause, hread] at hclause
  cases hclause
  have hsplit := readClauseFrom_eq hread
  refine ⟨⟨clause, hsplit.symm⟩, ⟨n, hn, fun _ => .inl (by omega)⟩, fun x hx => ?_⟩
  have hbegins : t :: clause <+: t :: rest := by
    rw [hsplit]
    exact List.prefix_append (t :: clause) rest'
  rcases hkept x hx with ⟨rfl, hne⟩ | rfl
  · exact ⟨clause, m, (List.suffix_cons t clause).isInfix.trans hbegins.isInfix, hne, rfl, hm,
      by omega⟩
  · exact ⟨t :: clause, m, hbegins.isInfix, nofun, rfl, (balanced_word hword).2 hm, by omega⟩

/-- An item with a name that is dropped. -/
theorem ItemCloses.dropped (hword : t.isKeyword "CONSTRAINT" = true ∨ t.isKeyword "COLLATE" = true)
    (h : Balanced depth rest) : ItemCloses depth t rest .dropped rest.tail where
  suffix := List.tail_suffix rest
  behind := by
    cases rest with
    | nil => exact ⟨depth, h, .inl⟩
    | cons u rest =>
      refine ⟨u.depthAfter depth, h.2, ?_⟩
      rintro rfl
      by_cases hopen : u.isSymbol '(' = true
      · exact .inr ⟨[], t, u, rest, rfl, paired_iff.2 rfl, hword, hopen⟩
      · left
        simp [Token.depthAfter, hopen]
  text := nofun

theorem readItem_closes (hword : t.kind = .word) (h : Balanced depth rest) :
    Unreported (fun r => ItemCloses depth t rest r.1 r.2) (readItem t rest) := by
  have htail : ∀ word, Token.startsWith word rest = true → Balanced depth rest.tail := by
    intro word hstarts
    obtain ⟨u, us, rfl, hu⟩ := startsWith_iff.1 hstarts
    exact (balanced_word (kind_of_isKeyword hu)).1 h
  obtain ⟨clause, behind, -, -, hread, -⟩ := exists_readClauseFrom false h
  have hclause : readClause rest = .ok (clause, behind) := hread
  rcases hkeyword : ColumnKeyword.ofToken? t with _ | keyword
  · simp only [readItem, hkeyword]
    exact ItemCloses.plain (List.suffix_refl rest) h rfl
  · have hk := isKeyword_of_ofToken? hkeyword
    cases keyword with
    | not | primary =>
      simp only [readItem, hkeyword]
      split
      · next hstarts => exact ItemCloses.plain (List.tail_suffix rest) (htail _ hstarts) rfl
      · exact unreported_error (by simp)
    | null | unique =>
      simp only [readItem, hkeyword]
      exact ItemCloses.plain (List.suffix_refl rest) h rfl
    | constraint =>
      simp only [readItem, hkeyword]
      exact ItemCloses.dropped (.inl hk) h
    | collate =>
      simp only [readItem, hkeyword]
      exact ItemCloses.dropped (.inr hk) h
    | default =>
      simp only [readItem, hkeyword, hclause]
      split
      · exact unreported_error (by simp)
      · next hne =>
        refine ItemCloses.clause hword h hclause ?_
        rintro x ⟨⟩
        exact .inl ⟨rfl, by simpa using hne⟩
    | check | references =>
      simp only [readItem, hkeyword, hclause]
      split
      · exact unreported_error (by simp)
      · refine ItemCloses.clause hword h hclause ?_
        rintro x ⟨⟩
        exact .inr rfl
    | generated =>
      simp only [readItem, hkeyword, hclause]
      -- a generated value is passed on unless the column numbers itself
      split
      · exact ItemCloses.clause hword h hclause (by rintro x ⟨⟩)
      · refine ItemCloses.clause hword h hclause ?_
        rintro x ⟨⟩
        exact .inr rfl

/-! ## Texts that are kept -/

/-- The text is read as tokens that close every parenthesis they open, and whose parentheses match
if the text is whole. -/
def ClosingText (whole : Prop) (x : Text) : Prop :=
  ∃ us, readTokens x = .ok us ∧ Closing us ∧ (whole → Paired us)

theorem ClosingText.mono {whole whole' : Prop} (h : ClosingText whole x) (hwhole : whole' → whole) :
    ClosingText whole' x := by
  obtain ⟨us, hread, hcloses, hpaired⟩ := h
  exact ⟨us, hread, hcloses, fun h => hpaired (hwhole h)⟩

theorem closingText_verbatim {whole : Prop} (hclean : Clean ts) (hne : ts ≠ [])
    (h : Balanced depth ts) (hwhole : whole → depth = 0) :
    ClosingText whole (Token.verbatim ts) := by
  refine ⟨setGap [] ts, (hclean.excerpt hne).read, h.setGap.closing, fun hw => ?_⟩
  obtain rfl := hwhole hw
  exact paired_iff.2 h.setGap

/-- What an item leaves behind itself has nothing open in front of it, and no parenthesis in the
place of a name, if that is so of the whole run. -/
theorem unopened_behind {n : Nat} (hall : Balanced depth (us ++ ts)) (hts : Balanced n ts)
    (hn : depth = 0 → n = 0 ∨ OpensName (us ++ ts)) (h : depth = 0 ∧ ¬OpensName (us ++ ts)) :
    n = 0 ∧ ¬OpensName ts := by
  obtain ⟨rfl, hnone⟩ := h
  obtain rfl := (hn rfl).resolve_right hnone
  exact ⟨rfl, fun hopens => hnone (hopens.behind (hall.of_append hts))⟩

/-- **The texts that a column keeps close what they open**, and no parenthesis is missing on the way
to them. -/
theorem readItems_closes (hclean : Clean ts) (h : Balanced depth ts) :
    Unreported (fun items => ∀ item ∈ items, ∀ x ∈ item.kept?,
      ClosingText (depth = 0 ∧ ¬OpensName ts) x) (readItems ts) := by
  fun_induction readItems ts generalizing depth with
  | case1 => exact List.forall_mem_nil _
  | case2 t rest hopen hread => exact absurd hread (h.readGroup_ne_none hopen)
  | case3 t rest hopen g rest' hread ih =>
    have hrest := h.behind_group hopen hread
    have hsplit := readGroup_eq hread
    rw [hsplit] at h hclean
    have hlater := ih (hclean.piece (List.suffix_append g.tokens rest').isInfix) hrest
    refine hlater.imp fun items hitems item hitem x hx => (hitems item hitem x hx).mono ?_
    rw [hsplit]
    exact unopened_behind h hrest .inl
  | case4 t rest _ hword e hread =>
    have hitem := readItem_closes hword ((balanced_word hword).1 h)
    rwa [hread] at hitem
  | case5 t rest _ hword item rest' hread ih =>
    obtain ⟨hsuffix, ⟨n, hn, hopened⟩, htext⟩ :=
      (readItem_closes hword ((balanced_word hword).1 h)).of_ok hread
    obtain ⟨front, hsplit⟩ := hsuffix.trans (List.suffix_cons t rest)
    refine (ih (hclean.piece ⟨front, [], by rw [hsplit, List.append_nil]⟩) hn).map ?_
    intro items hitems
    refine List.forall_mem_cons.2 ⟨fun x hx => ?_, fun item hitem x hx => ?_⟩
    · obtain ⟨run, m, hpiece, hne, rfl, hm, hle⟩ := htext x hx
      exact closingText_verbatim (hclean.piece hpiece) hne hm fun hwhole => by omega
    · refine (hitems item hitem x hx).mono ?_
      rw [← hsplit] at h hopened ⊢
      exact unopened_behind h hn hopened
  | case6 t rest hopen _ ih =>
    have hlater := ih (hclean.piece (List.suffix_cons t rest).isInfix) h.2
    refine hlater.imp fun items hitems item hitem x hx => (hitems item hitem x hx).mono ?_
    have hall : Balanced depth ([t] ++ rest) := h
    refine unopened_behind hall h.2 fun hzero => .inl ?_
    simp [Token.depthAfter, hopen, hzero]

/-! ## Parts of the block -/

theorem mem_kept {n : Text} {items : List ColumnItem} (h : x ∈ (Column.ofItems n items).kept) :
    ∃ item ∈ items, x ∈ item.kept? := by
  rcases List.mem_append.1 h with hdefault | hforwarded
  · have hlast : (items.filterMap (·.default?)).getLast? = some x := Option.mem_toList.1 hdefault
    obtain ⟨item, hitem, hkept⟩ := List.mem_filterMap.1 (List.mem_of_getLast? hlast)
    exact ⟨item, hitem, by simp [ColumnItem.kept?, hkept]⟩
  · obtain ⟨item, hitem, hkept⟩ := List.mem_filterMap.1 hforwarded
    refine ⟨item, hitem, ?_⟩
    cases item <;> cases hkept
    rfl

/-- What an item keeps closes what it opens, and matches unless it is a text of a column and a
parenthesis stands in the place of a name in what follows the name of that column. -/
def TableItem.Closes (p : List Token) : TableItem → Prop
  | .column own => ∀ x ∈ own.kept, ClosingText (¬OpensName p.tail) x
  | .primaryKey _ => True
  | .constraint clause => ClosingText True clause

theorem unlabelled_suffix (ts : List Token) : unlabelled ts <:+ ts := by
  unfold unlabelled
  split
  · exact List.drop_suffix 2 ts
  · exact List.suffix_refl ts

theorem unreported_readKeyList (h : Balanced depth ts) :
    Unreported (TableItem.Closes p) (readKeyList ts) := by
  rw [readKeyList]
  split
  · next hopen =>
    obtain ⟨g, rest, hread, -⟩ := h.exists_readGroup hopen
    rw [hread]
    have hnames : ∀ entry ∈ parts g.inside, Unreported (fun _ => True) (keyName entry) := by
      rintro (_ | ⟨u, us⟩) -
      · exact unreported_error (by simp)
      · rw [keyName]
        split
        · trivial
        · exact unreported_error (by simp)
    exact (unreported_mapM hnames).map fun _ _ => trivial
  · exact unreported_error (by simp)

theorem unreported_ofTokens (hclean : Clean p) (h : Balanced 0 p) :
    Unreported (fun column : Column => ∀ x ∈ column.kept, ClosingText (¬OpensName p.tail) x)
      (Column.ofTokens p) := by
  cases p with
  | nil => exact unreported_error (by simp)
  | cons own more =>
    rw [Column.ofTokens]
    split
    · next hname =>
      have hmore : Balanced 0 more :=
        (balanced_cons fun hsymbol => by simp [Token.isName, hsymbol] at hname).1 h
      have hitems := readItems_closes (hclean.piece (List.suffix_cons own more).isInfix) hmore
      refine hitems.map fun items hall x hx => ?_
      obtain ⟨item, hitem, hkept⟩ := mem_kept hx
      exact (hall item hitem x hkept).mono fun hnone => ⟨rfl, hnone⟩
    · exact unreported_error (by simp)

/-- **No parenthesis is missing in a part** whose parentheses match. -/
theorem readTableItem_closes (hclean : Clean p) (h : Balanced 0 p) :
    Unreported (TableItem.Closes p) (readTableItem p) := by
  rw [readTableItem]
  split
  · next hconstraint =>
    rw [readTableConstraint_eq]
    split
    · obtain ⟨n, hn⟩ :=
        h.suffix ((List.drop_suffix 2 (unlabelled p)).trans (unlabelled_suffix p))
      exact unreported_readKeyList hn
    · refine closingText_verbatim hclean ?_ h fun _ => rfl
      rintro rfl
      cases hconstraint
  · exact (unreported_ofTokens hclean h).map fun _ hkept => hkept

theorem unreported_markKey (name : Text) (cs : List Column) :
    Unreported (fun _ => True) (markKey name cs) := by
  induction cs with
  | nil => exact unreported_error (by simp)
  | cons c cs ih =>
    rw [markKey]
    split
    · trivial
    · exact ih.map fun _ _ => trivial

namespace TableSyntax

variable {d : TableSyntax}

theorem part_closes (hclean : Clean d.block.1.inside) (hp : p ∈ parts d.block.1.inside) :
    Unreported (TableItem.Closes p) (readTableItem p) :=
  readTableItem_closes (hclean.piece (infix_of_mem_parts hp))
    (d.block.2.balanced.parts_enclosed hp).1

theorem unreported_read (hclean : Clean d.block.1.inside) : Unreported (fun _ => True) d.read := by
  rw [read]
  split
  · exact unreported_error (by simp)
  · have hparts : ∀ p ∈ parts d.block.1.inside, Unreported (fun _ => True) (readTableItem p) :=
      fun p hp => (part_closes hclean hp).imp fun _ _ => trivial
    refine (unreported_mapM hparts).bind fun items _ => ?_
    rw [CreateTable.ofItems]
    exact (unreported_foldlM (fun cs name _ => unreported_markKey name cs) _ trivial).bind
      fun _ _ => trivial

/-- The texts of a table close what they open: its constraints match, and those of a column do
unless a parenthesis stands in the place of a name where the column is defined. -/
structure Closes (d : TableSyntax) (c : CreateTable) : Prop where
  constraints : ∀ x ∈ c.constraints, ClosingText True x
  columns : ∀ column ∈ c.columns, ∃ p ∈ parts d.block.1.inside, ∃ own,
    Column.ofTokens p = .ok own ∧ own.name = column.name ∧
      ∀ x ∈ column.kept, ClosingText (¬OpensName p.tail) x

theorem closes_of_read {c : CreateTable} (hclean : Clean d.block.1.inside) (h : d.read = .ok c) :
    d.Closes c := by
  obtain ⟨-, items, hrecognised⟩ := CreateTable.recognised_of_read h
  obtain ⟨hfrom, -⟩ := exists_of_mapM hrecognised.read
  have hitem : ∀ item ∈ items, ∃ p ∈ parts d.block.1.inside,
      readTableItem p = .ok item ∧ item.Closes p := by
    intro item hitem
    obtain ⟨p, hp, hread⟩ := hfrom item hitem
    exact ⟨p, hp, hread, (part_closes hclean hp).of_ok hread⟩
  constructor
  case constraints =>
    intro x hx
    rw [hrecognised.constraints] at hx
    obtain ⟨item, hmem, he⟩ := List.mem_filterMap.1 hx
    obtain ⟨p, -, -, hcloses⟩ := hitem item hmem
    cases item <;> cases he
    exact hcloses
  case columns =>
    -- a key that names the column changes neither its name nor its texts
    refine (foldlM_markKey_forall (fun c hc => hc) hrecognised.columns fun own hown => ?_).1
    obtain ⟨item, hmem, he⟩ := List.mem_filterMap.1 hown
    obtain ⟨p, hp, hread, hcloses⟩ := hitem item hmem
    cases item <;> cases he
    rcases readTableItem_cases hread with ⟨column, he, hcolumn⟩ | ⟨names, he, -⟩ | ⟨he, -⟩
    all_goals cases he
    exact ⟨p, hp, own, hcolumn, rfl, hcloses⟩

end TableSyntax

/-! ## Whole statements -/

namespace TableStatement

variable {d : TableStatement} {sql : Text} {after : List Token}

theorem clean_inside (h : readStatement (normalize sql) = .ok (d.tokens ++ after)) :
    Clean d.definition.block.1.inside := by
  have hinside := FirstGroup.infix (d.definition.firstGroup after)
  have hdefinition : d.definition.tokens ++ after <:+ d.tokens ++ after :=
    ⟨[d.create.1, d.table.1], rfl⟩
  exact (clean_of_readStatement h).1.piece (hinside.trans hdefinition.isInfix)

theorem translate_ne_unbalanced (h : readStatement (normalize sql) = .ok (d.tokens ++ after)) :
    translate sql ≠ .error (.malformed .createTable .unbalanced) := by
  have hread := (TableSyntax.unreported_read (clean_inside h)).ne_error
  rw [d.translate_eq_answer h, answer]
  cases hd : d.definition.read with
  | ok c => simp
  | error e =>
    rintro ⟨⟩
    exact hread hd

end TableStatement

/-- **Parentheses match.** The group that an opening parenthesis begins ends where the shortest run
from it on whose parentheses match ends, and it is reported as unbalanced just if there is none, in
place and token after token alike. Parts joined by single commas are the run that they were parted
from, and if the parentheses of that match, so do those of each part, with no comma outside them. So
once a definition has a block, no parenthesis is reported as missing, neither in the statement nor
in any part of the block, whatever the others are. The texts of a table close every parenthesis that
they open, and those of its constraints match; those of a column match unless its definition has a
parenthesis in the place of the name of a constraint or a collation. -/
theorem parentheses_match (ps : List Placed) (ts : List Token) (sql : Text) :
    (∀ i, Token.opensWith '(' ((ps.map Placed.token).drop i) = true →
      (∀ j, InPlace.skipGroup ps i = pure j ↔ ClosesAt (ps.map Placed.token) i j) ∧
      (InPlace.skipGroup ps i = throw .unbalanced ↔ NeverCloses (ps.map Placed.token) i)) ∧
    (∀ i, Token.opensWith '(' (ts.drop i) = true →
      (∀ j, ClosesAt ts i j ↔
        ∃ g rest, readGroup (ts.drop i) = some (g, rest) ∧ j = i + g.tokens.length) ∧
      (readGroup (ts.drop i) = none ↔ NeverCloses ts i)) ∧
    (∃ s : Series (List Token), s.entries = parts ts ∧ s.tokens id = ts) ∧
    (Paired ts → ∀ p ∈ parts ts, Paired p ∧ Undivided p) ∧
    ∀ (d : TableStatement) (after : List Token),
      readStatement (normalize sql) = .ok (d.tokens ++ after) →
        translate sql ≠ .error (.malformed .createTable .unbalanced) ∧
        (∀ p ∈ parts d.definition.block.1.inside, readTableItem p ≠ .error .unbalanced) ∧
        ∀ c, d.definition.read = .ok c → d.definition.Closes c := by
  refine ⟨fun i hopen => ⟨fun j => skipGroup_eq_pure_iff hopen, skipGroup_eq_throw_iff hopen⟩,
    fun i hopen => ⟨fun j => closesAt_iff hopen, readGroup_eq_none_iff hopen⟩,
    exists_series ts, fun h p hp => h.part hp, fun d after hread => ?_⟩
  have hclean := TableStatement.clean_inside hread
  exact ⟨TableStatement.translate_ne_unbalanced hread,
    fun p hp => (TableSyntax.part_closes hclean hp).ne_error,
    fun c => TableSyntax.closes_of_read hclean⟩

/-- A parenthesis that is not closed, and a group behind it. -/
def halfOpen : List Placed :=
  [⟨.symbol, "(", 0, 1⟩, ⟨.symbol, "(", 1, 2⟩, ⟨.word, "a", 2, 3⟩, ⟨.symbol, ")", 3, 4⟩]

/-- The table of the prices of items. -/
def pricesTable : CreateTable where
  table := "prices"
  ifNotExists := false
  columns := [⟨"item", .integer, true, false, none, false, none, []⟩,
    ⟨"net", .text, false, false, none, false, some "(abs(1) * (2 + 3))", ["CHECK ((net) <> (0))"]⟩]
  constraints := ["CHECK (coalesce(net, (1)) > 0)"]

/-- A definition with parentheses in every place that takes them. -/
def prices : Translated where
  sent := "CREATE TABLE prices (item INT, net NUMERIC(10, 2) DEFAULT (abs(1) * (2 + 3)) " ++
    "CONSTRAINT some CHECK ((net) <> (0)), PRIMARY KEY (item), CHECK (coalesce(net, (1)) > 0))"
  text := pricesTable.write
  statement := .createTable pricesTable

/-- A group is found, one that is not closed is reported, and a definition closes what it opens. -/
theorem parentheses_match_prices :
    (InPlace.skipGroup halfOpen 1 = pure 4 ∧ ClosesAt (halfOpen.map Placed.token) 1 4) ∧
    (InPlace.skipGroup halfOpen 0 = throw .unbalanced ∧
      NeverCloses (halfOpen.map Placed.token) 0) ∧
    translate prices.sent = .ok prices ∧
    ∃ (d : TableStatement) (after : List Token),
      readStatement (normalize prices.sent) = .ok (d.tokens ++ after) ∧
        d.definition.Closes pricesTable ∧
        ∀ p ∈ parts d.definition.block.1.inside,
          Paired p ∧ readTableItem p ≠ .error .unbalanced := by
  have htranslate : translate prices.sent = .ok prices := by decide +kernel
  obtain ⟨d, after, hread, hc⟩ := TableStatement.exists_of_translate htranslate rfl
  obtain ⟨hplaced, htokens, -⟩ :=
    parentheses_match halfOpen (halfOpen.map Placed.token) prices.sent
  have hcloses : ClosesAt (halfOpen.map Placed.token) 1 4 :=
    ((htokens 1 rfl).1 4).2 ⟨⟨.mark [] '(', [⟨[], .word, "a"⟩], .mark [] ')'⟩, [], by decide, rfl⟩
  have hnever : NeverCloses (halfOpen.map Placed.token) 0 := (htokens 0 rfl).2.1 (by decide)
  obtain ⟨-, -, -, hparts, htables⟩ :=
    parentheses_match halfOpen d.definition.block.1.inside prices.sent
  have hpaired := hparts (paired_iff.2 d.definition.block.2.balanced)
  obtain ⟨-, hunreported, htable⟩ := htables d after hread
  exact ⟨⟨((hplaced 1 rfl).1 4).2 hcloses, hcloses⟩, ⟨(hplaced 0 rfl).2.2 hnever, hnever⟩,
    htranslate, d, after, hread, htable pricesTable hc,
    fun p hp => ⟨(hpaired p hp).1, hunreported p hp⟩⟩

/-- The table of a definition with a parenthesis in the place of a collation. -/
def openedTable : CreateTable where
  table := "t"
  ifNotExists := false
  columns := [⟨"a", .text, false, false, none, false, some "1)", []⟩]
  constraints := []

/-- That definition: behind the parenthesis is a default. -/
def openedDefault : Translated where
  sent := "CREATE TABLE t (a TEXT COLLATE (DEFAULT 1))"
  text := "CREATE TABLE t ( a TEXT NULL DEFAULT (1)) );"
  statement := .createTable openedTable

/-- **A text closes what was dropped.** The parenthesis is dropped for the name of a collation, and
the default takes the one that closes it. -/
theorem clause_closes_dropped : translate openedDefault.sent = .ok openedDefault ∧
    ∃ column ∈ openedTable.columns, ∃ x ∈ column.kept, ∃ us,
      readTokens x = .ok us ∧ ¬Paired us := by
  refine ⟨by decide +kernel, _, List.mem_singleton_self _, "1)", by decide, ?_⟩
  exact ⟨[⟨[], .number, "1"⟩, .mark [] ')'], by decide +kernel, by decide⟩

end Sql

end PgGateway
