import PgGateway.Proofs.Sql.TableSyntax

/-!
# What is recognised can be read back

The clauses of a table that was recognised are runs of the tokens it was recognised from, so they
can be written and read again (`CreateTable.readable_of_ofTokens`). That they are complete does not
follow: the name of a constraint or a collation is dropped whatever it is, and where it is an
opening parenthesis, what follows it has one closing parenthesis too many.
-/

namespace PgGateway

namespace Sql

variable {name : Text} {names : List Text} {ts rest : List Token}
  {cs ds : List Column}

/-! ## Marking keys -/

theorem markKey_forall {P : Column → Prop} (hmark : ∀ c, P c → P { c with primaryKey := true })
    (h : markKey name cs = .ok ds) (hcs : ∀ c ∈ cs, P c) : (∀ d ∈ ds, P d) ∧ ds ≠ [] := by
  induction cs generalizing ds with
  | nil => cases h
  | cons c cs ih =>
    have hlater := fun d hd => hcs d (List.mem_cons_of_mem c hd)
    rw [markKey] at h
    split at h
    · cases h
      refine ⟨?_, List.cons_ne_nil _ _⟩
      intro d hd
      rcases List.mem_cons.1 hd with rfl | hd
      · exact hmark c (hcs c (by simp))
      · exact hlater d hd
    · obtain ⟨es, hes, rfl⟩ := map_eq_ok.1 h
      refine ⟨?_, List.cons_ne_nil _ _⟩
      intro d hd
      rcases List.mem_cons.1 hd with rfl | hd
      · exact hcs d (by simp)
      · exact (ih hes hlater).1 d hd

/-- Marking keys keeps what does not depend on keys, and it needs a column to mark. -/
theorem foldlM_markKey_forall {P : Column → Prop}
    (hmark : ∀ c, P c → P { c with primaryKey := true })
    (h : names.foldlM (fun cs name => markKey name cs) cs = .ok ds) (hcs : ∀ c ∈ cs, P c) :
    (∀ d ∈ ds, P d) ∧ (cs ≠ [] ∨ names ≠ [] → ds ≠ []) := by
  induction names generalizing cs with
  | nil =>
    cases h
    exact ⟨hcs, fun hne => hne.elim id (absurd rfl)⟩
  | cons name names ih =>
    rw [List.foldlM_cons] at h
    obtain ⟨es, hes, h⟩ := bind_eq_ok.1 h
    obtain ⟨hforall, hne⟩ := markKey_forall hmark hes hcs
    obtain ⟨hds, hds'⟩ := ih h hforall
    exact ⟨hds, fun _ => hds' (.inl hne)⟩

/-! ## The rest after a name -/

theorem isSymbol_of_isKeyword {t : Token} {word : Text} (h : t.isKeyword word = true) {c : Char} :
    t.isSymbol c = false := by
  simp only [Token.isKeyword, Bool.and_eq_true, beq_iff_eq] at h
  simp [Token.isSymbol, h.1]

/-- The rest stands in the tokens before any parenthesis is opened. -/
def Reaches (ts rest : List Token) : Prop :=
  ∃ front, ts = front ++ rest ∧ ∀ u ∈ front, u.isSymbol '(' = false

namespace Reaches

theorem refl (ts : List Token) : Reaches ts ts := ⟨[], rfl, nofun⟩

theorem cons {t : Token} (ht : t.isSymbol '(' = false) (h : Reaches ts rest) :
    Reaches (t :: ts) rest := by
  obtain ⟨front, rfl, hfront⟩ := h
  exact ⟨t :: front, rfl, List.forall_mem_cons.2 ⟨ht, hfront⟩⟩

theorem trans {us : List Token} (h : Reaches ts us) (h' : Reaches us rest) : Reaches ts rest := by
  obtain ⟨front, rfl, hfront⟩ := h
  obtain ⟨front', rfl, hfront'⟩ := h'
  refine ⟨front ++ front', (List.append_assoc ..).symm, ?_⟩
  intro u hu
  exact (List.mem_append.1 hu).elim (hfront u) (hfront' u)

theorem suffix (h : Reaches ts rest) : rest <:+ ts := by
  obtain ⟨front, rfl, -⟩ := h
  exact List.suffix_append front rest

end Reaches

theorem isSymbol_of_isName {t : Token} (h : t.isName = true) {c : Char} : t.isSymbol c = false := by
  have hkind : t.kind ≠ .symbol := by
    rintro hsymbol
    simp [Token.isName, hsymbol] at h
  simp [Token.isSymbol, hkind]

/-- The group is the first one of the tokens. -/
structure FirstGroup (ts : List Token) (g : Group) : Prop where
  sound : g.Sound
  reaches : ∃ after, Reaches ts (g.tokens ++ after)

theorem FirstGroup.infix {g : Group} (h : FirstGroup ts g) : g.inside <:+: ts := by
  obtain ⟨after, hafter⟩ := h.reaches
  have hinside : g.inside <:+: g.tokens ++ after :=
    ⟨[g.opening], g.closing :: after, by simp [Group.tokens]⟩
  exact hinside.trans hafter.suffix.isInfix

theorem isSymbol_of_mem_guardWords {guard : Option IfNotExists} {u : Token}
    (h : u ∈ guardWords guard) : u.isSymbol '(' = false := by
  cases guard with
  | none => cases h
  | some k =>
    simp only [guardWords, List.mem_cons, List.not_mem_nil, or_false] at h
    rcases h with rfl | rfl | rfl
    · exact isSymbol_of_isKeyword k.ifWord.2
    · exact isSymbol_of_isKeyword k.notWord.2
    · exact isSymbol_of_isKeyword k.existsWord.2

theorem TableName.isSymbol_of_mem (n : TableName) {u : Token} (h : u ∈ n.tokens) :
    u.isSymbol '(' = false := by
  unfold TableName.tokens at h
  split at h
  · next schema dot _ =>
    simp only [List.mem_cons, List.not_mem_nil, or_false] at h
    rcases h with rfl | rfl | rfl
    · exact isSymbol_of_isName schema.2
    · exact isSymbol_ne dot.2 (by decide)
    · exact isSymbol_of_isName n.name.2
  · obtain rfl := List.mem_singleton.1 h
    exact isSymbol_of_isName n.name.2

/-- The block of a definition is its first group. -/
theorem TableSyntax.firstGroup (d : TableSyntax) (after : List Token) :
    FirstGroup (d.tokens ++ after) d.block.1 where
  sound := d.block.2
  reaches := by
    refine ⟨after, guardWords d.guard ++ d.name.tokens, by simp [tokens], ?_⟩
    intro u hu
    exact (List.mem_append.1 hu).elim isSymbol_of_mem_guardWords d.name.isSymbol_of_mem

end Sql

open Sql

/-! ## Columns -/

namespace Column

variable {c : Column} {ts : List Token}

/-- The default and the clauses of the column. -/
def kept (c : Column) : List Text := c.defaultText.toList ++ c.constraints

theorem lifted_of_ofTokens (hclean : Clean ts) (h : ofTokens ts = .ok c) : c.Lifted := by
  cases ts with
  | nil => cases h
  | cons t rest =>
    rw [ofTokens] at h
    split at h
    · obtain ⟨items, hitems, rfl⟩ := map_eq_ok.1 h
      obtain ⟨hdefault, hclauses⟩ :=
        readItems_sound (hclean.piece (List.suffix_cons t rest).isInfix) hitems
      refine ⟨?_, hclauses⟩
      intro e he
      -- the default of the column is the last one that it was given
      obtain ⟨item, hitem, hread⟩ := List.mem_filterMap.1 (List.mem_of_getLast? he)
      apply hdefault
      cases item <;> cases hread
      exact hitem
    · cases h

theorem Lifted.readable (h : c.Lifted) (hwhole : ∀ clause ∈ c.kept, IsWhole clause) :
    c.Readable := by
  refine ⟨?_, h.clauses, fun x hx => hwhole x (List.mem_append_right _ hx)⟩
  intro e he
  obtain ⟨us, hus⟩ := h.default e he
  have hmem : e ∈ c.kept := by
    apply List.mem_append_left
    simp [he]
  exact ⟨us, hus, (hwhole e hmem).enclosed hus⟩

end Column

/-! ## Tables -/

namespace CreateTable

variable {c : CreateTable} {ts : List Token}

/-- The defaults and the clauses of the columns are complete. -/
def WholeClauses (c : CreateTable) : Prop :=
  ∀ column ∈ c.columns, ∀ clause ∈ column.kept, IsWhole clause

/-- What is known of a table that was recognised: it is made of the parts of a balanced block. -/
structure Recognised (c : CreateTable) (inside : List Token) (items : List TableItem) : Prop where
  balanced : Balanced 0 inside
  read : (parts inside).mapM readTableItem = .ok items
  columns : (items.flatMap (·.keyNames)).foldlM (fun cs name => markKey name cs)
    (items.filterMap (·.column?)) = .ok c.columns
  constraints : c.constraints = items.filterMap (·.constraint?)

theorem recognised_of_read {d : TableSyntax} (h : d.read = .ok c) :
    c.table = d.name.name.1.name ∧ ∃ items, c.Recognised d.block.1.inside items := by
  unfold TableSyntax.read at h
  split at h
  · cases h
  · obtain ⟨items, hitems, h⟩ := bind_eq_ok.1 h
    obtain ⟨columns, hcolumns, hc⟩ := bind_eq_ok.1 h
    cases hc
    exact ⟨rfl, items, d.block.2.balanced, hitems, hcolumns, rfl⟩

theorem firstGroup_of_ofTokens (h : ofTokens ts = .ok c) :
    ∃ g items, FirstGroup ts g ∧ c.Recognised g.inside items := by
  obtain ⟨d, after, rfl, hread⟩ := TableSyntax.exists_of_ofTokens h
  obtain ⟨-, items, hrecognised⟩ := recognised_of_read hread
  exact ⟨d.block.1, items, d.firstGroup after, hrecognised⟩

theorem recognised_of_ofTokens (h : ofTokens ts = .ok c) :
    ∃ inside items, inside <:+: ts ∧ c.Recognised inside items := by
  obtain ⟨g, items, hfirst, hrecognised⟩ := firstGroup_of_ofTokens h
  exact ⟨g.inside, items, hfirst.infix, hrecognised⟩

/-- The block is not only keys: the columns that a key names are somewhere in it. -/
theorem Recognised.nonempty {inside : List Token} {items : List TableItem}
    (h : c.Recognised inside items) : c.columns ≠ [] ∨ c.constraints ≠ [] := by
  obtain ⟨hfrom, hne⟩ := exists_of_mapM h.read
  obtain ⟨item, items, rfl⟩ := List.exists_cons_of_ne_nil (hne (splitCommas_ne_nil 0 inside))
  have hcolumns := (foldlM_markKey_forall (P := fun _ => True) (fun _ => id) h.columns
    fun _ _ => trivial).2
  cases item with
  | column column =>
    left
    apply hcolumns
    left
    simp [TableItem.column?]
  | primaryKey names =>
    left
    apply hcolumns
    right
    obtain ⟨part, -, hread⟩ := hfrom (.primaryKey names) (by simp)
    rcases readTableItem_cases hread with ⟨column, he, -⟩ | ⟨names, he, hnames⟩ | ⟨he, -⟩
    · cases he
    · cases he
      simp [TableItem.keyNames, hnames]
    · cases he
  | constraint clause =>
    right
    rw [h.constraints]
    simp [TableItem.constraint?]

/-- The constraints of a table that was recognised are read again as constraints. -/
theorem tableClauses_of_ofTokens (hclean : Clean ts) (h : ofTokens ts = .ok c) :
    ∀ x ∈ c.constraints, TableClause x := by
  obtain ⟨inside, items, hpiece, hrecognised⟩ := recognised_of_ofTokens h
  obtain ⟨hfrom, -⟩ := exists_of_mapM hrecognised.read
  intro x hx
  rw [hrecognised.constraints] at hx
  obtain ⟨item, hitem, he⟩ := List.mem_filterMap.1 hx
  obtain ⟨part, hmem, hread⟩ := hfrom item hitem
  cases item <;> cases he
  exact tableClause_of_read (hclean.piece ((infix_of_mem_parts hmem).trans hpiece))
    (hrecognised.balanced.parts_enclosed hmem) hread

/-- **The texts of a definition that was recognised are runs of tokens**, complete or not. -/
theorem lifted_of_ofTokens (hclean : Clean ts) (h : ofTokens ts = .ok c) : c.Lifted := by
  obtain ⟨inside, items, hpiece, hrecognised⟩ := recognised_of_ofTokens h
  obtain ⟨hfrom, -⟩ := exists_of_mapM hrecognised.read
  refine ⟨?_, ?_, hrecognised.nonempty⟩
  · have hmark : ∀ column : Column, column.Lifted →
        Column.Lifted { column with primaryKey := true } :=
      fun column hcolumn => ⟨hcolumn.default, hcolumn.clauses⟩
    apply (foldlM_markKey_forall hmark hrecognised.columns _).1
    intro column hcolumn
    obtain ⟨item, hitem, he⟩ := List.mem_filterMap.1 hcolumn
    obtain ⟨part, hmem, hread⟩ := hfrom item hitem
    have hpart : Clean part := hclean.piece ((infix_of_mem_parts hmem).trans hpiece)
    cases item <;> cases he
    rcases readTableItem_cases hread with ⟨column, he, hread⟩ | ⟨names, he, -⟩ | ⟨he, -⟩
    · cases he
      exact Column.lifted_of_ofTokens hpart hread
    · cases he
    · cases he
  · intro x hx
    obtain ⟨us, hus, -⟩ := tableClauses_of_ofTokens hclean h x hx
    exact ⟨us, hus⟩

/-- **What was recognised can be read back** when it is written, if its clauses are complete. -/
theorem readable_of_ofTokens (hclean : Clean ts) (h : ofTokens ts = .ok c)
    (hwhole : c.WholeClauses) : c.Readable := by
  have hlifted := lifted_of_ofTokens hclean h
  exact ⟨fun column hcolumn => (hlifted.columns column hcolumn).readable (hwhole column hcolumn),
    tableClauses_of_ofTokens hclean h, hlifted.nonempty⟩

end CreateTable

end PgGateway
