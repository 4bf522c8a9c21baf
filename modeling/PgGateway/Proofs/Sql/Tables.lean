import Mathlib.Data.List.Forall2
import Mathlib.Data.List.Pairwise
import PgGateway.Proofs.Sql.Columns

/-!
# Table definitions read back

The definition of a table is written as a run of tokens (`CreateTable.tokens`), and the parts of its
block are recognised as the same table, its columns as they are read back
(`CreateTable.ofItems_block`). Two things could come in between, and are excluded by
`CreateTable.WellNamed`: a column whose name is written as a word that begins a constraint of the
table, and two columns of one name, of which only the first can be named as part of a key.
-/

namespace PgGateway

namespace Sql

variable {α β ε : Type} {gap x name : Text} {names : List Text} {t : Token}
  {ts us rest : List Token} {c : Column} {cs : List Column}

/-! ## Reading several parts -/

/-- Several parts are read exactly if each of them is. -/
theorem mapM_eq_ok_iff {f : α → Except ε β} {l : List α} {r : List β} :
    l.mapM f = .ok r ↔ List.Forall₂ (fun a b => f a = .ok b) l r := by
  induction l generalizing r with
  | nil =>
    rw [List.mapM_nil, List.forall₂_nil_left_iff]
    constructor
    · rintro ⟨⟩
      rfl
    · rintro rfl
      rfl
  | cons a l ih =>
    rw [List.mapM_cons, List.forall₂_cons_left_iff]
    constructor
    · intro h
      obtain ⟨b, hb, h⟩ := bind_eq_ok.1 h
      obtain ⟨bs, hbs, h⟩ := bind_eq_ok.1 h
      cases h
      exact ⟨b, bs, hb, ih.1 hbs, rfl⟩
    · rintro ⟨b, bs, hb, hbs, rfl⟩
      rw [hb, ih.2 hbs]
      rfl

theorem mapM_ok {f : α → Except ε β} {g : α → β} {l : List α} (h : ∀ a ∈ l, f a = .ok (g a)) :
    l.mapM f = .ok (l.map g) :=
  mapM_eq_ok_iff.2 (List.forall₂_map_right_iff.2 (List.forall₂_same.2 h))

theorem exists_of_mapM {f : α → Except ε β} {l : List α} {r : List β} (h : l.mapM f = .ok r) :
    (∀ b ∈ r, ∃ a ∈ l, f a = .ok b) ∧ (l ≠ [] → r ≠ []) := by
  have hall := mapM_eq_ok_iff.1 h
  clear h
  induction hall with
  | nil => exact ⟨nofun, fun hne => absurd rfl hne⟩
  | @cons a b l r hread _ ih =>
    refine ⟨List.forall_mem_cons.2 ⟨⟨a, List.mem_cons_self, hread⟩, ?_⟩, fun _ => nofun⟩
    intro d hd
    obtain ⟨a', ha', hread'⟩ := ih.1 d hd
    exact ⟨a', List.mem_cons_of_mem _ ha', hread'⟩

theorem mapM_append_ok {f : α → Except ε β} {l l' : List α} {r r' : List β}
    (hl : l.mapM f = .ok r) (hl' : l'.mapM f = .ok r') : (l ++ l').mapM f = .ok (r ++ r') := by
  rw [List.mapM_append, hl, hl']
  rfl

/-! ## Keys among the parts -/

/-- A constraint without the name of its own that it may begin with. -/
def unlabelled (ts : List Token) : List Token :=
  if Token.startsWith "CONSTRAINT" ts then ts.drop 2 else ts

/-- The part is a primary key, perhaps with a name of its own. -/
def isKeyPart (ts : List Token) : Bool :=
  Token.startsWith "PRIMARY" (unlabelled ts) && Token.startsWith "KEY" (unlabelled ts).tail

/-- The tokens give a constraint a name of its own, or there are none. -/
def IsLabel (ts : List Token) : Prop :=
  ts = [] ∨ ∃ word own, ts = [word, own] ∧ word.isKeyword "CONSTRAINT" = true

/-- A list of key columns as it is read from behind the keywords. -/
def readKeyList (ts : List Token) : Except Fault TableItem :=
  if Token.opensWith '(' ts then
    match readGroup ts with
    | none => .error .unbalanced
    | some (g, _) => ((parts g.inside).mapM keyName).map .primaryKey
  else .error .keyWithoutList

theorem readTableConstraint_eq (ts : List Token) : readTableConstraint ts =
    if isKeyPart ts then readKeyList ((unlabelled ts).drop 2)
    else .ok (.constraint (Token.verbatim ts)) := rfl

theorem startsWith_iff {word : Text} :
    Token.startsWith word ts = true ↔ ∃ t rest, ts = t :: rest ∧ t.isKeyword word = true := by
  cases ts with
  | nil => simp [Token.startsWith]
  | cons t rest => simp [Token.startsWith]

theorem isKeyword_ne {t : Token} {word other : Text} (h : t.isKeyword word = true)
    (hne : Text.lower word ≠ Text.lower other) : t.isKeyword other = false := by
  simp only [Token.isKeyword, Bool.and_eq_true, beq_iff_eq] at h
  simp [Token.isKeyword, h, hne]

section

variable {label rest : List Token} {primary key : Token}

theorem unlabelled_append (hlabel : IsLabel label) (hprimary : primary.isKeyword "PRIMARY" = true) :
    unlabelled (label ++ primary :: rest) = primary :: rest := by
  rcases hlabel with rfl | ⟨word, own, rfl, hword⟩
  · have hnot : Token.startsWith "CONSTRAINT" (primary :: rest) = false :=
      isKeyword_ne hprimary (by decide)
    rw [List.nil_append, unlabelled, hnot]
    rfl
  · have hstarts : Token.startsWith "CONSTRAINT" (word :: own :: primary :: rest) = true := hword
    exact if_pos hstarts

theorem isKeyPart_iff : isKeyPart ts = true ↔ ∃ label primary key rest,
    ts = label ++ primary :: key :: rest ∧ IsLabel label ∧ primary.isKeyword "PRIMARY" = true ∧
      key.isKeyword "KEY" = true := by
  constructor
  · intro h
    rw [isKeyPart, Bool.and_eq_true] at h
    obtain ⟨primary, behind, hbehind, hprimary⟩ := startsWith_iff.1 h.1
    obtain ⟨key, rest, hrest, hkey⟩ := startsWith_iff.1 h.2
    rw [hbehind, List.tail_cons] at hrest
    subst hrest
    unfold unlabelled at hbehind
    split at hbehind
    · next hconstraint =>
      obtain ⟨word, more, rfl, hword⟩ := startsWith_iff.1 hconstraint
      cases more with
      | nil => cases hbehind
      | cons own more =>
        obtain rfl : more = primary :: key :: rest := hbehind
        exact ⟨[word, own], primary, key, rest, rfl, .inr ⟨word, own, rfl, hword⟩, hprimary, hkey⟩
    · exact ⟨[], primary, key, rest, hbehind, .inl rfl, hprimary, hkey⟩
  · rintro ⟨label, primary, key, rest, rfl, hlabel, hprimary, hkey⟩
    rw [isKeyPart, unlabelled_append hlabel hprimary, Bool.and_eq_true]
    exact ⟨hprimary, hkey⟩

theorem isTableConstraint_of_isKeyPart (h : isKeyPart ts = true) : isTableConstraint ts = true := by
  obtain ⟨label, primary, key, rest, rfl, hlabel, hprimary, hkey⟩ := isKeyPart_iff.1 h
  rcases hlabel with rfl | ⟨word, own, rfl, hword⟩
  · simp only [isTableConstraint, Token.startsWith, List.nil_append, List.tail_cons, hprimary, hkey,
      Bool.and_true, Bool.true_or]
  · simp only [isTableConstraint, Token.startsWith, List.cons_append, List.tail_cons, hword,
      Bool.or_true, Bool.true_or]

theorem readTableItem_keyPart (hlabel : IsLabel label)
    (hprimary : primary.isKeyword "PRIMARY" = true) (hkey : key.isKeyword "KEY" = true) :
    readTableItem (label ++ primary :: key :: rest) = readKeyList rest := by
  have hpart : isKeyPart (label ++ primary :: key :: rest) = true :=
    isKeyPart_iff.2 ⟨label, primary, key, rest, rfl, hlabel, hprimary, hkey⟩
  rw [readTableItem, if_pos (isTableConstraint_of_isKeyPart hpart), readTableConstraint_eq,
    if_pos hpart, unlabelled_append hlabel hprimary]
  rfl

end

/-! ## Constraints of the table -/

/-- The white space in front of a part says nothing. -/
theorem readTableItem_setGap : readTableItem (setGap gap ts) = readTableItem ts := by
  cases ts with
  | nil => rfl
  | cons t ts =>
    have hconstraint : isTableConstraint (setGap gap (t :: ts)) = isTableConstraint (t :: ts) := rfl
    have hread : readTableConstraint (setGap gap (t :: ts)) = readTableConstraint (t :: ts) := by
      have hnamed : Token.startsWith "CONSTRAINT" (setGap gap (t :: ts)) =
          Token.startsWith "CONSTRAINT" (t :: ts) := rfl
      unfold readTableConstraint
      rw [hnamed, verbatim_setGap]
      cases Token.startsWith "CONSTRAINT" (t :: ts) <;> rfl
    unfold readTableItem
    rw [hconstraint, hread]
    rfl

/-- The text is a constraint of a table, which is read again as one. -/
def TableClause (x : Text) : Prop :=
  ∃ us, Excerpt x us ∧ Enclosed us ∧ readTableItem us = .ok (.constraint x)

/-- A part is a column, a primary key with at least one name, or a constraint as it is written. -/
theorem readTableItem_cases {item : TableItem} (h : readTableItem ts = .ok item) :
    (∃ column, item = .column column ∧ Column.ofTokens ts = .ok column) ∨
      (∃ names, item = .primaryKey names ∧ names ≠ []) ∨
      (item = .constraint (Token.verbatim ts) ∧ ts ≠ []) := by
  unfold readTableItem at h
  split at h
  · next hconstraint =>
    right
    rw [readTableConstraint_eq] at h
    split at h
    · rw [readKeyList] at h
      split at h
      · split at h
        · cases h
        · obtain ⟨names, hnames, rfl⟩ := map_eq_ok.1 h
          exact .inl ⟨names, rfl, (exists_of_mapM hnames).2 (splitCommas_ne_nil 0 _)⟩
      · cases h
    · cases h
      refine .inr ⟨rfl, ?_⟩
      rintro rfl
      cases hconstraint
  · obtain ⟨column, hcolumn, rfl⟩ := map_eq_ok.1 h
    exact .inl ⟨column, rfl, hcolumn⟩

theorem tableClause_of_read (hclean : Clean ts) (henclosed : Enclosed ts)
    (h : readTableItem ts = .ok (.constraint x)) : TableClause x := by
  rcases readTableItem_cases h with ⟨column, he, -⟩ | ⟨names, he, -⟩ | ⟨he, hne⟩
  · cases he
  · cases he
  · cases he
    exact ⟨setGap [] ts, hclean.excerpt hne, henclosed.setGap, by rw [readTableItem_setGap, h]⟩

/-! ## Keys -/

/-- The column as part of the key, if it has one of the names. -/
def markNamed (names : List Text) (c : Column) : Column :=
  { c with primaryKey := c.primaryKey || decide (∃ name ∈ names, Text.SameWord c.name name) }

theorem markNamed_of_not (h : ∀ name ∈ names, ¬Text.SameWord c.name name) :
    markNamed names c = c := by
  have hnone : ¬∃ name ∈ names, Text.SameWord c.name name := by
    rintro ⟨name, hname, hsame⟩
    exact h name hname hsame
  simp [markNamed, hnone]

theorem markNamed_cons : markNamed names (markNamed [name] c) = markNamed (name :: names) c := by
  simp [markNamed, Bool.or_assoc]

/-- No two of the columns have one name. -/
def Distinct (cs : List Column) : Prop := cs.Pairwise fun c d => ¬Text.SameWord c.name d.name

theorem Distinct.eq_of_sameWord {d : Column} (h : Distinct cs) (hc : c ∈ cs) (hd : d ∈ cs)
    (hsame : Text.SameWord c.name d.name) : c = d := by
  have : Std.Symm fun c d : Column => ¬Text.SameWord c.name d.name :=
    ⟨fun _ _ hne hsame => hne hsame.symm⟩
  by_contra hne
  exact List.Pairwise.forall h hc hd hne hsame

theorem Distinct.map {f : Column → Column} (h : Distinct cs) (hf : ∀ c, (f c).name = c.name) :
    Distinct (cs.map f) := by
  apply List.pairwise_map.2
  simp only [hf]
  exact h

/-- Where no two columns have one name, a key marks every column that it names. -/
theorem markKey_distinct (hdistinct : Distinct cs) (hname : ∃ c ∈ cs, Text.SameWord c.name name) :
    markKey name cs = .ok (cs.map (markNamed [name])) := by
  induction cs with
  | nil =>
    obtain ⟨c, hc, -⟩ := hname
    cases hc
  | cons c cs ih =>
    obtain ⟨hfirst, hlater⟩ := List.pairwise_cons.1 hdistinct
    rw [markKey]
    split
    · next hsame =>
      -- no later column has the name as well
      have hrest : ∀ d ∈ cs, markNamed [name] d = d := by
        intro d hd
        apply markNamed_of_not
        intro other hother hd'
        obtain rfl : other = name := by simpa using hother
        exact hfirst d hd (hsame.trans hd'.symm)
      rw [List.map_cons, List.map_congr_left hrest, List.map_id']
      simp [markNamed, hsame]
    · next hother =>
      have hlaterName : ∃ d ∈ cs, Text.SameWord d.name name := by
        obtain ⟨d, hd, hsame⟩ := hname
        rcases List.mem_cons.1 hd with rfl | hd
        · exact absurd hsame hother
        · exact ⟨d, hd, hsame⟩
      rw [ih hlater hlaterName, List.map_cons, markNamed_of_not (by simpa using hother)]
      rfl

theorem foldlM_markKey (hdistinct : Distinct cs)
    (hnames : ∀ name ∈ names, ∃ c ∈ cs, Text.SameWord c.name name) :
    names.foldlM (fun cs name => markKey name cs) cs = .ok (cs.map (markNamed names)) := by
  induction names generalizing cs with
  | nil =>
    have hrest : ∀ c ∈ cs, markNamed [] c = c := fun c _ => markNamed_of_not nofun
    rw [List.map_congr_left hrest, List.map_id']
    rfl
  | cons name names ih =>
    rw [List.foldlM_cons, markKey_distinct hdistinct (hnames name (by simp))]
    show List.foldlM _ (cs.map (markNamed [name])) names = _
    rw [ih (Distinct.map hdistinct fun c => show (markNamed [name] c).name = c.name from rfl)]
    · rw [List.map_map]
      congr 1
      apply List.map_congr_left
      intro c _
      exact markNamed_cons
    · intro other hother
      obtain ⟨c, hc, hsame⟩ := hnames other (List.mem_cons_of_mem _ hother)
      exact ⟨markNamed [name] c, List.mem_map_of_mem hc, hsame⟩

/-! ## Names before the block -/

/-- A name that no dot follows stands for itself. -/
theorem readTableName_token (hname : t.isName = true)
    (hrest : ∀ u ∈ rest.head?, u.isSymbol '.' = false) :
    readTableName (t :: rest) = some (t.name, rest) := by
  unfold readTableName
  dsimp only
  rw [if_pos hname]
  split
  · next dot u rest' =>
    rw [hrest dot rfl]
    rfl
  · rfl

/-- A name is no guard, whatever it is, if no word follows it. -/
theorem readGuard_unguarded (hrest : ∀ u ∈ rest.head?, u.kind ≠ .word) :
    readGuard (t :: rest) = (.unguarded, t :: rest) := by
  have hnext : ∀ word : Text, Token.startsWith word rest = false := by
    intro word
    cases rest with
    | nil => rfl
    | cons u rest => simp [Token.startsWith, Token.isKeyword, hrest u rfl]
  unfold readGuard
  split
  · rw [List.tail_cons, hnext, hnext]
    simp
  · rfl

/-! ## Lists of key columns -/

/-- The tokens of names with commas between them. -/
def nameList (names : List Text) : List Token :=
  separate (.mark [] ',') (names.map fun name => [nameToken name])

/-- The list of the columns of a key, in parentheses. -/
def keyGroup (names : List Text) : Group := grouped [] (setGap [] (nameList names))

/-- The tokens of a primary key that stands behind the columns. -/
def keyTokens (names : List Text) : List Token :=
  [.bare "PRIMARY", .bare "KEY"] ++ (keyGroup names).tokens

theorem chunk_names : ∀ ts ∈ names.map fun name => [nameToken name], Chunk ts := by
  intro ts hts
  obtain ⟨name, -, rfl⟩ := List.mem_map.1 hts
  exact .name name

theorem parts_nameList (hne : names ≠ []) :
    parts (nameList names) = names.map (fun name => [nameToken name]) ∧
      Balanced 0 (nameList names) :=
  parts_separate rfl (by simpa using hne) fun ts hts => (chunk_names ts hts).enclosed

theorem keyGroup_sound (hne : names ≠ []) : (keyGroup names).Sound :=
  grouped_sound (parts_nameList hne).2.setGap

theorem chunk_key (hne : names ≠ []) : Chunk (keyTokens names) := by
  have hclean : Clean (nameList names) := .separate fun ts hts => (chunk_names ts hts).clean
  have hwords : Chunk [Token.bare "PRIMARY", Token.bare "KEY"] :=
    (Chunk.bare (by decide)).append (.bare (by decide))
  exact hwords.append (.grouped (hclean.setGap (.inl rfl)) (parts_nameList hne).2.setGap)

theorem render_key (hne : names ≠ []) : Token.render (keyTokens names) =
    ' ' :: ("PRIMARY KEY (" ++ Text.join ", " (names.map writeName) ++ ")") := by
  have hspaced : Token.render (nameList names) = ' ' :: Text.join ", " (names.map writeName) := by
    apply render_separate (by simpa using hne)
    simp
  -- the first name stands right behind the parenthesis
  have hflush : Token.render (setGap [] (nameList names)) =
      Text.join ", " (names.map writeName) := by
    obtain ⟨name, names, rfl⟩ := List.exists_cons_of_ne_nil hne
    have hfirst : ∃ more, nameList (name :: names) = nameToken name :: more := by
      cases names <;> exact ⟨_, rfl⟩
    obtain ⟨more, hmore⟩ := hfirst
    rw [hmore, Token.render_cons, gap_nameToken] at hspaced
    rw [hmore, setGap_cons, Token.render_cons]
    exact (List.cons.inj hspaced).2
  simp [keyTokens, keyGroup, grouped, Group.tokens, Token.bare, Token.mark, hflush]

theorem keyName_setGap : keyName (setGap gap ts) = keyName ts := by
  cases ts <;> rfl

/-- **The names of a key are read back.** -/
theorem readTableItem_key (hne : names ≠ []) :
    readTableItem (keyTokens names) = .ok (.primaryKey names) := by
  have hgroup := (keyGroup_sound hne).readGroup []
  rw [List.append_nil] at hgroup
  have hname : ∀ name, keyName [nameToken name] = .ok name := by
    intro name
    rw [keyName, if_pos (isName_nameToken name), name_nameToken]
  have hparts : (parts (keyGroup names).inside).mapM keyName = .ok names := by
    show (parts (setGap [] (nameList names))).mapM keyName = _
    rw [parts_setGap, (parts_nameList hne).1]
    obtain ⟨name, names, rfl⟩ := List.exists_cons_of_ne_nil hne
    have hlater : (names.map fun name => [nameToken name]).mapM keyName = .ok names := by
      rw [List.mapM_map]
      exact (mapM_ok fun name _ => hname name).trans (by rw [List.map_id'])
    rw [List.map_cons, List.modifyHead_cons, List.mapM_cons, keyName_setGap, hname, hlater]
    rfl
  have hopen : Token.opensWith '(' (keyGroup names).tokens = true := rfl
  show readTableItem ([] ++ .bare "PRIMARY" :: .bare "KEY" :: (keyGroup names).tokens) = _
  rw [readTableItem_keyPart (.inl rfl) rfl rfl, readKeyList, if_pos hopen, hgroup]
  simp only [hparts]
  rfl

end Sql

open Sql

/-! ## Whole definitions -/

namespace Column

variable {c : Column} {inlineKey : Bool}

/-- The names that would be read as the first word of a constraint of the table. -/
def constraintWords : List Text := ["UNIQUE", "CHECK", "CONSTRAINT"]

theorem isKeyword_nameToken {name word : Text} (h : ¬Text.SameWord name word) :
    (nameToken name).isKeyword word = false := by
  unfold nameToken
  split
  · simpa [Token.isKeyword, Token.bare, Text.SameWord] using h
  · rfl

/-- A written column is taken for a constraint of the table just if its name is the first word of
one. -/
theorem isTableConstraint_tokens : isTableConstraint (c.tokens inlineKey) = true ↔
    ∃ word ∈ constraintWords, (nameToken c.name).isKeyword word = true := by
  have hkey : ∀ rest, Token.startsWith "KEY" (c.headTokens inlineKey ++ rest) = false := by
    intro rest
    show (Token.bare c.type.storage.name).isKeyword "KEY" = false
    cases c.type.storage <;> decide
  unfold isTableConstraint tokens
  rw [List.tail_cons, hkey]
  simp only [Token.startsWith, constraintWords, Bool.and_false, Bool.false_or, Bool.or_eq_true,
    List.mem_cons, List.not_mem_nil, or_false, exists_eq_or_imp, exists_eq_left, or_assoc]
  exact or_congr_right or_comm

/-- A written column is read as a column. -/
theorem readTableItem_tokens (h : c.Readable)
    (hname : ∀ word ∈ constraintWords, ¬Text.SameWord c.name word) :
    readTableItem (c.tokens inlineKey) = .ok (.column (c.readBack inlineKey)) := by
  have hcolumn : ¬isTableConstraint (c.tokens inlineKey) = true := by
    rw [isTableConstraint_tokens]
    rintro ⟨word, hmem, hword⟩
    rw [isKeyword_nameToken (hname word hmem)] at hword
    cases hword
  rw [readTableItem, if_neg hcolumn, ofTokens_tokens h]
  rfl

end Column

namespace CreateTable

variable {c : CreateTable}

/-- The names of the columns are apart from one another, and none begins a constraint. -/
structure WellNamed (c : CreateTable) : Prop where
  distinct : Distinct c.columns
  unreserved : ∀ column ∈ c.columns, ∀ word ∈ Column.constraintWords,
    ¬Text.SameWord column.name word

/-- What makes a definition readable when it is written. -/
structure Readable (c : CreateTable) : Prop where
  columns : ∀ column ∈ c.columns, column.Readable
  constraints : ∀ x ∈ c.constraints, TableClause x
  nonempty : c.columns ≠ [] ∨ c.constraints ≠ []

/-- What is known of a definition that was recognised. -/
structure Lifted (c : CreateTable) : Prop where
  columns : ∀ column ∈ c.columns, column.Lifted
  constraints : ∀ x ∈ c.constraints, ∃ us, Excerpt x us
  nonempty : c.columns ≠ [] ∨ c.constraints ≠ []

theorem Readable.lifted (h : c.Readable) : c.Lifted := by
  refine ⟨fun column hcolumn => (h.columns column hcolumn).lifted, ?_, h.nonempty⟩
  intro x hx
  obtain ⟨us, hus, -⟩ := h.constraints x hx
  exact ⟨us, hus⟩

/-- The key has one column, and is said in it. -/
def inlineKey (c : CreateTable) : Bool := c.keyColumns.length == 1

/-- The tokens of a key of more than one column, if there is one. -/
def keyRuns (c : CreateTable) : List (List Token) :=
  if 1 < c.keyColumns.length then [keyTokens (c.keyColumns.map (·.name))] else []

/-- The tokens of the parts of the block. -/
def blockRuns (c : CreateTable) : List (List Token) :=
  c.columns.map (Column.tokens c.inlineKey) ++ c.keyRuns ++ c.constraints.map spacedTokens

/-- The block, in parentheses. -/
def block (c : CreateTable) : Group := grouped [' '] (separate (.mark [] ',') c.blockRuns)

/-- The words between the first two and the name of the table. -/
def guardTokens (c : CreateTable) : List Token :=
  if c.ifNotExists then [.bare "IF", .bare "NOT", .bare "EXISTS"] else []

/-- The tokens of a written definition after its first two words. -/
def nameTokens (c : CreateTable) : List Token :=
  c.guardTokens ++ nameToken c.table :: c.block.tokens

/-- The tokens of a written definition. -/
def tokens (c : CreateTable) : List Token :=
  ⟨[], .word, "CREATE"⟩ :: .bare "TABLE" :: c.nameTokens

theorem keyNames_ne_nil (h : 1 < c.keyColumns.length) : c.keyColumns.map (·.name) ≠ [] := by
  intro hnil
  rw [List.map_eq_nil_iff] at hnil
  rw [hnil] at h
  cases h

theorem chunk_keyRuns : ∀ ts ∈ c.keyRuns, Chunk ts := by
  intro ts hts
  unfold keyRuns at hts
  split at hts
  · next hlong =>
    obtain rfl := List.mem_singleton.1 hts
    exact chunk_key (keyNames_ne_nil hlong)
  · cases hts

theorem spaced_blockRuns (h : c.Lifted) : ∀ ts ∈ c.blockRuns, Spaced ts := by
  intro ts hts
  rcases List.mem_append.1 hts with hts | hts
  · rcases List.mem_append.1 hts with hts | hts
    · obtain ⟨column, hcolumn, rfl⟩ := List.mem_map.1 hts
      exact Column.spaced_tokens (h.columns column hcolumn)
    · exact (chunk_keyRuns ts hts).toSpaced
  · obtain ⟨x, hx, rfl⟩ := List.mem_map.1 hts
    obtain ⟨us, hus⟩ := h.constraints x hx
    exact hus.spaced

theorem enclosed_blockRuns (h : c.Readable) : ∀ ts ∈ c.blockRuns, Enclosed ts := by
  intro ts hts
  rcases List.mem_append.1 hts with hts | hts
  · rcases List.mem_append.1 hts with hts | hts
    · obtain ⟨column, hcolumn, rfl⟩ := List.mem_map.1 hts
      exact Column.enclosed_tokens (h.columns column hcolumn)
    · exact (chunk_keyRuns ts hts).enclosed
  · obtain ⟨x, hx, rfl⟩ := List.mem_map.1 hts
    obtain ⟨us, hus, henclosed, -⟩ := h.constraints x hx
    exact hus.enclosed henclosed

theorem blockRuns_ne_nil (h : c.Lifted) : c.blockRuns ≠ [] := by
  rcases h.nonempty with hne | hne <;> simp [blockRuns, hne]

theorem parts_block (h : c.Readable) :
    parts c.block.inside = c.blockRuns ∧ Balanced 0 c.block.inside :=
  parts_separate rfl (blockRuns_ne_nil h.lifted) (enclosed_blockRuns h)

theorem block_sound (h : c.Readable) : c.block.Sound := grouped_sound (parts_block h).2

/-- The tokens of a written definition can be written one after the other. -/
theorem clean_tokens (h : c.Lifted) : Clean c.tokens := by
  have hcreate : Clean [(⟨[], .word, "CREATE"⟩ : Token)] :=
    Clean.setGap (Chunk.bare (w := "CREATE") (by decide)).clean (.inl rfl)
  have hguard : Chunk c.guardTokens := by
    unfold guardTokens
    split
    · exact (Chunk.bare (by decide)).append ((Chunk.bare (by decide)).append (.bare (by decide)))
    · exact .nil
  have hblock : Clean c.block.tokens :=
    .grouped (.separate fun ts hts => (spaced_blockRuns h ts hts).clean) (.inr rfl)
  have hwords : Chunk ([.bare "TABLE"] ++ (_ ++ [nameToken c.table])) :=
    (Chunk.bare (by decide)).append (hguard.append (.name c.table))
  have hall := (hcreate.append_spaced hwords.clean hwords.spaced).append_spaced hblock
    (by intro t ht; cases ht; rfl)
  simpa only [tokens, nameTokens, List.append_assoc, List.cons_append, List.nil_append] using hall

/-! ## The text of a written definition -/

theorem map_render_keyRuns : c.keyRuns.map Token.render =
    ((if 1 < c.keyColumns.length then
      ["PRIMARY KEY (" ++ Text.join ", " (c.keyColumns.map fun k => writeName k.name) ++ ")"]
    else []) : List Text).map (' ' :: ·) := by
  unfold keyRuns
  split
  · next hlong =>
    rw [List.map_singleton, render_key (keyNames_ne_nil hlong), List.map_map]
    rfl
  · rfl

theorem map_render_blockRuns (h : c.Lifted) :
    c.blockRuns.map Token.render = c.blockParts.map (' ' :: ·) := by
  have hcolumns : (c.columns.map (Column.tokens c.inlineKey)).map Token.render =
      (c.columns.map (Column.write c.inlineKey)).map (' ' :: ·) := by
    rw [List.map_map, List.map_map]
    apply List.map_congr_left
    intro column hcolumn
    exact Column.render_tokens (h.columns column hcolumn)
  have hconstraints : (c.constraints.map spacedTokens).map Token.render =
      c.constraints.map (' ' :: ·) := by
    rw [List.map_map]
    apply List.map_congr_left
    intro x hx
    obtain ⟨us, hus⟩ := h.constraints x hx
    exact hus.render_spacedTokens
  rw [blockRuns, List.map_append, List.map_append, hcolumns, map_render_keyRuns, hconstraints,
    blockParts, List.map_append, List.map_append]
  rfl

/-- **A definition is written as its tokens**, with a semicolon behind them. -/
theorem render_tokens (h : c.Lifted) : Token.render c.tokens ++ ";" = c.write := by
  have hblock : Token.render c.block.tokens = " ( " ++ Text.join ", " c.blockParts ++ " )" := by
    have hinside := render_separate (blockRuns_ne_nil h) (map_render_blockRuns h)
    simp only [block, grouped, Group.tokens, List.cons_append, Token.render_cons,
      Token.render_append, hinside]
    simp [Token.mark]
  unfold tokens nameTokens guardTokens write
  cases c.ifNotExists <;> simp [Token.bare, Text.only, hblock]

theorem not_blank_getLast (c : CreateTable) :
    ∀ d ∈ (Token.render c.tokens).getLast?, isBlank d = false := by
  have hlast : ∃ front, c.tokens = front ++ [.mark [' '] ')'] := by
    refine ⟨⟨[], .word, "CREATE"⟩ :: .bare "TABLE" ::
      (c.guardTokens ++ nameToken c.table :: .mark [' '] '(' :: c.block.inside), ?_⟩
    simp only [tokens, nameTokens, block, grouped, Group.tokens, List.append_assoc,
      List.cons_append]
  obtain ⟨front, hfront⟩ := hlast
  intro d hd
  rw [hfront, Token.render_append] at hd
  obtain rfl : ')' = d := by simpa [Token.mark] using hd
  decide

/-! ## The definition that is read back -/

/-- The definition as it is read back. -/
def rewritten (c : CreateTable) : CreateTable :=
  { c with columns := c.columns.map Column.rewritten }

/-- The names that the block gives as its key. -/
def keyNames (c : CreateTable) : List Text :=
  if 1 < c.keyColumns.length then c.keyColumns.map (·.name) else []

/-- The items of a written block. -/
def blockItems (c : CreateTable) : List TableItem :=
  c.columns.map (fun column => .column (column.readBack c.inlineKey)) ++
    (if 1 < c.keyColumns.length then [.primaryKey (c.keyColumns.map (·.name))] else []) ++
    c.constraints.map .constraint

theorem readTableItems_block (h : c.Readable) (hnames : c.WellNamed) :
    (parts c.block.inside).mapM readTableItem = .ok c.blockItems := by
  rw [(parts_block h).1]
  apply mapM_append_ok
  · apply mapM_append_ok
    · rw [List.mapM_map]
      apply mapM_ok
      intro column hcolumn
      exact Column.readTableItem_tokens (h.columns column hcolumn)
        (hnames.unreserved column hcolumn)
    · unfold keyRuns
      split
      · next hlong =>
        rw [List.mapM_cons, readTableItem_key (keyNames_ne_nil hlong)]
        rfl
      · rfl
  · rw [List.mapM_map]
    apply mapM_ok
    intro x hx
    obtain ⟨us, hus, -, hread⟩ := h.constraints x hx
    show readTableItem (spacedTokens x) = _
    rw [hus.spacedTokens, readTableItem_setGap, hread]

/-- A column is in the key just if it says so itself or the block names it. -/
theorem key_readBack (hdistinct : Distinct c.columns) {column : Column}
    (hcolumn : column ∈ c.columns) :
    markNamed c.keyNames (column.readBack c.inlineKey) = column.rewritten := by
  have hflag : (column.primaryKey && c.inlineKey ||
      decide (∃ name ∈ c.keyNames, Text.SameWord column.name name)) = column.primaryKey := by
    cases hkey : column.primaryKey with
    | true =>
      have hmem : column ∈ c.keyColumns := List.mem_filter.2 ⟨hcolumn, hkey⟩
      have hlength := List.length_pos_of_mem hmem
      by_cases hlong : 1 < c.keyColumns.length
      · have hnamed : ∃ name ∈ c.keyNames, Text.SameWord column.name name := by
          refine ⟨column.name, ?_, rfl⟩
          rw [keyNames, if_pos hlong]
          exact List.mem_map_of_mem hmem
        simp [hnamed]
      · have hinline : c.inlineKey = true := by
          simp only [inlineKey, beq_iff_eq]
          omega
        simp [hinline]
    | false =>
      have hunnamed : ¬∃ name ∈ c.keyNames, Text.SameWord column.name name := by
        rintro ⟨name, hname, hsame⟩
        unfold keyNames at hname
        split at hname
        · obtain ⟨other, hother, rfl⟩ := List.mem_map.1 hname
          obtain ⟨hmem, hotherKey⟩ := List.mem_filter.1 hother
          -- the key names a column of the same name, which is no other
          obtain rfl := hdistinct.eq_of_sameWord hcolumn hmem hsame
          rw [hkey] at hotherKey
          cases hotherKey
        · cases hname
      simp [hunnamed]
  have hname : (column.readBack c.inlineKey).name = column.name := rfl
  have hkey : (column.readBack c.inlineKey).primaryKey = (column.primaryKey && c.inlineKey) := rfl
  rw [markNamed, hname, hkey, hflag]
  rfl

theorem ofItems_block (hnames : c.WellNamed) :
    ofItems c.table c.ifNotExists c.blockItems = .ok c.rewritten := by
  have hkeys : c.blockItems.flatMap (·.keyNames) = c.keyNames := by
    have hnone : ∀ {α : Type} (l : List α), l.flatMap (fun _ => ([] : List Text)) = [] := by
      intro α l
      exact List.flatMap_eq_nil_iff.2 fun _ _ => rfl
    unfold blockItems keyNames
    split <;> simp [TableItem.keyNames, List.flatMap_map, hnone]
  have hcolumns : c.blockItems.filterMap (·.column?) =
      c.columns.map (Column.readBack c.inlineKey) := by
    unfold blockItems
    split <;> simp [TableItem.column?]
  have hconstraints : c.blockItems.filterMap (·.constraint?) = c.constraints := by
    unfold blockItems
    split <;> simp [TableItem.constraint?]
  have hmarked : (c.columns.map (Column.readBack c.inlineKey)).map (markNamed c.keyNames) =
      c.columns.map Column.rewritten := by
    rw [List.map_map]
    apply List.map_congr_left
    intro column hcolumn
    exact key_readBack hnames.distinct hcolumn
  have hdistinct : Distinct (c.columns.map (Column.readBack c.inlineKey)) :=
    hnames.distinct.map fun _ => rfl
  have hnamed : ∀ name ∈ c.keyNames, ∃ column ∈ c.columns.map (Column.readBack c.inlineKey),
      Text.SameWord column.name name := by
    intro name hname
    unfold keyNames at hname
    split at hname
    · obtain ⟨column, hcolumn, rfl⟩ := List.mem_map.1 hname
      exact ⟨column.readBack c.inlineKey,
        List.mem_map_of_mem (List.mem_filter.1 hcolumn).1, rfl⟩
    · cases hname
  rw [ofItems, hkeys, hcolumns, hconstraints, foldlM_markKey hdistinct hnamed, hmarked]
  rfl

/-- The words before the name are read as what they say, if no word follows the name. -/
theorem readGuard_guardTokens (c : CreateTable) {rest : List Token}
    (hrest : ∀ u ∈ rest.head?, u.kind ≠ .word) :
    readGuard (c.guardTokens ++ nameToken c.table :: rest) =
      (if c.ifNotExists then .ifNotExists else .unguarded, nameToken c.table :: rest) := by
  unfold guardTokens
  cases c.ifNotExists with
  | true => rfl
  | false => exact readGuard_unguarded hrest

theorem keyColumns_rewritten : c.rewritten.keyColumns = c.keyColumns.map Column.rewritten := by
  unfold keyColumns rewritten
  rw [List.filter_map]
  rfl

theorem blockParts_rewritten (h : c.Readable) : c.rewritten.blockParts = c.blockParts := by
  have hconstraints : c.rewritten.constraints = c.constraints := rfl
  have hcolumns : c.rewritten.columns.map (Column.write (c.keyColumns.length == 1)) =
      c.columns.map (Column.write (c.keyColumns.length == 1)) := by
    rw [rewritten, List.map_map]
    apply List.map_congr_left
    intro column hcolumn
    exact Column.write_rewritten (h.columns column hcolumn)
  have hnames : (c.keyColumns.map Column.rewritten).map (fun k => writeName k.name) =
      c.keyColumns.map fun k => writeName k.name := by
    rw [List.map_map]
    apply List.map_congr_left
    intro column _
    exact congrArg writeName (show column.rewritten.name = column.name from rfl)
  simp only [blockParts, keyColumns_rewritten, List.length_map, hcolumns, hnames, hconstraints]

/-- The definition that is read back is written as it was. -/
theorem write_rewritten (h : c.Readable) : c.rewritten.write = c.write := by
  have htable : c.rewritten.table = c.table := rfl
  have hguard : c.rewritten.ifNotExists = c.ifNotExists := rfl
  unfold write
  rw [blockParts_rewritten h, htable, hguard]

end CreateTable

end PgGateway
