import PgGateway.Proofs.Sql.Columns

/-!
# Column definitions, clause by clause

The definition of a column as it is put together: a name, the words of a type, and clauses
(`ColumnSyntax`). Where a clause ends is found by looking for the keyword of the next one, so a
clause is read as it was put together if keywords stand only where they do not end it
(`ClauseBody`). Every definition is then read as the column that its clauses describe, in whatever
order they stand (`column_of_clauses`).
-/

namespace PgGateway.Sql

variable {ends : Bool} {t : Token} {ts rest following : List Token}

/-! ## Clauses that end where the next one begins -/

/-- A keyword behind these tokens ends a clause that it ends in front of them if `ends`. Right
behind `SET` it does not. -/
def endsBehind (ends : Bool) (ts : List Token) : Bool :=
  ts.foldl (fun _ t => !t.isKeyword "SET") ends

/-- No column keyword ends the clause within these tokens: those outside parentheses stand where
they do not. -/
def KeywordsHeld (ends : Bool) (ts : List Token) : Prop :=
  ∀ front t back, ts = front ++ t :: back → Balanced 0 front →
    (ColumnKeyword.ofToken? t).isSome → endsBehind ends front = false

/-- What stands behind the keyword of a clause: an expression, or what a reference refers to and
does. Outside its parentheses a column keyword stands only first or right behind `SET`. It is not
empty and does not end in `SET`, so that a keyword behind it ends the clause. -/
structure ClauseBody where
  tokens : List Token
  balanced : Balanced 0 tokens
  held : ∀ i (hi : i < tokens.length), Balanced 0 (tokens.take i) →
    (ColumnKeyword.ofToken? tokens[i]).isSome → endsBehind false (tokens.take i) = false
  endable : endsBehind false tokens = true

theorem ClauseBody.keywordsHeld (body : ClauseBody) : KeywordsHeld false body.tokens := by
  intro front t back hsplit hfront hkeyword
  have htake : body.tokens.take front.length = front := by rw [hsplit, List.take_left]
  have hheld := body.held front.length (by simp [hsplit])
  rw [htake] at hheld
  exact hheld hfront (by simpa [hsplit] using hkeyword)

theorem ClauseBody.nonempty (body : ClauseBody) : body.tokens ≠ [] := by
  intro hnil
  have hlast := body.endable
  rw [hnil] at hlast
  cases hlast

theorem endsBehind_group {g : Group} (h : g.Sound) (ts : List Token) :
    endsBehind ends (g.tokens ++ ts) = endsBehind true ts := by
  have hset : g.closing.isKeyword "SET" = false := by
    simp [Token.isKeyword, not_word_of_symbol h.closing]
  rw [endsBehind, List.foldl_append, Group.tokens, List.foldl_append]
  show endsBehind (!g.closing.isKeyword "SET") ts = _
  rw [hset]
  rfl

theorem KeywordsHeld.group {g : Group} (hg : g.Sound) (h : KeywordsHeld ends (g.tokens ++ ts)) :
    KeywordsHeld true ts := by
  rintro front t back rfl hfront hkeyword
  rw [← endsBehind_group hg]
  exact h (g.tokens ++ front) t back (List.append_assoc ..).symm
    (hg.enclosed.balanced.append hfront) hkeyword

theorem KeywordsHeld.token (hopen : ¬t.isSymbol '(' = true) (hclose : ¬t.isSymbol ')' = true)
    (h : KeywordsHeld ends (t :: ts)) : KeywordsHeld (!t.isKeyword "SET") ts := by
  rintro front u back rfl hfront hkeyword
  refine h (t :: front) u back rfl ⟨fun hzero => hclose hzero.1, ?_⟩ hkeyword
  rwa [Token.depthAfter, if_neg hopen, if_neg hclose]

/-- **A clause is read to its end**, where nothing follows it or another clause. -/
theorem readClauseFrom_held (hbalanced : Balanced 0 ts) (hheld : KeywordsHeld ends ts)
    (hlast : endsBehind ends ts = true) (hbegins : BeginsClause following) :
    readClauseFrom ends (ts ++ following) = .ok (ts, following) := by
  -- on the number of tokens, since a group is passed over whole
  induction hlength : ts.length using Nat.strongRecOn generalizing ts ends with
  | _ n ih =>
  cases ts with
  | nil =>
    obtain rfl : ends = true := hlast
    exact readClauseFrom_stop hbegins
  | cons t ts =>
    by_cases hopen : t.isSymbol '(' = true
    · obtain ⟨g, rest, hg, hsplit, hrest⟩ := Balanced.exists_group hbalanced hopen
      have hshorter : rest.length < n := by
        rw [← hlength, hsplit]
        simp only [Group.tokens, List.length_append, List.length_cons]
        omega
      rw [hsplit] at hheld hlast ⊢
      rw [endsBehind_group hg] at hlast
      rw [List.append_assoc, readClauseFrom_group hg, ih _ hshorter hrest (hheld.group hg) hlast rfl]
      rfl
    · have hclose : ¬t.isSymbol ')' = true := fun hclose => hbalanced.1 ⟨hclose, rfl⟩
      have hrest : Balanced 0 ts := by
        have hlater := hbalanced.2
        rwa [Token.depthAfter, if_neg hopen, if_neg hclose] at hlater
      -- a column keyword here stands where it ends nothing
      have hends : (ends && (ColumnKeyword.ofToken? t).isSome) = false := by
        cases hkeyword : (ColumnKeyword.ofToken? t).isSome with
        | false => exact Bool.and_false ends
        | true =>
          have hnot : ends = false := hheld [] t ts rfl rfl hkeyword
          rw [hnot]
          rfl
      have hshorter : ts.length < n := hlength ▸ Nat.lt_succ_self ts.length
      rw [List.cons_append, readClauseFrom_token hends (by simpa using hopen),
        ih _ hshorter hrest (hheld.token hopen hclose) hlast rfl]
      rfl

theorem ClauseBody.readClause (body : ClauseBody) (hbegins : BeginsClause following) :
    readClause (body.tokens ++ following) = .ok (body.tokens, following) :=
  readClauseFrom_held body.balanced body.keywordsHeld body.endable hbegins

/-! ## The syntax of a column definition -/

/-- A token that is the keyword, in some letter case. -/
def Keyword (w : Text) : Type := { t : Token // t.isKeyword w = true }

/-- A clause of a column definition. The names of constraints and collations are any token. -/
inductive ColumnClause
  | notNull (not : Keyword "NOT") (null : Keyword "NULL")
  | null (null : Keyword "NULL")
  | primaryKey (primary : Keyword "PRIMARY") (key : Keyword "KEY")
  | unique (unique : Keyword "UNIQUE")
  | default (default : Keyword "DEFAULT") (expression : ClauseBody)
  | check (check : Keyword "CHECK") (condition : ClauseBody)
  | references (references : Keyword "REFERENCES") (target : ClauseBody)
  | constraint (constraint : Keyword "CONSTRAINT") (name : Token)
  | collate (collate : Keyword "COLLATE") (name : Token)

namespace ColumnClause

/-- The keyword that a clause begins with. -/
def keyword : ColumnClause → Token
  | notNull k _ | null k | primaryKey k _ | unique k | default k _ | check k _ | references k _
  | constraint k _ | collate k _ => k.1

/-- What stands behind it. -/
def body : ColumnClause → List Token
  | notNull _ k | primaryKey _ k => [k.1]
  | null _ | unique _ => []
  | default _ body | check _ body | references _ body => body.tokens
  | constraint _ name | collate _ name => [name]

/-- The tokens of a clause. -/
def tokens (c : ColumnClause) : List Token := c.keyword :: c.body

/-- What a clause says of the column. Defaults, checks and references are kept as they stand in the
text. -/
def item : ColumnClause → ColumnItem
  | notNull _ _ => .notNull
  | null _ => .null
  | primaryKey _ _ => .primaryKey
  | unique _ => .unique
  | default _ expression => .default (Token.verbatim expression.tokens)
  | check k condition => .forwarded (Token.verbatim (k.1 :: condition.tokens))
  | references k target => .forwarded (Token.verbatim (k.1 :: target.tokens))
  | constraint _ _ | collate _ _ => .dropped

end ColumnClause

/-- A part of a type: a word that is no column keyword, or arguments in parentheses. -/
inductive TypePart
  | word (t : Token) (hword : t.kind = .word) (hplain : ColumnKeyword.ofToken? t = none)
  | arguments (g : Group) (hg : g.Sound)

namespace TypePart

/-- The tokens of a part of a type. -/
def tokens : TypePart → List Token
  | word t _ _ => [t]
  | arguments g _ => g.tokens

/-- The word that a part of a type is, in upper case. -/
def word? : TypePart → Option Text
  | word t _ _ => some (Text.upper t.text)
  | arguments _ _ => none

end TypePart

/-- A column definition: a name, a type and clauses. -/
structure ColumnSyntax where
  name : Token
  isName : name.isName = true
  type : List TypePart
  clauses : List ColumnClause

namespace ColumnSyntax

/-- The tokens of a definition. -/
def tokens (d : ColumnSyntax) : List Token :=
  d.name :: (d.type.flatMap (·.tokens) ++ d.clauses.flatMap (·.tokens))

/-- The words of the type. -/
def words (d : ColumnSyntax) : List Text := d.type.filterMap (·.word?)

end ColumnSyntax

/-! ## Reading clauses -/

theorem ofToken?_of_isKeyword {k : ColumnKeyword} (h : t.isKeyword k.text = true) :
    ColumnKeyword.ofToken? t = some k := by
  simp only [Token.isKeyword, Bool.and_eq_true, beq_iff_eq] at h
  simp only [ColumnKeyword.ofToken?, Token.isKeyword, h.1, h.2, beq_self_eq_true, Bool.true_and]
  cases k <;> decide

namespace ColumnClause

theorem isKeyword_keyword (c : ColumnClause) :
    ∃ k : ColumnKeyword, c.keyword.isKeyword k.text = true := by
  cases c with
  | notNull k => exact ⟨.not, k.2⟩
  | null k => exact ⟨.null, k.2⟩
  | primaryKey k => exact ⟨.primary, k.2⟩
  | unique k => exact ⟨.unique, k.2⟩
  | default k => exact ⟨.default, k.2⟩
  | check k => exact ⟨.check, k.2⟩
  | references k => exact ⟨.references, k.2⟩
  | constraint k => exact ⟨.constraint, k.2⟩
  | collate k => exact ⟨.collate, k.2⟩

theorem kind_keyword (c : ColumnClause) : c.keyword.kind = .word := by
  obtain ⟨k, hk⟩ := c.isKeyword_keyword
  exact kind_of_isKeyword hk

theorem begins (c : ColumnClause) (rest : List Token) : BeginsClause (c.tokens ++ rest) := by
  rintro t ⟨⟩
  obtain ⟨k, hk⟩ := c.isKeyword_keyword
  rw [ofToken?_of_isKeyword hk]
  rfl

/-- **A clause is read as what it says**, where nothing follows it or another clause. -/
theorem readItem (c : ColumnClause) (hbegins : BeginsClause following) :
    Sql.readItem c.keyword (c.body ++ following) = .ok (c.item, following) := by
  cases c with
  | notNull k null =>
    have hk := ofToken?_of_isKeyword (k := .not) k.2
    simp only [Sql.readItem, keyword, hk, body]
    exact if_pos null.2
  | null k =>
    have hk := ofToken?_of_isKeyword (k := .null) k.2
    simp only [Sql.readItem, keyword, hk]
    rfl
  | primaryKey k key =>
    have hk := ofToken?_of_isKeyword (k := .primary) k.2
    simp only [Sql.readItem, keyword, hk, body]
    exact if_pos key.2
  | unique k =>
    have hk := ofToken?_of_isKeyword (k := .unique) k.2
    simp only [Sql.readItem, keyword, hk]
    rfl
  | default k expression =>
    have hk := ofToken?_of_isKeyword (k := .default) k.2
    simp only [Sql.readItem, keyword, hk, body, expression.readClause hbegins]
    exact if_neg (by simpa using expression.nonempty)
  | check k condition =>
    have hk := ofToken?_of_isKeyword (k := .check) k.2
    simp only [Sql.readItem, keyword, hk, body, condition.readClause hbegins]
    exact if_neg (by simpa using condition.nonempty)
  | references k target =>
    have hk := ofToken?_of_isKeyword (k := .references) k.2
    simp only [Sql.readItem, keyword, hk, body, target.readClause hbegins]
    exact if_neg (by simpa using target.nonempty)
  | constraint k name =>
    have hk := ofToken?_of_isKeyword (k := .constraint) k.2
    simp only [Sql.readItem, keyword, hk, body]
    rfl
  | collate k name =>
    have hk := ofToken?_of_isKeyword (k := .collate) k.2
    simp only [Sql.readItem, keyword, hk, body]
    rfl

/-- **Clauses are read one after the other.** -/
theorem readItems (cs : List ColumnClause) (hbegins : BeginsClause following) :
    Sql.readItems (cs.flatMap (·.tokens) ++ following) =
        (Sql.readItems following).map (cs.map (·.item) ++ ·) ∧
      BeginsClause (cs.flatMap (·.tokens) ++ following) := by
  induction cs with
  | nil => exact ⟨says_nil following, hbegins⟩
  | cons c cs ih =>
    obtain ⟨hread, hlater⟩ := ih
    rw [List.flatMap_cons, List.append_assoc]
    refine ⟨?_, c.begins _⟩
    show Sql.readItems (c.keyword :: (c.body ++ _)) = _
    rw [readItems_word c.kind_keyword (c.readItem hlater), hread]
    cases Sql.readItems following <;> rfl

end ColumnClause

/-! ## Reading types -/

namespace TypePart

theorem reads (p : TypePart) : Says p.tokens (p.word?.toList.map .typeWord) := by
  intro rest
  cases p with
  | word t hword hplain =>
    apply readItems_word hword
    simp only [readItem, hplain]
    rfl
  | arguments g hg =>
    rw [tokens, readItems_group hg]
    exact says_nil rest

/-- The words of a type are all that it says. -/
theorem reads_flatMap (ps : List TypePart) :
    Says (ps.flatMap (·.tokens)) ((ps.filterMap (·.word?)).map .typeWord) := by
  induction ps with
  | nil => exact says_nil
  | cons p ps ih =>
    have hboth := p.reads.append ih
    cases p <;> exact hboth

end TypePart

/-! ## What a definition means -/

namespace ColumnSyntax

/-- The column is as the clauses of the definition say, in whatever order they stand. -/
structure Describes (d : ColumnSyntax) (c : Column) : Prop where
  name : c.name = d.name.name
  type : c.type = ColumnType.ofWords d.words
  autoIncrement : c.autoIncrement = true ↔ ∃ w ∈ d.words, w ∈ ColumnType.serialWords
  primaryKey : c.primaryKey = true ↔ ∃ x ∈ d.clauses, x.item = .primaryKey
  unique : c.unique = true ↔ ∃ x ∈ d.clauses, x.item = .unique
  notNull : (∃ x ∈ d.clauses, x.item = .notNull) → c.nullable = false
  null : (¬∃ x ∈ d.clauses, x.item = .notNull) → (∃ x ∈ d.clauses, x.item = .null) →
    c.nullable = true
  unsaid : (¬∃ x ∈ d.clauses, x.item = .notNull) → (¬∃ x ∈ d.clauses, x.item = .null) →
    c.nullable = !c.primaryKey
  default : c.defaultText = (d.clauses.filterMap (·.item.default?)).getLast?
  constraints : c.constraints = d.clauses.filterMap (·.item.forwarded?)

/-- What the parts of a definition say. -/
def items (d : ColumnSyntax) : List ColumnItem :=
  d.words.map .typeWord ++ d.clauses.map (·.item)

theorem ofTokens (d : ColumnSyntax) :
    Column.ofTokens d.tokens = .ok (Column.ofItems d.name.name d.items) := by
  have hend : BeginsClause [] := nofun
  have hclauses := (ColumnClause.readItems d.clauses hend).1
  rw [List.append_nil, readItems] at hclauses
  rw [tokens, Column.ofTokens, if_pos d.isName, TypePart.reads_flatMap, hclauses]
  simp [Except.map, items, words]

/-- What is looked for in the clauses is not found in the type. -/
theorem filterMap_items {f : ColumnItem → Option Text} (hf : ∀ w, f (.typeWord w) = none)
    (d : ColumnSyntax) : d.items.filterMap f = d.clauses.filterMap (f ·.item) := by
  simp [items, List.filterMap_map, hf]

theorem words_items (d : ColumnSyntax) : d.items.filterMap (·.typeWord?) = d.words := by
  have hclause : ∀ c : ColumnClause, c.item.typeWord? = none := by
    intro c
    cases c <;> rfl
  have hword : ∀ w, (ColumnItem.typeWord w).typeWord? = some w := fun _ => rfl
  simp [items, List.filterMap_map, hclause, hword]

theorem contains_items {item : ColumnItem} (hitem : item.typeWord? = none) (d : ColumnSyntax) :
    d.items.contains item = true ↔ ∃ x ∈ d.clauses, x.item = item := by
  have htype : item ∉ d.words.map ColumnItem.typeWord := by
    intro hmem
    obtain ⟨w, -, rfl⟩ := List.mem_map.1 hmem
    cases hitem
  rw [List.contains_iff_mem, items, List.mem_append, or_iff_right htype, List.mem_map]

theorem describes (d : ColumnSyntax) : d.Describes (Column.ofItems d.name.name d.items) := by
  have hnotNull : d.items.contains .notNull = true ↔ _ := d.contains_items rfl
  have hnull : d.items.contains .null = true ↔ _ := d.contains_items rfl
  have hidentity : d.items.contains .identity = false := by
    rw [← Bool.not_eq_true, d.contains_items rfl]
    rintro ⟨x, -, hx⟩
    cases x <;> cases hx
  constructor
  case name => rfl
  case type => rw [Column.ofItems, words_items]
  case autoIncrement =>
    rw [Column.ofItems, words_items, hidentity]
    simp [ColumnType.mentions]
  case primaryKey => exact d.contains_items rfl
  case unique => exact d.contains_items rfl
  case notNull =>
    intro h
    rw [Column.nullable, Column.ofItems, if_pos (hnotNull.2 h)]
    rfl
  case null =>
    intro h h'
    rw [Column.nullable, Column.ofItems, if_neg (hnotNull.not.2 h), if_pos (hnull.2 h')]
    rfl
  case unsaid =>
    intro h h'
    rw [Column.nullable, Column.ofItems, if_neg (hnotNull.not.2 h), if_neg (hnull.not.2 h')]
    rfl
  case default => exact congrArg List.getLast? (d.filterMap_items fun _ => rfl)
  case constraints => exact d.filterMap_items fun _ => rfl

/-- Clauses in another order describe the same column, but for the order in which clauses are passed
on and for which default is the last. -/
theorem ofItems_perm (d : ColumnSyntax) {clauses : List ColumnClause} (h : clauses.Perm d.clauses) :
    Column.ofItems d.name.name { d with clauses }.items =
      { Column.ofItems d.name.name d.items with
        defaultText := (clauses.filterMap (·.item.default?)).getLast?
        constraints := clauses.filterMap (·.item.forwarded?) } := by
  have hitems : ({ d with clauses } : ColumnSyntax).items.Perm d.items :=
    (h.map _).append_left _
  have hcontains : ∀ item, ({ d with clauses } : ColumnSyntax).items.contains item =
      d.items.contains item := by
    intro item
    rw [Bool.eq_iff_iff, List.contains_iff_mem, List.contains_iff_mem, hitems.mem_iff]
  have hdefault :=
    ({ d with clauses } : ColumnSyntax).filterMap_items (f := (·.default?)) fun _ => rfl
  have hforwarded :=
    ({ d with clauses } : ColumnSyntax).filterMap_items (f := (·.forwarded?)) fun _ => rfl
  unfold Column.ofItems
  simp only [words_items, hcontains, hdefault, hforwarded]
  rfl

end ColumnSyntax

/-- **A column definition means what its clauses say, in any order.** Every definition that is put
together from a name, a type and clauses is recognised, and describes its column. With its clauses
in another order it describes the same column, with the same clauses passed on in that order and the
default that is the last one then. -/
theorem column_of_clauses (d : ColumnSyntax) :
    ∃ c, Column.ofTokens d.tokens = .ok c ∧ d.Describes c ∧
      ∀ clauses, clauses.Perm d.clauses →
        ∃ c', Column.ofTokens { d with clauses }.tokens = .ok c' ∧
          c' = { c with defaultText := c'.defaultText, constraints := c'.constraints } ∧
          c'.constraints.Perm c.constraints ∧
          c'.defaultText = (clauses.filterMap (·.item.default?)).getLast? ∧
          c'.constraints = clauses.filterMap (·.item.forwarded?) := by
  refine ⟨_, d.ofTokens, d.describes, fun clauses hperm => ⟨_, ColumnSyntax.ofTokens _, ?_⟩⟩
  rw [d.ofItems_perm hperm]
  refine ⟨rfl, ?_, rfl, rfl⟩
  rw [d.describes.constraints]
  exact hperm.filterMap _

/-- What stands behind `DEFAULT`: a word that is a column keyword. -/
def nullBody : ClauseBody where
  tokens := [.bare "NULL"]
  balanced := by decide
  held := by decide
  endable := by decide

/-- A reference that ends in a column keyword. -/
def usersBody : ClauseBody where
  tokens := .bare "users" :: (grouped [] [⟨[], .word, "id"⟩]).tokens ++
    [.bare "ON", .bare "DELETE", .bare "SET", .bare "NULL"]
  balanced := by decide
  held := by decide
  endable := by decide

/-- A condition with column keywords in its parentheses. -/
def ownerBody : ClauseBody where
  tokens := (grouped [] [⟨[], .word, "owner"⟩, .bare "IS", .bare "NOT", .bare "NULL"]).tokens
  balanced := by decide
  held := by decide
  endable := by decide

/-- A column with all of them. -/
def owner : ColumnSyntax where
  name := .bare "owner"
  isName := rfl
  type := [.word (.bare "INT") rfl (by decide)]
  clauses := [.default ⟨.bare "DEFAULT", by decide⟩ nullBody,
    .references ⟨.bare "REFERENCES", by decide⟩ usersBody,
    .notNull ⟨.bare "NOT", by decide⟩ ⟨.bare "NULL", by decide⟩,
    .check ⟨.bare "CHECK", by decide⟩ ownerBody]

/-- The keywords within the clauses do not end them, and in the opposite order they say the same. -/
theorem column_of_clauses_owner : ∃ c c', Column.ofTokens owner.tokens = .ok c ∧
    Column.ofTokens { owner with clauses := owner.clauses.reverse }.tokens = .ok c' ∧
    c.nullable = false ∧ c.defaultText = some "NULL" ∧
    c.constraints = ["REFERENCES users (id) ON DELETE SET NULL", "CHECK (owner IS NOT NULL)"] ∧
    c' = { c with constraints := c.constraints.reverse } := by
  obtain ⟨c, hc, hdescribes, hperm⟩ := column_of_clauses owner
  obtain ⟨c', hc', hsame, -, hdefault, hconstraints⟩ := hperm _ owner.clauses.reverse_perm
  refine ⟨c, c', hc, hc', hdescribes.notNull (by decide), ?_, ?_, ?_⟩
  · rw [hdescribes.default]
    decide
  · rw [hdescribes.constraints]
    decide
  · have hone : c'.defaultText = c.defaultText := by
      rw [hdefault, hdescribes.default]
      decide
    rw [hsame, hone, hconstraints, hdescribes.constraints, List.filterMap_reverse]

end PgGateway.Sql
