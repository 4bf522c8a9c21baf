import PgGateway.Proofs.Sql.ColumnSyntax
import PgGateway.Proofs.Sql.Tables

/-!
# What a table definition begins with

Behind its first two words the definition of a table is perhaps `IF NOT EXISTS`, the name of the
table and a block in parentheses (`TableSyntax`). Whatever is recognised as a definition begins so
(`TableSyntax.exists_of_ofTokens`), and it is recognised by that alone, whatever follows the block
(`TableSyntax.ofTokens_append`). A written definition is recognised as the table that it was written
for (`CreateTable.ofTokens_nameTokens`).
-/

namespace PgGateway

namespace Sql

variable {t : Token} {table : Text} {guarded : ExistenceGuard} {ts rest : List Token}

theorem kind_ne_word {c : Char} (h : t.isSymbol c = true) : t.kind ≠ .word := by
  simp only [Token.isSymbol, Bool.and_eq_true, beq_iff_eq] at h
  simp [h.1]

/-! ## Guards -/

/-- The words `IF NOT EXISTS`. -/
structure IfNotExists where
  ifWord : Keyword "IF"
  notWord : Keyword "NOT"
  existsWord : Keyword "EXISTS"

/-- The tokens of a guard, if there is one. -/
def guardWords : Option IfNotExists → List Token
  | some k => [k.ifWord.1, k.notWord.1, k.existsWord.1]
  | none => []

/-- What a guard says. -/
def guardOf (guard : Option IfNotExists) : ExistenceGuard :=
  if guard.isSome then .ifNotExists else .unguarded

theorem readGuard_ifNotExists (k : IfNotExists) (rest : List Token) :
    readGuard (guardWords (some k) ++ rest) = (.ifNotExists, rest) := by
  have hif : Token.startsWith "IF" (guardWords (some k) ++ rest) = true := k.ifWord.2
  have hother : Token.startsWith "EXISTS" (guardWords (some k) ++ rest).tail = false :=
    isKeyword_ne k.notWord.2 (by decide)
  have hnot : Token.startsWith "NOT" (guardWords (some k) ++ rest).tail = true := k.notWord.2
  have hexists : Token.startsWith "EXISTS" ((guardWords (some k) ++ rest).drop 2) = true :=
    k.existsWord.2
  rw [readGuard, if_pos hif, hother, hnot, hexists]
  rfl

/-- A guard is `IF NOT EXISTS`, or there is none, unless it is one that a definition cannot have. -/
theorem exists_of_readGuard (h : readGuard ts = (guarded, rest)) (hguarded : guarded ≠ .ifExists) :
    ∃ guard, ts = guardWords guard ++ rest := by
  unfold readGuard at h
  split at h
  · next hif =>
    split at h
    · cases h
      exact absurd rfl hguarded
    · split at h
      · next hwords =>
        cases h
        rw [Bool.and_eq_true] at hwords
        obtain ⟨t, ts, rfl, ht⟩ := startsWith_iff.1 hif
        obtain ⟨u, us, hu, hnot⟩ := startsWith_iff.1 hwords.1
        obtain rfl : ts = u :: us := hu
        obtain ⟨v, vs, hv, hexists⟩ := startsWith_iff.1 hwords.2
        obtain rfl : us = v :: vs := hv
        exact ⟨some ⟨⟨t, ht⟩, ⟨u, hnot⟩, ⟨v, hexists⟩⟩, rfl⟩
      · cases h
        exact ⟨none, rfl⟩
  · cases h
    exact ⟨none, rfl⟩

/-! ## Names of tables -/

/-- The name of a table, perhaps with a schema in front of it. -/
structure TableName where
  schema : Option ({ t : Token // t.isName = true } × { t : Token // t.isSymbol '.' = true })
  name : { t : Token // t.isName = true }

namespace TableName

/-- The tokens of the name, with those of its schema. -/
def tokens (n : TableName) : List Token :=
  match n.schema with
  | some (schema, dot) => [schema.1, dot.1, n.name.1]
  | none => [n.name.1]

end TableName

theorem readTableName_tokens (n : TableName) (hrest : ∀ u ∈ rest.head?, u.isSymbol '.' = false) :
    readTableName (n.tokens ++ rest) = some (n.name.1.name, rest) := by
  unfold TableName.tokens
  split
  · next schema dot _ =>
    have hqualified : (dot.1.isSymbol '.' && n.name.1.isName) = true := by
      rw [dot.2, n.name.2]
      rfl
    show readTableName (schema.1 :: dot.1 :: n.name.1 :: rest) = _
    rw [readTableName, if_pos schema.2]
    exact if_pos hqualified
  · exact readTableName_token n.name.2 hrest

/-- A name is no guard, whatever it is. -/
theorem readGuard_tokens (n : TableName) (hrest : ∀ u ∈ rest.head?, u.kind ≠ .word) :
    readGuard (n.tokens ++ rest) = (.unguarded, n.tokens ++ rest) := by
  unfold TableName.tokens
  split
  · next schema dot _ =>
    apply readGuard_unguarded
    intro u hu
    cases hu
    exact kind_ne_word dot.2
  · exact readGuard_unguarded hrest

theorem exists_of_readTableName (h : readTableName ts = some (table, rest)) :
    ∃ n : TableName, ts = n.tokens ++ rest := by
  unfold readTableName at h
  split at h
  · cases h
  · next t us =>
    split at h
    · next ht =>
      split at h
      · next dot u us' =>
        split at h
        · next hqualified =>
          cases h
          rw [Bool.and_eq_true] at hqualified
          exact ⟨⟨some (⟨t, ht⟩, ⟨dot, hqualified.1⟩), ⟨u, hqualified.2⟩⟩, rfl⟩
        · cases h
          exact ⟨⟨none, ⟨t, ht⟩⟩, rfl⟩
      · cases h
        exact ⟨⟨none, ⟨t, ht⟩⟩, rfl⟩
    · cases h

/-! ## Definitions -/

/-- What the definition of a table is behind its first two words. -/
structure TableSyntax where
  guard : Option IfNotExists
  name : TableName
  block : { g : Group // g.Sound }

namespace TableSyntax

variable {c : CreateTable}

/-- The tokens of a definition behind its first two words. -/
def tokens (d : TableSyntax) : List Token :=
  guardWords d.guard ++ (d.name.tokens ++ d.block.1.tokens)

/-- The table that a definition describes. -/
def read (d : TableSyntax) : Except Fault CreateTable :=
  if d.block.1.inside.isEmpty then .error .noColumns
  else do
    CreateTable.ofItems d.name.name.1.name d.guard.isSome
      (← (parts d.block.1.inside).mapM readTableItem)

/-- **A definition is recognised by its tokens up to the end of its block**, whatever follows. -/
theorem ofTokens_append (d : TableSyntax) (after : List Token) :
    CreateTable.ofTokens (d.tokens ++ after) = d.read := by
  have hopen := d.block.2.opening
  have hopens : Token.opensWith '(' (d.block.1.tokens ++ after) = true := hopen
  have hword : ∀ u ∈ (d.block.1.tokens ++ after).head?, u.kind ≠ .word := by
    intro u hu
    cases hu
    exact kind_ne_word hopen
  have hdot : ∀ u ∈ (d.block.1.tokens ++ after).head?, u.isSymbol '.' = false := by
    intro u hu
    cases hu
    exact isSymbol_ne hopen (by decide)
  have hguard : readGuard (d.tokens ++ after) =
      (guardOf d.guard, d.name.tokens ++ (d.block.1.tokens ++ after)) := by
    rw [tokens, List.append_assoc, List.append_assoc]
    cases d.guard with
    | some k => exact readGuard_ifNotExists k _
    | none => exact readGuard_tokens d.name hword
  unfold CreateTable.ofTokens
  split
  · next h =>
    -- a guard of a definition is not `IF EXISTS`
    rw [hguard] at h
    cases hnone : d.guard <;> rw [hnone] at h <;> cases h
  · next guarded rest _ h =>
    rw [hguard] at h
    obtain ⟨rfl, rfl⟩ := Prod.mk.inj h
    rw [readTableName_tokens d.name hdot]
    dsimp only
    rw [if_pos hopens, d.block.2.readGroup]
    dsimp only
    have hflag : (guardOf d.guard == .ifNotExists) = d.guard.isSome := by
      cases d.guard <;> rfl
    rw [hflag]
    rfl

/-- Whatever is recognised as a definition begins with one. -/
theorem exists_of_ofTokens (h : CreateTable.ofTokens ts = .ok c) :
    ∃ (d : TableSyntax) (after : List Token), ts = d.tokens ++ after ∧ d.read = .ok c := by
  have hbegins : ∃ (d : TableSyntax) (after : List Token), ts = d.tokens ++ after := by
    unfold CreateTable.ofTokens at h
    split at h
    · cases h
    · next guarded rest hguarded hguard =>
      obtain ⟨guard, rfl⟩ := exists_of_readGuard hguard hguarded
      split at h
      · cases h
      · next table rest' hname =>
        obtain ⟨n, rfl⟩ := exists_of_readTableName hname
        split at h
        · split at h
          · cases h
          · next g after hg =>
            exact ⟨⟨guard, n, ⟨g, readGroup_sound hg⟩⟩, after, by simp [tokens, readGroup_eq hg]⟩
        · cases h
  obtain ⟨d, after, rfl⟩ := hbegins
  exact ⟨d, after, rfl, (d.ofTokens_append after).symm.trans h⟩

end TableSyntax

end Sql

open Sql

/-! ## Written definitions -/

namespace CreateTable

variable {c : CreateTable}

/-- A written definition behind its first two words. -/
def written (c : CreateTable) (h : c.Readable) : TableSyntax where
  guard :=
    if c.ifNotExists then some ⟨⟨.bare "IF", rfl⟩, ⟨.bare "NOT", rfl⟩, ⟨.bare "EXISTS", rfl⟩⟩
    else none
  name := ⟨none, ⟨nameToken c.table, isName_nameToken c.table⟩⟩
  block := ⟨c.block, block_sound h⟩

theorem tokens_written (h : c.Readable) : (c.written h).tokens = c.nameTokens := by
  unfold TableSyntax.tokens written nameTokens guardTokens
  cases c.ifNotExists <;> rfl

theorem read_written (h : c.Readable) (hnames : c.WellNamed) :
    (c.written h).read = .ok c.rewritten := by
  have hinside : c.block.inside.isEmpty = false := by
    rw [List.isEmpty_eq_false_iff]
    intro hnil
    have hrender := render_separate (blockRuns_ne_nil h.lifted) (map_render_blockRuns h.lifted)
    rw [show separate _ c.blockRuns = [] from hnil] at hrender
    cases hrender
  have hflag : (c.written h).guard.isSome = c.ifNotExists := by
    unfold written
    cases c.ifNotExists <;> rfl
  have hname : (c.written h).name.name.1.name = c.table := name_nameToken c.table
  have hblock : (c.written h).block.1 = c.block := rfl
  rw [TableSyntax.read, hflag, hname, hblock, hinside, readTableItems_block h hnames]
  exact ofItems_block hnames

/-- **A written definition is recognised** as the table that it was written for. -/
theorem ofTokens_nameTokens (h : c.Readable) (hnames : c.WellNamed) :
    ofTokens c.nameTokens = .ok c.rewritten := by
  have hread := (c.written h).ofTokens_append []
  rwa [List.append_nil, tokens_written, read_written h hnames] at hread

end CreateTable

end PgGateway
