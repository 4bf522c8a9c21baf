import PgGateway.Proofs.Sql.ColumnSyntax
import PgGateway.Proofs.Sql.Translation

/-!
# Identity clauses

A column that numbers itself is marked by an identity clause, which is to say nothing else of it.
The clause has two spellings. The one with `ALWAYS` marks the column, wherever it stands among the
other clauses (`column_of_identity`). The one with `BY DEFAULT` holds the keyword that a default
begins with, and is read as two clauses: a generated value that ends there, and a default that
begins there. It does not mark the column, and it leaves it with a clause and a default that nobody
gave it (`identity_not_marked`).
-/

namespace PgGateway

namespace Sql

variable {t : Token} {w : Text} {ts us following words : List Token}

/-! ## Clauses one after the other -/

section

variable {item : ColumnItem} {items items' : List ColumnItem}

/-- The tokens are clauses that say just these things of a column, wherever nothing follows them or
another clause. -/
def ClausesSay (ts : List Token) (items : List ColumnItem) : Prop :=
  ∀ following, BeginsClause following →
    readItems (ts ++ following) = (readItems following).map (items ++ ·) ∧
      BeginsClause (ts ++ following)

theorem ClausesSay.nil : ClausesSay [] [] := fun following hbegins => ⟨says_nil following, hbegins⟩

theorem ClausesSay.append (hts : ClausesSay ts items) (hus : ClausesSay us items') :
    ClausesSay (ts ++ us) (items ++ items') := by
  intro following hbegins
  obtain ⟨hlater, hnext⟩ := hus following hbegins
  obtain ⟨hread, hfirst⟩ := hts (us ++ following) hnext
  rw [List.append_assoc]
  refine ⟨?_, hfirst⟩
  rw [hread, hlater]
  cases readItems following <;> simp [Except.map]

theorem ClausesSay.flatMap {α : Type} {l : List α} {f : α → List Token} {g : α → ColumnItem}
    (h : ∀ a ∈ l, ClausesSay (f a) [g a]) : ClausesSay (l.flatMap f) (l.map g) := by
  induction l with
  | nil => exact .nil
  | cons a l ih =>
    rw [List.flatMap_cons, List.map_cons]
    exact (h a (by simp)).append (ih fun b hb => h b (List.mem_cons_of_mem _ hb))

/-- One clause, which begins with its keyword. -/
theorem ClausesSay.clause {k : ColumnKeyword} (hk : t.isKeyword k.text = true)
    (h : ∀ following, BeginsClause following →
      readItem t (ts ++ following) = .ok (item, following)) :
    ClausesSay (t :: ts) [item] := by
  intro following hbegins
  constructor
  · exact readItems_word (kind_of_isKeyword hk) (h following hbegins)
  · rintro u ⟨⟩
    rw [ofToken?_of_isKeyword hk]
    rfl

theorem ColumnClause.clausesSay (c : ColumnClause) : ClausesSay c.tokens [c.item] := by
  obtain ⟨k, hk⟩ := c.isKeyword_keyword
  exact .clause hk fun following hbegins => c.readItem hbegins

end

/-! ## Clauses of plain words -/

/-- A word that neither ends a clause nor keeps one from ending. -/
structure Token.Plain (t : Token) : Prop where
  word : t.kind = .word
  noKeyword : ColumnKeyword.ofToken? t = none
  noSet : t.isKeyword "SET" = false

theorem Token.plain_of_isKeyword (h : t.isKeyword w = true)
    (hkeyword : ∀ k : ColumnKeyword, Text.lower k.text ≠ Text.lower w)
    (hset : Text.lower w ≠ Text.lower "SET") : t.Plain where
  word := kind_of_isKeyword h
  noKeyword := by
    rw [ColumnKeyword.ofToken?, List.find?_eq_none]
    intro k _ hk
    exact absurd hk (by simp [isKeyword_ne h (hkeyword k).symm])
  noSet := isKeyword_ne h hset

theorem Token.Plain.readClauseFrom {ends : Bool} (h : t.Plain) : readClauseFrom ends (t :: ts) =
    (readClauseFrom true ts).map fun r => (t :: r.1, r.2) := by
  have hopen : t.isSymbol '(' = false := by simp [Token.isSymbol, h.word]
  rw [readClauseFrom_token (by simp [h.noKeyword]) hopen, h.noSet]
  rfl

/-- A list in parentheses, or nothing. -/
def optionTokens : Option { g : Group // g.Sound } → List Token
  | some g => g.1.tokens
  | none => []

/-- **A clause of plain words is read to its end**, with the list in parentheses that may stand
behind them. -/
theorem readClause_plain (options : Option { g : Group // g.Sound }) (hfirst : t.Plain)
    (hwords : ∀ u ∈ words, u.Plain) (hbegins : BeginsClause following) :
    readClause (t :: words ++ optionTokens options ++ following) =
      .ok (t :: words ++ optionTokens options, following) := by
  have hlater : readClauseFrom true (words ++ optionTokens options ++ following) =
      .ok (words ++ optionTokens options, following) := by
    clear hfirst
    induction words with
    | nil =>
      rw [List.nil_append]
      cases options with
      | none => exact readClauseFrom_stop hbegins
      | some g =>
        show readClauseFrom true (g.1.tokens ++ following) = .ok (g.1.tokens, following)
        rw [readClauseFrom_group g.2, readClauseFrom_stop hbegins]
        simp [Except.map]
    | cons u words ih =>
      rw [List.cons_append, List.cons_append, (hwords u (by simp)).readClauseFrom,
        ih fun v hv => hwords v (List.mem_cons_of_mem _ hv)]
      rfl
  rw [List.cons_append, List.cons_append, readClause, hfirst.readClauseFrom, hlater]
  rfl

/-! ## The clauses of a column -/

/-- What a clause with `GENERATED` says: that the column numbers itself, if it mentions an identity,
and otherwise it is passed on. -/
def generatedItem (t : Token) (ts : List Token) : ColumnItem :=
  if ts.any (·.isKeyword "IDENTITY") then .identity else .forwarded (Token.verbatim (t :: ts))

theorem clausesSay_generated (hk : t.isKeyword "GENERATED" = true)
    (h : ∀ following, BeginsClause following → readClause (ts ++ following) = .ok (ts, following)) :
    ClausesSay (t :: ts) [generatedItem t ts] := by
  apply ClausesSay.clause (k := .generated) hk
  intro following hbegins
  have hkeyword := ofToken?_of_isKeyword (k := .generated) hk
  simp only [readItem, hkeyword, h following hbegins, generatedItem]
  split <;> rfl

theorem clausesSay_default (hk : t.isKeyword "DEFAULT" = true) (hne : ts ≠ [])
    (h : ∀ following, BeginsClause following → readClause (ts ++ following) = .ok (ts, following)) :
    ClausesSay (t :: ts) [.default (Token.verbatim ts)] := by
  apply ClausesSay.clause (k := .default) hk
  intro following hbegins
  have hkeyword := ofToken?_of_isKeyword (k := .default) hk
  simp only [readItem, hkeyword, h following hbegins]
  exact if_neg (by simpa using hne)

/-- A clause of a column, or a value that is generated for it. -/
inductive AnyClause
  | listed (clause : ColumnClause)
  | generated (generated : Keyword "GENERATED") (value : ClauseBody)

namespace AnyClause

/-- The tokens of a clause. -/
def tokens : AnyClause → List Token
  | listed clause => clause.tokens
  | generated k value => k.1 :: value.tokens

/-- What a clause says of the column. -/
def item : AnyClause → ColumnItem
  | listed clause => clause.item
  | generated k value => generatedItem k.1 value.tokens

theorem clausesSay (c : AnyClause) : ClausesSay c.tokens [c.item] := by
  cases c with
  | listed clause => exact clause.clausesSay
  | generated k value => exact clausesSay_generated k.2 fun _ hbegins => value.readClause hbegins

end AnyClause

/-! ## Identity clauses -/

/-- When a column numbers itself: always, or where no value is given. -/
inductive IdentityMode
  | always (always : Keyword "ALWAYS")
  | byDefault (byWord : Keyword "BY") (default : Keyword "DEFAULT")

/-- An identity clause, perhaps with a list of options in parentheses. -/
structure IdentityClause where
  generated : Keyword "GENERATED"
  mode : IdentityMode
  asWord : Keyword "AS"
  identity : Keyword "IDENTITY"
  options : Option { g : Group // g.Sound }

/-- The words between `GENERATED` and `AS`. -/
def IdentityMode.tokens : IdentityMode → List Token
  | always k => [k.1]
  | byDefault k k' => [k.1, k'.1]

namespace IdentityClause

/-- What stands behind the words for the mode. -/
def tail (c : IdentityClause) : List Token :=
  c.asWord.1 :: [c.identity.1] ++ optionTokens c.options

/-- The tokens of an identity clause. -/
def tokens (c : IdentityClause) : List Token := c.generated.1 :: (c.mode.tokens ++ c.tail)

/-- What an identity clause is read as. With `BY DEFAULT` it is two clauses, of which the second one
is a default. -/
def items (c : IdentityClause) : List ColumnItem :=
  match c.mode with
  | .always _ => [.identity]
  | .byDefault k _ => [.forwarded (Token.verbatim [c.generated.1, k.1]),
      .default (Token.verbatim c.tail)]

theorem plain_asWord (c : IdentityClause) : c.asWord.1.Plain :=
  Token.plain_of_isKeyword c.asWord.2 (by rintro ⟨⟩ <;> decide) (by decide)

theorem plain_identity (c : IdentityClause) : c.identity.1.Plain :=
  Token.plain_of_isKeyword c.identity.2 (by rintro ⟨⟩ <;> decide) (by decide)

/-- **What an identity clause is read as**, wherever it stands among clauses. -/
theorem clausesSay (c : IdentityClause) : ClausesSay c.tokens c.items := by
  unfold tokens items
  cases c.mode with
  | always k =>
    have hplain : k.1.Plain :=
      Token.plain_of_isKeyword k.2 (by rintro ⟨⟩ <;> decide) (by decide)
    have hwords : ∀ u ∈ [c.asWord.1, c.identity.1], u.Plain := by
      simpa using ⟨c.plain_asWord, c.plain_identity⟩
    have hsays := clausesSay_generated c.generated.2 fun following hbegins =>
      readClause_plain c.options hplain hwords hbegins
    have hidentity : generatedItem c.generated.1 (k.1 :: [c.asWord.1, c.identity.1] ++
        optionTokens c.options) = .identity := by
      rw [generatedItem, if_pos]
      exact List.any_eq_true.2 ⟨c.identity.1, by simp, c.identity.2⟩
    rwa [hidentity] at hsays
  | byDefault k k' =>
    have hplain : k.1.Plain :=
      Token.plain_of_isKeyword k.2 (by rintro ⟨⟩ <;> decide) (by decide)
    -- the first clause ends before `DEFAULT`, and mentions no identity
    have hfirst : ClausesSay [c.generated.1, k.1]
        [.forwarded (Token.verbatim [c.generated.1, k.1])] := by
      have hends : ∀ following, BeginsClause following →
          readClause ([k.1] ++ following) = .ok ([k.1], following) := by
        intro following hbegins
        have hnone : ∀ u ∈ ([] : List Token), u.Plain := nofun
        exact readClause_plain none hplain hnone hbegins
      have hsays := clausesSay_generated c.generated.2 hends
      have hother : k.1.isKeyword "IDENTITY" = false := isKeyword_ne k.2 (by decide)
      have hpassed : generatedItem c.generated.1 [k.1] =
          .forwarded (Token.verbatim [c.generated.1, k.1]) := by
        rw [generatedItem, if_neg]
        simpa using hother
      rwa [hpassed] at hsays
    have hsecond : ClausesSay (k'.1 :: c.tail) [.default (Token.verbatim c.tail)] := by
      have hwords : ∀ u ∈ [c.identity.1], u.Plain := by simpa using c.plain_identity
      exact clausesSay_default k'.2 (List.cons_ne_nil _ _) fun following hbegins =>
        readClause_plain c.options c.plain_asWord hwords hbegins
    exact hfirst.append hsecond

end IdentityClause

/-! ## Columns with an identity clause -/

/-- A column definition with an identity clause among its other clauses. -/
structure IdentitySyntax where
  name : Token
  isName : name.isName = true
  type : List TypePart
  front : List AnyClause
  identity : IdentityClause
  back : List AnyClause

namespace IdentitySyntax

variable (d : IdentitySyntax)

/-- The tokens of the definition. -/
def tokens : List Token :=
  d.name :: (d.type.flatMap (·.tokens) ++ (d.front.flatMap (·.tokens) ++
    (d.identity.tokens ++ d.back.flatMap (·.tokens))))

/-- The tokens of the definition without its identity clause. -/
def plainTokens : List Token :=
  d.name :: (d.type.flatMap (·.tokens) ++ (d.front ++ d.back).flatMap (·.tokens))

/-- What the type says. -/
def typeItems : List ColumnItem := (d.type.filterMap (·.word?)).map .typeWord

/-- The column without its identity clause. -/
def plainColumn : Column :=
  Column.ofItems d.name.name (d.typeItems ++ (d.front.map (·.item) ++ d.back.map (·.item)))

/-- Clauses behind the type, read to the end of the definition. -/
theorem ofTokens_of_clausesSay {items : List ColumnItem} (h : ClausesSay ts items) :
    Column.ofTokens (d.name :: (d.type.flatMap (·.tokens) ++ ts)) =
      .ok (Column.ofItems d.name.name (d.typeItems ++ items)) := by
  obtain ⟨hread, -⟩ := h [] nofun
  rw [List.append_nil, readItems] at hread
  rw [Column.ofTokens, if_pos d.isName, TypePart.reads_flatMap, hread]
  simp [Except.map, typeItems]

theorem ofTokens_plainTokens : Column.ofTokens d.plainTokens = .ok d.plainColumn := by
  have hclauses := ClausesSay.flatMap (l := d.front ++ d.back) fun c _ => c.clausesSay
  rw [List.map_append] at hclauses
  exact d.ofTokens_of_clausesSay hclauses

theorem ofTokens_tokens : Column.ofTokens d.tokens = .ok (Column.ofItems d.name.name
    (d.typeItems ++ (d.front.map (·.item) ++ (d.identity.items ++ d.back.map (·.item))))) := by
  have hfront := ClausesSay.flatMap (l := d.front) fun c _ => c.clausesSay
  have hback := ClausesSay.flatMap (l := d.back) fun c _ => c.clausesSay
  exact d.ofTokens_of_clausesSay (hfront.append (d.identity.clausesSay.append hback))

end IdentitySyntax

end Sql

/-! ## What is added to a column -/

namespace Column

open Sql

variable {name : Text} {xs ys : List ColumnItem}

/-- That a column numbers itself changes nothing else of it. -/
theorem ofItems_identity : ofItems name (xs ++ .identity :: ys) =
    { ofItems name (xs ++ ys) with autoIncrement := true } := by
  simp [ofItems, List.filterMap_append, ColumnItem.typeWord?, ColumnItem.default?,
    ColumnItem.forwarded?]

/-- A clause that is passed on is passed on in its place, and a default counts if it is the last. -/
theorem ofItems_forwarded_default {clause expression : Text} :
    ofItems name (xs ++ .forwarded clause :: .default expression :: ys) =
      { ofItems name (xs ++ ys) with
        defaultText := (expression :: ys.filterMap (·.default?)).getLast?
        constraints := xs.filterMap (·.forwarded?) ++ clause :: ys.filterMap (·.forwarded?) } := by
  have hdefaults : (xs.filterMap (·.default?) ++ expression :: ys.filterMap (·.default?)).getLast? =
      (expression :: ys.filterMap (·.default?)).getLast? :=
    List.getLast?_append_of_ne_nil _ (List.cons_ne_nil _ _)
  simpa [ofItems, List.filterMap_append, ColumnItem.typeWord?, ColumnItem.default?,
    ColumnItem.forwarded?] using hdefaults

end Column

namespace Sql

/-- **What an identity clause does to a column.** In front of, between or behind any other clauses
the spelling with `ALWAYS` marks the column as one that numbers itself, and changes nothing else.
The spelling with `BY DEFAULT` does not mark it. It adds to the clauses that are passed on the two
words in front of `DEFAULT`, and it is a default, which counts if no other one follows. -/
theorem column_of_identity (d : IdentitySyntax) : ∃ c, Column.ofTokens d.plainTokens = .ok c ∧
    c.constraints = (d.front ++ d.back).filterMap (·.item.forwarded?) ∧
    match d.identity.mode with
    | .always _ => Column.ofTokens d.tokens = .ok { c with autoIncrement := true }
    | .byDefault byWord _ => Column.ofTokens d.tokens = .ok { c with
        defaultText :=
          (Token.verbatim d.identity.tail :: d.back.filterMap (·.item.default?)).getLast?
        constraints := d.front.filterMap (·.item.forwarded?) ++
          Token.verbatim [d.identity.generated.1, byWord.1] ::
            d.back.filterMap (·.item.forwarded?) } := by
  have hforwarded : ∀ cs : List AnyClause,
      (cs.map (·.item)).filterMap (·.forwarded?) = cs.filterMap (·.item.forwarded?) :=
    fun cs => List.filterMap_map ..
  have hdefaults : ∀ cs : List AnyClause,
      (cs.map (·.item)).filterMap (·.default?) = cs.filterMap (·.item.default?) :=
    fun cs => List.filterMap_map ..
  have htype : d.typeItems.filterMap (·.forwarded?) = [] := by
    rw [IdentitySyntax.typeItems, List.filterMap_map]
    exact List.filterMap_eq_nil_iff.2 fun _ _ => rfl
  have htokens := d.ofTokens_tokens
  rw [← List.append_assoc] at htokens
  refine ⟨d.plainColumn, d.ofTokens_plainTokens, ?_, ?_⟩
  · show (d.typeItems ++ (d.front.map (·.item) ++ d.back.map (·.item))).filterMap _ = _
    rw [List.filterMap_append, List.filterMap_append, List.filterMap_append, htype, hforwarded,
      hforwarded, List.nil_append]
  · split
    · next hmode =>
      have hitems : d.identity.items = [.identity] := by rw [IdentityClause.items, hmode]
      rw [htokens, hitems, List.singleton_append, Column.ofItems_identity, List.append_assoc]
      rfl
    · next byWord _ hmode =>
      have hitems : d.identity.items = [.forwarded (Token.verbatim [d.identity.generated.1,
          byWord.1]), .default (Token.verbatim d.identity.tail)] := by
        rw [IdentityClause.items, hmode]
      rw [htokens, hitems, List.cons_append, List.singleton_append,
        Column.ofItems_forwarded_default, List.append_assoc, List.filterMap_append, htype,
        hforwarded, hforwarded, hdefaults, List.nil_append]
      rfl

/-- A key that numbers itself where no value is given. -/
def defaultIdentity : IdentitySyntax where
  name := .bare "id"
  isName := rfl
  type := [.word (.bare "INTEGER") rfl rfl]
  front := []
  identity :=
    { generated := ⟨.bare "GENERATED", rfl⟩
      mode := .byDefault ⟨.bare "BY", rfl⟩ ⟨.bare "DEFAULT", rfl⟩
      asWord := ⟨.bare "AS", rfl⟩
      identity := ⟨.bare "IDENTITY", rfl⟩
      options := none }
  back := [.listed (.primaryKey ⟨.bare "PRIMARY", rfl⟩ ⟨.bare "KEY", rfl⟩)]

/-- **The spelling with `BY DEFAULT` does not mark a column.** What is left of the clause is a
default and a clause that no engine takes. -/
theorem identity_not_marked : ∃ c c', Column.ofTokens defaultIdentity.plainTokens = .ok c ∧
    Column.ofTokens defaultIdentity.tokens = .ok c' ∧ c' ≠ { c with autoIncrement := true } ∧
    c'.autoIncrement = false ∧ c.defaultText = none ∧ c'.defaultText = some "AS IDENTITY" ∧
    c.constraints = [] ∧ c'.constraints = ["GENERATED BY"] := by
  refine ⟨_, _, defaultIdentity.ofTokens_plainTokens, defaultIdentity.ofTokens_tokens, ?_⟩
  decide

end Sql

end PgGateway
