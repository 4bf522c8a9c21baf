import PgGateway.Proofs.Sql.ColumnSyntax
import PgGateway.Proofs.Sql.Tables

/-!
# What a column definition declares

Which tokens behind the name of a column declare what (`Declarations`). The grammar is one of tokens
and tells the clauses by their keywords alone, and how far a clause goes by the keyword that comes
next (`ClauseExtent`). It covers every definition that is accepted, also one with clauses that are
cut short or empty, and reading finds in a definition just what it declares, in that order
(`declarations_iff`).
-/

namespace PgGateway.Sql

variable {ends : Bool} {t : Token} {ts body clause rest : List Token} {item : ColumnItem}
  {items : List ColumnItem}

/-! ## How far a clause goes -/

/-- The token is a keyword that begins a clause. -/
def Token.BeginsClause (t : Token) : Prop := ∃ k : ColumnKeyword, t.isKeyword k.text = true

/-- A clause goes on for these tokens, and the rest stands behind it. It ends in front of a keyword
that begins a clause, outside parentheses, where such a keyword `ends` it: everywhere but in its
first place and right behind `SET`. -/
inductive ClauseExtent : Bool → List Token → List Token → Prop
  | last {ends : Bool} : ClauseExtent ends [] []
  | next {t : Token} {rest : List Token} (hkeyword : t.BeginsClause) :
    ClauseExtent true [] (t :: rest)
  | group {ends : Bool} {g : Group} {clause rest : List Token} (hg : g.Sound)
    (hlater : ClauseExtent true clause rest) : ClauseExtent ends (g.tokens ++ clause) rest
  | token {ends : Bool} {t : Token} {clause rest : List Token} (hopen : t.isSymbol '(' = false)
    (hends : ends = true → ¬t.BeginsClause)
    (hlater : ClauseExtent (!t.isKeyword "SET") clause rest) : ClauseExtent ends (t :: clause) rest

theorem isSome_ofToken? : (ColumnKeyword.ofToken? t).isSome = true ↔ t.BeginsClause := by
  constructor
  · intro h
    obtain ⟨k, hk⟩ := Option.isSome_iff_exists.1 h
    exact ⟨k, isKeyword_of_ofToken? hk⟩
  · rintro ⟨k, hk⟩
    rw [ofToken?_of_isKeyword hk]
    rfl

theorem ClauseExtent.read (h : ClauseExtent ends clause rest) :
    readClauseFrom ends (clause ++ rest) = .ok (clause, rest) := by
  induction h with
  | last => rw [List.append_nil, readClauseFrom]
  | @next t rest hkeyword =>
    apply readClauseFrom_stop
    rintro u ⟨⟩
    exact isSome_ofToken?.2 hkeyword
  | group hg _ ih =>
    rw [List.append_assoc, readClauseFrom_group hg, ih]
    rfl
  | @token ends t clause rest hopen hends _ ih =>
    have hgoesOn : (ends && (ColumnKeyword.ofToken? t).isSome) = false := by
      rw [Bool.and_eq_false_imp]
      intro h
      rw [← Bool.not_eq_true, isSome_ofToken?]
      exact hends h
    rw [List.cons_append, readClauseFrom_token hgoesOn hopen, ih]
    rfl

theorem clauseExtent_of_read {r : List Token × List Token} (h : readClauseFrom ends ts = .ok r) :
    ClauseExtent ends r.1 r.2 := by
  fun_induction readClauseFrom ends ts generalizing r with
  | case1 =>
    cases h
    exact .last
  | case2 ends t rest hends =>
    cases h
    obtain ⟨rfl, hkeyword⟩ := (Bool.and_eq_true _ _).mp hends
    exact .next (isSome_ofToken?.1 hkeyword)
  | case3 => cases h
  | case4 ends t rest _ _ g rest' hg ih =>
    obtain ⟨s, hs, rfl⟩ := map_eq_ok.1 h
    exact .group (readGroup_sound hg) (ih (r := s) hs)
  | case5 ends t rest hends hopen ih =>
    obtain ⟨s, hs, rfl⟩ := map_eq_ok.1 h
    refine .token (by simpa using hopen) ?_ (ih (r := s) hs)
    rintro rfl hkeyword
    exact hends (by simpa using isSome_ofToken?.2 hkeyword)

/-- **A clause is read as far as it goes.** -/
theorem readClause_iff :
    readClause ts = .ok (clause, rest) ↔ ts = clause ++ rest ∧ ClauseExtent false clause rest := by
  constructor
  · intro h
    exact ⟨readClauseFrom_eq h, clauseExtent_of_read h⟩
  · rintro ⟨rfl, hextent⟩
    exact hextent.read

/-! ## What is declared -/

/-- A word and the tokens behind it, with the rest behind these, declare one thing of a column. The
name of a constraint or a collation is any token, and may be missing at the end. -/
inductive Declaration : Token → List Token → List Token → ColumnItem → Prop
  | typeWord {t : Token} {rest : List Token} (hword : t.kind = .word) (hplain : ¬t.BeginsClause) :
    Declaration t [] rest (.typeWord (Text.upper t.text))
  | notNull {rest : List Token} (not : Keyword "NOT") (null : Keyword "NULL") :
    Declaration not.1 [null.1] rest .notNull
  | null {rest : List Token} (null : Keyword "NULL") : Declaration null.1 [] rest .null
  | primaryKey {rest : List Token} (primary : Keyword "PRIMARY") (key : Keyword "KEY") :
    Declaration primary.1 [key.1] rest .primaryKey
  | unique {rest : List Token} (unique : Keyword "UNIQUE") : Declaration unique.1 [] rest .unique
  | default {body rest : List Token} (default : Keyword "DEFAULT") (hne : body ≠ [])
    (hextent : ClauseExtent false body rest) :
    Declaration default.1 body rest (.default (Token.verbatim body))
  | check {body rest : List Token} (check : Keyword "CHECK") (hne : body ≠ [])
    (hextent : ClauseExtent false body rest) :
    Declaration check.1 body rest (.forwarded (Token.verbatim (check.1 :: body)))
  | references {body rest : List Token} (references : Keyword "REFERENCES") (hne : body ≠ [])
    (hextent : ClauseExtent false body rest) :
    Declaration references.1 body rest (.forwarded (Token.verbatim (references.1 :: body)))
  | identity {body rest : List Token} (generated : Keyword "GENERATED")
    (hidentity : ∃ u ∈ body, u.isKeyword "IDENTITY" = true)
    (hextent : ClauseExtent false body rest) : Declaration generated.1 body rest .identity
  | generated {body rest : List Token} (generated : Keyword "GENERATED")
    (hother : ∀ u ∈ body, u.isKeyword "IDENTITY" = false)
    (hextent : ClauseExtent false body rest) :
    Declaration generated.1 body rest (.forwarded (Token.verbatim (generated.1 :: body)))
  | constraint {rest : List Token} (constraint : Keyword "CONSTRAINT") (name : Token) :
    Declaration constraint.1 [name] rest .dropped
  | lastConstraint (constraint : Keyword "CONSTRAINT") : Declaration constraint.1 [] [] .dropped
  | collate {rest : List Token} (collate : Keyword "COLLATE") (name : Token) :
    Declaration collate.1 [name] rest .dropped
  | lastCollate (collate : Keyword "COLLATE") : Declaration collate.1 [] [] .dropped

/-- The tokens behind the name of a column declare these things, in this order. The arguments of a
type, in parentheses, and tokens that are no words declare nothing. -/
inductive Declarations : List Token → List ColumnItem → Prop
  | nil : Declarations [] []
  | arguments {g : Group} {rest : List Token} {items : List ColumnItem} (hg : g.Sound)
    (hlater : Declarations rest items) : Declarations (g.tokens ++ rest) items
  | silent {t : Token} {rest : List Token} {items : List ColumnItem} (hword : t.kind ≠ .word)
    (hopen : t.isSymbol '(' = false) (hlater : Declarations rest items) :
    Declarations (t :: rest) items
  | item {t : Token} {body rest : List Token} {item : ColumnItem} {items : List ColumnItem}
    (hitem : Declaration t body rest item) (hlater : Declarations rest items) :
    Declarations (t :: (body ++ rest)) (item :: items)

/-! ## Reading finds what is declared -/

theorem Declaration.word (h : Declaration t body rest item) : t.kind = .word := by
  cases h with
  | typeWord hword => exact hword
  | notNull k | null k | primaryKey k | unique k | default k | check k | references k | identity k
  | generated k | constraint k | lastConstraint k | collate k | lastCollate k =>
    exact kind_of_isKeyword k.2

theorem Declaration.read (h : Declaration t body rest item) :
    readItem t (body ++ rest) = .ok (item, rest) := by
  cases h with
  | typeWord _ hplain =>
    have hnone : ColumnKeyword.ofToken? t = none := by
      rw [← Option.not_isSome_iff_eq_none, isSome_ofToken?]
      exact hplain
    simp only [readItem, hnone]
    rfl
  | notNull k null =>
    simp only [readItem, ofToken?_of_isKeyword (k := .not) k.2]
    exact if_pos null.2
  | null k =>
    simp only [readItem, ofToken?_of_isKeyword (k := .null) k.2]
    rfl
  | primaryKey k key =>
    simp only [readItem, ofToken?_of_isKeyword (k := .primary) k.2]
    exact if_pos key.2
  | unique k =>
    simp only [readItem, ofToken?_of_isKeyword (k := .unique) k.2]
    rfl
  | default k hne hextent =>
    simp only [readItem, ofToken?_of_isKeyword (k := .default) k.2,
      readClause_iff.2 ⟨rfl, hextent⟩]
    exact if_neg (by simpa using hne)
  | check k hne hextent =>
    simp only [readItem, ofToken?_of_isKeyword (k := .check) k.2, readClause_iff.2 ⟨rfl, hextent⟩]
    exact if_neg (by simpa using hne)
  | references k hne hextent =>
    simp only [readItem, ofToken?_of_isKeyword (k := .references) k.2,
      readClause_iff.2 ⟨rfl, hextent⟩]
    exact if_neg (by simpa using hne)
  | identity k hidentity hextent =>
    simp only [readItem, ofToken?_of_isKeyword (k := .generated) k.2,
      readClause_iff.2 ⟨rfl, hextent⟩]
    exact if_pos (List.any_eq_true.2 hidentity)
  | generated k hother hextent =>
    simp only [readItem, ofToken?_of_isKeyword (k := .generated) k.2,
      readClause_iff.2 ⟨rfl, hextent⟩]
    exact if_neg (by simpa using hother)
  | constraint k name =>
    simp only [readItem, ofToken?_of_isKeyword (k := .constraint) k.2]
    rfl
  | lastConstraint k =>
    simp only [readItem, ofToken?_of_isKeyword (k := .constraint) k.2]
    rfl
  | collate k name =>
    simp only [readItem, ofToken?_of_isKeyword (k := .collate) k.2]
    rfl
  | lastCollate k =>
    simp only [readItem, ofToken?_of_isKeyword (k := .collate) k.2]
    rfl

/-- **An item is read as what the tokens declare.** -/
theorem declaration_of_readItem (hword : t.kind = .word) (h : readItem t ts = .ok (item, rest)) :
    ∃ body, ts = body ++ rest ∧ Declaration t body rest item := by
  rcases hkeyword : ColumnKeyword.ofToken? t with _ | k
  · simp only [readItem, hkeyword] at h
    cases h
    refine ⟨[], rfl, .typeWord hword ?_⟩
    rw [← isSome_ofToken?, hkeyword]
    exact Bool.false_ne_true
  · have hk := isKeyword_of_ofToken? hkeyword
    cases k with
    | not =>
      simp only [readItem, hkeyword] at h
      split at h
      · next hnull =>
        cases h
        obtain ⟨u, us, rfl, hu⟩ := startsWith_iff.1 hnull
        exact ⟨[u], rfl, .notNull ⟨t, hk⟩ ⟨u, hu⟩⟩
      · cases h
    | null =>
      simp only [readItem, hkeyword] at h
      cases h
      exact ⟨[], rfl, .null ⟨t, hk⟩⟩
    | primary =>
      simp only [readItem, hkeyword] at h
      split at h
      · next hkey =>
        cases h
        obtain ⟨u, us, rfl, hu⟩ := startsWith_iff.1 hkey
        exact ⟨[u], rfl, .primaryKey ⟨t, hk⟩ ⟨u, hu⟩⟩
      · cases h
    | unique =>
      simp only [readItem, hkeyword] at h
      cases h
      exact ⟨[], rfl, .unique ⟨t, hk⟩⟩
    | default =>
      simp only [readItem, hkeyword] at h
      split at h
      · cases h
      · next hclause =>
        split at h <;> cases h
        next hne =>
        obtain ⟨rfl, hextent⟩ := readClause_iff.1 hclause
        exact ⟨_, rfl, .default ⟨t, hk⟩ (by simpa using hne) hextent⟩
    | check =>
      simp only [readItem, hkeyword] at h
      split at h
      · cases h
      · next hclause =>
        split at h <;> cases h
        next hne =>
        obtain ⟨rfl, hextent⟩ := readClause_iff.1 hclause
        exact ⟨_, rfl, .check ⟨t, hk⟩ (by simpa using hne) hextent⟩
    | references =>
      simp only [readItem, hkeyword] at h
      split at h
      · cases h
      · next hclause =>
        split at h <;> cases h
        next hne =>
        obtain ⟨rfl, hextent⟩ := readClause_iff.1 hclause
        exact ⟨_, rfl, .references ⟨t, hk⟩ (by simpa using hne) hextent⟩
    | generated =>
      simp only [readItem, hkeyword] at h
      split at h
      · cases h
      · next hclause =>
        obtain ⟨rfl, hextent⟩ := readClause_iff.1 hclause
        -- the value is an identity, or is passed on
        split at h <;> cases h
        · next hidentity =>
          exact ⟨_, rfl, .identity ⟨t, hk⟩ (List.any_eq_true.1 hidentity) hextent⟩
        · next hidentity => exact ⟨_, rfl, .generated ⟨t, hk⟩ (by simpa using hidentity) hextent⟩
    | constraint =>
      simp only [readItem, hkeyword] at h
      cases h
      cases ts with
      | nil => exact ⟨[], rfl, .lastConstraint ⟨t, hk⟩⟩
      | cons u us => exact ⟨[u], rfl, .constraint ⟨t, hk⟩ u⟩
    | collate =>
      simp only [readItem, hkeyword] at h
      cases h
      cases ts with
      | nil => exact ⟨[], rfl, .lastCollate ⟨t, hk⟩⟩
      | cons u us => exact ⟨[u], rfl, .collate ⟨t, hk⟩ u⟩

theorem readItems_silent (hword : t.kind ≠ .word) (hopen : t.isSymbol '(' = false) :
    readItems (t :: rest) = readItems rest := by
  rw [readItems, if_neg (by simp [hopen]), if_neg hword]

theorem Declarations.read (h : Declarations ts items) : readItems ts = .ok items := by
  induction h with
  | nil => rw [readItems]
  | arguments hg _ ih => rw [readItems_group hg, ih]
  | silent hword hopen _ ih => rw [readItems_silent hword hopen, ih]
  | item hitem _ ih =>
    rw [readItems_word hitem.word hitem.read, ih]
    rfl

theorem declarations_of_readItems (h : readItems ts = .ok items) : Declarations ts items := by
  fun_induction readItems ts generalizing items with
  | case1 =>
    cases h
    exact .nil
  | case2 => cases h
  | case3 t rest _ g rest' hg ih =>
    rw [readGroup_eq hg]
    exact .arguments (readGroup_sound hg) (ih h)
  | case4 => cases h
  | case5 t rest _ hword item rest' hitem ih =>
    obtain ⟨later, hlater, rfl⟩ := map_eq_ok.1 h
    obtain ⟨body, rfl, hdeclares⟩ := declaration_of_readItem hword hitem
    exact .item hdeclares (ih hlater)
  | case6 t rest hopen hword ih => exact .silent hword (by simpa using hopen) (ih h)

/-- **Reading finds what is declared**, all of it and nothing else. -/
theorem declarations_iff : Declarations ts items ↔ readItems ts = .ok items :=
  ⟨Declarations.read, declarations_of_readItems⟩

/-! ## What one definition declares -/

/-- The definition of a column declares this of it, somewhere behind its name. -/
def Declares (p : List Token) (item : ColumnItem) : Prop :=
  ∃ own more items, p = own :: more ∧ Declarations more items ∧ item ∈ items

theorem declares_iff (h : Declarations ts items) : Declares (t :: ts) item ↔ item ∈ items := by
  constructor
  · rintro ⟨own, more, items', hsplit, hdeclared, hitem⟩
    cases hsplit
    obtain rfl : items' = items := Except.ok.inj (hdeclared.read.symm.trans h.read)
    exact hitem
  · intro hitem
    exact ⟨t, ts, items, rfl, h, hitem⟩

instance decidableDeclares (item : ColumnItem) : ∀ p : List Token, Decidable (Declares p item)
  | [] => .isFalse fun ⟨_, _, _, hsplit, _⟩ => List.cons_ne_nil _ _ hsplit.symm
  | own :: more =>
    match h : readItems more with
    | .ok items => decidable_of_iff (item ∈ items) (declares_iff (declarations_iff.2 h)).symm
    | .error _ => .isFalse fun ⟨_, _, _, hsplit, hdeclared, _⟩ => by
        cases hsplit
        rw [hdeclared.read] at h
        cases h

end PgGateway.Sql
