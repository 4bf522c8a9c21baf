import PgGateway.Proofs.Sql.Runs
import PgGateway.Sql.CreateTable

/-!
# Clauses of columns

A clause goes on to the next keyword of column definitions, so what is read as a clause is read as
the same clause wherever such a keyword follows it (`readClauseFrom_resume`). The one exception is a
clause that ends in `SET`: it is only read as a clause at the end of a definition, and it has to
stay there. The clauses that one definition passes on can therefore be read again in their order
(`Clauses`), and a default, once it is written, anywhere (`readClause_literal`).
-/

namespace PgGateway.Sql

variable {ends : Bool} {e x : Text} {t : Token} {ts us rest : List Token}

/-- Nothing follows, or another clause. -/
def BeginsClause (ts : List Token) : Prop := ∀ t ∈ ts.head?, (ColumnKeyword.ofToken? t).isSome

theorem ofToken?_of_not_word (h : t.kind ≠ .word) : ColumnKeyword.ofToken? t = none := by
  simp [ColumnKeyword.ofToken?, Token.isKeyword, h]

theorem not_word_of_symbol {c : Char} (h : t.isSymbol c = true) : t.kind ≠ .word := by
  simp only [Token.isSymbol, Bool.and_eq_true, beq_iff_eq] at h
  simp [h.1]

theorem kind_of_isKeyword {word : Text} (h : t.isKeyword word = true) : t.kind = .word := by
  rw [Token.isKeyword, Bool.and_eq_true, beq_iff_eq] at h
  exact h.1

theorem isKeyword_of_ofToken? {k : ColumnKeyword} (h : ColumnKeyword.ofToken? t = some k) :
    t.isKeyword k.text = true :=
  List.find?_some (p := fun k : ColumnKeyword => t.isKeyword k.text) h

/-! ## Reading a clause -/

theorem readClauseFrom_stop (h : BeginsClause ts) : readClauseFrom true ts = .ok ([], ts) := by
  cases ts with
  | nil => rw [readClauseFrom]
  | cons t ts => rw [readClauseFrom, if_pos (by simpa using h t rfl)]

theorem readClauseFrom_token (hends : (ends && (ColumnKeyword.ofToken? t).isSome) = false)
    (hopen : t.isSymbol '(' = false) : readClauseFrom ends (t :: rest) =
      (readClauseFrom (!t.isKeyword "SET") rest).map fun r => (t :: r.1, r.2) := by
  rw [readClauseFrom, if_neg (by simp [hends]), if_neg (by simp [hopen])]

theorem readClauseFrom_group {g : Group} (h : g.Sound) : readClauseFrom ends (g.tokens ++ rest) =
      (readClauseFrom true rest).map fun r => (g.tokens ++ r.1, r.2) := by
  have hread : readGroup (g.opening :: (g.inside ++ [g.closing] ++ rest)) = some (g, rest) :=
    h.readGroup rest
  have hkeyword := ofToken?_of_not_word (not_word_of_symbol h.opening)
  show readClauseFrom ends (g.opening :: (g.inside ++ [g.closing] ++ rest)) = _
  rw [readClauseFrom, if_neg (by simp [hkeyword]), if_pos h.opening]
  split
  · next hnone => rw [hread] at hnone; cases hnone
  · next hsome => rw [hread] at hsome; cases hsome; rfl

/-- Reading a clause splits the tokens and loses none. -/
theorem readClauseFrom_eq {r : List Token × List Token} (h : readClauseFrom ends ts = .ok r) :
    ts = r.1 ++ r.2 := by
  fun_induction readClauseFrom ends ts generalizing r with
  | case1 => cases h; rfl
  | case2 => cases h; rfl
  | case3 => cases h
  | case4 ends t rest _ _ g rest' hg ih =>
    obtain ⟨s, hs, rfl⟩ := map_eq_ok.1 h
    rw [readGroup_eq hg, ih (r := s) hs, List.append_assoc]
  | case5 ends t rest _ _ ih =>
    obtain ⟨s, hs, rfl⟩ := map_eq_ok.1 h
    rw [ih (r := s) hs]
    rfl

/-- **A clause is read again with anything behind it that begins a clause.** Only a clause with
nothing behind it must keep nothing behind it. -/
theorem readClauseFrom_resume {r : List Token × List Token} (h : readClauseFrom ends ts = .ok r)
    {following : List Token} (hbegins : BeginsClause following)
    (hlast : r.2 = [] → following = []) :
    readClauseFrom ends (r.1 ++ following) = .ok (r.1, following) := by
  fun_induction readClauseFrom ends ts generalizing r with
  | case1 =>
    cases h
    rw [hlast rfl, List.append_nil, readClauseFrom]
  | case2 ends t rest hends =>
    cases h
    obtain rfl : ends = true := by
      cases ends with
      | true => rfl
      | false => cases hends
    exact readClauseFrom_stop hbegins
  | case3 => cases h
  | case4 ends t rest _ _ g rest' hg ih =>
    obtain ⟨s, hs, rfl⟩ := map_eq_ok.1 h
    rw [List.append_assoc, readClauseFrom_group (readGroup_sound hg), ih (r := s) hs hlast]
    rfl
  | case5 ends t rest hends hopen ih =>
    obtain ⟨s, hs, rfl⟩ := map_eq_ok.1 h
    rw [List.cons_append, readClauseFrom_token (by simpa using hends) (by simpa using hopen),
      ih (r := s) hs hlast]
    rfl

/-! ## Reading an item -/

/-- The text is a clause that is passed on; if it is the `last` one, it may need to be last. -/
def PassedOn (x : Text) (last : Prop) : Prop :=
  ∃ t us, Excerpt x (t :: us) ∧ (ColumnKeyword.ofToken? t).isSome ∧
    ∀ following, BeginsClause following → (last → following = []) →
      readItem t (us ++ following) = .ok (.forwarded x, following)

theorem PassedOn.mono {last last' : Prop} (h : PassedOn x last) (hlast : last → last') :
    PassedOn x last' := by
  obtain ⟨t, us, hx, hkeyword, hread⟩ := h
  exact ⟨t, us, hx, hkeyword, fun following hbegins hend =>
    hread following hbegins fun h => hend (hlast h)⟩

/-- What is known of an item and of the tokens behind it. -/
structure ItemSound (item : ColumnItem) (rest rest' : List Token) : Prop where
  suffix : rest' <:+ rest
  excerpt : ∀ e, item = .default e → ∃ us, Excerpt e us
  passedOn : ∀ x, item = .forwarded x → PassedOn x (rest' = [])

/-- An item that is neither a default nor passed on. -/
theorem ItemSound.plain {item : ColumnItem} {rest rest' : List Token} (hsuffix : rest' <:+ rest)
    (hdefault : item.default? = none) (hforwarded : item.forwarded? = none) :
    ItemSound item rest rest' := by
  refine ⟨hsuffix, ?_, ?_⟩
  · rintro e rfl
    cases hdefault
  · rintro x rfl
    cases hforwarded

theorem ItemSound.forwarded {clause rest' : List Token} (hclean : Clean (t :: rest))
    (hkeyword : (ColumnKeyword.ofToken? t).isSome) (hclause : readClause rest = .ok (clause, rest'))
    (hread : ∀ following, readClause (clause ++ following) = .ok (clause, following) →
      readItem t (clause ++ following) =
        .ok (.forwarded (Token.verbatim (t :: clause)), following)) :
    ItemSound (.forwarded (Token.verbatim (t :: clause))) rest rest' := by
  have hsplit := readClauseFrom_eq hclause
  have hpiece : Clean (t :: clause) := by
    apply hclean.piece
    rw [hsplit]
    exact (List.prefix_append (t :: clause) rest').isInfix
  refine ⟨⟨clause, hsplit.symm⟩, nofun, ?_⟩
  rintro x hx
  cases hx
  refine ⟨{ t with gap := [] }, clause, hpiece.excerpt nofun, hkeyword, ?_⟩
  intro following hbegins hlast
  exact hread following (readClauseFrom_resume hclause hbegins hlast)

theorem ItemSound.default {clause rest' : List Token} (hclean : Clean (t :: rest))
    (hclause : readClause rest = .ok (clause, rest')) (hne : clause ≠ []) :
    ItemSound (.default (Token.verbatim clause)) rest rest' := by
  have hsplit := readClauseFrom_eq hclause
  have hpiece : Clean clause := by
    apply hclean.piece
    rw [hsplit]
    exact (List.prefix_append clause rest').isInfix.trans (List.suffix_cons t _).isInfix
  refine ⟨⟨clause, hsplit.symm⟩, ?_, nofun⟩
  intro e he
  cases he
  exact ⟨setGap [] clause, hpiece.excerpt hne⟩

theorem readItem_sound {item : ColumnItem} {rest' : List Token} (hclean : Clean (t :: rest))
    (h : readItem t rest = .ok (item, rest')) : ItemSound item rest rest' := by
  rcases hkeyword : ColumnKeyword.ofToken? t with _ | keyword
  · simp only [readItem, hkeyword] at h
    cases h
    exact .plain (List.suffix_refl rest) rfl rfl
  · cases keyword with
    | not | primary =>
      simp only [readItem, hkeyword] at h
      split at h <;> cases h
      exact .plain (List.tail_suffix rest) rfl rfl
    | null | unique =>
      simp only [readItem, hkeyword] at h
      cases h
      exact .plain (List.suffix_refl rest) rfl rfl
    | constraint | collate =>
      simp only [readItem, hkeyword] at h
      cases h
      exact .plain (List.tail_suffix rest) rfl rfl
    | default =>
      simp only [readItem, hkeyword] at h
      split at h
      · cases h
      · next hclause =>
        split at h <;> cases h
        next hne =>
        exact .default hclean hclause (by simpa using hne)
    | check | references =>
      simp only [readItem, hkeyword] at h
      split at h
      · cases h
      · next hclause =>
        split at h <;> cases h
        next hne =>
        apply ItemSound.forwarded hclean (by simp [hkeyword]) hclause
        intro following hagain
        simp only [readItem, hkeyword, hagain]
        rw [if_neg hne]
    | generated =>
      simp only [readItem, hkeyword] at h
      split at h
      · cases h
      · next hclause =>
        -- a generated value is passed on unless the column numbers itself
        split at h <;> cases h
        · exact .plain ⟨_, (readClauseFrom_eq hclause).symm⟩ rfl rfl
        · next hidentity =>
          apply ItemSound.forwarded hclean (by simp [hkeyword]) hclause
          intro following hagain
          simp only [readItem, hkeyword, hagain]
          rw [if_neg hidentity]

/-! ## The clauses of a column -/

/-- The clauses can be read one after the other. -/
def Clauses : List Text → Prop
  | [] => True
  | x :: xs => PassedOn x (xs = []) ∧ Clauses xs

theorem Clauses.excerpt {xs : List Text} (h : Clauses xs) : ∀ x ∈ xs, ∃ us, Excerpt x us := by
  induction xs with
  | nil => nofun
  | cons y ys ih =>
    intro x hx
    rcases List.mem_cons.1 hx with rfl | hx
    · obtain ⟨t, us, hus, -⟩ := h.1
      exact ⟨t :: us, hus⟩
    · exact ih h.2 x hx

theorem readItems_sound {items : List ColumnItem} (hclean : Clean ts)
    (h : readItems ts = .ok items) :
    (∀ e, .default e ∈ items → ∃ us, Excerpt e us) ∧ Clauses (items.filterMap (·.forwarded?)) := by
  fun_induction readItems ts generalizing items with
  | case1 =>
    cases h
    exact ⟨nofun, trivial⟩
  | case2 => cases h
  | case3 t rest hopen g rest' hg ih =>
    apply ih _ h
    apply hclean.piece
    rw [readGroup_eq hg]
    exact (List.suffix_append g.tokens rest').isInfix
  | case4 => cases h
  | case5 t rest _ hword item rest' hitem ih =>
    obtain ⟨later, hlater, rfl⟩ := map_eq_ok.1 h
    have hsound := readItem_sound hclean hitem
    have hrest' : Clean rest' :=
      hclean.piece (hsound.suffix.isInfix.trans (List.suffix_cons t rest).isInfix)
    obtain ⟨hdefault, hclauses⟩ := ih hrest' hlater
    constructor
    · intro e he
      rcases List.mem_cons.1 he with he | he
      · exact hsound.excerpt e he.symm
      · exact hdefault e he
    · cases hforwarded : item.forwarded? with
      | none =>
        rw [List.filterMap_cons_none hforwarded]
        exact hclauses
      | some x =>
        rw [List.filterMap_cons_some hforwarded]
        obtain rfl : item = .forwarded x := by
          cases item <;> cases hforwarded
          rfl
        refine ⟨(hsound.passedOn x rfl).mono ?_, hclauses⟩
        -- a clause with nothing behind it is the last one
        rintro rfl
        rw [readItems] at hlater
        cases hlater
        rfl
  | case6 t rest _ _ ih => exact ih (hclean.piece (List.suffix_cons t rest).isInfix) h

/-! ## Reading written columns -/

theorem readItems_word {item : ColumnItem} {rest' : List Token} (hword : t.kind = .word)
    (h : readItem t rest = .ok (item, rest')) :
    readItems (t :: rest) = (readItems rest').map (item :: ·) := by
  have hopen : ¬t.isSymbol '(' = true := fun hsymbol => not_word_of_symbol hsymbol hword
  rw [readItems, if_neg hopen, if_pos hword]
  split
  · next herror => rw [h] at herror; cases herror
  · next hok => rw [h] at hok; cases hok; rfl

theorem readItems_group {g : Group} (h : g.Sound) :
    readItems (g.tokens ++ rest) = readItems rest := by
  have hread : readGroup (g.opening :: (g.inside ++ [g.closing] ++ rest)) = some (g, rest) :=
    h.readGroup rest
  show readItems (g.opening :: (g.inside ++ [g.closing] ++ rest)) = _
  rw [readItems, if_pos h.opening]
  split
  · next hnone => rw [hread] at hnone; cases hnone
  · next hsome => rw [hread] at hsome; cases hsome; rfl

theorem PassedOn.begins {last : Prop} (h : PassedOn x last) :
    BeginsClause (spacedTokens x ++ rest) := by
  obtain ⟨t, us, hx, hkeyword, -⟩ := h
  intro u hu
  rw [hx.spacedTokens] at hu
  cases hu
  exact hkeyword

theorem readItems_passedOn {last : Prop} (h : PassedOn x last) (hbegins : BeginsClause rest)
    (hlast : last → rest = []) :
    readItems (spacedTokens x ++ rest) = (readItems rest).map (.forwarded x :: ·) := by
  obtain ⟨t, us, hx, hkeyword, hread⟩ := h
  have hword : t.kind = .word := by
    by_contra hnot
    rw [ofToken?_of_not_word hnot] at hkeyword
    cases hkeyword
  rw [hx.spacedTokens]
  exact readItems_word hword (hread rest hbegins hlast)

/-- **Clauses are passed on again.** -/
theorem readItems_clauses {xs : List Text} (h : Clauses xs) :
    readItems (xs.flatMap spacedTokens) = .ok (xs.map .forwarded) ∧
      BeginsClause (xs.flatMap spacedTokens) := by
  induction xs with
  | nil => exact ⟨by rw [List.flatMap_nil, readItems]; rfl, nofun⟩
  | cons x xs ih =>
    obtain ⟨hread, hbegins⟩ := ih h.2
    rw [List.flatMap_cons]
    constructor
    · rw [readItems_passedOn h.1 hbegins (by rintro rfl; rfl), hread]
      rfl
    · exact h.1.begins

/-! ## Defaults -/

/-- A word that is a literal by itself neither opens a parenthesis nor goes on after a keyword. -/
theorem literal_token (h : (t.kind == .number || t.kind == .string ||
    literalWords.any t.isKeyword) = true) :
    t.isSymbol '(' = false ∧ t.isKeyword "SET" = false := by
  simp only [Bool.or_eq_true, beq_iff_eq] at h
  rcases h with (h | h) | h
  · simp [Token.isSymbol, Token.isKeyword, h]
  · simp [Token.isSymbol, Token.isKeyword, h]
  · obtain ⟨word, hmem, hword⟩ := List.any_eq_true.1 h
    simp only [Token.isKeyword, Bool.and_eq_true, beq_iff_eq] at hword
    constructor
    · simp [Token.isSymbol, hword.1]
    · simp only [Token.isKeyword, hword.2, Bool.and_eq_false_iff]
      right
      simp only [literalWords, List.mem_cons, List.not_mem_nil, or_false] at hmem
      rcases hmem with rfl | rfl | rfl | rfl | rfl | rfl <;> decide

/-- What is a literal is one token, a number with its sign, or a group. -/
theorem isLiteral_cases (h : isLiteral ts = true) :
    (∃ t, ts = [t] ∧ t.isSymbol '(' = false ∧ t.isKeyword "SET" = false) ∨
      (∃ sign n : Token, ts = [sign, n] ∧ sign.isSymbol '(' = false ∧ sign.kind = .symbol ∧
        n.kind = .number) ∨
      ∃ g : Group, g.Sound ∧ ts = g.tokens := by
  unfold isLiteral at h
  split at h
  · next t => exact .inl ⟨t, rfl, literal_token h⟩
  · next sign n =>
    refine .inr (.inl ⟨sign, n, rfl, ?_⟩)
    simp only [Bool.and_eq_true, Bool.or_eq_true, beq_iff_eq] at h
    obtain ⟨hsign | hsign, hn⟩ := h
    · refine ⟨isSymbol_ne hsign (by decide), ?_, hn⟩
      simp only [Token.isSymbol, Bool.and_eq_true, beq_iff_eq] at hsign
      exact hsign.1
    · refine ⟨isSymbol_ne hsign (by decide), ?_, hn⟩
      simp only [Token.isSymbol, Bool.and_eq_true, beq_iff_eq] at hsign
      exact hsign.1
  · split at h
    · next g hread =>
      refine .inr (.inr ⟨g, readGroup_sound hread, ?_⟩)
      rw [readGroup_eq hread, List.append_nil]
    · cases h

/-- **A literal is read again as a clause**, whatever clause follows it. -/
theorem readClause_literal (gap : Text) (h : isLiteral ts = true) (hbegins : BeginsClause rest) :
    readClause (setGap gap ts ++ rest) = .ok (setGap gap ts, rest) := by
  have hstop := readClauseFrom_stop hbegins
  rcases isLiteral_cases h with ⟨t, rfl, hopen, hset⟩ | ⟨sign, n, rfl, hopen, hsign, hn⟩ |
    ⟨g, hg, rfl⟩
  · show readClauseFrom false ({ t with gap } :: rest) = _
    rw [readClauseFrom_token rfl (by simpa using hopen), isKeyword_gap, hset]
    simp only [Bool.not_false, hstop]
    rfl
  · have hnumber : n.isSymbol '(' = false ∧ n.isKeyword "SET" = false := by
      simp [Token.isSymbol, Token.isKeyword, hn]
    have hafter : sign.isKeyword "SET" = false := by
      simp [Token.isKeyword, hsign]
    have hkeyword : ColumnKeyword.ofToken? n = none := ofToken?_of_not_word (by simp [hn])
    show readClauseFrom false ({ sign with gap } :: n :: rest) = _
    rw [readClauseFrom_token rfl (by simpa using hopen), isKeyword_gap, hafter,
      readClauseFrom_token (by simp [hkeyword]) hnumber.1, hnumber.2]
    simp only [Bool.not_false, hstop]
    rfl
  · have hgroup : (⟨{ g.opening with gap }, g.inside, g.closing⟩ : Group).Sound :=
      ⟨hg.opening, hg.balanced, hg.closing⟩
    show readClauseFrom false
      (Group.tokens ⟨{ g.opening with gap }, g.inside, g.closing⟩ ++ rest) = _
    rw [readClauseFrom_group hgroup, hstop]
    simp only [Except.map, List.append_nil]
    rfl

theorem isLiteral_group {g : Group} (h : g.Sound) (hne : g.inside ≠ []) :
    isLiteral g.tokens = true := by
  have hread := h.readGroup []
  rw [List.append_nil] at hread
  unfold isLiteral
  split
  · next htokens => simp [Group.tokens] at htokens
  · next htokens => simp [Group.tokens, List.append_eq_cons_iff, hne] at htokens
  · rw [hread]

/-- A default is written as it is, if it is a literal, or in parentheses. -/
theorem writeDefault_cases (h : Excerpt e us) :
    (isLiteral us = true ∧ writeDefault e = e) ∨
      Excerpt (writeDefault e) (setGap [] (grouped [] us).tokens) := by
  by_cases hliteral : isLiteral us = true
  · left
    simp [writeDefault, h.read, hliteral]
  · right
    have hwritten : writeDefault e = "(" ++ e ++ ")" := by
      simp [writeDefault, h.read, hliteral]
    refine ⟨(h.clean.grouped (.inl rfl)).setGap (.inl rfl), nofun, gap_of_head_setGap, ?_⟩
    rw [hwritten, ← h.render]
    simp [grouped, Group.tokens, Token.mark]

theorem Excerpt.writeDefault (h : Excerpt e us) : ∃ vs, Excerpt (writeDefault e) vs := by
  rcases writeDefault_cases h with ⟨-, hwritten⟩ | hgroup
  · exact ⟨us, by rwa [hwritten]⟩
  · exact ⟨_, hgroup⟩

/-- **A default as it is written is a literal**, and writing it again changes nothing. -/
theorem writeDefault_literal (h : Excerpt e us) (henclosed : Enclosed us) :
    ∃ vs, Excerpt (writeDefault e) vs ∧ Enclosed vs ∧ isLiteral vs = true ∧
      writeDefault (writeDefault e) = writeDefault e := by
  rcases writeDefault_cases h with ⟨hliteral, hwritten⟩ | hagain
  · exact ⟨us, by rwa [hwritten], henclosed, hliteral, by rw [hwritten, hwritten]⟩
  · have hsound : (grouped [] us).Sound := grouped_sound henclosed.balanced
    -- the parentheses as they are read alone, with no space in front
    have hgroup : (⟨Token.mark [] '(', us, Token.mark [] ')'⟩ : Group).Sound :=
      ⟨rfl, henclosed.balanced, rfl⟩
    have hliteral' : isLiteral (setGap [] (grouped [] us).tokens) = true :=
      isLiteral_group hgroup h.nonempty
    refine ⟨_, hagain, hsound.enclosed.setGap, hliteral', ?_⟩
    rw [Sql.writeDefault, hagain.read]
    simp [hliteral']

end PgGateway.Sql
