import PgGateway.Proofs.Sql.Alike
import PgGateway.Proofs.Sql.OneStatement

/-!
# Translation and letter case

Two texts that differ only in the case of letters outside quotes are translated alike
(`translate_recased`): they are refused for one reason, or translated to statements of one kind and
shape. The texts for the engine are read as the same tokens but for bare words and for the names
that such words are. A bare name that the engine takes in quotes only is put in quotes in the letter
case that the client gave it, so the texts for the engine can differ in quotes where those of the
client do not (`translate_not_recased`).
-/

namespace PgGateway

open Sql
open List (Forall₂)

variable {R : Token → Token → Prop} {ts us : List Token} {t u v w : Token}
  {n m x y sql sql' : Text}

namespace Sql

/-! ## Names as they are written -/

theorem isPlainName_lower (n : Text) : isPlainName (Text.lower n) = isPlainName n := by
  have hplain : isPlain ∘ Char.toLower = isPlain :=
    funext fun c => toLower_invariant (by decide) c
  cases n with
  | nil => rfl
  | cons c n =>
    show (!c.toLower.isDigit && ((c :: n).map Char.toLower).all isPlain) = _
    rw [List.all_map, hplain, isDigit_toLower]
    rfl

theorem lower_double (n : Text) :
    Text.lower (Text.double '"' n) = Text.double '"' (Text.lower n) := by
  induction n with
  | nil => rfl
  | cons c n ih =>
    have hquote : c.toLower = '"' ↔ c = '"' := toLower_eq_iff (by decide)
    have hrest : Text.lower (n.flatMap fun c => if c = '"' then ['"', '"'] else [c]) =
        (Text.lower n).flatMap fun c => if c = '"' then ['"', '"'] else [c] := ih
    show Text.lower (Text.double '"' (c :: n)) =
      Text.double '"' (c.toLower :: Text.lower n)
    rw [Text.double, Text.double, List.flatMap_cons, List.flatMap_cons, ← hrest,
      if_congr hquote rfl rfl]
    split <;> rfl

theorem lower_writeName (n : Text) : Text.lower (writeName n) = writeName (Text.lower n) := by
  rw [writeName, writeName, isPlainName_lower]
  split
  · rfl
  · rw [Text.quote, Text.quote, ← lower_double]
    simp [Text.lower]

/-! ## Tokens as they are written -/

/-- The tokens differ at most in the case of letters, and that only if they are bare words, or write
the names that matched bare words are. -/
structure Token.Rewritten (R : Token → Token → Prop) (v w : Token) : Prop where
  gap : v.gap = w.gap
  kind : v.kind = w.kind
  text : Text.SameWord v.text w.text
  exact : v.kind ≠ .word → v.text = w.text ∨
    ∃ t u, R t u ∧ t.kind = .word ∧ v.text = writeName t.text ∧ w.text = writeName u.text

theorem Token.Alike.rewritten (h : v.Alike w) : v.Rewritten R w :=
  ⟨h.gap, h.kind, h.text, fun hkind => .inl (h.exact hkind)⟩

theorem rewritten_refl (ts : List Token) : Forall₂ (Token.Rewritten R) ts ts :=
  List.forall₂_same.2 fun t _ => (Token.Alike.refl t).rewritten

theorem nameToken_rewritten (hR : Token.Matching R) (h : NameAlike R n m) :
    (nameToken n).Rewritten R (nameToken m) := by
  have hlower : Text.lower n = Text.lower m := h.sameWord hR
  obtain ⟨t, u, htu, -, rfl, rfl⟩ := h
  constructor
  · rw [gap_nameToken, gap_nameToken]
  · unfold nameToken
    rw [← isPlainName_lower t.name, hlower, isPlainName_lower]
    split <;> rfl
  · unfold Text.SameWord
    rw [text_nameToken, text_nameToken, lower_writeName, lower_writeName, hlower]
  · intro _
    by_cases hword : t.kind = .word
    · have hbare : ∀ {t : Token}, t.kind = .word → t.name = t.text := by
        intro t hword
        rw [Token.name, hword]
        rfl
      right
      refine ⟨t, u, htu, hword, ?_, ?_⟩
      · rw [text_nameToken, hbare hword]
      · rw [text_nameToken, hbare ((hR htu).kind ▸ hword)]
    · left
      rw [(hR htu).name_eq hword]

theorem render_rewritten (h : Forall₂ (Token.Rewritten R) ts us) :
    Text.SameWord (Token.render ts) (Token.render us) := by
  induction h with
  | nil => rfl
  | @cons v w vs ws hvw _ ih =>
    have htext : v.text.map Char.toLower = w.text.map Char.toLower := hvw.text
    have hrest : (Token.render vs).map Char.toLower = (Token.render ws).map Char.toLower := ih
    show (Token.render (v :: vs)).map Char.toLower = (Token.render (w :: ws)).map Char.toLower
    rw [Token.render_cons, Token.render_cons, List.map_append, List.map_append, List.map_append,
      List.map_append, hvw.gap, htext, hrest]

theorem setGap_rewritten (gap : Text) (h : Forall₂ (Token.Rewritten R) ts us) :
    Forall₂ (Token.Rewritten R) (setGap gap ts) (setGap gap us) :=
  forall₂_modifyHead h fun hvw => { hvw with gap := rfl }

theorem separate_rewritten (comma : Token) {tss uss : List (List Token)}
    (h : Forall₂ (Forall₂ (Token.Rewritten R)) tss uss) :
    Forall₂ (Token.Rewritten R) (separate comma tss) (separate comma uss) := by
  induction h with
  | nil => exact .nil
  | cons hfirst hrest ih =>
    cases hrest with
    | nil => exact hfirst
    | cons hsecond hrest =>
      exact forall₂_append hfirst (.cons (Token.Alike.refl comma).rewritten ih)

theorem grouped_rewritten (gap : Text) (h : Forall₂ (Token.Rewritten R) ts us) :
    Forall₂ (Token.Rewritten R) (grouped gap ts).tokens (grouped gap us).tokens :=
  forall₂_append (forall₂_append (rewritten_refl [_]) h) (rewritten_refl [_])

/-! ## Defaults and clauses as they are written -/

theorem foldFrom_render (h : ∀ t ∈ ts, t.Sound) (rest : Text) :
    foldFrom none (Token.render ts ++ rest) =
      Token.render (ts.map Token.fold) ++ foldFrom none rest := by
  induction ts with
  | nil => rfl
  | cons t ts ih =>
    rw [List.forall_mem_cons] at h
    obtain ⟨c, cs, htext, -, hwhole⟩ := h.1.whole
    have hspace : ∀ d ∈ t.gap, isSpace d = true := by
      rcases h.1.gap with hgap | hgap <;> rw [hgap] <;> simp [isSpace]
    rw [Token.render_cons, List.append_assoc, List.append_assoc, foldFrom_spaces hspace, htext,
      hwhole.foldFrom_append, ih h.2, List.map_cons, Token.render_cons, Token.fold, htext,
      List.append_assoc, List.append_assoc]

theorem foldFrom_verbatim (h : ∀ t ∈ ts, t.Sound) (rest : Text) :
    foldFrom none (Token.verbatim ts ++ rest) =
      Token.verbatim (ts.map Token.fold) ++ foldFrom none rest := by
  cases ts with
  | nil => rfl
  | cons t ts =>
    rw [List.forall_mem_cons] at h
    obtain ⟨c, cs, htext, -, hwhole⟩ := h.1.whole
    rw [Token.verbatim_cons, List.append_assoc, htext, hwhole.foldFrom_append,
      foldFrom_render h.2, List.map_cons, Token.verbatim_cons, Token.fold, htext,
      List.append_assoc]

/-- A relation that matches the whole tokens of two texts. -/
structure Token.WholeMatching (R : Token → Token → Prop) : Prop where
  alike : Token.Matching R
  sound : ∀ {t u}, R t u → t.Sound ∧ u.Sound

/-- Clauses of matched tokens become one when their letters outside quotes are made small, whatever
follows them. -/
theorem foldFrom_clause (hR : Token.WholeMatching R) (h : ClauseAlike R x y) (rest : Text) :
    foldFrom none (x ++ rest) = foldFrom none (y ++ rest) := by
  obtain ⟨ts, us, htokens, rfl, rfl⟩ := h
  have hsound : (∀ t ∈ ts, t.Sound) ∧ ∀ u ∈ us, u.Sound := by
    induction htokens with
    | nil => exact ⟨nofun, nofun⟩
    | cons htu _ ih =>
      obtain ⟨ht, hu⟩ := hR.sound htu
      exact ⟨List.forall_mem_cons.2 ⟨ht, ih.1⟩, List.forall_mem_cons.2 ⟨hu, ih.2⟩⟩
  rw [foldFrom_verbatim hsound.1, foldFrom_verbatim hsound.2,
    forall₂_alike_iff.1 (htokens.imp fun _ _ htu => hR.alike htu)]

/-- Whether tokens are a literal does not depend on letter case. -/
theorem isLiteral_eq (h : Forall₂ Token.Alike ts us) : isLiteral ts = isLiteral us := by
  have hgroup := readGroup_alike (fun _ _ htu => htu) h
  cases h with
  | nil => rfl
  | cons htu hrest =>
    cases hrest with
    | nil =>
      have hwords : literalWords.any (Token.isKeyword _) = literalWords.any (Token.isKeyword _) :=
        congrArg literalWords.any (funext htu.isKeyword)
      rw [isLiteral, isLiteral, htu.kind, hwords]
    | cons hsecond hrest =>
      cases hrest with
      | nil => rw [isLiteral, isLiteral, htu.isSymbol, htu.isSymbol, hsecond.kind]
      | cons =>
        unfold isLiteral
        dsimp only
        generalize readGroup _ = r at hgroup ⊢
        generalize readGroup _ = s at hgroup ⊢
        cases hgroup with
        | none => rfl
        | @some r s hsome =>
          obtain ⟨g, rest⟩ := r
          obtain ⟨g', rest'⟩ := s
          have hrest : Forall₂ Token.Alike rest rest' := hsome.2
          cases hrest <;> rfl

theorem readTokens_alike (hxy : foldFrom none x = foldFrom none y) :
    Agree Eq (Forall₂ Token.Alike) (readTokens x) (readTokens y) := by
  have hfold := congrArg readTokens hxy
  rw [readTokens_foldFrom, readTokens_foldFrom] at hfold
  generalize readTokens x = r, readTokens y = s at hfold ⊢
  cases r with
  | error rest =>
    cases s with
    | error rest' =>
      cases hfold
      exact .error rfl
    | ok us => cases hfold
  | ok ts =>
    cases s with
    | error rest' => cases hfold
    | ok us =>
      injection hfold with hfold
      exact .ok (forall₂_alike_iff.2 hfold)

theorem spacedTokens_alike (hxy : foldFrom none x = foldFrom none y) :
    Forall₂ Token.Alike (spacedTokens x) (spacedTokens y) := by
  have htokens := readTokens_alike hxy
  unfold spacedTokens
  generalize readTokens x = r, readTokens y = s at htokens ⊢
  cases htokens with
  | error => exact .nil
  | ok halike => exact forall₂_modifyHead halike fun htu => { htu with gap := rfl }

theorem clause_rewritten (hR : Token.WholeMatching R) (h : ClauseAlike R x y) :
    Forall₂ (Token.Rewritten R) (spacedTokens x) (spacedTokens y) := by
  have hfold := foldFrom_clause hR h []
  rw [List.append_nil, List.append_nil] at hfold
  exact (spacedTokens_alike hfold).imp fun _ _ htu => htu.rewritten

theorem foldFrom_writeDefault (hR : Token.WholeMatching R) (h : ClauseAlike R x y) :
    foldFrom none (writeDefault x) = foldFrom none (writeDefault y) := by
  have hfold := foldFrom_clause hR h []
  rw [List.append_nil, List.append_nil] at hfold
  have hgrouped : foldFrom none ("(" ++ x ++ ")") = foldFrom none ("(" ++ y ++ ")") :=
    congrArg ('(' :: ·) (foldFrom_clause hR h ")")
  have htokens := readTokens_alike hfold
  unfold writeDefault
  generalize readTokens x = r, readTokens y = s at htokens ⊢
  cases htokens with
  | error => exact hgrouped
  | ok htokens =>
    dsimp only
    rw [isLiteral_eq htokens]
    split
    · exact hfold
    · exact hgrouped

theorem default_rewritten (hR : Token.WholeMatching R) {e? e'? : Option Text}
    (h : Option.Rel (ClauseAlike R) e? e'?) :
    Forall₂ (Token.Rewritten R) (defaultTokens e?) (defaultTokens e'?) := by
  cases h with
  | none => exact .nil
  | some hclause =>
    exact .cons (Token.Alike.refl _).rewritten
      ((spacedTokens_alike (foldFrom_writeDefault hR hclause)).imp fun _ _ htu => htu.rewritten)

end Sql

/-! ## Definitions as they are written -/

theorem Column.Alike.tokens (hR : Token.WholeMatching R) {c d : Column} (h : c.Alike R d)
    (inlineKey : Bool) : Forall₂ (Token.Rewritten R) (c.tokens inlineKey) (d.tokens inlineKey) := by
  have hhead : c.headTokens inlineKey = d.headTokens inlineKey := by
    unfold Column.headTokens
    rw [h.type, h.nullable, h.primaryKey, h.unique]
  unfold Column.tokens
  rw [hhead]
  refine .cons (nameToken_rewritten hR.alike h.name) (forall₂_append (rewritten_refl _) ?_)
  exact forall₂_append (default_rewritten hR h.defaultText)
    (List.rel_flatMap h.constraints fun _ _ hclause => clause_rewritten hR hclause)

namespace CreateTable

variable {c d : CreateTable}

theorem Alike.keyColumns (h : c.Alike R d) :
    Forall₂ (Column.Alike R) c.keyColumns d.keyColumns :=
  List.rel_filter (fun _ _ hcolumn => by dsimp only; rw [hcolumn.primaryKey]) h.columns

theorem Alike.keyRuns (hR : Token.Matching R) (h : c.Alike R d) :
    Forall₂ (Forall₂ (Token.Rewritten R)) c.keyRuns d.keyRuns := by
  have hnames : Forall₂ (Forall₂ (Token.Rewritten R))
      ((c.keyColumns.map (·.name)).map fun name => [nameToken name])
      ((d.keyColumns.map (·.name)).map fun name => [nameToken name]) := by
    rw [List.map_map, List.map_map]
    exact List.rel_map (fun _ _ hkey => .cons (nameToken_rewritten hR hkey.name) .nil) h.keyColumns
  unfold CreateTable.keyRuns
  rw [h.keyColumns.length_eq]
  split
  · exact .cons (forall₂_append (rewritten_refl _)
      (grouped_rewritten _ (setGap_rewritten _ (separate_rewritten _ hnames)))) .nil
  · exact .nil

/-- **Definitions that are the same are written alike.** -/
theorem Alike.tokens (hR : Token.WholeMatching R) (h : c.Alike R d) :
    Forall₂ (Token.Rewritten R) c.tokens d.tokens := by
  have hinline : c.inlineKey = d.inlineKey := by
    rw [inlineKey, inlineKey, h.keyColumns.length_eq]
  have hguard : c.guardTokens = d.guardTokens := by
    rw [guardTokens, guardTokens, h.ifNotExists]
  have hblock : Forall₂ (Forall₂ (Token.Rewritten R)) c.blockRuns d.blockRuns := by
    unfold blockRuns
    rw [hinline]
    refine forall₂_append (forall₂_append ?_ (h.keyRuns hR.alike)) ?_
    · exact List.rel_map (fun _ _ hcolumn => hcolumn.tokens hR _) h.columns
    · exact List.rel_map (fun _ _ hclause => clause_rewritten hR hclause) h.constraints
  unfold CreateTable.tokens nameTokens
  rw [hguard]
  refine forall₂_append (rewritten_refl [_, _]) (forall₂_append (rewritten_refl _) ?_)
  exact .cons (nameToken_rewritten hR.alike h.table)
    (grouped_rewritten _ (separate_rewritten _ hblock))

end CreateTable

namespace Sql

/-! ## Normal forms -/

/-- In a text without comments the letters outside quotes are those outside quotes and comments. -/
theorem fold_of_squeezed {scan : Scan} (h : Squeezed scan x) :
    fold scan.zone x = foldFrom scan.open? x := by
  induction x generalizing scan with
  | nil => cases scan <;> rfl
  | cons c x ih =>
    cases scan with
    | outside gap =>
      by_cases hspace : c = ' '
      · subst hspace
        have hnext : ∀ d ∈ x.head?, ¬opensComment ' ' d := by
          rintro d - (⟨hline, -⟩ | ⟨hblock, -⟩)
          · cases hline
          · cases hblock
        rw [Scan.zone, fold_code hnext]
        exact congrArg _ (ih (squeezed_space.1 h).2.2)
      · obtain ⟨-, hnext, hrest⟩ := (squeezed_outside hspace).1 h
        rw [Scan.zone, fold_code hnext, ← Scan.zone_after, ih hrest, Scan.open?_after]
        rfl
    | quoted q =>
      have hrest := ih (squeezed_quoted.1 h)
      rw [Scan.zone, fold, Scan.open?, foldFrom, quoteAfter]
      split at hrest
      · rw [if_pos ‹_›, if_pos ‹_›]
        exact congrArg _ hrest
      · rw [if_neg ‹_›, if_neg ‹_›]
        exact congrArg _ hrest
    | lineComment | blockComment => cases h

theorem normalize_recased (h : Recased sql sql') :
    foldFrom none (normalize sql) = foldFrom none (normalize sql') := by
  have hfold : fold .code sql = fold .code sql' := h
  rw [← normalize_fold, ← normalize_fold, hfold]

/-- The normal forms differ in the case of letters outside quotes too. -/
theorem recased_normalize (h : Recased sql sql') : Recased (normalize sql) (normalize sql') := by
  have hfold : ∀ sql, fold .code (normalize sql) = foldFrom none (normalize sql) := fun sql =>
    fold_of_squeezed (squeezed_normalize sql)
  unfold Recased
  rw [hfold, hfold, normalize_recased h]

/-- The tokens stand at the same place in the normal forms of two statements. -/
def Matched (sql sql' : Text) (t u : Token) : Prop :=
  ∃ ts us, readTokens (normalize sql) = .ok ts ∧ readTokens (normalize sql') = .ok us ∧
    (t, u) ∈ ts.zip us

theorem wholeMatching_matched (h : Recased sql sql') : Token.WholeMatching (Matched sql sql') := by
  constructor
  · rintro t u ⟨ts, us, hts, hus, hzip⟩
    have htokens := readTokens_alike (normalize_recased h)
    rw [hts, hus] at htokens
    cases htokens with
    | ok halike => exact (List.forall₂_iff_zip.1 halike).2 hzip
  · rintro t u ⟨ts, us, hts, hus, hzip⟩
    obtain ⟨ht, hu⟩ := List.of_mem_zip hzip
    exact ⟨(spelled_readTokens (squeezed_normalize sql) hts).1.sound t ht,
      (spelled_readTokens (squeezed_normalize sql') hus).1.sound u hu⟩

theorem readStatement_alike (h : Recased sql sql') :
    Agree Eq (Forall₂ (Matched sql sql'))
      (readStatement (normalize sql)) (readStatement (normalize sql')) := by
  have hnormal := normalize_recased h
  have htokens := (readTokens_alike hnormal).results
  have hlength : Text.byteLength (normalize sql) = Text.byteLength (normalize sql') := by
    rw [← byteLength_foldFrom none (normalize sql), hnormal, byteLength_foldFrom]
  unfold readStatement
  rw [hlength]
  generalize hr : readTokens (normalize sql) = r, hs : readTokens (normalize sql') = s at htokens ⊢
  cases htokens with
  | error hrest =>
    cases hrest
    exact .error rfl
  | @ok ts us hok =>
    obtain ⟨halike, -, -⟩ := hok
    have hmatched : Forall₂ (Matched sql sql') ts us :=
      List.forall₂_iff_zip.2 ⟨halike.length_eq, fun hzip => ⟨ts, us, hr, hs, hzip⟩⟩
    dsimp only
    rw [any_isSymbol_eq (fun _ _ htu => htu) halike]
    split
    · exact .error rfl
    · exact .ok hmatched

theorem sameWord_of_foldFrom (hxy : foldFrom none x = foldFrom none y) : Text.SameWord x y := by
  have hlower : ∀ open? x, Text.lower (foldFrom open? x) = Text.lower x := by
    intro open? x
    induction x generalizing open? with
    | nil => rfl
    | cons c x ih =>
      have hchar : (foldChar open? c).toLower = c.toLower := by
        cases open? with
        | none => exact toLower_toLower c
        | some q => rfl
      show (foldChar open? c).toLower :: Text.lower (foldFrom _ x) = c.toLower :: Text.lower x
      rw [hchar, ih]
  unfold Text.SameWord
  rw [← hlower none x, hxy, hlower]

end Sql

/-- The translations are of statements that are the same but for matched names and clauses, and
their texts are read as tokens that differ only in bare words and in the names that such words are.
The texts of a statement that is passed on differ only in the case of letters outside quotes. -/
structure Translated.Alike (R : Token → Token → Prop) (t t' : Translated) : Prop where
  statement : t.statement.Alike R t'.statement
  letters : Text.SameWord t.text t'.text
  tokens : ∃ vs ws, readTokens t.text = .ok vs ∧ readTokens t'.text = .ok ws ∧
    Forall₂ (Token.Rewritten R) vs ws
  passedOn : t.statement.kind ≠ .createTable → Recased t.text t'.text

namespace Sql

theorem statement_alike (h : Recased sql sql') :
    Agree (fun e e' => e = e' ∨ e.Alike (Matched sql sql') e')
      (fun t t' => t.statement.Alike (Matched sql sql') t'.statement)
      (translate sql) (translate sql') := by
  unfold translate
  refine ((readStatement_alike h).imp .inl id).bind fun htokens => ?_
  have hstatements := Statement.ofTokens_alike (wholeMatching_matched h).alike htokens
  exact (hstatements.imp .inr id).bind fun hs => .ok hs

theorem translated_alike (h : Recased sql sql') {t t' : Translated}
    (hs : t.statement.Alike (Matched sql sql') t'.statement) (ht : translate sql = .ok t)
    (ht' : translate sql' = .ok t') : t.Alike (Matched sql sql') t' := by
  have hmatching := wholeMatching_matched h
  have hlifted {c} (hc : t.statement = .createTable c) := lifted_of_translate ht hc
  have hlifted' {c} (hc : t'.statement = .createTable c) := lifted_of_translate ht' hc
  obtain ⟨ts, s, hts, -, rfl⟩ := translate_eq_ok.1 ht
  obtain ⟨us, s', hus, -, rfl⟩ := translate_eq_ok.1 ht'
  -- the texts of statements that are passed on are the normal forms
  have hletters := sameWord_of_foldFrom (normalize_recased h)
  have htokens : ∃ vs ws, readTokens (normalize sql) = .ok vs ∧
      readTokens (normalize sql') = .ok ws ∧
      Forall₂ (Token.Rewritten (Matched sql sql')) vs ws := by
    have hread := (readStatement_eq_ok.1 hts).1
    have hread' := (readStatement_eq_ok.1 hus).1
    have hagree := readTokens_alike (normalize_recased h)
    rw [hread, hread'] at hagree
    cases hagree with
    | ok halike => exact ⟨ts, us, hread, hread', halike.imp fun _ _ htu => htu.rewritten⟩
  have hpassed := recased_normalize h
  cases hs with
  | createTable hdefinition =>
    have hwritten := forall₂_append (hdefinition.tokens hmatching) (rewritten_refl [.mark [] ';'])
    refine ⟨.createTable hdefinition, ?_, ?_, fun hkind => absurd rfl hkind⟩
    · have hsame := render_rewritten hwritten
      rwa [render_write (hlifted rfl), render_write (hlifted' rfl)] at hsame
    · exact ⟨_, _, readTokens_write (hlifted rfl), readTokens_write (hlifted' rfl), hwritten⟩
  | select htable => exact ⟨.select htable, hletters, htokens, fun _ => hpassed⟩
  | insert hinsertion => exact ⟨.insert hinsertion, hletters, htokens, fun _ => hpassed⟩
  | update htable => exact ⟨.update htable, hletters, htokens, fun _ => hpassed⟩
  | delete htable => exact ⟨.delete htable, hletters, htokens, fun _ => hpassed⟩
  | drop htable => exact ⟨.drop htable, hletters, htokens, fun _ => hpassed⟩

/-- **Translation does not depend on letter case outside quotes.** Two texts that differ only there
are refused for one reason and under one code, or translated to statements of one kind and shape:
with the same flags and types, and with names and clauses of matched tokens. Matched tokens differ
at most in the case of letters, and that only if they are bare words, so names are the same words
and clauses differ outside quotes only. The tokens of the texts for the engine differ no more than
that, unless they are the names that matched bare words are, which may be in quotes. -/
theorem translate_recased (h : Recased sql sql') :
    (∀ t u, Matched sql sql' t u → t.Alike u) ∧
      (∀ n m, NameAlike (Matched sql sql') n m → Text.SameWord n m) ∧
      (∀ x y, ClauseAlike (Matched sql sql') x y → foldFrom none x = foldFrom none y) ∧
      Agree (fun e e' => (e = e' ∨ e.Alike (Matched sql sql') e') ∧ e.sqlState = e'.sqlState)
        (fun t t' => t.Alike (Matched sql sql') t' ∧ t.statement.kind = t'.statement.kind ∧
          t.statement.returnsRows = t'.statement.returnsRows)
        (translate sql) (translate sql') := by
  have hmatching := wholeMatching_matched h
  refine ⟨hmatching.alike, fun n m hname => hname.sameWord hmatching.alike, ?_, ?_⟩
  · intro x y hclause
    simpa using foldFrom_clause hmatching hclause []
  · refine (statement_alike h).results.imp (fun he => ⟨he, ?_⟩) fun ⟨hs, ht, ht'⟩ => ?_
    · rcases he with rfl | he
      · rfl
      · exact he.sqlState_eq
    · exact ⟨translated_alike h hs ht ht', hs.kind_eq, hs.returnsRows_eq⟩

/-- A definition with a name, a literal and a check in quotes. -/
def quietLines : Text :=
  "create table if not exists \"Order Lines\" (id serial primary key, Note text " ++
    "default 'n/A' check (note <> 'N/a') -- as typed\n)"

/-- The definition with other letters outside quotes. -/
def loudLines : Text :=
  "CREATE TABLE IF NOT EXISTS \"Order Lines\" (ID SERIAL PRIMARY KEY, NOTE TEXT " ++
    "DEFAULT 'n/A' CHECK (NOTE <> 'N/a') -- AS TYPED\n)"

theorem translate_recased_lines : Recased quietLines loudLines ∧
    ∃ t t', translate quietLines = .ok t ∧ translate loudLines = .ok t' ∧
      t.Alike (Matched quietLines loudLines) t' := by
  have hrecased : Recased quietLines loudLines := by decide +kernel
  have hok : (translate quietLines).isOk = true := by decide +kernel
  refine ⟨hrecased, ?_⟩
  obtain ⟨-, -, -, hagree⟩ := translate_recased hrecased
  generalize translate quietLines = r, translate loudLines = s at hagree hok ⊢
  cases hagree with
  | ok ht => exact ⟨_, _, rfl, rfl, ht.1⟩
  | error => cases hok

/-- **A bare name may be put in quotes as the client wrote it.** The engine takes a name with a
letter outside ASCII in quotes only, so two texts for the engine can differ in the case of letters
in quotes where the texts of the client differ outside of them. -/
theorem translate_not_recased :
    Recased "CREATE TABLE tä (a INT)" "CREATE TABLE Tä (a INT)" ∧
      (translate "CREATE TABLE tä (a INT)").map (·.text) =
        .ok "CREATE TABLE \"tä\" ( a INTEGER NULL );" ∧
      (translate "CREATE TABLE Tä (a INT)").map (·.text) =
        .ok "CREATE TABLE \"Tä\" ( a INTEGER NULL );" ∧
      ¬Recased "CREATE TABLE \"tä\" ( a INTEGER NULL );"
        "CREATE TABLE \"Tä\" ( a INTEGER NULL );" := by
  decide +kernel

end Sql

end PgGateway
