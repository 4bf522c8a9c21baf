import PgGateway.Proofs.Sql.Layout
import PgGateway.Proofs.Sql.Quotations

/-!
# Quotes that are not closed

The tokens of a text are not read when it has a quote, outside other quotations, that is never
closed (`readTokens_eq_error_iff`). The reader of tokens takes two quotes together for one quote of
the text; the scan for the normal form closes a quotation at the first of them and opens another at
the second. They agree on whether a quote is open at the end (`unreadable_iff`), so a normal form
has no tokens exactly when the scan that made it ended in quotes (`unreadable_normalize_iff`).
-/

namespace PgGateway.Sql

variable {c q : Char} {body cs front rest sql t x : Text} {kind : TokenKind}

/-! ## Outside quotes -/

/-- A quote that is open in front of the text is closed in it: by the first quote like it that is
not written twice. -/
def Closes (q : Char) (cs : Text) : Prop :=
  ∃ body rest, cs = body ++ rest ∧ Quoted q body ∧ ∀ d ∈ rest.head?, d ≠ q

/-- The text begins with a quote that is not closed. -/
def OpensUnclosed (t : Text) : Prop := ∃ q cs, t = q :: cs ∧ (q = '\'' ∨ q = '"') ∧ ¬Closes q cs

/-- The second text is a rest of the first that stands outside quotes: in front of it are characters
that are no quotes, and quotations that no quote like their own follows. -/
inductive OutsideQuotes : Text → Text → Prop
  | here (t : Text) : OutsideQuotes t t
  | char {c : Char} {cs rest : Text} (hc : ¬(c = '\'' ∨ c = '"')) (later : OutsideQuotes cs rest) :
    OutsideQuotes (c :: cs) rest
  | quotation {q : Char} {body back rest : Text} (hq : q = '\'' ∨ q = '"') (hbody : Quoted q body)
    (hback : ∀ d ∈ back.head?, d ≠ q) (later : OutsideQuotes back rest) :
    OutsideQuotes (q :: (body ++ back)) rest

theorem closes_of_closeQuote {r : Text × Text} (h : closeQuote q cs = some r) : Closes q cs :=
  ⟨r.1, r.2, closeQuote_eq h, quoted_of_closeQuote h⟩

theorem Closes.ne_none (h : Closes q cs) : closeQuote q cs ≠ none := by
  obtain ⟨body, rest, rfl, hbody, hrest⟩ := h
  rw [hbody.read hrest]
  nofun

theorem closeQuote_eq_none_iff : closeQuote q cs = none ↔ ¬Closes q cs := by
  constructor
  · intro hnone hcloses
    exact hcloses.ne_none hnone
  · intro hopen
    rw [Option.eq_none_iff_forall_not_mem]
    intro r hr
    exact hopen (closes_of_closeQuote hr)

/-- A quotation ends at one place only. -/
theorem Quoted.unique {body' back back' : Text} (h : Quoted q body)
    (hback : ∀ d ∈ back.head?, d ≠ q) (h' : Quoted q body') (hback' : ∀ d ∈ back'.head?, d ≠ q)
    (heq : body ++ back = body' ++ back') :
    back = back' := by
  have hread := h.read hback
  rw [heq, h'.read hback'] at hread
  cases hread
  rfl

namespace OutsideQuotes

theorem trans (h : OutsideQuotes t x) (hx : OutsideQuotes x rest) : OutsideQuotes t rest := by
  induction h with
  | here => exact hx
  | char hc _ ih => exact .char hc (ih hx)
  | quotation hq hbody hback _ ih => exact .quotation hq hbody hback (ih hx)

theorem suffix (h : OutsideQuotes t rest) : rest <:+ t := by
  induction h with
  | here => exact List.suffix_rfl
  | char _ _ ih => exact ih.trans (List.suffix_cons _ _)
  | quotation _ _ _ _ ih => exact ih.trans ((List.suffix_append _ _).trans (List.suffix_cons _ _))

/-- Text without quotes can be passed over. -/
theorem plain (hx : ∀ c ∈ x, ¬(c = '\'' ∨ c = '"')) (rest : Text) :
    OutsideQuotes (x ++ rest) rest := by
  induction x with
  | nil => exact .here rest
  | cons c x ih =>
    rw [List.forall_mem_cons] at hx
    exact .char hx.1 (ih hx.2)

/-- A quote behind text without quotes is one of what follows that text. -/
theorem behind_plain (hx : ∀ c ∈ x, ¬(c = '\'' ∨ c = '"')) (hq : q = '\'' ∨ q = '"')
    (h : OutsideQuotes (x ++ rest) (q :: cs)) : OutsideQuotes rest (q :: cs) := by
  induction x with
  | nil => exact h
  | cons c x ih =>
    rw [List.forall_mem_cons] at hx
    rw [List.cons_append] at h
    generalize hwhole : x ++ rest = whole at h ih
    cases h with
    | here => exact absurd hq hx.1
    | char _ later => exact ih hx.2 later
    | quotation hc => exact absurd hc hx.1

/-- A quote at a quotation or behind it opens the quotation or stands behind it. -/
theorem behind_quotation (hq : q = '\'' ∨ q = '"') (hbody : Quoted q body)
    (hback : ∀ d ∈ rest.head?, d ≠ q) (h : OutsideQuotes (q :: (body ++ rest)) t) :
    t = q :: (body ++ rest) ∨ OutsideQuotes rest t := by
  generalize hwhole : q :: (body ++ rest) = whole at h
  cases h with
  | here => exact .inl rfl
  | char hc =>
    cases hwhole
    exact absurd hq hc
  | quotation _ hbody' hback' later =>
    obtain ⟨rfl, hsame⟩ := List.cons.inj hwhole
    obtain rfl := hbody.unique hback hbody' hback' hsame
    exact .inr later

end OutsideQuotes

/-! ## How tokens are read -/

/-- A token is a quotation, or it holds no quote. -/
theorem WholeToken.quotation_or_plain (h : WholeToken c body kind) :
    ((c = '\'' ∨ c = '"') ∧ Quoted c body ∧ kind = if c = '"' then .quotedName else .string) ∨
      kind.isQuoted = false ∧ ∀ d ∈ c :: body, ¬(d = '\'' ∨ d = '"') := by
  cases h with
  | quoted hquote hbody => exact .inl ⟨hquote, hbody, rfl⟩
  | number hquote hdigit hbody =>
    right
    refine ⟨rfl, List.forall_mem_cons.2 ⟨hquote, fun d hd => ?_⟩⟩
    exact (inert_of_continues (.inr (hbody d hd))).2
  | word hquote hdigit hword hbody =>
    right
    refine ⟨rfl, List.forall_mem_cons.2 ⟨hquote, fun d hd => ?_⟩⟩
    exact (inert_of_continues (.inl (hbody d hd))).2
  | symbol hquote =>
    right
    simpa [TokenKind.isQuoted] using hquote

/-- No quote like its own follows a quotation that is a token. -/
theorem ne_quote_of_stops (hquote : c = '\'' ∨ c = '"')
    (hstops : ∀ d ∈ rest.head?, (if c = '"' then TokenKind.quotedName else .string).stops d = true) :
    ∀ d ∈ rest.head?, d ≠ c := by
  intro d hd
  have hstop := hstops d hd
  rcases hquote with rfl | rfl <;> simpa [TokenKind.stops] using hstop

/-- **Tokens are read** until white space is left or white space and a quote that is not closed;
each is behind white space, and over before what follows. -/
theorem readTokens_induction {motive : Text → Except Text (List Token) → Prop}
    (blank : ∀ space : Text, (∀ d ∈ space, isSpace d = true) → motive space (.ok []))
    (unclosed : ∀ (space : Text) (q : Char) (cs : Text), (∀ d ∈ space, isSpace d = true) →
      (q = '\'' ∨ q = '"') → ¬Closes q cs → motive (space ++ q :: cs) (.error (q :: cs)))
    (token : ∀ (space : Text) (c : Char) (body : Text) (kind : TokenKind) (rest : Text),
      (∀ d ∈ space, isSpace d = true) → WholeToken c body kind →
      (∀ d ∈ rest.head?, kind.stops d = true) → isSpace c = false → motive rest (readTokens rest) →
      motive (space ++ (c :: body ++ rest))
        ((readTokens rest).map (⟨space, kind, c :: body⟩ :: ·)))
    (x : Text) : motive x (readTokens x) := by
  have hspace : ∀ x : Text, ∀ d ∈ x.takeWhile isSpace, isSpace d = true := fun x d hd =>
    List.mem_takeWhile_imp hd
  have hsplit : ∀ x : Text, x = x.takeWhile isSpace ++ x.dropWhile isSpace := fun x =>
    List.takeWhile_append_dropWhile.symm
  fun_induction readTokens x with
  | case1 x hdrop =>
    rw [hsplit x, hdrop, List.append_nil]
    exact blank _ (hspace x)
  | case2 x c rest hdrop htoken =>
    rw [hsplit x, hdrop]
    by_cases hquote : c = '\'' ∨ c = '"'
    · rw [readToken, if_pos hquote, Option.map_eq_none_iff] at htoken
      exact unclosed _ c rest (hspace x) hquote (closeQuote_eq_none_iff.1 htoken)
    · rw [readToken, if_neg hquote] at htoken
      split at htoken
      · cases htoken
      · split at htoken <;> cases htoken
  | case3 x c rest hdrop kind text rest' htoken ih =>
    obtain ⟨body, rfl, hwhole, hstops⟩ := wholeToken_of_readToken htoken
    obtain ⟨rfl⟩ : rest = body ++ rest' := by simpa using readToken_eq htoken
    have hc : isSpace c = false := by
      have hnot := List.head?_dropWhile_not isSpace x
      rw [hdrop] at hnot
      exact hnot
    have hx : x = x.takeWhile isSpace ++ (c :: body ++ rest') := by
      rw [List.cons_append, ← hdrop]
      exact hsplit x
    have hread := token (x.takeWhile isSpace) c body kind rest' (hspace x) hwhole hstops hc ih
    rwa [← hx] at hread

theorem not_quote_of_isSpace (h : isSpace c = true) : ¬(c = '\'' ∨ c = '"') := by
  rintro (rfl | rfl) <;> exact absurd h (by decide)

/-! ## Texts that are not read -/

/-- Where the tokens of a text are not read, a quote is left open. -/
theorem outside_of_readTokens (t : Text) :
    ∀ rest, readTokens t = .error rest → OutsideQuotes t rest ∧ OpensUnclosed rest := by
  induction t using readTokens_induction with
  | blank => nofun
  | unclosed space q cs hspace hq hopen =>
    rintro rest ⟨⟩
    exact ⟨.plain (fun c hc => not_quote_of_isSpace (hspace c hc)) _, q, cs, rfl, hq, hopen⟩
  | token space c body kind back hspace hwhole hstops _ ih =>
    intro rest h
    cases hread : readTokens back with
    | ok ts =>
      rw [hread] at h
      cases h
    | error rest' =>
      rw [hread] at h
      cases h
      obtain ⟨houtside, hopen⟩ := ih _ hread
      refine ⟨.trans (.plain (fun c hc => not_quote_of_isSpace (hspace c hc)) _) ?_, hopen⟩
      rcases hwhole.quotation_or_plain with ⟨hquote, hbody, rfl⟩ | ⟨-, hplain⟩
      · exact .quotation hquote hbody (ne_quote_of_stops hquote hstops) houtside
      · exact .trans (.plain hplain back) houtside

/-- A quote that is left open is where the reading of tokens ends. -/
theorem readTokens_of_outside (t : Text) :
    ∀ rest, OutsideQuotes t rest → OpensUnclosed rest → readTokens t = .error rest := by
  induction t using readTokens_induction with
  | blank space hspace =>
    rintro _ houtside ⟨q, cs, rfl, hq, -⟩
    rw [← List.append_nil space] at houtside
    cases houtside.behind_plain (fun c hc => not_quote_of_isSpace (hspace c hc)) hq
  | unclosed space q cs hspace hq hopen =>
    rintro _ houtside ⟨q', cs', rfl, hq', -⟩
    have hrest := houtside.behind_plain (fun c hc => not_quote_of_isSpace (hspace c hc)) hq'
    cases hrest with
    | here => rfl
    | char hc => exact absurd hq hc
    | quotation _ hbody hback => exact absurd ⟨_, _, rfl, hbody, hback⟩ hopen
  | token space c body kind back hspace hwhole hstops _ ih =>
    rintro _ houtside ⟨q, cs, rfl, hq, hopen⟩
    have hunclosed : OpensUnclosed (q :: cs) := ⟨q, cs, rfl, hq, hopen⟩
    have htoken := houtside.behind_plain (fun c hc => not_quote_of_isSpace (hspace c hc)) hq
    have hback : OutsideQuotes back (q :: cs) := by
      rcases hwhole.quotation_or_plain with ⟨hquote, hbody, rfl⟩ | ⟨-, hplain⟩
      · -- the quote that is left open is not the one of this token, which is closed
        have hnext := ne_quote_of_stops hquote hstops
        rcases htoken.behind_quotation hquote hbody hnext with hsame | hlater
        · cases hsame
          exact absurd ⟨body, back, rfl, hbody, hnext⟩ hopen
        · exact hlater
      · exact htoken.behind_plain hplain hq
    rw [ih _ hback hunclosed]
    rfl

/-- **The tokens of a text are not read exactly when a quote is left open**: one that stands outside
other quotations and is not closed. The rest that is given back begins with it. -/
theorem readTokens_eq_error_iff :
    readTokens t = .error rest ↔ OutsideQuotes t rest ∧ OpensUnclosed rest :=
  ⟨outside_of_readTokens t rest, fun h => readTokens_of_outside t rest h.1 h.2⟩

/-! ## The quote that is open at the end -/

/-- The tokens of the text are not read. -/
def Unreadable (t : Text) : Prop := ∃ rest, readTokens t = .error rest

theorem foldl_quoteAfter_plain (hx : ∀ c ∈ x, ¬(c = '\'' ∨ c = '"')) :
    x.foldl quoteAfter none = none := by
  induction x with
  | nil => rfl
  | cons c x ih =>
    rw [List.forall_mem_cons] at hx
    rw [List.foldl_cons, quoteAfter, if_neg hx.1]
    exact ih hx.2

/-- A quotation leaves no quote open: of two quotes together the first closes it and the second
opens it again. -/
theorem Quoted.foldl_quoteAfter (h : Quoted q body) (hq : q = '\'' ∨ q = '"') :
    body.foldl quoteAfter (some q) = none := by
  induction h with
  | close => simp [quoteAfter]
  | pair later ih => simpa [quoteAfter, hq] using ih
  | char hc later ih => simpa [quoteAfter, hc] using ih

theorem foldl_quoteAfter_unclosed (hq : q = '\'' ∨ q = '"') (h : closeQuote q cs = none) :
    cs.foldl quoteAfter (some q) = some q := by
  fun_induction closeQuote q cs with
  | case1 => rfl
  | case2 => cases h
  | case3 c hc => simp [quoteAfter, hc]
  | case4 cs ih => simpa [quoteAfter, hq] using ih (Option.map_eq_none_iff.1 h)
  | case5 => cases h
  | case6 c d cs hc ih =>
    have hlater := ih (Option.map_eq_none_iff.1 h)
    rwa [List.foldl_cons, quoteAfter, if_neg hc]

/-- **Both ways to read quotes agree on what is open at the end.** -/
theorem unreadable_iff (t : Text) : Unreadable t ↔ openQuote t ≠ none := by
  unfold Unreadable openQuote
  induction t using readTokens_induction with
  | blank space hspace =>
    rw [foldl_quoteAfter_plain fun c hc => not_quote_of_isSpace (hspace c hc)]
    simp
  | unclosed space q cs hspace hq hopen =>
    have hstart : quoteAfter none q = some q := if_pos hq
    rw [List.foldl_append,
      foldl_quoteAfter_plain fun c hc => not_quote_of_isSpace (hspace c hc), List.foldl_cons,
      hstart, foldl_quoteAfter_unclosed hq (closeQuote_eq_none_iff.2 hopen)]
    simp
  | token space c body kind back hspace hwhole hstops _ ih =>
    have htoken : (c :: body).foldl quoteAfter none = none := by
      rcases hwhole.quotation_or_plain with ⟨hquote, hbody, rfl⟩ | ⟨-, hplain⟩
      · have hstart : quoteAfter none c = some c := if_pos hquote
        rw [List.foldl_cons, hstart, hbody.foldl_quoteAfter hquote]
      · exact foldl_quoteAfter_plain hplain
    rw [List.foldl_append,
      foldl_quoteAfter_plain fun c hc => not_quote_of_isSpace (hspace c hc), List.foldl_append,
      htoken, ← ih]
    cases readTokens back <;> simp [Except.map]

/-- The quote that is open in a zone. -/
def Zone.open? : Zone → Option Char
  | .quoted q => some q
  | _ => none

theorem Zone.open?_eq_some_iff {zone : Zone} : zone.open? = some q ↔ zone = .quoted q := by
  cases zone <;> simp [Zone.open?]

theorem Scan.open?_zone (scan : Scan) : scan.zone.open? = scan.open? := by
  cases scan <;> rfl

/-- What the scan writes leaves that quote open in which the scan ends. -/
theorem openQuote_squeeze (scan : Scan) (cs : Text) :
    (squeeze scan cs).foldl quoteAfter scan.open? = (scan.zone.behind cs).open? := by
  fun_induction squeeze scan cs with
  | case1 scan =>
    rw [Zone.behind, Scan.open?_zone]
    rfl
  | case2 gap cs ih | case3 gap cs ih => exact ih
  | case4 gap c cs hline hblock hblank ih =>
    have hcomment := not_opensComment hline hblock
    rw [Scan.zone, behind_code hcomment, Zone.after_blank hblank]
    exact ih
  | case5 gap c cs hline hblock hblank ih =>
    have hcomment := not_opensComment hline hblock
    have hgap : gap.text.foldl quoteAfter none = none := by
      cases gap <;> rfl
    rw [Scan.zone, behind_code hcomment, ← Scan.zone_after, ← ih, Scan.open?_after,
      List.foldl_append]
    show (c :: squeeze (.after c) cs).foldl quoteAfter (gap.text.foldl quoteAfter none) = _
    rw [hgap]
    rfl
  | case6 q c cs ih =>
    rw [Scan.zone_quoted, Scan.open?_quoted] at ih
    rw [Scan.zone, Zone.behind]
    exact ih
  | case7 gap c cs ih =>
    rw [Scan.zone_lineComment, Scan.open?_lineComment] at ih
    rw [Scan.zone, Zone.behind]
    exact ih
  | case8 gap cs ih => exact ih
  | case9 gap c cs hclose ih =>
    rw [Scan.zone, Zone.behind]
    · exact ih
    · exact hclose

/-- A character that is no quote opens and closes none. -/
theorem openQuote_concat_of_not_quote (hc : ¬(c = '\'' ∨ c = '"')) :
    openQuote (t ++ [c]) = openQuote t := by
  rw [openQuote_concat]
  cases hopen : openQuote t with
  | none => exact if_neg hc
  | some q =>
    have hne : c ≠ q := by
      rintro rfl
      exact hc (quote_of_openQuote hopen)
    exact if_neg hne

theorem openQuote_trimEnd (t : Text) : openQuote (Text.trimEnd t) = openQuote t := by
  induction t using List.reverseRecOn with
  | nil => rfl
  | append_singleton t c ih =>
    rw [trimEnd_concat]
    split
    · next hblank => rw [ih, openQuote_concat_of_not_quote (not_blank_quote hblank)]
    · rfl

theorem openQuote_dropSemicolon (t : Text) : openQuote (dropSemicolon t) = openQuote t := by
  unfold dropSemicolon
  split
  · next hlast =>
    obtain ⟨front, rfl⟩ := List.getLast?_eq_some_iff.1 hlast
    rw [List.dropLast_concat, openQuote_trimEnd, openQuote_concat_of_not_quote (by decide)]
  · rfl

theorem openQuote_normalize (sql : Text) :
    openQuote (normalize sql) = (Zone.behind .code sql).open? := by
  rw [normalize, openQuote_dropSemicolon]
  exact openQuote_squeeze (.outside .start) sql

/-- **A normal form has no tokens exactly when the scan that makes it ends in quotes.** -/
theorem unreadable_normalize_iff (sql : Text) :
    Unreadable (normalize sql) ↔ ∃ q, Zone.behind .code sql = .quoted q := by
  rw [unreadable_iff, openQuote_normalize, Option.ne_none_iff_exists']
  simp only [Zone.open?_eq_some_iff]

end PgGateway.Sql
