import Mathlib.Data.List.Forall2
import PgGateway.Proofs.Sql.Spelling
import PgGateway.Proofs.Text.LetterCase

/-!
# Letter case outside quotes

Two texts that differ only in the case of letters outside quotes (`Recased`) become one when these
letters are made small. Making them small commutes with the normal form (`normalize_fold`) and with
the reading of tokens (`readTokens_foldFrom`), so the texts are read as tokens that differ in the
case of bare words only.
-/

namespace PgGateway

/-- What is no letter is not made from a letter either. -/
theorem toLower_eq_iff {c x : Char} (hx : x.isAlpha = false) : c.toLower = x ↔ c = x := by
  have hletter : ∀ n < 26, (Char.ofNat (97 + n)).isAlpha = true ∧
      (Char.ofNat (65 + n)).isAlpha = true := by decide
  have hne : ∀ d : Char, d.isAlpha = true → (d = x) = False := by
    rintro d hd
    apply eq_false
    rintro rfl
    rw [hx] at hd
    cases hd
  refine iff_of_eq (toLower_invariant (f := (· = x)) (fun n hn => ?_) c)
  rw [hne _ (hletter n hn).1, hne _ (hletter n hn).2]

namespace Sql

variable {c d q : Char} {cs rest x y : Text}

/-! ## Texts up to letter case outside quotes -/

/-- Where a character of a statement text stands: outside quotes and comments, between two
characters `q`, or in a comment of one of the two kinds. -/
inductive Zone
  | code
  | quoted (q : Char)
  | lineComment
  | blockComment
deriving DecidableEq, Repr

/-- The zone behind a character outside quotes and comments. -/
def Zone.after (c : Char) : Zone := if c = '\'' ∨ c = '"' then .quoted c else .code

theorem Zone.after_blank (hc : isBlank c = true) : Zone.after c = .code := by
  apply if_neg
  rintro (rfl | rfl) <;> exact absurd hc (by decide)

/-- Makes the letters outside quotes small. -/
def fold : Zone → Text → Text
  | _, [] => []
  | .code, '-' :: '-' :: cs => '-' :: '-' :: fold .lineComment cs
  | .code, '/' :: '*' :: cs => '/' :: '*' :: fold .blockComment cs
  | .code, c :: cs => c.toLower :: fold (.after c) cs
  | .quoted q, c :: cs => c :: fold (if c = q then .code else .quoted q) cs
  | .lineComment, c :: cs => c.toLower :: fold (if c = '\n' then .code else .lineComment) cs
  | .blockComment, '*' :: '/' :: cs => '*' :: '/' :: fold .code cs
  | .blockComment, c :: cs => c.toLower :: fold .blockComment cs

/-- The texts differ at most in the case of letters outside quotes. -/
def Recased (x y : Text) : Prop := fold .code x = fold .code y

instance (x y : Text) : Decidable (Recased x y) := inferInstanceAs (Decidable (_ = _))

theorem fold_code (hcomment : ∀ d ∈ cs.head?, ¬opensComment c d) :
    fold .code (c :: cs) = c.toLower :: fold (.after c) cs := by
  rw [fold]
  · exact not_lineComment hcomment
  · exact not_blockComment hcomment

theorem toLower_toLower (c : Char) : c.toLower.toLower = c.toLower :=
  toLower_invariant (f := Char.toLower) (by decide) c

/-- Whether two characters open a comment does not depend on letter case. -/
theorem opensComment_congr {c' d' : Char} (hc : c.toLower = c'.toLower)
    (hd : d.toLower = d'.toLower) : opensComment c d ↔ opensComment c' d' := by
  have hsmall : ∀ c d : Char, opensComment c.toLower d.toLower ↔ opensComment c d := by
    intro c d
    simp only [opensComment, toLower_eq_iff (x := '-') (by decide),
      toLower_eq_iff (x := '/') (by decide), toLower_eq_iff (x := '*') (by decide)]
  rw [← hsmall c d, hc, hd, hsmall]

theorem quote_toLower : c.toLower = '\'' ∨ c.toLower = '"' ↔ c = '\'' ∨ c = '"' := by
  rw [toLower_eq_iff (x := '\'') (by decide), toLower_eq_iff (x := '"') (by decide)]

theorem isBlank_toLower (c : Char) : isBlank c.toLower = isBlank c :=
  toLower_invariant (by decide) c

/-! ## Texts without comments -/

/-- The quote that is open behind a character, if one is. -/
def quoteAfter : Option Char → Char → Option Char
  | none, c => if c = '\'' ∨ c = '"' then some c else none
  | some q, c => if c = q then none else some q

/-- A character, made small if no quote is open. -/
def foldChar : Option Char → Char → Char
  | none, c => c.toLower
  | some _, c => c

/-- Makes the letters outside quotes small in a text without comments. -/
def foldFrom : Option Char → Text → Text
  | _, [] => []
  | open?, c :: cs => foldChar open? c :: foldFrom (quoteAfter open? c) cs

theorem foldFrom_append (open? : Option Char) (x y : Text) :
    foldFrom open? (x ++ y) = foldFrom open? x ++ foldFrom (x.foldl quoteAfter open?) y := by
  induction x generalizing open? with
  | nil => rfl
  | cons c x ih => exact congrArg _ (ih _)

theorem foldChar_eq_iff {open? : Option Char} {x : Char} (hx : x.isAlpha = false) :
    foldChar open? c = x ↔ c = x := by
  cases open? with
  | none => exact toLower_eq_iff hx
  | some q => exact Iff.rfl

theorem isBlank_foldChar (open? : Option Char) (c : Char) :
    isBlank (foldChar open? c) = isBlank c := by
  cases open? with
  | none => exact isBlank_toLower c
  | some q => rfl

theorem byteLength_foldFrom (open? : Option Char) (x : Text) :
    Text.byteLength (foldFrom open? x) = Text.byteLength x := by
  have hsize : ∀ open? c, (foldChar open? c).utf8Size = c.utf8Size := by
    intro open? c
    cases open? with
    | none => exact toLower_invariant (by decide) c
    | some q => rfl
  induction x generalizing open? with
  | nil => rfl
  | cons c x ih => rw [foldFrom, Text.byteLength, Text.byteLength, hsize, ih]

/-! ## Normal forms -/

/-- The zone of a state of the scan. -/
def Scan.zone : Scan → Zone
  | .outside _ => .code
  | .quoted q => .quoted q
  | .lineComment _ => .lineComment
  | .blockComment _ => .blockComment

/-- The quote that is open in a state of the scan. -/
def Scan.open? : Scan → Option Char
  | .quoted q => some q
  | _ => none

theorem Scan.zone_quoted (c q : Char) :
    (if c = q then .outside .tight else .quoted q : Scan).zone =
      if c = q then .code else .quoted q := by
  split <;> rfl

theorem Scan.zone_lineComment (c : Char) (gap : Gap) :
    (if c = '\n' then .outside gap else .lineComment gap : Scan).zone =
      if c = '\n' then .code else .lineComment := by
  split <;> rfl

theorem Scan.open?_quoted (c q : Char) :
    (if c = q then .outside .tight else .quoted q : Scan).open? = quoteAfter (some q) c := by
  rw [quoteAfter]
  split <;> rfl

theorem Scan.open?_lineComment (c : Char) (gap : Gap) :
    (if c = '\n' then .outside gap else .lineComment gap : Scan).open? = none := by
  split <;> rfl

theorem Scan.zone_after (c : Char) : (Scan.after c).zone = Zone.after c := by
  unfold Scan.after Zone.after
  split <;> rfl

theorem Scan.open?_after (c : Char) : (Scan.after c).open? = quoteAfter none c := by
  show _ = if c = '\'' ∨ c = '"' then some c else none
  unfold Scan.after
  split <;> rfl

theorem Scan.after_toLower (c : Char) : Scan.after c.toLower = Scan.after c := by
  unfold Scan.after
  by_cases hquote : c = '\'' ∨ c = '"'
  · rcases hquote with rfl | rfl <;> rfl
  · rw [if_neg hquote, if_neg (quote_toLower.not.2 hquote)]

/-- A folded text begins as the text does, up to letter case. -/
theorem head_fold {zone : Zone} :
    ∀ d ∈ (fold zone cs).head?, ∃ e ∈ cs.head?, d.toLower = e.toLower := by
  fun_cases fold zone cs with
  | case1 => nofun
  | case2 | case3 | case5 | case7 =>
    rintro d ⟨⟩
    exact ⟨_, rfl, rfl⟩
  | case4 | case6 | case8 =>
    rintro d ⟨⟩
    exact ⟨_, rfl, toLower_toLower _⟩

theorem not_opensComment_fold {zone : Zone} (hcomment : ∀ d ∈ cs.head?, ¬opensComment c d) :
    ∀ d ∈ (fold zone cs).head?, ¬opensComment c.toLower d := by
  intro d hd hopens
  obtain ⟨e, he, hde⟩ := head_fold d hd
  exact hcomment e he ((opensComment_congr (toLower_toLower c) hde).1 hopens)

theorem foldFrom_gap (gap : Gap) (cs : Text) :
    foldFrom none (gap.text ++ cs) = gap.text ++ foldFrom none cs := by
  cases gap <;> rfl

/-- **Folding commutes with the scan.** -/
theorem squeeze_fold (scan : Scan) (cs : Text) :
    squeeze scan (fold scan.zone cs) = foldFrom scan.open? (squeeze scan cs) := by
  fun_induction squeeze scan cs with
  | case1 scan => cases scan <;> rfl
  | case2 gap cs ih => exact ih
  | case3 gap cs ih => exact ih
  | case4 gap c cs hline hblock hblank ih =>
    have hcomment := not_opensComment hline hblock
    rw [Scan.zone, fold_code hcomment, Zone.after_blank hblank,
      squeeze_outside (not_opensComment_fold hcomment), isBlank_toLower, if_pos hblank]
    exact ih
  | case5 gap c cs hline hblock hblank ih =>
    have hcomment := not_opensComment hline hblock
    rw [Scan.zone, fold_code hcomment, squeeze_outside (not_opensComment_fold hcomment),
      isBlank_toLower, if_neg hblank, Scan.after_toLower, ← Scan.zone_after, ih, Scan.open?_after]
    exact (foldFrom_gap gap (c :: squeeze (.after c) cs)).symm
  | case6 q c cs ih =>
    rw [Scan.zone_quoted, Scan.open?_quoted] at ih
    rw [Scan.zone, fold, squeeze, ih]
    rfl
  | case7 gap c cs ih =>
    rw [Scan.zone_lineComment, Scan.open?_lineComment] at ih
    rw [Scan.zone, fold, squeeze, if_congr (toLower_eq_iff (by decide)) rfl rfl]
    exact ih
  | case8 gap cs ih => exact ih
  | case9 gap c cs hclose ih =>
    rw [Scan.zone, fold]
    · rw [squeeze]
      · exact ih
      · rintro cs' hstar hslash
        obtain ⟨e, he, hde⟩ := head_fold '/' (by rw [hslash]; rfl)
        obtain ⟨rest, rfl⟩ := List.head?_eq_some_iff.1 he
        refine hclose rest ((toLower_eq_iff (by decide)).1 hstar) ?_
        rw [(toLower_eq_iff (x := '/') (by decide)).1 hde.symm]
    · exact hclose

theorem trimEnd_concat (x : Text) (c : Char) :
    Text.trimEnd (x ++ [c]) = if isBlank c then Text.trimEnd x else x ++ [c] := by
  rw [Text.trimEnd, List.reverse_append, List.reverse_singleton, List.singleton_append,
    List.dropWhile_cons]
  split
  · rfl
  · rw [List.reverse_cons, List.reverse_reverse]

theorem foldFrom_concat (x : Text) (c : Char) : ∃ open?, foldFrom none (x ++ [c]) =
    foldFrom none x ++ [foldChar open? c] :=
  ⟨x.foldl quoteAfter none, foldFrom_append none x [c]⟩

theorem trimEnd_foldFrom (x : Text) :
    Text.trimEnd (foldFrom none x) = foldFrom none (Text.trimEnd x) := by
  induction x using List.reverseRecOn with
  | nil => rfl
  | append_singleton x c ih =>
    obtain ⟨open?, hfold⟩ := foldFrom_concat x c
    rw [hfold, trimEnd_concat, trimEnd_concat, isBlank_foldChar, ih]
    split
    · rfl
    · exact hfold.symm

theorem dropSemicolon_foldFrom (x : Text) :
    dropSemicolon (foldFrom none x) = foldFrom none (dropSemicolon x) := by
  rcases List.eq_nil_or_concat' x with rfl | ⟨x, c, rfl⟩
  · rfl
  · obtain ⟨open?, hfold⟩ := foldFrom_concat x c
    have hlast : foldChar open? c = ';' ↔ c = ';' := foldChar_eq_iff (by decide)
    rw [dropSemicolon, dropSemicolon, hfold, List.getLast?_concat, List.getLast?_concat,
      List.dropLast_concat, List.dropLast_concat, trimEnd_foldFrom]
    by_cases hc : c = ';'
    · rw [if_pos (congrArg some (hlast.2 hc)), if_pos (congrArg some hc)]
    · rw [if_neg fun h => hc (hlast.1 (Option.some.inj h)), if_neg fun h => hc (Option.some.inj h),
        hfold]

/-- **Folding commutes with the normal form.** -/
theorem normalize_fold (sql : Text) :
    normalize (fold .code sql) = foldFrom none (normalize sql) := by
  rw [normalize, normalize, ← dropSemicolon_foldFrom]
  exact congrArg dropSemicolon (squeeze_fold (.outside .start) sql)

/-! ## Tokens -/

/-- The text of a token with its letters small, unless they are in quotes. -/
def foldText : TokenKind → Text → Text
  | .word, x => Text.lower x
  | _, x => x

/-- The token with its letters small, unless they are in quotes. -/
def Token.fold (t : Token) : Token := { t with text := foldText t.kind t.text }

theorem foldFrom_plain (hplain : ∀ c ∈ x, ¬(c = '\'' ∨ c = '"')) (rest : Text) :
    foldFrom none (x ++ rest) = Text.lower x ++ foldFrom none rest := by
  induction x with
  | nil => rfl
  | cons c x ih =>
    rw [List.forall_mem_cons] at hplain
    rw [List.cons_append, foldFrom, quoteAfter, if_neg hplain.1, ih hplain.2]
    rfl

theorem foldFrom_quoted (hquote : q = '\'' ∨ q = '"') (h : Quoted q cs) (rest : Text) :
    foldFrom (some q) (cs ++ rest) = cs ++ foldFrom none rest := by
  have hclose : quoteAfter (some q) q = none := if_pos rfl
  have hsmall : q.toLower = q := by
    rcases hquote with rfl | rfl <;> rfl
  induction h with
  | close => rw [List.singleton_append, foldFrom, hclose]; rfl
  | pair later ih =>
    have hopen : quoteAfter none q = some q := if_pos hquote
    rw [List.cons_append, List.cons_append, foldFrom, hclose, foldFrom, hopen, ih]
    show q :: q.toLower :: _ = _
    rw [hsmall]
    rfl
  | @char c cs hc later ih =>
    have hstay : quoteAfter (some q) c = some q := if_neg hc
    rw [List.cons_append, foldFrom, hstay, ih]
    rfl

/-- Nothing between a quote and the end of the text changes if the quote is never closed. -/
theorem foldFrom_unclosed (hquote : q = '\'' ∨ q = '"') (h : closeQuote q cs = none) :
    foldFrom (some q) cs = cs := by
  have hclose : quoteAfter (some q) q = none := if_pos rfl
  have hopen : quoteAfter none q = some q := if_pos hquote
  have hsmall : q.toLower = q := by
    rcases hquote with rfl | rfl <;> rfl
  fun_induction closeQuote q cs with
  | case1 => rfl
  | case2 => cases h
  | case3 c hc => rfl
  | case4 cs ih =>
    rw [foldFrom, hclose, foldFrom, hopen, ih (Option.map_eq_none_iff.1 h)]
    show q :: q.toLower :: cs = _
    rw [hsmall]
  | case5 d cs hd => cases h
  | case6 c d cs hc ih =>
    have hstay : quoteAfter (some q) c = some q := if_neg hc
    rw [foldFrom, hstay, ih (Option.map_eq_none_iff.1 h)]
    rfl

theorem continuesWord_toLower (c : Char) : continuesWord c.toLower = continuesWord c :=
  toLower_invariant (by decide) c

theorem beginsWord_toLower (c : Char) : beginsWord c.toLower = beginsWord c :=
  toLower_invariant (by decide) c

theorem isDigit_toLower (c : Char) : c.toLower.isDigit = c.isDigit :=
  toLower_invariant (by decide) c

theorem isSpace_toLower (c : Char) : isSpace c.toLower = isSpace c :=
  toLower_invariant (by decide) c

theorem stops_foldChar (kind : TokenKind) (open? : Option Char) (c : Char) :
    kind.stops (foldChar open? c) = kind.stops c := by
  cases open? with
  | none =>
    have hsmall : ∀ kind : TokenKind, kind.stops c.toLower = kind.stops c := by
      intro kind
      cases kind <;> exact toLower_invariant (by decide) c
    exact hsmall kind
  | some q => rfl

theorem lower_eq_self (h : ∀ c ∈ x, c.isAlpha = false) : Text.lower x = x := by
  have hchar : ∀ c ∈ x, c.toLower = c := fun c hc => (toLower_eq_iff (h c hc)).2 rfl
  exact (List.map_congr_left hchar).trans (List.map_id x)

theorem foldText_of_ne_word {kind : TokenKind} (hkind : kind ≠ .word) : foldText kind x = x := by
  cases kind with
  | word => exact absurd rfl hkind
  | quotedName | string | number | symbol => rfl

theorem not_isAlpha_of_continuesNumber (h : continuesNumber c = true) : c.isAlpha = false := by
  simp only [continuesNumber, Bool.or_eq_true, beq_iff_eq] at h
  rcases h with hdigit | rfl
  · have hnine : c.val ≤ '9'.val := of_decide_eq_true (Bool.and_eq_true_iff.1 hdigit).2
    have hbehind : ∀ {d : Char}, '9'.val < d.val → ¬d.val ≤ c.val := fun hd hle =>
      UInt32.not_le.2 hd (UInt32.le_trans hle hnine)
    refine Bool.eq_false_iff.2 fun hletter => ?_
    rcases Bool.or_eq_true_iff.1 hletter with hupper | hlower
    · exact hbehind (by decide) (of_decide_eq_true hupper).1
    · exact hbehind (by decide) (of_decide_eq_true (Bool.and_eq_true_iff.1 hlower).1)
  · rfl

namespace WholeToken

variable {kind : TokenKind}

/-- A token other than a bare word holds letters in quotes only. -/
theorem foldFrom_append (h : WholeToken c cs kind) (rest : Text) :
    foldFrom none (c :: cs ++ rest) = foldText kind (c :: cs) ++ foldFrom none rest := by
  cases h with
  | quoted hquote hcs =>
    have hkind : (if c = '"' then TokenKind.quotedName else .string) ≠ .word := by
      split <;> nofun
    have hopen : quoteAfter none c = some c := if_pos hquote
    have hsmall : c.toLower = c := by
      rcases hquote with rfl | rfl <;> rfl
    rw [foldText_of_ne_word hkind, List.cons_append, foldFrom, hopen,
      foldFrom_quoted hquote hcs]
    show c.toLower :: _ = _
    rw [hsmall]
    rfl
  | number hquote hdigit hcs =>
    have hnumber : ∀ d ∈ c :: cs, continuesNumber d = true :=
      List.forall_mem_cons.2 ⟨by simp [continuesNumber, hdigit], hcs⟩
    rw [foldFrom_plain fun d hd => (inert_of_continues (.inr (hnumber d hd))).2,
      lower_eq_self fun d hd => not_isAlpha_of_continuesNumber (hnumber d hd)]
    rfl
  | word hquote hdigit hword hcs =>
    have hwords : ∀ d ∈ c :: cs, continuesWord d = true :=
      List.forall_mem_cons.2 ⟨by simp [continuesWord, hword], hcs⟩
    rw [foldFrom_plain fun d hd => (inert_of_continues (.inl (hwords d hd))).2]
    rfl
  | symbol hquote hdigit hword =>
    have halpha : ∀ d ∈ [c], d.isAlpha = false := by
      intro d hd
      rw [List.mem_singleton.1 hd]
      simp only [beginsWord, Bool.or_eq_true, not_or, Bool.not_eq_true] at hword
      exact hword.1.1
    rw [foldFrom_plain (by simpa using hquote), lower_eq_self halpha]
    rfl

/-- A token is whole in any letter case. -/
theorem exists_fold (h : WholeToken c cs kind) : ∃ c' cs', foldText kind (c :: cs) = c' :: cs' ∧
    isSpace c' = isSpace c ∧ WholeToken c' cs' kind := by
  by_cases hkind : kind = .word
  · subst hkind
    refine ⟨c.toLower, Text.lower cs, rfl, isSpace_toLower c, ?_⟩
    generalize hword : TokenKind.word = kind at h
    cases h with
    | quoted hquote hcs =>
      split at hword <;> cases hword
    | number | symbol => cases hword
    | word hquote hdigit hbegins hcs =>
      refine .word (quote_toLower.not.2 hquote) (by rwa [isDigit_toLower])
        (by rwa [beginsWord_toLower]) ?_
      intro d hd
      obtain ⟨e, he, rfl⟩ := List.mem_map.1 hd
      rw [continuesWord_toLower]
      exact hcs e he
  · exact ⟨c, cs, foldText_of_ne_word hkind, rfl, h⟩

end WholeToken

theorem foldFrom_spaces {space : Text} (hspace : ∀ d ∈ space, isSpace d = true) (rest : Text) :
    foldFrom none (space ++ rest) = space ++ foldFrom none rest := by
  have hinert : ∀ d ∈ space, ¬(d = '\'' ∨ d = '"') ∧ d.isAlpha = false := by
    intro d hd
    have hd := hspace d hd
    simp only [isSpace, Bool.or_eq_true, beq_iff_eq] at hd
    rcases hd with (((rfl | rfl) | rfl) | rfl) | rfl <;> decide
  rw [foldFrom_plain fun d hd => (hinert d hd).1, lower_eq_self fun d hd => (hinert d hd).2]

/-- **Folding commutes with the reading of tokens.** The rest of the text from a quote that is not
closed stays as it is. -/
theorem readTokens_foldFrom (x : Text) :
    readTokens (foldFrom none x) = (readTokens x).map (List.map Token.fold) := by
  have hspace : ∀ x : Text, ∀ d ∈ x.takeWhile isSpace, isSpace d = true := fun x d hd =>
    List.mem_takeWhile_imp hd
  fun_induction readTokens x with
  | case1 x hdrop =>
    have hfold := foldFrom_spaces (hspace x) (x.dropWhile isSpace)
    rw [hdrop, foldFrom, ← hdrop, List.takeWhile_append_dropWhile] at hfold
    rw [hfold, readTokens]
    split
    · rfl
    · next hcons =>
      rw [hdrop] at hcons
      cases hcons
  | case2 x c rest hdrop htoken =>
    have hquote : c = '\'' ∨ c = '"' := by
      by_contra hquote
      rw [readToken, if_neg hquote] at htoken
      split at htoken
      · cases htoken
      · split at htoken <;> cases htoken
    have hunclosed : foldFrom none (c :: rest) = c :: rest := by
      rw [readToken, if_pos hquote] at htoken
      have hopen : quoteAfter none c = some c := if_pos hquote
      have hsmall : foldChar none c = c := by
        rcases hquote with rfl | rfl <;> rfl
      rw [foldFrom, hopen, hsmall, foldFrom_unclosed hquote (Option.map_eq_none_iff.1 htoken)]
    have hfold := foldFrom_spaces (hspace x) (x.dropWhile isSpace)
    rw [hdrop, hunclosed, ← hdrop, List.takeWhile_append_dropWhile] at hfold
    rw [hfold, readTokens]
    split
    · next hnil =>
      rw [hdrop] at hnil
      cases hnil
    · next hcons =>
      rw [hdrop] at hcons
      cases hcons
      split
      · rfl
      · next hsome =>
        rw [htoken] at hsome
        cases hsome
  | case3 x c rest hdrop kind text rest' htoken ih =>
    obtain ⟨body, rfl, hwhole, hstops⟩ := wholeToken_of_readToken htoken
    obtain ⟨rfl⟩ : rest = body ++ rest' := by simpa using readToken_eq htoken
    have hc : isSpace c = false := by
      have hnot := List.head?_dropWhile_not isSpace x
      rw [hdrop] at hnot
      exact hnot
    obtain ⟨c', body', htext, hspace', hwhole'⟩ := hwhole.exists_fold
    -- the folded text is the space, the folded token and the folded rest
    have hfold : foldFrom none x =
        x.takeWhile isSpace ++ c' :: (body' ++ foldFrom none rest') := by
      rw [← List.cons_append, ← htext, ← hwhole.foldFrom_append, ← foldFrom_spaces (hspace x),
        List.cons_append, ← hdrop, List.takeWhile_append_dropWhile]
    have hnext : ∀ d ∈ (foldFrom none rest').head?, kind.stops d = true := by
      intro d hd
      cases rest' with
      | nil => cases hd
      | cons e rest' =>
        obtain rfl : foldChar none e = d := Option.some.inj hd
        rw [stops_foldChar]
        exact hstops e rfl
    rw [hfold, readTokens_cons (hspace x) (hspace'.trans hc) (hwhole'.read_append hnext), ih]
    cases readTokens rest' with
    | error e => rfl
    | ok ts =>
      show Except.ok _ = Except.ok _
      rw [← htext]
      rfl

/-! ## Tokens up to letter case -/

/-- The tokens differ at most in the case of letters, and that only if they are bare words. -/
structure Token.Alike (t u : Token) : Prop where
  gap : t.gap = u.gap
  kind : t.kind = u.kind
  text : Text.SameWord t.text u.text
  exact : t.kind ≠ .word → t.text = u.text

theorem Token.Alike.refl (t : Token) : t.Alike t := ⟨rfl, rfl, rfl, fun _ => rfl⟩

theorem Token.fold_eq_iff {t u : Token} : t.fold = u.fold ↔ t.Alike u := by
  constructor
  · intro h
    injection h with hgap hkind htext
    rw [← hkind] at htext
    by_cases hword : t.kind = .word
    · rw [hword] at htext
      exact ⟨hgap, hkind, htext, fun hne => absurd hword hne⟩
    · rw [foldText_of_ne_word hword, foldText_of_ne_word hword] at htext
      exact ⟨hgap, hkind, congrArg Text.lower htext, fun _ => htext⟩
  · rintro ⟨hgap, hkind, htext, hexact⟩
    have hfold : foldText t.kind t.text = foldText u.kind u.text := by
      rw [← hkind]
      by_cases hword : t.kind = .word
      · rw [hword]
        exact htext
      · rw [hexact hword]
    show Token.mk _ _ _ = Token.mk _ _ _
    rw [hgap, hfold, hkind]

theorem forall₂_alike_iff {ts us : List Token} :
    List.Forall₂ Token.Alike ts us ↔ ts.map Token.fold = us.map Token.fold := by
  rw [← List.forall₂_eq_eq_eq, List.forall₂_map_left_iff, List.forall₂_map_right_iff]
  simp only [Token.fold_eq_iff]

end Sql

end PgGateway
