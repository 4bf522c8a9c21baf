import PgGateway.Proofs.Sql.CaseFolding

/-!
# Quotations in normal forms

What a text in normal form looks like, said of its characters and not of a scan (`NormalForm`), and
what the normal form keeps: the quotations of a text, each as it is written, in their order, and no
others (`quotations_normalize`). A text is its own normal form if it is one already, unless it ends
in a semicolon.
-/

namespace PgGateway.Sql

variable {back cs front n t : Text} {c q : Char} {pairs : Bool} {xs : List Text} {zone : Zone}

/-! ## Normal forms, character by character -/

/-- The quote that is open behind a text without comments, if one is. -/
def openQuote (t : Text) : Option Char := t.foldl quoteAfter none

/-- Outside quotes, the only blanks are spaces between two other characters, and no comment is
opened. -/
structure NormalForm (n : Text) : Prop where
  blank {front back : Text} {c : Char} : n = front ++ c :: back → openQuote front = none →
    isBlank c = true → c = ' ' ∧ (∃ d ∈ front.getLast?, isBlank d = false) ∧
      ∃ d ∈ back.head?, isBlank d = false
  comment {front back : Text} {c d : Char} : n = front ++ c :: d :: back →
    openQuote front = none → ¬opensComment c d

theorem NormalForm.head (h : NormalForm n) : ∀ c ∈ n.head?, isBlank c = false := by
  intro c hc
  obtain ⟨back, rfl⟩ := List.head?_eq_some_iff.1 hc
  rw [← Bool.not_eq_true]
  intro hblank
  obtain ⟨-, ⟨d, hd, -⟩, -⟩ := h.blank (List.nil_append (c :: back)).symm rfl hblank
  cases hd

theorem openQuote_concat (t : Text) (c : Char) :
    openQuote (t ++ [c]) = quoteAfter (openQuote t) c := by
  rw [openQuote, List.foldl_concat]
  rfl

theorem quote_of_openQuote (h : openQuote t = some q) : q = '\'' ∨ q = '"' := by
  induction t using List.reverseRecOn with
  | nil => cases h
  | append_singleton t c ih =>
    rw [openQuote_concat] at h
    cases hopen : openQuote t with
    | none =>
      rw [hopen, quoteAfter] at h
      split at h
      · next hc =>
        cases h
        exact hc
      · cases h
    | some q' =>
      rw [hopen, quoteAfter] at h
      split at h
      · cases h
      · exact ih (hopen.trans h)

theorem isBlank_quote (hq : q = '\'' ∨ q = '"') : isBlank q = false := by
  rcases hq with rfl | rfl <;> decide

/-- **Where the rest of a normal form is read from.** Adjacent to what is before it, if that is no
blank. -/
theorem Squeezed.split {rest : Text} (h : Squeezed (.outside .start) (front ++ rest)) :
    ∃ scan, Squeezed scan rest ∧ scan.open? = openQuote front ∧
      (scan.gap? = some .tight → ∃ d ∈ front.getLast?, isBlank d = false) := by
  induction front using List.reverseRecOn generalizing rest with
  | nil => exact ⟨.outside .start, h, rfl, nofun⟩
  | append_singleton front e ih =>
    rw [List.append_assoc, List.singleton_append] at h
    obtain ⟨scan, hrest, hopen, -⟩ := ih h
    rw [openQuote_concat, ← hopen, List.getLast?_concat]
    cases scan with
    | outside gap =>
      by_cases hspace : e = ' '
      · subst hspace
        exact ⟨.outside .spaced, (squeezed_space.1 hrest).2.2, rfl, nofun⟩
      · obtain ⟨hblank, -, hrest⟩ := (squeezed_outside hspace).1 hrest
        exact ⟨.after e, hrest, Scan.open?_after e, fun _ => ⟨e, rfl, hblank⟩⟩
    | quoted q =>
      rw [squeezed_quoted] at hrest
      by_cases hclose : e = q
      · rw [if_pos hclose] at hrest
        refine ⟨.outside .tight, hrest, (if_pos hclose).symm, fun _ => ⟨e, rfl, ?_⟩⟩
        exact isBlank_quote (hclose ▸ quote_of_openQuote hopen.symm)
      · rw [if_neg hclose] at hrest
        exact ⟨.quoted q, hrest, (if_neg hclose).symm, nofun⟩
    | lineComment | blockComment => cases hrest

/-- The same where no quote is open. -/
theorem Squeezed.split_code (h : Squeezed (.outside .start) (front ++ c :: back))
    (hquote : openQuote front = none) : ∃ gap, Squeezed (.outside gap) (c :: back) ∧
      (gap = .tight → ∃ d ∈ front.getLast?, isBlank d = false) := by
  obtain ⟨scan, hrest, hopen, hlast⟩ := h.split
  cases scan with
  | outside gap => exact ⟨gap, hrest, fun htight => hlast (congrArg some htight)⟩
  | quoted q =>
    rw [hquote] at hopen
    cases hopen
  | lineComment | blockComment => cases hrest

theorem Squeezed.normalForm (h : Squeezed (.outside .start) n) : NormalForm n where
  blank := by
    rintro front back c rfl hquote hblank
    obtain ⟨gap, hrest, hlast⟩ := h.split_code hquote
    by_cases hspace : c = ' '
    · subst hspace
      obtain ⟨htight, hne, hback⟩ := squeezed_space.1 hrest
      refine ⟨rfl, hlast htight, ?_⟩
      obtain ⟨d, back, rfl⟩ := List.exists_cons_of_ne_nil hne
      by_cases hd : d = ' '
      · subst hd
        cases (squeezed_space.1 hback).1
      · exact ⟨d, rfl, ((squeezed_outside hd).1 hback).1⟩
    · rw [((squeezed_outside hspace).1 hrest).1] at hblank
      cases hblank
  comment := by
    rintro front back c d rfl hquote
    obtain ⟨gap, hrest, -⟩ := h.split_code hquote
    by_cases hspace : c = ' '
    · subst hspace
      exact opensComment_of_blank (by decide)
    · exact ((squeezed_outside hspace).1 hrest).2.1 d rfl

/-- Only the semicolon that is dropped changes a normal form. -/
theorem normalize_eq_self_iff (h : Squeezed (.outside .start) n) :
    normalize n = n ↔ n.getLast? ≠ some ';' := by
  constructor
  · intro hself hlast
    obtain ⟨front, rfl⟩ := List.getLast?_eq_some_iff.1 hlast
    rw [normalize, squeeze_start h, dropSemicolon, if_pos hlast, List.dropLast_concat] at hself
    obtain ⟨blanks, hblanks⟩ := trimEnd_append front
    have hlength := congrArg List.length hblanks
    rw [hself, List.length_append, List.length_append, List.length_singleton] at hlength
    omega
  · exact normalize_of_squeezed h

/-! ## Quotations -/

/-- The quotations of a text from a zone on that are closed: each runs from a quote to the next one
like it. If `pairs`, two such quotes together do not close it. -/
def quotations (pairs : Bool) : Zone → Text → List Text
  | _, [] => []
  | .code, '-' :: '-' :: cs => quotations pairs .lineComment cs
  | .code, '/' :: '*' :: cs => quotations pairs .blockComment cs
  | .code, c :: cs =>
    if c = '\'' ∨ c = '"' then (quotations pairs (.quoted c) cs).modifyHead (c :: ·)
    else quotations pairs .code cs
  | .quoted q, c :: cs =>
    if c = q ∧ (pairs = true → cs.head? ≠ some q) then [c] :: quotations pairs .code cs
    else (quotations pairs (if c = q then .code else .quoted q) cs).modifyHead (c :: ·)
  | .lineComment, c :: cs => quotations pairs (if c = '\n' then .code else .lineComment) cs
  | .blockComment, '*' :: '/' :: cs => quotations pairs .code cs
  | .blockComment, _ :: cs => quotations pairs .blockComment cs

/-- What is open in a zone is a quote. -/
def Zone.Proper : Zone → Prop
  | .quoted q => q = '\'' ∨ q = '"'
  | _ => True

theorem proper_code : Zone.code.Proper := trivial

theorem proper_lineComment (c : Char) : (if c = '\n' then .code else .lineComment : Zone).Proper := by
  split <;> trivial

theorem Zone.Proper.behindQuoted (h : (Zone.quoted q).Proper) :
    (if c = q then .code else .quoted q : Zone).Proper := by
  split
  · trivial
  · exact h

theorem quotations_code (hcomment : ∀ d ∈ cs.head?, ¬opensComment c d) :
    quotations pairs .code (c :: cs) =
      if c = '\'' ∨ c = '"' then (quotations pairs (.quoted c) cs).modifyHead (c :: ·)
      else quotations pairs .code cs := by
  rw [quotations]
  · exact not_lineComment hcomment
  · exact not_blockComment hcomment

/-- The rest of a text in quotes counts by its quotations, and by whether a closing quote is the first
of two. -/
theorem quotations_quoted {cs cs' : Text} (hpair : c = q → (cs.head? = some q ↔ cs'.head? = some q))
    (hrest : quotations pairs (if c = q then .code else .quoted q) cs =
      quotations pairs (if c = q then .code else .quoted q) cs') :
    quotations pairs (.quoted q) (c :: cs) = quotations pairs (.quoted q) (c :: cs') := by
  rw [quotations, quotations, hrest]
  by_cases hc : c = q
  · rw [if_pos hc] at hrest
    rw [hrest]
    exact if_congr (and_congr_right fun hc => imp_congr_right fun _ => (hpair hc).not) rfl rfl
  · have hopen : ∀ cs : Text, ¬(c = q ∧ (pairs = true → cs.head? ≠ some q)) := fun _ h => hc h.1
    rw [if_neg (hopen cs), if_neg (hopen cs')]

theorem quotations_gap (gap : Gap) (cs : Text) :
    quotations pairs .code (gap.text ++ cs) = quotations pairs .code cs := by
  cases gap with
  | start | tight => rfl
  | spaced =>
    show quotations pairs .code (' ' :: cs) = _
    rw [quotations_code fun d _ => opensComment_of_blank (by decide)]
    rfl

/-! ## The scan keeps quotations -/

theorem not_blank_quote (hblank : isBlank c = true) : ¬(c = '\'' ∨ c = '"') := by
  intro hc
  rw [isBlank_quote hc] at hblank
  cases hblank

/-- A quote is written next just if it is read next. -/
theorem head_squeeze_quote (hq : q = '\'' ∨ q = '"') :
    (squeeze (.outside .tight) cs).head? = some q ↔ cs.head? = some q := by
  constructor
  · intro h
    rcases head_squeeze_tight q h with rfl | h
    · exact absurd (isBlank_quote hq) (by decide)
    · exact h
  · intro h
    obtain ⟨cs, rfl⟩ := List.head?_eq_some_iff.1 h
    rw [squeeze_outside fun d _ => opensComment_of_quote hq, isBlank_quote hq]
    rfl

/-- **The scan keeps quotations.** -/
theorem quotations_squeeze (scan : Scan) (hproper : scan.zone.Proper) (cs : Text) :
    quotations pairs scan.settle.zone (squeeze scan cs) = quotations pairs scan.zone cs := by
  fun_induction squeeze scan cs with
  | case1 scan => rw [quotations, quotations]
  | case2 gap cs ih | case3 gap cs ih => exact ih trivial
  | case4 gap c cs hline hblock hblank ih =>
    rw [Scan.zone, quotations_code (not_opensComment hline hblock), if_neg (not_blank_quote hblank)]
    exact ih trivial
  | case5 gap c cs hline hblock hblank ih =>
    have hcomment := not_opensComment hline hblock
    rw [settle_after, Scan.zone_after] at ih
    show quotations pairs .code (gap.text ++ c :: squeeze (.after c) cs) = _
    rw [quotations_gap, quotations_code (not_opensComment_squeeze hcomment), Scan.zone,
      quotations_code hcomment]
    unfold Zone.after at ih
    split
    · rw [if_pos ‹_›] at ih
      rw [ih ‹_›]
    · rw [if_neg ‹_›] at ih
      exact ih trivial
  | case6 q c cs ih =>
    apply quotations_quoted
    · rintro rfl
      rw [if_pos rfl]
      exact head_squeeze_quote hproper
    · rw [settle_quoted, Scan.zone_quoted] at ih
      exact ih hproper.behindQuoted
  | case7 gap c cs ih =>
    rw [settle_lineComment, Scan.zone_lineComment] at ih
    rw [Scan.zone, quotations]
    exact ih (proper_lineComment c)
  | case8 gap cs ih => exact ih trivial
  | case9 gap c cs hclose ih =>
    rw [Scan.zone, quotations]
    · exact ih trivial
    · exact hclose

/-! ## What is dropped at the end -/

/-- The character is no quote, and opens or closes no comment with one before it. -/
structure Idle (c : Char) : Prop where
  quote : ¬(c = '\'' ∨ c = '"')
  opens (d : Char) : ¬opensComment d c
  closes : c ≠ '/'

theorem idle_of_blank (hblank : isBlank c = true) : Idle c where
  quote := not_blank_quote hblank
  opens := by rintro d (⟨-, rfl⟩ | ⟨-, rfl⟩) <;> exact absurd hblank (by decide)
  closes := by
    rintro rfl
    exact absurd hblank (by decide)

theorem idle_semicolon : Idle ';' where
  quote := by decide
  opens := by rintro d (⟨-, h⟩ | ⟨-, h⟩) <;> exact absurd h (by decide)
  closes := by decide

namespace Idle

theorem head_quote (hc : Idle c) (hq : q = '\'' ∨ q = '"') (t : Text) :
    (t ++ [c]).head? = some q ↔ t.head? = some q := by
  cases t with
  | nil =>
    refine ⟨?_, nofun⟩
    rintro ⟨⟩
    exact absurd hq hc.quote
  | cons => exact Iff.rfl

theorem not_opensComment (hc : Idle c) {d : Char} (h : ∀ e ∈ t.head?, ¬opensComment d e) :
    ∀ e ∈ (t ++ [c]).head?, ¬opensComment d e := by
  cases t with
  | nil =>
    rintro e ⟨⟩
    exact hc.opens d
  | cons => exact h

/-- An idle character at the end is in no quotation. -/
theorem quotations_concat (hc : Idle c) (hproper : zone.Proper) (t : Text) :
    quotations pairs zone (t ++ [c]) = quotations pairs zone t := by
  fun_induction quotations pairs zone t with
  | case1 zone =>
    rw [List.nil_append]
    cases zone with
    | code =>
      have hlast : ∀ d ∈ ([] : Text).head?, ¬opensComment c d := nofun
      rw [quotations_code hlast, if_neg hc.quote, quotations]
    | quoted q =>
      have hq : c ≠ q := by
        rintro rfl
        exact hc.quote hproper
      rw [quotations, if_neg fun h => hq h.1, if_neg hq, quotations]
      rfl
    | lineComment => rw [quotations, quotations]
    | blockComment =>
      rw [quotations, quotations]
      rintro cs - h
      cases h
  | case2 cs ih | case3 cs ih => exact ih trivial
  | case4 d cs hline hblock hquote ih =>
    have hcode := hc.not_opensComment (Sql.not_opensComment hline hblock)
    rw [List.cons_append, quotations_code hcode, if_pos hquote, ih hquote]
  | case5 d cs hline hblock hquote ih =>
    have hcode := hc.not_opensComment (Sql.not_opensComment hline hblock)
    rw [List.cons_append, quotations_code hcode, if_neg hquote, ih trivial]
  | case6 q d cs hcloses ih =>
    have hpair : pairs = true → (cs ++ [c]).head? ≠ some q := fun h =>
      (hc.head_quote hproper cs).not.2 (hcloses.2 h)
    rw [List.cons_append, quotations, if_pos ⟨hcloses.1, hpair⟩, ih trivial]
  | case7 q d cs hstays ih =>
    have hpair : ¬(d = q ∧ (pairs = true → (cs ++ [c]).head? ≠ some q)) := fun h =>
      hstays ⟨h.1, fun hpairs => (hc.head_quote hproper cs).not.1 (h.2 hpairs)⟩
    rw [List.cons_append, quotations, if_neg hpair, ih hproper.behindQuoted]
  | case8 d cs ih =>
    rw [List.cons_append, quotations, ih (proper_lineComment d)]
  | case9 cs ih => exact ih trivial
  | case10 d cs hopen ih =>
    rw [List.cons_append, quotations]
    · exact ih trivial
    · rintro cs' rfl hnext
      cases cs with
      | nil =>
        cases hnext
        exact hc.closes rfl
      | cons e cs =>
        cases hnext
        exact hopen cs rfl rfl

end Idle

theorem quotations_trimEnd (t : Text) :
    quotations pairs .code (Text.trimEnd t) = quotations pairs .code t := by
  induction t using List.reverseRecOn with
  | nil => rfl
  | append_singleton t c ih =>
    rw [trimEnd_concat]
    split
    · next hblank => rw [ih, (idle_of_blank hblank).quotations_concat proper_code]
    · rfl

theorem quotations_dropSemicolon (t : Text) :
    quotations pairs .code (dropSemicolon t) = quotations pairs .code t := by
  unfold dropSemicolon
  split
  · next hlast =>
    obtain ⟨front, rfl⟩ := List.getLast?_eq_some_iff.1 hlast
    rw [List.dropLast_concat, quotations_trimEnd, idle_semicolon.quotations_concat proper_code]
  · rfl

/-- **The normal form keeps quotations.** -/
theorem quotations_normalize (sql : Text) :
    quotations pairs .code (normalize sql) = quotations pairs .code sql :=
  (quotations_dropSemicolon _).trans (quotations_squeeze (.outside .start) trivial sql)

example : quotations true .code "SELECT 'it''s', \"a'\" -- 'x'" = ["'it''s'", "\"a'\""] := by
  decide

/-! ## Quotations as they are written -/

/-- The texts are parts of the text, one behind the other. -/
inductive InOrder : List Text → Text → Prop
  | nil (t : Text) : InOrder [] t
  | cons (front x : Text) {back : Text} {xs : List Text} (later : InOrder xs back) :
      InOrder (x :: xs) (front ++ x ++ back)

/-- The texts are parts of the text, the first of them at its front. -/
inductive InOrderFromStart : List Text → Text → Prop
  | nil (t : Text) : InOrderFromStart [] t
  | cons (x : Text) {back : Text} {xs : List Text} (later : InOrder xs back) :
      InOrderFromStart (x :: xs) (x ++ back)

theorem InOrder.behind (h : InOrder xs t) (c : Char) : InOrder xs (c :: t) := by
  cases h with
  | nil => exact .nil _
  | cons front x later => exact .cons (c :: front) x later

namespace InOrderFromStart

theorem inOrder (h : InOrderFromStart xs t) : InOrder xs t := by
  cases h with
  | nil => exact .nil t
  | cons x later => exact .cons [] x later

theorem extend (h : InOrderFromStart xs t) (c : Char) :
    InOrderFromStart (xs.modifyHead (c :: ·)) (c :: t) := by
  cases h with
  | nil => exact .nil _
  | cons x later => exact .cons (c :: x) later

end InOrderFromStart

/-- A quotation is being read from the zone on. -/
def Zone.InQuotation : Zone → Text → Prop
  | .quoted _, _ => True
  | .code, t => ∃ q ∈ t.head?, q = '\'' ∨ q = '"'
  | _, _ => False

theorem quotations_inOrder (pairs : Bool) (hproper : zone.Proper) (t : Text) :
    InOrder (quotations pairs zone t) t ∧
      (zone.InQuotation t → InOrderFromStart (quotations pairs zone t) t) := by
  fun_induction quotations pairs zone t with
  | case1 => exact ⟨.nil _, fun _ => .nil _⟩
  | case2 cs ih | case3 cs ih =>
    refine ⟨((ih trivial).1.behind _).behind _, ?_⟩
    rintro ⟨q, ⟨⟩, hq⟩
    exact absurd hq (by decide)
  | case4 c cs _ _ hquote ih =>
    have hfront := ((ih hquote).2 trivial).extend c
    exact ⟨hfront.inOrder, fun _ => hfront⟩
  | case5 c cs _ _ hquote ih =>
    refine ⟨(ih trivial).1.behind c, ?_⟩
    rintro ⟨q, ⟨⟩, hq⟩
    exact absurd hq hquote
  | case6 q c cs hcloses ih =>
    have hfront := InOrderFromStart.cons [c] (ih trivial).1
    exact ⟨hfront.inOrder, fun _ => hfront⟩
  | case7 q c cs hstays ih =>
    have hreading : (if c = q then .code else .quoted q : Zone).InQuotation cs := by
      split
      · next hc =>
        -- the quotation goes on behind a quote only if another one follows
        refine ⟨q, Decidable.by_contra fun hhead => hstays ⟨hc, fun _ => hhead⟩, hproper⟩
      · trivial
    have hfront := ((ih hproper.behindQuoted).2 hreading).extend c
    exact ⟨hfront.inOrder, fun _ => hfront⟩
  | case8 c cs ih => exact ⟨(ih (proper_lineComment c)).1.behind c, nofun⟩
  | case9 cs ih => exact ⟨((ih trivial).1.behind _).behind _, nofun⟩
  | case10 c cs _ ih => exact ⟨(ih trivial).1.behind c, nofun⟩

/-- **The normal form is a normal form.** Outside quotes its only blanks are single spaces between two
other characters, and it opens no comment; it begins with no blank, and is its own normal form
unless it ends in a semicolon. The quotations of the text stand in it as they are written, one
behind the other, and it has no others. -/
theorem normalize_normalForm (sql : Text) :
    NormalForm (normalize sql) ∧ (∀ c ∈ (normalize sql).head?, isBlank c = false) ∧
      (normalize (normalize sql) = normalize sql ↔ (normalize sql).getLast? ≠ some ';') ∧
      ∀ pairs, InOrder (quotations pairs .code sql) (normalize sql) ∧
        quotations pairs .code (normalize sql) = quotations pairs .code sql := by
  have hsqueezed := squeezed_normalize sql
  refine ⟨hsqueezed.normalForm, hsqueezed.normalForm.head, normalize_eq_self_iff hsqueezed,
    fun pairs => ⟨?_, quotations_normalize sql⟩⟩
  rw [← quotations_normalize]
  exact (quotations_inOrder pairs proper_code _).1

end PgGateway.Sql
