import PgGateway.Sql.Normal

/-!
# Normal forms

What a text in normal form looks like, said without the scan that makes it: outside quotes the only
blanks are single spaces between two other characters, and no two characters open a comment. The
normal form of every text is of this kind (`squeezed_normalize`), and scanning such a text again
changes nothing (`squeeze_of_squeezed`).
-/

namespace PgGateway.Sql

variable {gap : Gap} {q c : Char} {cs : Text}

/-- The two characters, one after the other, open a comment. -/
def opensComment (c d : Char) : Prop := (c = '-' ∧ d = '-') ∨ (c = '/' ∧ d = '*')

instance (c d : Char) : Decidable (opensComment c d) :=
  inferInstanceAs (Decidable ((c = '-' ∧ d = '-') ∨ (c = '/' ∧ d = '*')))

/-- The text is in normal form if it is read from this state on. -/
def Squeezed : Scan → Text → Prop
  | _, [] => True
  | .outside gap, c :: cs =>
    if c = ' ' then gap = .tight ∧ cs ≠ [] ∧ Squeezed (.outside .spaced) cs
    else isBlank c = false ∧ (∀ d ∈ cs.head?, ¬opensComment c d) ∧ Squeezed (.after c) cs
  | .quoted q, c :: cs => Squeezed (if c = q then .outside .tight else .quoted q) cs
  | .lineComment _, _ :: _ | .blockComment _, _ :: _ => False

theorem squeezed_space : Squeezed (.outside gap) (' ' :: cs) ↔
    gap = .tight ∧ cs ≠ [] ∧ Squeezed (.outside .spaced) cs := by
  rw [Squeezed, if_pos rfl]

theorem squeezed_outside (hspace : c ≠ ' ') : Squeezed (.outside gap) (c :: cs) ↔
    isBlank c = false ∧ (∀ d ∈ cs.head?, ¬opensComment c d) ∧ Squeezed (.after c) cs := by
  rw [Squeezed, if_neg hspace]

theorem squeezed_quoted : Squeezed (.quoted q) (c :: cs) ↔
    Squeezed (if c = q then .outside .tight else .quoted q) cs := Iff.rfl

/-- A space is a blank. -/
theorem ne_space_of_not_blank (h : isBlank c = false) : c ≠ ' ' := by
  rintro rfl
  exact absurd h (by decide)

/-- What does not begin a comment in the scan does not open one. -/
theorem not_opensComment (hline : ∀ cs', c = '-' → cs = '-' :: cs' → False)
    (hblock : ∀ cs', c = '/' → cs = '*' :: cs' → False) : ∀ d ∈ cs.head?, ¬opensComment c d := by
  rintro d hd (⟨rfl, rfl⟩ | ⟨rfl, rfl⟩)
  · obtain ⟨cs', rfl⟩ := List.head?_eq_some_iff.1 hd
    exact hline cs' rfl rfl
  · obtain ⟨cs', rfl⟩ := List.head?_eq_some_iff.1 hd
    exact hblock cs' rfl rfl

/-- What opens no comment does not begin one in the scan. -/
theorem not_lineComment (hcomment : ∀ d ∈ cs.head?, ¬opensComment c d) :
    ∀ cs', c = '-' → cs = '-' :: cs' → False := by
  rintro cs' rfl rfl
  exact hcomment '-' rfl (.inl ⟨rfl, rfl⟩)

theorem not_blockComment (hcomment : ∀ d ∈ cs.head?, ¬opensComment c d) :
    ∀ cs', c = '/' → cs = '*' :: cs' → False := by
  rintro cs' rfl rfl
  exact hcomment '*' rfl (.inr ⟨rfl, rfl⟩)

theorem opensComment_of_blank {d : Char} (hc : isBlank c = true) : ¬opensComment c d := by
  rintro (⟨rfl, -⟩ | ⟨rfl, -⟩) <;> exact absurd hc (by decide)

/-! ## The scan outside quotes -/

/-- Outside quotes and comments a character is either a blank or written. -/
theorem squeeze_outside (hcomment : ∀ d ∈ cs.head?, ¬opensComment c d) :
    squeeze (.outside gap) (c :: cs) =
      if isBlank c then squeeze (.outside gap.widen) cs
      else gap.text ++ c :: squeeze (.after c) cs := by
  rw [squeeze]
  · exact not_lineComment hcomment
  · exact not_blockComment hcomment

/-- The gap before the next character, if the scan is outside quotes. -/
def Scan.gap? : Scan → Option Gap
  | .outside gap | .lineComment gap | .blockComment gap => some gap
  | .quoted _ => none

theorem head_squeeze_spaced {scan : Scan} (hgap : scan.gap? = some .spaced) :
    ∀ d ∈ (squeeze scan cs).head?, d = ' ' := by
  fun_induction squeeze scan cs with
  | case1 => nofun
  | case2 gap cs ih | case3 gap cs ih =>
    cases hgap
    exact ih rfl
  | case4 gap c cs _ _ _ ih =>
    cases hgap
    exact ih rfl
  | case5 gap c cs _ _ _ _ =>
    cases hgap
    intro d hd
    exact (Option.some.inj hd).symm
  | case6 => cases hgap
  | case7 gap c cs ih =>
    apply ih
    split <;> exact hgap
  | case8 gap cs ih => exact ih hgap
  | case9 gap c cs _ ih => exact ih hgap

/-- A character that is written next is the next one of the text, unless a space is written. -/
theorem head_squeeze_tight :
    ∀ d ∈ (squeeze (.outside .tight) cs).head?, d = ' ' ∨ d ∈ cs.head? := by
  intro d hd
  cases cs with
  | nil => cases hd
  | cons c cs =>
    by_cases hcomment : ∀ d ∈ cs.head?, ¬opensComment c d
    · rw [squeeze_outside hcomment] at hd
      split at hd
      · exact .inl (head_squeeze_spaced rfl d hd)
      · exact .inr hd
    · -- what opens a comment is not written
      left
      cases cs with
      | nil => exact absurd nofun hcomment
      | cons e cs =>
        have hopens : opensComment c e := by
          refine Decidable.by_contra fun h => hcomment fun d hd => ?_
          cases hd
          exact h
        rcases hopens with ⟨rfl, rfl⟩ | ⟨rfl, rfl⟩
        · rw [squeeze] at hd
          exact head_squeeze_spaced rfl d hd
        · rw [squeeze] at hd
          exact head_squeeze_spaced rfl d hd

/-! ## The scan makes normal forms -/

/-- Where the scan stands when the gap before the next character is written. -/
def Gap.settle : Gap → Gap
  | .spaced => .tight
  | gap => gap

/-- The state from which the rest of what is written is in normal form. -/
def Scan.settle : Scan → Scan
  | .outside gap | .lineComment gap | .blockComment gap => .outside gap.settle
  | .quoted q => .quoted q

theorem settle_widen (gap : Gap) : gap.widen.settle = gap.settle := by
  cases gap <;> rfl

theorem opensComment_of_quote {d : Char} (hc : c = '\'' ∨ c = '"') : ¬opensComment c d := by
  rcases hc with rfl | rfl <;> rintro (⟨h, -⟩ | ⟨h, -⟩) <;> exact absurd h (by decide)

theorem settle_quoted (c q : Char) :
    (if c = q then .outside .tight else .quoted q : Scan).settle =
      if c = q then .outside .tight else .quoted q := by
  split <;> rfl

theorem settle_lineComment (c : Char) (gap : Gap) :
    (if c = '\n' then .outside gap else .lineComment gap : Scan).settle = .outside gap.settle := by
  split <;> rfl

theorem settle_after (c : Char) : (Scan.after c).settle = .after c := by
  unfold Scan.after
  split <;> rfl

/-- What is written behind a character opens no comment with it if what is read does not. -/
theorem not_opensComment_squeeze (hcomment : ∀ d ∈ cs.head?, ¬opensComment c d) :
    ∀ d ∈ (squeeze (.after c) cs).head?, ¬opensComment c d := by
  intro d hd
  by_cases hquote : c = '\'' ∨ c = '"'
  · exact opensComment_of_quote hquote
  · rw [Scan.after, if_neg hquote] at hd
    rcases head_squeeze_tight d hd with rfl | hd
    · rintro (⟨-, h⟩ | ⟨-, h⟩) <;> exact absurd h (by decide)
    · exact hcomment d hd

theorem squeezed_squeeze (scan : Scan) (cs : Text) : Squeezed scan.settle (squeeze scan cs) := by
  fun_induction squeeze scan cs with
  | case1 scan => cases scan <;> exact trivial
  | case2 gap cs ih | case3 gap cs ih =>
    rw [Scan.settle, settle_widen] at ih
    exact ih
  | case4 gap c cs _ _ _ ih =>
    rw [Scan.settle, settle_widen] at ih
    exact ih
  | case5 gap c cs hline hblock hblank ih =>
    have hnext := not_opensComment_squeeze (not_opensComment hline hblock)
    rw [settle_after] at ih
    have hwritten : ∀ gap, Squeezed (.outside gap) (c :: squeeze (.after c) cs) := by
      intro gap
      have hblank : isBlank c = false := by simpa using hblank
      exact (squeezed_outside (ne_space_of_not_blank hblank)).2 ⟨hblank, hnext, ih⟩
    cases gap with
    | start => exact hwritten .start
    | tight => exact hwritten .tight
    | spaced => exact squeezed_space.2 ⟨rfl, nofun, hwritten .spaced⟩
  | case6 q c cs ih =>
    rwa [settle_quoted] at ih
  | case7 gap c cs ih =>
    rwa [settle_lineComment] at ih
  | case8 gap cs ih => exact ih
  | case9 gap c cs _ ih => exact ih

/-- The front of a normal form is one, if no blank is left at its end. -/
theorem Squeezed.of_append {scan : Scan} {front rest : Text} (h : Squeezed scan (front ++ rest))
    (hlast : ∀ c ∈ front.getLast?, isBlank c = false) : Squeezed scan front := by
  induction front generalizing scan with
  | nil => cases scan <;> exact trivial
  | cons c front ih =>
    have hlater : ∀ d ∈ front.getLast?, isBlank d = false := by
      intro d hd
      apply hlast
      rw [List.getLast?_cons, hd]
      rfl
    cases scan with
    | outside gap =>
      by_cases hspace : c = ' '
      · subst hspace
        have hfront : front ≠ [] := by
          rintro rfl
          exact absurd (hlast ' ' rfl) (by decide)
        obtain ⟨hgap, -, hrest⟩ := squeezed_space.1 h
        exact squeezed_space.2 ⟨hgap, hfront, ih hrest hlater⟩
      · obtain ⟨hblank, hnext, hrest⟩ := (squeezed_outside hspace).1 h
        refine (squeezed_outside hspace).2 ⟨hblank, fun d hd => hnext d ?_, ih hrest hlater⟩
        cases front with
        | nil => cases hd
        | cons e front => exact hd
    | quoted q =>
      rw [List.cons_append, squeezed_quoted] at h
      exact ih h hlater
    | lineComment gap => exact h
    | blockComment gap => exact h

theorem trimEnd_append (t : Text) : ∃ blanks, Text.trimEnd t ++ blanks = t := by
  refine ⟨(t.reverse.takeWhile isBlank).reverse, ?_⟩
  rw [Text.trimEnd, ← List.reverse_append, List.takeWhile_append_dropWhile, List.reverse_reverse]

theorem not_blank_getLast_trimEnd (t : Text) :
    ∀ c ∈ (Text.trimEnd t).getLast?, isBlank c = false := by
  intro c hc
  rw [Text.trimEnd, List.getLast?_reverse] at hc
  have hnot := List.head?_dropWhile_not isBlank t.reverse
  rw [hc] at hnot
  exact hnot

/-- **Every normal form is in normal form.** -/
theorem squeezed_normalize (sql : Text) : Squeezed (.outside .start) (normalize sql) := by
  have hsqueeze : Squeezed (.outside .start) (squeeze (.outside .start) sql) :=
    squeezed_squeeze (.outside .start) sql
  unfold normalize dropSemicolon
  split
  · next hsemicolon =>
    obtain ⟨front, hfront⟩ := List.getLast?_eq_some_iff.1 hsemicolon
    obtain ⟨blanks, hblanks⟩ := trimEnd_append front
    rw [hfront, List.dropLast_concat]
    rw [hfront, ← hblanks, List.append_assoc] at hsqueeze
    exact hsqueeze.of_append (not_blank_getLast_trimEnd front)
  · exact hsqueeze

/-! ## Normal forms are left alone -/

/-- Scanning a normal form again writes it as it is. -/
theorem squeeze_of_squeezed (cs : Text) :
    (∀ gap, Squeezed (.outside gap) cs → cs ≠ [] → squeeze (.outside gap) cs = gap.text ++ cs) ∧
      ∀ q, Squeezed (.quoted q) cs → squeeze (.quoted q) cs = cs := by
  induction cs with
  | nil => exact ⟨fun _ _ h => absurd rfl h, fun _ _ => rfl⟩
  | cons c cs ih =>
    have hoff : Squeezed (.outside .tight) cs → squeeze (.outside .tight) cs = cs := by
      intro h
      cases cs with
      | nil => rfl
      | cons d cs => exact ih.1 .tight h nofun
    constructor
    · intro gap h _
      by_cases hspace : c = ' '
      · subst hspace
        obtain ⟨rfl, hne, hrest⟩ := squeezed_space.1 h
        rw [squeeze_outside fun d _ => opensComment_of_blank (by decide), if_pos (by decide)]
        exact ih.1 .spaced hrest hne
      · obtain ⟨hblank, hnext, hrest⟩ := (squeezed_outside hspace).1 h
        have hafter : squeeze (.after c) cs = cs := by
          unfold Scan.after at hrest ⊢
          split
          · rw [if_pos ‹_›] at hrest
            exact ih.2 c hrest
          · rw [if_neg ‹_›] at hrest
            exact hoff hrest
        rw [squeeze_outside hnext, hblank, hafter]
        rfl
    · intro q h
      rw [squeeze]
      by_cases hq : c = q
      · rw [squeezed_quoted, if_pos hq] at h
        rw [if_pos hq, hoff h]
      · rw [squeezed_quoted, if_neg hq] at h
        rw [if_neg hq, ih.2 q h]

theorem squeeze_start {cs : Text} (h : Squeezed (.outside .start) cs) :
    squeeze (.outside .start) cs = cs := by
  by_cases hcs : cs = []
  · rw [hcs, squeeze]
  · exact (squeeze_of_squeezed cs).1 .start h hcs

theorem normalize_of_squeezed {cs : Text} (h : Squeezed (.outside .start) cs)
    (hlast : cs.getLast? ≠ some ';') : normalize cs = cs := by
  rw [normalize, squeeze_start h, dropSemicolon, if_neg hlast]

theorem normalize_append_semicolon {cs : Text} (h : Squeezed (.outside .start) (cs ++ [';']))
    (hlast : ∀ c ∈ cs.getLast?, isBlank c = false) : normalize (cs ++ [';']) = cs := by
  have htrim : Text.trimEnd cs = cs := by
    rw [Text.trimEnd]
    cases hreverse : cs.reverse with
    | nil => rw [List.reverse_eq_nil_iff.1 hreverse]; rfl
    | cons c rest =>
      have hc : c ∈ cs.getLast? := by
        rw [← List.head?_reverse, hreverse]
        rfl
      rw [List.dropWhile_cons_of_neg (by simp [hlast c hc]), ← hreverse, List.reverse_reverse]
  rw [normalize, squeeze_start h, dropSemicolon, if_pos (by simp), List.dropLast_concat, htrim]

end PgGateway.Sql
