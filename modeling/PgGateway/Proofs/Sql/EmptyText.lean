import Mathlib.Data.List.Infix
import PgGateway.Proofs.Sql.OpenQuotes
import PgGateway.Proofs.Sql.Refusals

/-!
# Texts without a statement

A text of blanks, comments and semicolons holds no statement (`Hollow`). The scan for the normal
form writes for such a text its semicolons and spaces between them, and it writes no more than that
for no other text (`hollow_iff`). One semicolon is dropped, so the normal form is empty if there was
at most one (`normalize_eq_nil_iff`). If there were more, those that are left end statements, and
the text is refused for them (`translate_of_hollow`).
-/

namespace PgGateway.Sql

variable {c : Char} {cs rest sql token x y : Text} {gap : Gap} {m n : Nat} {ts : List Token}

/-! ## Hollow texts -/

/-- A text of blanks, comments and `n` semicolons. The comment at its end may be open. -/
inductive Hollow : Nat → Text → Prop
  | nil : Hollow 0 []
  | openComment {w : Text} (hw : OpenComment w) : Hollow 0 w
  | separator {n : Nat} {w rest : Text} (hw : Separator w) (later : Hollow n rest) :
      Hollow n (w ++ rest)
  | semicolon {n : Nat} {rest : Text} (later : Hollow n rest) : Hollow (n + 1) (';' :: rest)

/-- A text of `n` semicolons and of spaces. -/
structure Semicolons (n : Nat) (y : Text) : Prop where
  only : ∀ c ∈ y, c = ';' ∨ c = ' '
  count : y.count ';' = n

theorem count_text (gap : Gap) : gap.text.count ';' = 0 := by
  cases gap <;> decide

theorem mem_text {gap : Gap} (h : c ∈ gap.text) : c = ' ' := by
  cases gap with
  | spaced => exact List.mem_singleton.1 h
  | start | tight => cases h

/-- A semicolon outside quotes is written behind the gap. -/
theorem squeeze_semicolon (gap : Gap) (cs : Text) :
    squeeze (.outside gap) (';' :: cs) = gap.text ++ ';' :: squeeze (.outside .tight) cs := by
  have hcomment : ∀ d ∈ cs.head?, ¬opensComment ';' d := by
    rintro d - (⟨h, -⟩ | ⟨h, -⟩) <;> exact absurd h (by decide)
  rw [squeeze_outside hcomment, if_neg (by decide)]
  rfl

theorem semicolons_nil : Semicolons 0 [] := ⟨nofun, rfl⟩

theorem semicolons_written (gap : Gap) :
    Semicolons (n + 1) (gap.text ++ ';' :: y) ↔ Semicolons n y := by
  have hcount : (gap.text ++ ';' :: y).count ';' = y.count ';' + 1 := by
    rw [List.count_append, count_text, List.count_cons_self, Nat.zero_add]
  constructor
  · intro h
    have hlater : ∀ c ∈ y, c = ';' ∨ c = ' ' := fun c hc =>
      h.only c (List.mem_append_right _ (List.mem_cons_of_mem _ hc))
    exact ⟨hlater, Nat.succ.inj (hcount.symm.trans h.count)⟩
  · intro h
    refine ⟨fun c hc => ?_, hcount.trans (congrArg Nat.succ h.count)⟩
    rcases List.mem_append.1 hc with hgap | hrest
    · exact .inr (mem_text hgap)
    · rcases List.mem_cons.1 hrest with rfl | hrest
      · exact .inl rfl
      · exact h.only c hrest

/-- Only the semicolons of a hollow text are written, and spaces. -/
theorem Hollow.semicolons (h : Hollow n x) (gap : Gap) :
    Semicolons n (squeeze (.outside gap) x) := by
  induction h generalizing gap with
  | nil =>
    rw [squeeze]
    exact semicolons_nil
  | openComment hw =>
    rw [hw.squeeze]
    exact semicolons_nil
  | separator hw _ ih =>
    rw [hw.squeeze]
    exact ih gap.widen
  | semicolon _ ih =>
    rw [squeeze_semicolon]
    exact (semicolons_written gap).2 (ih .tight)

/-! ## The scan of a hollow text -/

/-- What is read in a comment that is closed like this: the rest of the comment and a hollow text
behind it, or nothing but an open comment. -/
def Commented (close : Text) (n : Nat) (x : Text) : Prop :=
  (n = 0 ∧ ¬Text.Contains close x) ∨
    ∃ body rest, x = body ++ (close ++ rest) ∧ ¬Text.Contains close body ∧ Hollow n rest

namespace Commented

variable {close : Text}

theorem here (hclose : close ≠ []) (h : Hollow n rest) : Commented close n (close ++ rest) :=
  .inr ⟨[], rest, rfl, fun hcontains => hclose (List.infix_nil.1 hcontains), h⟩

/-- A comment goes on with a character with which its end does not begin. -/
theorem cons (hgoesOn : ¬close <+: c :: cs) (h : Commented close n cs) :
    Commented close n (c :: cs) := by
  have hextend : ∀ {body : Text}, body <+: cs → ¬Text.Contains close body →
      ¬Text.Contains close (c :: body) := by
    intro body hfront hbody hcontains
    rcases List.infix_cons_iff.1 hcontains with hstart | hlater
    · exact hgoesOn (hstart.trans ((List.prefix_cons_inj c).2 hfront))
    · exact hbody hlater
  rcases h with ⟨rfl, hcs⟩ | ⟨body, rest, rfl, hbody, hrest⟩
  · exact .inl ⟨rfl, hextend (List.prefix_refl cs) hcs⟩
  · exact .inr ⟨c :: body, rest, rfl, hextend (List.prefix_append _ _) hbody, hrest⟩

theorem lineComment (h : Commented ['\n'] n x) : Hollow n ('-' :: '-' :: x) := by
  unfold Commented Text.Contains at h
  simp only [List.singleton_infix_iff] at h
  rcases h with ⟨rfl, hx⟩ | ⟨body, rest, rfl, hbody, hrest⟩
  · exact .openComment (.line x hx)
  · have hwhole : '-' :: '-' :: (body ++ (['\n'] ++ rest)) =
        '-' :: '-' :: body ++ ['\n'] ++ rest := by simp
    rw [hwhole]
    exact .separator (.lineComment body hbody) hrest

theorem blockComment (h : Commented ['*', '/'] n x) : Hollow n ('/' :: '*' :: x) := by
  rcases h with ⟨rfl, hx⟩ | ⟨body, rest, rfl, hbody, hrest⟩
  · exact .openComment (.block x hx)
  · have hwhole : '/' :: '*' :: (body ++ (['*', '/'] ++ rest)) =
        '/' :: '*' :: body ++ ['*', '/'] ++ rest := by simp
    rw [hwhole]
    exact .separator (.blockComment body hbody) hrest

end Commented

/-- What is read from this state on is hollow, with the comment that it may begin in. -/
def Scan.Hollow : Scan → Nat → Text → Prop
  | .outside _ => Sql.Hollow
  | .quoted _ => fun _ _ => False
  | .lineComment _ => Commented ['\n']
  | .blockComment _ => Commented ['*', '/']

/-- Where nothing is written but semicolons and spaces, the text that is read is hollow. -/
theorem hollow_of_squeeze (scan : Scan) (hopen : scan.open? = none)
    (honly : ∀ c ∈ squeeze scan x, c = ';' ∨ c = ' ') :
    scan.Hollow ((squeeze scan x).count ';') x := by
  fun_induction squeeze scan x with
  | case1 scan =>
    cases scan with
    | outside gap => exact .nil
    | quoted q => cases hopen
    | lineComment gap => exact .inl ⟨rfl, by decide⟩
    | blockComment gap => exact .inl ⟨rfl, by decide⟩
  | case2 gap cs ih => exact Commented.lineComment (ih rfl honly)
  | case3 gap cs ih => exact Commented.blockComment (ih rfl honly)
  | case4 gap c cs hline hblock hblank ih => exact .separator (.blank c hblank) (ih rfl honly)
  | case5 gap c cs hline hblock hblank ih =>
    have hc : c = ';' := by
      rcases honly c (by simp) with hc | rfl
      · exact hc
      · exact absurd rfl hblank
    subst hc
    have hrest : ∀ c ∈ squeeze (.outside .tight) cs, c = ';' ∨ c = ' ' := fun c hc =>
      honly c (List.mem_append_right _ (List.mem_cons_of_mem _ hc))
    have hsemicolons : Semicolons _ (gap.text ++ ';' :: squeeze (.outside .tight) cs) :=
      (semicolons_written gap).2 ⟨hrest, rfl⟩
    show Hollow ((gap.text ++ ';' :: squeeze (.outside .tight) cs).count ';') (';' :: cs)
    rw [hsemicolons.count]
    exact .semicolon (ih rfl hrest)
  | case6 q c cs ih => cases hopen
  | case7 gap c cs ih =>
    by_cases hc : c = '\n'
    · subst hc
      exact .here (List.cons_ne_nil _ _) (ih rfl honly)
    · rw [if_neg hc] at ih honly ⊢
      have hgoesOn : ¬['\n'] <+: c :: cs := fun h => hc (List.cons_prefix_cons.1 h).1.symm
      exact .cons hgoesOn (ih rfl honly)
  | case8 gap cs ih => exact .here (List.cons_ne_nil _ _) (ih rfl honly)
  | case9 gap c cs hclose ih =>
    have hgoesOn : ¬['*', '/'] <+: c :: cs := by
      rintro ⟨rest, hrest⟩
      obtain ⟨rfl, rfl⟩ := List.cons.inj hrest
      exact hclose rest rfl rfl
    exact .cons hgoesOn (ih rfl honly)

/-- **A text is hollow exactly when nothing but its semicolons and spaces are written for it.** -/
theorem hollow_iff (gap : Gap) : Hollow n x ↔ Semicolons n (squeeze (.outside gap) x) := by
  constructor
  · exact fun h => h.semicolons gap
  · intro h
    have hhollow : Hollow ((squeeze (.outside gap) x).count ';') x :=
      hollow_of_squeeze (.outside gap) rfl h.only
    rwa [h.count] at hhollow

theorem Hollow.unique (h : Hollow m x) (h' : Hollow n x) : m = n := by
  rw [← (h.semicolons .start).count, (h'.semicolons .start).count]

theorem Hollow.not_empty (h : Hollow (n + 2) x) : ¬(Hollow 0 x ∨ Hollow 1 x) := by
  rintro (h' | h') <;> cases h.unique h'

/-! ## Normal forms of hollow texts -/

/-- A normal form is not made of spaces only. -/
theorem Semicolons.eq_nil (h : Semicolons 0 y) (hy : Squeezed (.outside gap) y) : y = [] := by
  have hspace : ∀ c ∈ y, c = ' ' := by
    intro c hc
    rcases h.only c hc with rfl | hspace
    · exact absurd hc (List.count_eq_zero.1 h.count)
    · exact hspace
  match y with
  | [] => rfl
  | [c] =>
    obtain rfl := hspace c List.mem_cons_self
    exact absurd rfl (squeezed_space.1 hy).2.1
  | c :: d :: cs =>
    obtain rfl := hspace c List.mem_cons_self
    obtain rfl := hspace d (List.mem_cons_of_mem _ List.mem_cons_self)
    cases (squeezed_space.1 (squeezed_space.1 hy).2.2).1

theorem Semicolons.eq_single (h : Semicolons 1 y) (hy : Squeezed (.outside .start) y) :
    y = [';'] := by
  cases y with
  | nil => cases h.count
  | cons c cs =>
    rcases h.only c List.mem_cons_self with rfl | rfl
    · have hlater : Semicolons 0 cs := (semicolons_written .start).1 h
      have hcs : Squeezed (.outside .tight) cs := ((squeezed_outside (by decide)).1 hy).2.2
      rw [hlater.eq_nil hcs]
    · cases (squeezed_space.1 hy).1

/-- One semicolon is all that is dropped. -/
theorem dropSemicolon_eq_nil (hy : Squeezed (.outside .start) y) (h : dropSemicolon y = []) :
    y = [] ∨ y = [';'] := by
  unfold dropSemicolon at h
  split at h
  · next hlast =>
    obtain ⟨front, rfl⟩ := List.getLast?_eq_some_iff.1 hlast
    right
    rw [List.dropLast_concat, Text.trimEnd, List.reverse_eq_nil_iff, List.dropWhile_eq_nil_iff] at h
    cases front with
    | nil => rfl
    | cons c front =>
      -- a normal form does not begin with a blank
      have hblank : isBlank c = true := h c (List.mem_reverse.2 List.mem_cons_self)
      by_cases hspace : c = ' '
      · subst hspace
        cases (squeezed_space.1 hy).1
      · rw [((squeezed_outside hspace).1 hy).1] at hblank
        cases hblank
  · exact .inl h

/-- **The normal form is empty exactly for blanks, comments and at most one semicolon.** -/
theorem normalize_eq_nil_iff : normalize sql = [] ↔ Hollow 0 sql ∨ Hollow 1 sql := by
  have hy : Squeezed (.outside .start) (squeeze (.outside .start) sql) :=
    squeezed_squeeze (.outside .start) sql
  rw [hollow_iff .start, hollow_iff .start]
  constructor
  · intro h
    rcases dropSemicolon_eq_nil hy h with hnone | hone
    · rw [hnone]
      exact .inl semicolons_nil
    · rw [hone]
      exact .inr ((semicolons_written .start).2 semicolons_nil)
  · rintro (h | h)
    · rw [normalize, h.eq_nil hy]
      rfl
    · rw [normalize, h.eq_single hy]
      rfl

/-! ## Refusals -/

/-- Every token of a text of semicolons and spaces is a semicolon. -/
theorem readTokens_of_semicolons (x : Text) (h : ∀ c ∈ x, c = ';' ∨ c = ' ') :
    ∃ ts, readTokens x = .ok ts ∧ ∀ t ∈ ts, t.isSymbol ';' = true := by
  induction x using readTokens_induction with
  | blank => exact ⟨[], rfl, nofun⟩
  | unclosed space q cs hspace hq hopen =>
    rcases h q (by simp) with rfl | rfl <;> exact absurd hq (by decide)
  | token space c body kind rest hspace hwhole hstops hc ih =>
    obtain ⟨ts, hread, hts⟩ := ih fun d hd => h d (by simp [hd])
    have hsemicolon : c = ';' := by
      rcases h c (by simp) with hc' | rfl
      · exact hc'
      · exact absurd hc (by decide)
    subst hsemicolon
    rw [hread]
    refine ⟨_, rfl, List.forall_mem_cons.2 ⟨?_, hts⟩⟩
    cases hwhole with
    | quoted hquote => exact absurd hquote (by decide)
    | number _ hdigit => exact absurd hdigit (by decide)
    | word _ _ hword => exact absurd hword (by decide)
    | symbol => rfl

/-- A text that is not empty in normal form has a token. -/
theorem tokens_ne_nil (hne : normalize sql ≠ []) (h : readTokens (normalize sql) = .ok ts) :
    ts ≠ [] := by
  rintro rfl
  exact hne (spelled_readTokens (squeezed_normalize sql) h).2.1.symm

/-- **Semicolons without statements are refused** if there is more than one. -/
theorem translate_of_hollow (h : Hollow (n + 2) sql) :
    translate sql = .error (.malformed .statement .severalStatements) := by
  have hne : normalize sql ≠ [] := mt normalize_eq_nil_iff.1 h.not_empty
  have honly : ∀ c ∈ normalize sql, c = ';' ∨ c = ' ' := fun c hc =>
    (h.semicolons .start).only c ((isPrefix_dropSemicolon _).subset hc)
  obtain ⟨ts, hread, hts⟩ := readTokens_of_semicolons (normalize sql) honly
  obtain ⟨t, ts, rfl⟩ := List.exists_cons_of_ne_nil (tokens_ne_nil hne hread)
  have hrefused : readStatement (normalize sql) =
      .error (.malformed .statement .severalStatements) := by
    rw [readStatement, hread]
    simp [hts]
  rw [translate, hrefused]
  rfl

/-- A kind of statement is refused by its first token. -/
theorem ofTokens_unsupported {t : Token}
    (h : Statement.ofTokens (t :: ts) = .error (.unsupported token)) : token = t.text := by
  unfold Statement.ofTokens at h
  dsimp only at h
  split at h
  · cases hread : CreateTable.ofTokens ts.tail <;> rw [hread] at h <;> cases h
  · split at h
    · cases h
    · split at h
      · cases hread : Insert.ofTokens ts <;> rw [hread] at h <;> cases h
      · repeat' split at h
        all_goals cases h
        rfl

/-- What is not supported is the first token of a text that has one. -/
theorem translate_unsupported (hne : normalize sql ≠ [])
    (h : translate sql = .error (.unsupported token)) :
    ∃ t ts, readTokens (normalize sql) = .ok (t :: ts) ∧ token = t.text := by
  rcases translate_eq_error h with hread | ⟨ts, hread, hstatement⟩
  · unfold readStatement at hread
    split at hread
    · cases hread
    · split at hread <;> cases hread
  · have htokens := (readStatement_eq_ok.1 hread).1
    obtain ⟨t, ts, rfl⟩ := List.exists_cons_of_ne_nil (tokens_ne_nil hne htokens)
    exact ⟨t, ts, htokens, ofTokens_unsupported hstatement⟩

end PgGateway.Sql
