import PgGateway.Proofs.Sql.Balanced
import PgGateway.Proofs.Sql.Spelling
import PgGateway.Sql.Name

/-!
# Putting runs of tokens together

A statement is written from pieces, and each piece stands for a run of tokens. Pieces that begin
with a space go one behind the other, whatever they are (`Chunk.append`); between commas and
parentheses they need none.
-/

namespace PgGateway.Sql

variable {c : Char} {gap w x : Text} {t u : Token} {ts us : List Token}

/-- The tokens can be written one after the other, and they are in one statement. -/
structure Clean (ts : List Token) : Prop where
  spelled : Spelled ts
  single : ∀ t ∈ ts, t.isSymbol ';' = false

theorem Clean.piece (h : Clean ts) (hpiece : us <:+: ts) : Clean us :=
  ⟨h.spelled.piece hpiece, fun t ht => h.single t (hpiece.subset ht)⟩

theorem Clean.nil : Clean [] := ⟨⟨nofun, .nil⟩, nofun⟩

/-! ## Neighbours -/

theorem adjoins_of_spaced (h : u.gap = [' ']) : t.Adjoins u := by
  intro hgap
  rw [h] at hgap
  cases hgap

/-- A comma, a semicolon or a closing parenthesis can be written behind every token. -/
theorem adjoins_mark (hc : c = ',' ∨ c = ';' ∨ c = ')') (h : u.text = [c]) : t.Adjoins u := by
  intro _ d hd
  rw [h] at hd
  cases hd
  constructor
  · rcases hc with rfl | rfl | rfl <;> cases t.kind <;> decide
  · rintro e - (⟨-, rfl⟩ | ⟨-, rfl⟩) <;> exact absurd hc (by decide)

/-- Every token can be written behind an opening parenthesis or a comma. -/
theorem adjoins_behind (hc : c = '(' ∨ c = ',') (hkind : t.kind = .symbol) (h : t.text = [c]) :
    t.Adjoins u := by
  intro _ d _
  refine ⟨by rw [hkind]; rfl, ?_⟩
  rintro e he hcomment
  obtain rfl : c = e := by simpa [h] using he
  rcases hcomment with ⟨rfl, -⟩ | ⟨rfl, -⟩ <;> exact absurd hc (by decide)

theorem Spelled.append (hts : Spelled ts) (hus : Spelled us)
    (hjoin : ∀ t ∈ ts.getLast?, ∀ u ∈ us.head?, t.Adjoins u) : Spelled (ts ++ us) := by
  refine ⟨?_, List.isChain_append.2 ⟨hts.adjoins, hus.adjoins, hjoin⟩⟩
  intro t ht
  exact (List.mem_append.1 ht).elim (hts.sound t) (hus.sound t)

theorem Clean.append (hts : Clean ts) (hus : Clean us)
    (hjoin : ∀ t ∈ ts.getLast?, ∀ u ∈ us.head?, t.Adjoins u) : Clean (ts ++ us) := by
  refine ⟨hts.spelled.append hus.spelled hjoin, ?_⟩
  intro t ht
  exact (List.mem_append.1 ht).elim (hts.single t) (hus.single t)

theorem Clean.append_spaced (hts : Clean ts) (hus : Clean us)
    (hspaced : ∀ u ∈ us.head?, u.gap = [' ']) : Clean (ts ++ us) :=
  hts.append hus fun _ _ u hu => adjoins_of_spaced (hspaced u hu)

theorem Clean.token (h : t.Sound) (hsingle : t.isSymbol ';' = false) : Clean [t] :=
  ⟨⟨by simpa using h, .singleton t⟩, by simpa using hsingle⟩

/-! ## The space in front of a run -/

/-- The tokens with another white space in front of the first. -/
def setGap (gap : Text) (ts : List Token) : List Token := ts.modifyHead fun t => { t with gap }

@[simp] theorem setGap_cons : setGap gap (t :: ts) = { t with gap } :: ts := rfl

theorem gap_of_head_setGap : ∀ t ∈ (setGap gap ts).head?, t.gap = gap := by
  cases ts with
  | nil => nofun
  | cons t ts => intro u hu; cases hu; rfl

theorem setGap_ne_nil (h : ts ≠ []) : setGap gap ts ≠ [] := by
  cases ts with
  | nil => exact absurd rfl h
  | cons t ts => nofun

theorem render_setGap (h : ts ≠ []) :
    Token.render (setGap gap ts) = gap ++ Token.verbatim ts := by
  cases ts with
  | nil => exact absurd rfl h
  | cons t ts => rw [setGap_cons, Token.render_cons, Token.verbatim_cons]

@[simp] theorem verbatim_setGap : Token.verbatim (setGap gap ts) = Token.verbatim ts := by
  cases ts <;> rfl

theorem Clean.setGap (h : Clean ts) (hgap : gap = [] ∨ gap = [' ']) : Clean (setGap gap ts) := by
  cases ts with
  | nil => exact h
  | cons t ts =>
    refine ⟨⟨?_, ?_⟩, ?_⟩
    · intro u hu
      rcases List.mem_cons.1 hu with rfl | hu
      · have ht := h.spelled.sound t (by simp)
        exact ⟨ht.whole, hgap, ht.unblank⟩
      · exact h.spelled.sound u (List.mem_cons_of_mem _ hu)
    · obtain ⟨hnext, hlater⟩ := List.isChain_cons.1 h.spelled.adjoins
      exact List.isChain_cons.2 ⟨hnext, hlater⟩
    · intro u hu
      rcases List.mem_cons.1 hu with rfl | hu
      · exact h.single t (by simp)
      · exact h.single u (List.mem_cons_of_mem _ hu)

theorem Balanced.setGap {depth : Nat} (h : Balanced depth ts) :
    Balanced depth (setGap gap ts) := by
  cases ts with
  | nil => exact h
  | cons t ts => exact h

@[simp] theorem isSymbol_gap : Token.isSymbol { t with gap } c = t.isSymbol c := rfl

@[simp] theorem isKeyword_gap : Token.isKeyword { t with gap } w = t.isKeyword w := rfl

@[simp] theorem depthAfter_gap {depth : Nat} :
    Token.depthAfter { t with gap } depth = t.depthAfter depth := rfl

theorem parts_setGap : parts (setGap gap ts) = (parts ts).modifyHead (setGap gap) := by
  cases ts with
  | nil => rfl
  | cons t ts =>
    simp only [setGap_cons, parts, splitCommas, isSymbol_gap, depthAfter_gap]
    split
    · rfl
    · cases splitCommas (t.depthAfter 0) ts <;> rfl

theorem Enclosed.setGap (h : Enclosed ts) : Enclosed (setGap gap ts) :=
  ⟨h.balanced.setGap, by rw [parts_setGap, h.single]; rfl⟩

/-! ## Excerpts -/

/-- The text is what the tokens make up, the first without the space in front of it. -/
structure Excerpt (x : Text) (us : List Token) : Prop where
  clean : Clean us
  nonempty : us ≠ []
  flush : ∀ u ∈ us.head?, u.gap = []
  render : Token.render us = x

theorem Excerpt.read (h : Excerpt x us) : readTokens x = .ok us := by
  rw [← h.render]
  exact readTokens_render h.clean.spelled

theorem Excerpt.verbatim (h : Excerpt x us) : Token.verbatim us = x := by
  rw [← h.render]
  cases us with
  | nil => rfl
  | cons u us => rw [Token.verbatim_cons, Token.render_cons, h.flush u rfl, List.nil_append]

theorem Clean.excerpt (h : Clean ts) (hne : ts ≠ []) :
    Excerpt (Token.verbatim ts) (Sql.setGap [] ts) :=
  ⟨h.setGap (.inl rfl), setGap_ne_nil hne, gap_of_head_setGap, render_setGap hne⟩

/-- The tokens of a text, with a space in front of them. -/
def spacedTokens (x : Text) : List Token :=
  match readTokens x with
  | .ok us => setGap [' '] us
  | .error _ => []

theorem Excerpt.spacedTokens (h : Excerpt x us) : spacedTokens x = setGap [' '] us := by
  rw [Sql.spacedTokens, h.read]

theorem Excerpt.render_spacedTokens (h : Excerpt x us) :
    Token.render (Sql.spacedTokens x) = ' ' :: x := by
  rw [h.spacedTokens, ← h.render]
  cases us with
  | nil => exact absurd rfl h.nonempty
  | cons u us =>
    rw [setGap_cons, Token.render_cons, Token.render_cons, h.flush u rfl]
    rfl

theorem render_excerpts {xs : List Text} (h : ∀ x ∈ xs, ∃ us, Excerpt x us) :
    Token.render (xs.flatMap Sql.spacedTokens) = xs.flatMap (' ' :: ·) := by
  induction xs with
  | nil => rfl
  | cons x xs ih =>
    obtain ⟨us, hx⟩ := h x (by simp)
    rw [List.flatMap_cons, List.flatMap_cons, Token.render_append, hx.render_spacedTokens,
      ih fun y hy => h y (List.mem_cons_of_mem _ hy)]

/-! ## Chunks -/

/-- A piece of a statement that goes behind every other: it begins with a space. -/
structure Spaced (ts : List Token) : Prop where
  clean : Clean ts
  spaced : ∀ t ∈ ts.head?, t.gap = [' ']

theorem Spaced.nil : Spaced [] := ⟨.nil, nofun⟩

theorem Spaced.append (hts : Spaced ts) (hus : Spaced us) : Spaced (ts ++ us) := by
  refine ⟨hts.clean.append_spaced hus.clean hus.spaced, ?_⟩
  cases ts with
  | nil => exact hus.spaced
  | cons t ts => exact hts.spaced

theorem Spaced.flatMap {α : Type} {l : List α} {f : α → List Token} (h : ∀ a ∈ l, Spaced (f a)) :
    Spaced (l.flatMap f) := by
  induction l with
  | nil => exact .nil
  | cons a l ih =>
    rw [List.flatMap_cons]
    exact (h a (by simp)).append (ih fun b hb => h b (List.mem_cons_of_mem _ hb))

theorem Excerpt.spaced (h : Excerpt x us) : Spaced (Sql.spacedTokens x) := by
  rw [h.spacedTokens]
  exact ⟨h.clean.setGap (.inr rfl), gap_of_head_setGap⟩

theorem Excerpt.enclosed (h : Excerpt x us) (henclosed : Enclosed us) :
    Enclosed (Sql.spacedTokens x) := by
  rw [h.spacedTokens]
  exact henclosed.setGap

/-- A piece of a statement that goes behind every other: it begins with a space, and its parentheses
and commas are its own. -/
structure Chunk (ts : List Token) : Prop where
  clean : Clean ts
  spaced : ∀ t ∈ ts.head?, t.gap = [' ']
  enclosed : Enclosed ts

theorem Chunk.toSpaced (h : Chunk ts) : Spaced ts := ⟨h.clean, h.spaced⟩

theorem Chunk.nil : Chunk [] := ⟨.nil, nofun, .nil⟩

theorem Chunk.append (hts : Chunk ts) (hus : Chunk us) : Chunk (ts ++ us) := by
  obtain ⟨hclean, hspaced⟩ := hts.toSpaced.append hus.toSpaced
  exact ⟨hclean, hspaced, hts.enclosed.append hus.enclosed⟩

/-! ## Words -/

theorem plain_cases (h : isPlain c = true) :
    c.isUpper = true ∨ c.isLower = true ∨ c.isDigit = true ∨ c = '_' := by
  have hcases : (((c.isUpper || c.isLower) || c.isDigit) || c == '_') = true := h
  simpa only [Bool.or_eq_true, beq_iff_eq, or_assoc] using hcases

theorem plain_facts (h : isPlain c = true) :
    ¬(c = '\'' ∨ c = '"') ∧ continuesWord c = true ∧ isBlank c = false ∧
      (c.isDigit = false → beginsWord c = true) := by
  have hletter : c.isUpper = true ∨ c.isLower = true → beginsWord c = true := by
    intro hletter
    have halpha : c.isAlpha = true := by
      show (c.isUpper || c.isLower) = true
      simpa using hletter
    simp [beginsWord, halpha]
  refine ⟨?_, ?_, ?_, ?_⟩
  · rintro (rfl | rfl) <;> exact absurd h (by decide)
  · rcases plain_cases h with h | h | h | rfl
    · simp [continuesWord, hletter (.inl h)]
    · simp [continuesWord, hletter (.inr h)]
    · simp [continuesWord, h]
    · decide
  · -- letters, digits and the underscore lie between the space and the end of ASCII
    have hrange : 0x20 < c.toNat ∧ c.toNat < 0x80 := by
      rcases plain_cases h with h | h | h | rfl
      · have hbounds : 65 ≤ c.toNat ∧ c.toNat ≤ 90 := of_decide_eq_true h
        omega
      · have hbounds : (decide (97 ≤ c.toNat) && decide (c.toNat ≤ 122)) = true := h
        simp only [Bool.and_eq_true, decide_eq_true_eq] at hbounds
        omega
      · have hbounds : (decide (48 ≤ c.toNat) && decide (c.toNat ≤ 57)) = true := h
        simp only [Bool.and_eq_true, decide_eq_true_eq] at hbounds
        omega
      · decide
    simp [isBlank, UInt32.le_iff_toNat_le, ← UInt32.toNat_inj]
    omega
  · intro hdigit
    rcases plain_cases h with h | h | h | rfl
    · exact hletter (.inl h)
    · exact hletter (.inr h)
    · rw [hdigit] at h
      cases h
    · decide

/-- A word with a space in front of it. -/
def Token.bare (w : Text) : Token := ⟨[' '], .word, w⟩

theorem sound_bare (h : isPlainName w = true) : (Token.bare w).Sound := by
  cases w with
  | nil => cases h
  | cons c cs =>
    obtain ⟨hdigit, hplain⟩ : c.isDigit = false ∧ ∀ d ∈ c :: cs, isPlain d = true := by
      simpa [isPlainName] using h
    have hchars := fun d hd => plain_facts (hplain d hd)
    obtain ⟨hquote, -, hblank, hbegins⟩ := hchars c (by simp)
    have htoken : WholeToken c cs .word := .word hquote (by simp [hdigit]) (hbegins hdigit)
      fun d hd => (hchars d (List.mem_cons_of_mem _ hd)).2.1
    exact ⟨⟨c, cs, rfl, isSpace_of_not_blank hblank, htoken⟩, .inr rfl,
      fun _ d hd => (hchars d hd).2.2.1⟩

theorem Chunk.bare (h : isPlainName w = true) : Chunk [Token.bare w] :=
  ⟨.token (sound_bare h) rfl, by intro t ht; cases ht; rfl, .token rfl rfl rfl⟩

/-! ## Names -/

theorem halve_double (q : Char) (w : Text) : Text.halve q (Text.double q w) = w := by
  induction w with
  | nil => rfl
  | cons c w ih =>
    by_cases hc : c = q
    · subst hc
      simp [Text.double, Text.halve] at ih ⊢
      exact ih
    · have hdouble : Text.double q (c :: w) = c :: Text.double q w := by
        simp [Text.double, hc]
      rw [hdouble]
      cases hrest : Text.double q w with
      | nil =>
        rw [hrest] at ih
        rw [← ih]
        rfl
      | cons d rest =>
        rw [Text.halve, if_neg (fun h => hc h.1), ← hrest, ih]

/-- The quote behind a doubled text is the first one that is not written twice. -/
theorem quoted_double (q : Char) (w : Text) : Quoted q (Text.double q w ++ [q]) := by
  induction w with
  | nil => exact .close
  | cons c w ih =>
    by_cases hc : c = q
    · subst hc
      simpa [Text.double] using ih.pair
    · simpa [Text.double, hc] using ih.char hc

/-- The token that a name is written as, with a space in front of it. -/
def nameToken (name : Text) : Token :=
  if isPlainName name then .bare name else ⟨[' '], .quotedName, Text.quote '"' name⟩

@[simp] theorem gap_nameToken (name : Text) : (nameToken name).gap = [' '] := by
  unfold nameToken
  split <;> rfl

@[simp] theorem text_nameToken (name : Text) : (nameToken name).text = writeName name := by
  unfold nameToken writeName
  split <;> rfl

@[simp] theorem isSymbol_nameToken (name : Text) : (nameToken name).isSymbol c = false := by
  unfold nameToken
  split <;> rfl

@[simp] theorem isName_nameToken (name : Text) : (nameToken name).isName = true := by
  unfold nameToken
  split <;> rfl

/-- A name is read back from the token it is written as. -/
@[simp] theorem name_nameToken (name : Text) : (nameToken name).name = name := by
  unfold nameToken
  split
  · rfl
  · show Text.halve '"' ((Text.double '"' name ++ ['"']).dropLast) = name
    rw [List.dropLast_concat, halve_double]

theorem sound_nameToken (name : Text) : (nameToken name).Sound := by
  unfold nameToken
  split
  · next hplain => exact sound_bare hplain
  · exact ⟨⟨'"', _, rfl, by decide, .quoted (.inr rfl) (quoted_double '"' name)⟩, .inr rfl, nofun⟩

theorem Chunk.name (name : Text) : Chunk [nameToken name] :=
  ⟨.token (sound_nameToken name) (by simp), by intro t ht; cases ht; simp,
    .token (by simp) (by simp) (by simp)⟩

/-! ## Parentheses and commas -/

/-- A single symbol, with white space in front of it. -/
def Token.mark (gap : Text) (c : Char) : Token := ⟨gap, .symbol, [c]⟩

theorem sound_mark (hgap : gap = [] ∨ gap = [' '])
    (hc : c = '(' ∨ c = ')' ∨ c = ',' ∨ c = ';') : (Token.mark gap c).Sound := by
  have hfacts : isSpace c = false ∧ ¬(c = '\'' ∨ c = '"') ∧ ¬c.isDigit = true ∧
      ¬beginsWord c = true ∧ isBlank c = false := by
    rcases hc with rfl | rfl | rfl | rfl <;> decide
  obtain ⟨hspace, hquote, hdigit, hword, hblank⟩ := hfacts
  refine ⟨⟨c, [], rfl, hspace, .symbol hquote hdigit hword⟩, hgap, ?_⟩
  rintro - d hd
  obtain rfl : d = c := by simpa [Token.mark] using hd
  exact hblank

/-- The tokens in parentheses that are set off by a space. -/
def grouped (gap : Text) (us : List Token) : Group := ⟨.mark [' '] '(', us, .mark gap ')'⟩

theorem grouped_sound (h : Balanced 0 us) : (grouped gap us).Sound := ⟨rfl, h, rfl⟩

theorem Clean.grouped (hus : Clean us) (hgap : gap = [] ∨ gap = [' ']) :
    Clean (grouped gap us).tokens := by
  have hopen : Clean [Token.mark [' '] '('] := .token (sound_mark (.inr rfl) (by decide)) rfl
  have hclose : Clean [Token.mark gap ')'] := .token (sound_mark hgap (by decide)) rfl
  show Clean ([Token.mark [' '] '('] ++ (us ++ [Token.mark gap ')']))
  apply hopen.append
  · apply hus.append hclose
    intro t _ u hu
    cases hu
    exact adjoins_mark (by decide) rfl
  · intro t ht u _
    cases ht
    exact adjoins_behind (.inl rfl) rfl rfl

theorem Chunk.grouped (hus : Clean us) (hbalanced : Balanced 0 us) :
    Chunk (grouped [] us).tokens :=
  ⟨hus.grouped (.inl rfl), by intro t ht; cases ht; rfl, (grouped_sound hbalanced).enclosed⟩

theorem Clean.separate {tss : List (List Token)} (h : ∀ ts ∈ tss, Clean ts) :
    Clean (separate (.mark [] ',') tss) := by
  induction tss with
  | nil => exact .nil
  | cons ts tss ih =>
    have hfirst := h ts (by simp)
    have hlater := ih fun us hus => h us (List.mem_cons_of_mem _ hus)
    cases tss with
    | nil => exact hfirst
    | cons us tss =>
      have hcomma : Clean [Token.mark [] ','] := .token (sound_mark (.inl rfl) (by decide)) rfl
      -- the comma goes behind any token, and any token goes behind the comma
      show Clean (ts ++ ([Token.mark [] ','] ++ Sql.separate _ (us :: tss)))
      apply hfirst.append
      · apply hcomma.append hlater
        intro t ht u _
        cases ht
        exact adjoins_behind (.inr rfl) rfl rfl
      · intro t _ u hu
        cases hu
        exact adjoins_mark (by decide) rfl

theorem render_separate {tss : List (List Token)} {xs : List Text} (hne : tss ≠ [])
    (h : tss.map Token.render = xs.map (' ' :: ·)) :
    Token.render (separate (.mark [] ',') tss) = ' ' :: Text.join ", " xs := by
  induction tss generalizing xs with
  | nil => exact absurd rfl hne
  | cons ts tss ih =>
    cases xs with
    | nil => cases h
    | cons x xs =>
      obtain ⟨hfirst, hlater⟩ : Token.render ts = ' ' :: x ∧
          tss.map Token.render = xs.map (' ' :: ·) := by
        simpa using h
      cases tss with
      | nil =>
        obtain rfl : xs = [] := by simpa using hlater
        simpa [separate, Text.join] using hfirst
      | cons us tss =>
        cases xs with
        | nil => cases hlater
        | cons y ys =>
          rw [separate, Token.render_append, Token.render_cons, hfirst,
            ih (List.cons_ne_nil us tss) hlater]
          simp [Token.mark, Text.join, List.intercalate_cons_cons]

end PgGateway.Sql
