import Mathlib.Data.List.Chain
import Mathlib.Data.List.TakeWhile
import PgGateway.Proofs.Sql.Normal
import PgGateway.Sql.Token

/-!
# Tokens and the texts they are read from

Tokens can be written one after the other as they were read. What is needed for that is said of the
tokens alone: each is whole, and none runs on into the next (`Spelled`). The tokens of a normal form
are like that and make up the normal form (`spelled_readTokens`); tokens that are like that are read
back from what they make up (`readTokens_render`), which is in normal form (`squeezed_render`).
-/

namespace PgGateway.Sql

variable {c q : Char} {cs rest : Text} {kind : TokenKind} {t : Token} {ts : List Token}

/-! ## Outcomes -/

section

variable {ε ε' α β : Type}

theorem map_eq_ok {f : α → β} {x : Except ε α} {b : β} :
    x.map f = .ok b ↔ ∃ a, x = .ok a ∧ f a = b := by
  cases x <;> simp [Except.map]

theorem bind_eq_ok {f : α → Except ε β} {x : Except ε α} {b : β} :
    x >>= f = .ok b ↔ ∃ a, x = .ok a ∧ f a = .ok b := by
  cases x <;> simp [bind, Except.bind]

theorem mapError_eq_ok {f : ε → ε'} {x : Except ε α} {a : α} :
    x.mapError f = .ok a ↔ x = .ok a := by
  cases x <;> simp [Except.mapError]

end

/-! ## Quoted text -/

/-- The text is read from behind an opening quote just up to the closing one. -/
inductive Quoted (q : Char) : Text → Prop
  | close : Quoted q [q]
  | pair {cs : Text} (later : Quoted q cs) : Quoted q (q :: q :: cs)
  | char {c : Char} {cs : Text} (hc : c ≠ q) (later : Quoted q cs) : Quoted q (c :: cs)

theorem quoted_of_closeQuote {r : Text × Text} (h : closeQuote q cs = some r) :
    Quoted q r.1 ∧ ∀ d ∈ r.2.head?, d ≠ q := by
  fun_induction closeQuote q cs generalizing r with
  | case1 => cases h
  | case2 =>
    cases h
    exact ⟨.close, by simp⟩
  | case3 => cases h
  | case4 cs ih =>
    obtain ⟨s, hs, rfl⟩ := Option.map_eq_some_iff.1 h
    obtain ⟨hquoted, hnext⟩ := ih hs
    exact ⟨.pair hquoted, hnext⟩
  | case5 d cs hd =>
    cases h
    refine ⟨.close, ?_⟩
    intro e he
    cases he
    exact hd
  | case6 c d cs hc ih =>
    obtain ⟨s, hs, rfl⟩ := Option.map_eq_some_iff.1 h
    obtain ⟨hquoted, hnext⟩ := ih hs
    exact ⟨.char hc hquoted, hnext⟩

/-- Quoted text is read whatever follows it, as long as no quote does. -/
theorem Quoted.read (h : Quoted q cs) (hnext : ∀ d ∈ rest.head?, d ≠ q) :
    closeQuote q (cs ++ rest) = some (cs, rest) := by
  induction h with
  | close =>
    cases rest with
    | nil => simp [closeQuote]
    | cons d rest => simp [closeQuote, hnext d rfl]
  | pair later ih => simp [closeQuote, ih]
  | @char c cs hc later ih =>
    cases cs with
    | nil => cases later
    | cons d cs =>
      rw [List.cons_append] at ih
      simp [closeQuote, hc, ih]

theorem Quoted.getLast? (h : Quoted q cs) : cs.getLast? = some q := by
  induction h with
  | close => rfl
  | pair later ih =>
    rw [List.getLast?_cons_cons, List.getLast?_cons, ih]
    rfl
  | char hc later ih =>
    rw [List.getLast?_cons, ih]
    rfl

/-- Quoted text is in normal form whatever it holds. -/
theorem Quoted.squeezed (h : Quoted q cs) (hq : q = '\'' ∨ q = '"') :
    Squeezed (.quoted q) (cs ++ rest) ↔ Squeezed (.outside .tight) rest := by
  induction h with
  | close =>
    rw [List.cons_append, squeezed_quoted, if_pos rfl]
    rfl
  | pair later ih =>
    have hblank : isBlank q = false := by
      rcases hq with rfl | rfl <;> decide
    rw [List.cons_append, List.cons_append, squeezed_quoted, if_pos rfl,
      squeezed_outside (ne_space_of_not_blank hblank), Scan.after, if_pos hq, ih]
    exact ⟨fun h => h.2.2, fun h => ⟨hblank, fun _ _ => opensComment_of_quote hq, h⟩⟩
  | char hc later ih =>
    rw [List.cons_append, squeezed_quoted, if_neg hc]
    exact ih

/-! ## Words and numbers -/

/-- The characters of words and numbers neither open a comment nor a quote. -/
theorem inert_of_continues (h : continuesWord c = true ∨ continuesNumber c = true) :
    (∀ d, ¬opensComment c d) ∧ ¬(c = '\'' ∨ c = '"') := by
  constructor
  · rintro d (⟨rfl, -⟩ | ⟨rfl, -⟩) <;> exact absurd h (by decide)
  · rintro (rfl | rfl) <;> exact absurd h (by decide)

theorem squeezed_run (hrun : ∀ d ∈ cs, continuesWord d = true ∨ continuesNumber d = true)
    (hcs : cs ≠ []) : Squeezed (.outside gap) (cs ++ rest) ↔
      (∀ d ∈ cs, isBlank d = false) ∧ Squeezed (.outside .tight) rest := by
  induction cs generalizing gap with
  | nil => exact absurd rfl hcs
  | cons c cs ih =>
    obtain ⟨hcomment, hquote⟩ := inert_of_continues (hrun c (by simp))
    have hspace : c ≠ ' ' := by
      rintro rfl
      exact absurd (hrun ' ' (by simp)) (by decide)
    rw [List.cons_append, squeezed_outside hspace, Scan.after, if_neg hquote]
    have hlater : Squeezed (.outside .tight) (cs ++ rest) ↔
        (∀ d ∈ cs, isBlank d = false) ∧ Squeezed (.outside .tight) rest := by
      cases cs with
      | nil => simp
      | cons d cs =>
        exact ih (fun e he => hrun e (List.mem_cons_of_mem _ he)) (List.cons_ne_nil d cs)
    rw [hlater]
    simp [hcomment, and_assoc]

/-! ## One token -/

/-- A token of this kind is over before this character. -/
def TokenKind.stops : TokenKind → Char → Bool
  | word, d => !continuesWord d
  | number, d => !continuesNumber d
  | string, d => d != '\''
  | quotedName, d => d != '"'
  | symbol, _ => true

/-- The token is in quotes. -/
def TokenKind.isQuoted : TokenKind → Bool
  | string | quotedName => true
  | _ => false

theorem TokenKind.stops_space (kind : TokenKind) : kind.stops ' ' = true := by
  cases kind <;> decide

/-- The tokens that are read from their own text, by their first character and the rest: what is
between two quotes, a run of digits and points, a run of the characters of words, or one other
character. -/
inductive WholeToken (c : Char) : Text → TokenKind → Prop
  | quoted {cs : Text} (hquote : c = '\'' ∨ c = '"') (hcs : Quoted c cs) :
    WholeToken c cs (if c = '"' then .quotedName else .string)
  | number {cs : Text} (hquote : ¬(c = '\'' ∨ c = '"')) (hdigit : c.isDigit = true)
    (hcs : ∀ d ∈ cs, continuesNumber d = true) : WholeToken c cs .number
  | word {cs : Text} (hquote : ¬(c = '\'' ∨ c = '"')) (hdigit : ¬c.isDigit = true)
    (hword : beginsWord c = true) (hcs : ∀ d ∈ cs, continuesWord d = true) : WholeToken c cs .word
  | symbol (hquote : ¬(c = '\'' ∨ c = '"')) (hdigit : ¬c.isDigit = true)
    (hword : ¬beginsWord c = true) : WholeToken c [] .symbol

/-- A token that is read is whole, and it is over before what follows. -/
theorem wholeToken_of_readToken {text : Text} (h : readToken c cs = some (kind, text, rest)) :
    ∃ body, text = c :: body ∧ WholeToken c body kind ∧ ∀ d ∈ rest.head?, kind.stops d = true := by
  have hrun : ∀ p : Char → Bool, (∀ d ∈ cs.takeWhile p, p d = true) ∧
      ∀ d ∈ (cs.dropWhile p).head?, (!p d) = true := by
    intro p
    refine ⟨fun d hd => List.mem_takeWhile_imp hd, ?_⟩
    intro d hd
    have hnot := List.head?_dropWhile_not p cs
    rw [hd] at hnot
    simpa using hnot
  unfold readToken at h
  split at h
  · next hquote =>
    obtain ⟨r, hr, he⟩ := Option.map_eq_some_iff.1 h
    obtain ⟨hquoted, hnext⟩ := quoted_of_closeQuote hr
    cases he
    refine ⟨r.1, rfl, .quoted hquote hquoted, ?_⟩
    intro d hd
    rcases hquote with rfl | rfl
    · simpa [TokenKind.stops] using hnext d hd
    · simpa [TokenKind.stops] using hnext d hd
  · next hquote =>
    split at h
    · next hdigit =>
      cases h
      exact ⟨_, rfl, .number hquote hdigit (hrun continuesNumber).1, (hrun continuesNumber).2⟩
    · next hdigit =>
      split at h
      · next hword =>
        cases h
        exact ⟨_, rfl, .word hquote hdigit hword (hrun continuesWord).1, (hrun continuesWord).2⟩
      · next hword =>
        cases h
        exact ⟨[], rfl, .symbol hquote hdigit hword, fun _ _ => rfl⟩

theorem takeWhile_append_stop {p : Char → Bool} (hrun : ∀ d ∈ cs, p d = true)
    (hnext : ∀ d ∈ rest.head?, p d = false) :
    (cs ++ rest).takeWhile p = cs ∧ (cs ++ rest).dropWhile p = rest := by
  rw [List.takeWhile_append_of_pos hrun, List.dropWhile_append_of_pos hrun]
  cases rest with
  | nil => simp
  | cons d rest => simp [hnext d rfl]

/-- A whole token is read from the front of a text if it is over before the rest. -/
theorem WholeToken.read_append (h : WholeToken c cs kind)
    (hnext : ∀ d ∈ rest.head?, kind.stops d = true) :
    readToken c (cs ++ rest) = some (kind, c :: cs, rest) := by
  cases h with
  | quoted hquote hcs =>
    have hne : ∀ d ∈ rest.head?, d ≠ c := by
      intro d hd
      have hstop := hnext d hd
      rcases hquote with rfl | rfl <;> simpa [TokenKind.stops] using hstop
    simp [readToken, hquote, hcs.read hne]
  | number hquote hdigit hcs =>
    obtain ⟨htake, hdrop⟩ := takeWhile_append_stop hcs fun d hd => by
      simpa [TokenKind.stops] using hnext d hd
    rw [readToken, if_neg hquote, if_pos hdigit, htake, hdrop]
  | word hquote hdigit hword hcs =>
    obtain ⟨htake, hdrop⟩ := takeWhile_append_stop hcs fun d hd => by
      simpa [TokenKind.stops] using hnext d hd
    rw [readToken, if_neg hquote, if_neg hdigit, if_pos hword, htake, hdrop]
  | symbol hquote hdigit hword =>
    rw [readToken, if_neg hquote, if_neg hdigit, if_neg hword]
    rfl

/-- A whole token stands in a normal form just if it has no blank in it, opens no comment with what
follows, and what follows is in normal form. -/
theorem WholeToken.squeezed (h : WholeToken c cs kind) (hspace : c ≠ ' ') :
    Squeezed (.outside gap) (c :: cs ++ rest) ↔
      (kind.isQuoted = false → ∀ d ∈ c :: cs, isBlank d = false) ∧
        (cs = [] → ∀ d ∈ rest.head?, ¬opensComment c d) ∧ Squeezed (.outside .tight) rest := by
  have hchars : (∀ d ∈ c :: cs, continuesWord d = true ∨ continuesNumber d = true) →
      (Squeezed (.outside gap) (c :: cs ++ rest) ↔
        (∀ d ∈ c :: cs, isBlank d = false) ∧ (cs = [] → ∀ d ∈ rest.head?, ¬opensComment c d) ∧
          Squeezed (.outside .tight) rest) := by
    intro hall
    rw [squeezed_run hall nofun]
    have hcomment := (inert_of_continues (hall c (by simp))).1
    simp [hcomment]
  cases h with
  | quoted hquote hcs =>
    have hquoted : (if c = '"' then TokenKind.quotedName else .string).isQuoted = true := by
      split <;> rfl
    have hblank : isBlank c = false := by
      rcases hquote with rfl | rfl <;> decide
    rw [List.cons_append, squeezed_outside hspace, Scan.after, if_pos hquote,
      hcs.squeezed hquote]
    simp [hquoted, hblank, opensComment_of_quote hquote]
  | number hquote hdigit hcs =>
    rw [hchars]
    · simp [TokenKind.isQuoted]
    · intro d hd
      right
      rcases List.mem_cons.1 hd with rfl | hd
      · simp [continuesNumber, hdigit]
      · exact hcs d hd
  | word hquote hdigit hword hcs =>
    rw [hchars]
    · simp [TokenKind.isQuoted]
    · intro d hd
      left
      rcases List.mem_cons.1 hd with rfl | hd
      · simp [continuesWord, hword]
      · exact hcs d hd
  | symbol hquote hdigit hword =>
    rw [List.cons_append, squeezed_outside hspace, Scan.after, if_neg hquote]
    simp [TokenKind.isQuoted]

/-! ## Runs of tokens -/

/-- The token is whole, has at most a space in front of it, and has no blank in it unless it is in
quotes. -/
structure Token.Sound (t : Token) : Prop where
  whole : ∃ c cs, t.text = c :: cs ∧ isSpace c = false ∧ WholeToken c cs t.kind
  gap : t.gap = [] ∨ t.gap = [' ']
  unblank : t.kind.isQuoted = false → ∀ c ∈ t.text, isBlank c = false

/-- The second token can be written behind the first: it does not go on with it, and does not open a
comment with it. -/
def Token.Adjoins (t u : Token) : Prop :=
  u.gap = [] → ∀ d ∈ u.text.head?, t.kind.stops d = true ∧ ∀ c, t.text = [c] → ¬opensComment c d

/-- The tokens can be written one after the other. -/
structure Spelled (ts : List Token) : Prop where
  sound : ∀ t ∈ ts, t.Sound
  adjoins : ts.IsChain Token.Adjoins

theorem Spelled.piece {us : List Token} (h : Spelled ts) (hpiece : us <:+: ts) : Spelled us :=
  ⟨fun t ht => h.sound t (hpiece.subset ht), h.adjoins.infix hpiece⟩

theorem Spelled.tail (h : Spelled (t :: ts)) : Spelled ts :=
  h.piece (List.suffix_cons t ts).isInfix

/-- The text that tokens make up, with the white space in front of each. -/
def Token.render (ts : List Token) : Text := ts.flatMap fun t => t.gap ++ t.text

theorem isBlank_of_isSpace (h : isSpace c = true) : isBlank c = true := by
  simp only [isSpace, Bool.or_eq_true, beq_iff_eq] at h
  rcases h with (((rfl | rfl) | rfl) | rfl) | rfl <;> decide

theorem isSpace_of_not_blank (h : isBlank c = false) : isSpace c = false := by
  cases hspace : isSpace c with
  | false => rfl
  | true => rw [isBlank_of_isSpace hspace] at h; cases h

@[simp] theorem Token.render_nil : Token.render [] = [] := rfl

@[simp] theorem Token.render_cons :
    Token.render (t :: ts) = t.gap ++ (t.text ++ Token.render ts) := by
  simp [Token.render]

@[simp] theorem Token.render_append (us : List Token) :
    Token.render (ts ++ us) = Token.render ts ++ Token.render us := by
  simp [Token.render]

theorem Token.verbatim_cons : Token.verbatim (t :: ts) = t.text ++ Token.render ts := rfl

@[simp] theorem readTokens_nil : readTokens [] = .ok [] := by
  rw [readTokens]
  rfl

theorem readTokens_cons {space text : Text} (hspace : ∀ d ∈ space, isSpace d = true)
    (hc : isSpace c = false) (h : readToken c cs = some (kind, text, rest)) :
    readTokens (space ++ c :: cs) = (readTokens rest).map (⟨space, kind, text⟩ :: ·) := by
  have hnext : ∀ d ∈ (c :: cs).head?, isSpace d = false := by
    intro d hd
    cases hd
    exact hc
  obtain ⟨htake, hdrop⟩ := takeWhile_append_stop hspace hnext
  rw [readTokens]
  split
  · next hnil => rw [hdrop] at hnil; cases hnil
  · next d ds hcons =>
    rw [hdrop] at hcons
    cases hcons
    split
    · next hnone => rw [h] at hnone; cases hnone
    · next hsome =>
      rw [h] at hsome
      cases hsome
      rw [htake]

/-- A token is read from the front of a text if it is over before the rest. -/
theorem Token.Sound.read_append (h : t.Sound) (hnext : ∀ d ∈ rest.head?, t.kind.stops d = true) :
    readTokens (t.gap ++ (t.text ++ rest)) = (readTokens rest).map (t :: ·) := by
  obtain ⟨c, cs, htext, hspace, hwhole⟩ := h.whole
  have hgap : ∀ d ∈ t.gap, isSpace d = true := by
    rcases h.gap with hgap | hgap <;> rw [hgap]
    · nofun
    · simp [isSpace]
  rw [htext, List.cons_append, readTokens_cons hgap hspace (hwhole.read_append hnext), ← htext]

/-- What follows a token begins with a space or with the next token. -/
theorem Spelled.head_render {ts : List Token} (h : Spelled (t :: ts)) :
    ∀ d ∈ (Token.render ts).head?, d = ' ' ∨
      (t.kind.stops d = true ∧ ∀ c, t.text = [c] → ¬opensComment c d) := by
  intro d hd
  cases ts with
  | nil => cases hd
  | cons u us =>
    rcases (h.sound u (by simp)).gap with hgap | hgap
    · obtain ⟨c, cs, htext, -⟩ := (h.sound u (by simp)).whole
      right
      apply (List.isChain_cons_cons.1 h.adjoins).1 hgap
      rw [Token.render_cons, hgap, htext] at hd
      rw [htext]
      exact hd
    · rw [Token.render_cons, hgap] at hd
      exact .inl (Option.some.inj hd).symm

/-- **Tokens that can be written one after the other are read back.** -/
theorem readTokens_render (h : Spelled ts) : readTokens (Token.render ts) = .ok ts := by
  induction ts with
  | nil => exact readTokens_nil
  | cons t ts ih =>
    have hstops : ∀ d ∈ (Token.render ts).head?, t.kind.stops d = true := by
      intro d hd
      rcases h.head_render d hd with rfl | ⟨hstop, -⟩
      · exact t.kind.stops_space
      · exact hstop
    rw [Token.render_cons, (h.sound t (by simp)).read_append hstops, ih h.tail]
    rfl

/-- What tokens make up is in normal form, if there is room for the space in front of the first. -/
theorem squeezed_render (h : Spelled ts) (hgap : gap = .tight ∨ ∀ t ∈ ts.head?, t.gap = []) :
    Squeezed (.outside gap) (Token.render ts) := by
  induction ts generalizing gap with
  | nil => exact trivial
  | cons t ts ih =>
    obtain ⟨c, cs, htext, hspace, hwhole⟩ := (h.sound t (by simp)).whole
    have hne : c ≠ ' ' := by
      rintro rfl
      cases hspace
    have htoken : ∀ gap, Squeezed (.outside gap) (t.text ++ Token.render ts) := by
      intro gap
      rw [htext]
      refine (hwhole.squeezed hne).2 ⟨?_, ?_, ih h.tail (.inl rfl)⟩
      · rw [← htext]
        exact (h.sound t (by simp)).unblank
      · rintro rfl d hd
        rcases h.head_render d hd with rfl | ⟨-, hcomment⟩
        · rintro (⟨-, h⟩ | ⟨-, h⟩) <;> exact absurd h (by decide)
        · exact hcomment c htext
    rw [Token.render_cons]
    rcases (h.sound t (by simp)).gap with hnone | hsome
    · rw [hnone]
      exact htoken gap
    · rw [hsome]
      rcases hgap with rfl | hfirst
      · exact squeezed_space.2 ⟨rfl, by simp [htext], htoken .spaced⟩
      · rw [hfirst t rfl] at hsome
        cases hsome

/-- The white space in front of a token of a normal form is one space, if any. -/
theorem Squeezed.split_space {x : Text} (h : Squeezed (.outside gap) x) :
    (x.takeWhile isSpace = [] ∨ x.takeWhile isSpace = [' '] ∧ gap = .tight) ∧
      ∃ gap, Squeezed (.outside gap) (x.dropWhile isSpace) ∧
        ∀ c ∈ (x.dropWhile isSpace).head?, c ≠ ' ' := by
  cases x with
  | nil => exact ⟨.inl rfl, gap, h, nofun⟩
  | cons c cs =>
    by_cases hc : c = ' '
    · subst hc
      obtain ⟨hgap, hne, hrest⟩ := squeezed_space.1 h
      cases cs with
      | nil => exact absurd rfl hne
      | cons d ds =>
        have hd : d ≠ ' ' := by
          rintro rfl
          cases (squeezed_space.1 hrest).1
        have hblank := isSpace_of_not_blank ((squeezed_outside hd).1 hrest).1
        have hspace : isSpace ' ' = true := by decide
        refine ⟨.inr ⟨by simp [hspace, hblank], hgap⟩, .spaced, ?_⟩
        rw [List.dropWhile_cons_of_pos hspace, List.dropWhile_cons_of_neg (by simp [hblank])]
        exact ⟨hrest, by intro e he; cases he; exact hd⟩
    · have hblank := isSpace_of_not_blank ((squeezed_outside hc).1 h).1
      refine ⟨.inl (by simp [hblank]), gap, ?_⟩
      rw [List.dropWhile_cons_of_neg (by simp [hblank])]
      exact ⟨h, by intro e he; cases he; exact hc⟩

/-- **The tokens of a normal form make it up**, and can be written one after the other. -/
theorem spelled_readTokens {x : Text} (h : Squeezed (.outside gap) x)
    (hread : readTokens x = .ok ts) :
    Spelled ts ∧ Token.render ts = x ∧ (gap = .tight ∨ ∀ t ∈ ts.head?, t.gap = []) := by
  fun_induction readTokens x generalizing ts gap with
  | case1 x hdrop =>
    cases hread
    have hx : x = [] := by
      cases x with
      | nil => rfl
      | cons c cs =>
        -- a normal form does not end in a space
        obtain ⟨hspace | ⟨hspace, -⟩, -⟩ := h.split_space
        · have hsplit := List.takeWhile_append_dropWhile (p := isSpace) (l := c :: cs)
          rw [hspace, hdrop] at hsplit
          cases hsplit
        · have hsplit := List.takeWhile_append_dropWhile (p := isSpace) (l := c :: cs)
          rw [hspace, hdrop] at hsplit
          rw [← hsplit] at h
          exact absurd rfl (squeezed_space.1 h).2.1
    exact ⟨⟨nofun, .nil⟩, hx.symm, .inr nofun⟩
  | case2 => cases hread
  | case3 x c rest hdrop kind text rest' htoken ih =>
    -- the space in front, the token, and the rest, which is in normal form again
    obtain ⟨us, hus, rfl⟩ := map_eq_ok.1 hread
    obtain ⟨hspace, gap', hsqueezed, hne⟩ := h.split_space
    rw [hdrop] at hsqueezed hne
    obtain ⟨body, rfl, hwhole, hstops⟩ := wholeToken_of_readToken htoken
    obtain ⟨rfl⟩ : rest = body ++ rest' := by simpa using readToken_eq htoken
    have hc : isSpace c = false := by
      have hnot := List.head?_dropWhile_not isSpace x
      rw [hdrop] at hnot
      exact hnot
    obtain ⟨hblank, hcomment, hlater⟩ := (hwhole.squeezed (hne c rfl)).1 hsqueezed
    obtain ⟨hspelled, hrender, -⟩ := ih hlater hus
    refine ⟨⟨?_, ?_⟩, ?_, ?_⟩
    · intro t ht
      rcases List.mem_cons.1 ht with rfl | ht
      · exact ⟨⟨c, body, rfl, hc, hwhole⟩, hspace.imp_right And.left, hblank⟩
      · exact hspelled.sound t ht
    · refine List.isChain_cons.2 ⟨?_, hspelled.adjoins⟩
      intro u hu hgap d hd
      -- the next token begins right after this one
      have hnext : d ∈ rest'.head? := by
        cases us with
        | nil => cases hu
        | cons v vs =>
          cases hu
          rw [← hrender, Token.render_cons, hgap]
          obtain ⟨e, es, htext, -⟩ := (hspelled.sound u (by simp)).whole
          rw [htext] at hd ⊢
          exact hd
      refine ⟨hstops d hnext, ?_⟩
      intro e he
      obtain ⟨rfl, rfl⟩ : c = e ∧ body = [] := by simpa using he
      exact hcomment rfl d hnext
    · rw [Token.render_cons, hrender]
      show x.takeWhile isSpace ++ (c :: body ++ rest') = x
      rw [List.cons_append, ← hdrop, List.takeWhile_append_dropWhile]
    · rcases hspace with hspace | ⟨-, hgap⟩
      · right
        intro t ht
        cases ht
        exact hspace
      · exact .inl hgap

end PgGateway.Sql
