import PgGateway.Sql.Group

/-!
# Balanced runs of tokens

A run of tokens is balanced when its parentheses match. What stands between the parentheses of a
group is balanced, and so is every part of it between commas; the other way round, a balanced run is
found again as the inside of the parentheses put around it, and runs with no comma of their own are
found again as the parts of the series that they make up with commas between them
(`Series.parts_tokens`). A search outside parentheses passes over a balanced run in which nothing
that is looked for stands outside parentheses (`afterKeywordFrom_append`).
-/

namespace PgGateway.Sql

variable {depth : Nat} {t : Token} {ts us rest : List Token}

/-- The tokens close the `depth` parentheses that are open before them and every one they open, and
close no other. -/
def Balanced : Nat → List Token → Prop
  | depth, [] => depth = 0
  | depth, t :: ts => ¬(t.isSymbol ')' ∧ depth = 0) ∧ Balanced (t.depthAfter depth) ts

instance decidableBalanced : (depth : Nat) → (ts : List Token) → Decidable (Balanced depth ts)
  | depth, [] => inferInstanceAs (Decidable (depth = 0))
  | depth, t :: ts =>
    let := decidableBalanced (t.depthAfter depth) ts
    inferInstanceAs (Decidable (¬(t.isSymbol ')' ∧ depth = 0) ∧ Balanced (t.depthAfter depth) ts))

/-- The tokens are balanced, and are one part: no comma stands outside their parentheses. -/
structure Enclosed (ts : List Token) : Prop where
  balanced : Balanced 0 ts
  single : parts ts = [ts]

instance (ts : List Token) : Decidable (Enclosed ts) :=
  decidable_of_iff (Balanced 0 ts ∧ parts ts = [ts]) ⟨fun h => ⟨h.1, h.2⟩, fun h => ⟨h.1, h.2⟩⟩

theorem depthAfter_add {k : Nat} (h : ¬(t.isSymbol ')' ∧ depth = 0)) :
    t.depthAfter (depth + k) = t.depthAfter depth + k := by
  unfold Token.depthAfter
  split
  · omega
  · split
    · next hclose =>
      have hdepth : depth ≠ 0 := fun hzero => h ⟨hclose, hzero⟩
      omega
    · rfl

/-- Parentheses that are open before a balanced run are open after it. -/
theorem Balanced.append {k : Nat} (hts : Balanced depth ts) (hus : Balanced k us) :
    Balanced (depth + k) (ts ++ us) := by
  induction ts generalizing depth with
  | nil =>
    obtain rfl : depth = 0 := hts
    rwa [Nat.zero_add]
  | cons t ts ih =>
    obtain ⟨hclose, hlater⟩ := hts
    refine ⟨?_, ?_⟩
    · rintro ⟨hsymbol, hzero⟩
      exact hclose ⟨hsymbol, by omega⟩
    · rw [depthAfter_add hclose]
      exact ih hlater

/-! ## Groups -/

theorem closeGroup_append (h : Balanced depth us) :
    closeGroup depth (us ++ rest) = (closeGroup 0 rest).map fun r => (us ++ r.1, r.2) := by
  induction us generalizing depth with
  | nil =>
    obtain rfl : depth = 0 := h
    simp
  | cons t us ih =>
    obtain ⟨hclose, hlater⟩ := h
    rw [List.cons_append, closeGroup, if_neg hclose, ih hlater, Option.map_map]
    rfl

theorem closeGroup_balanced {r : List Token × Token × List Token}
    (h : closeGroup depth ts = some r) : Balanced depth r.1 ∧ r.2.1.isSymbol ')' := by
  induction ts generalizing depth r with
  | nil => cases h
  | cons t ts ih =>
    rw [closeGroup] at h
    split at h
    · next hclose =>
      cases h
      exact ⟨hclose.2, hclose.1⟩
    · next hclose =>
      obtain ⟨s, hs, rfl⟩ := Option.map_eq_some_iff.1 h
      obtain ⟨hbalanced, hsymbol⟩ := ih hs
      exact ⟨⟨hclose, hbalanced⟩, hsymbol⟩

/-- A run that closes a parenthesis opened before it closes a group, and behind that it closes the
others. -/
theorem exists_closeGroup {k : Nat} (h : Balanced (depth + (k + 1)) ts) :
    ∃ r, closeGroup depth ts = some r ∧ Balanced k r.2.2 := by
  induction ts generalizing depth with
  | nil => cases h
  | cons t ts ih =>
    obtain ⟨-, hlater⟩ := h
    rw [closeGroup]
    split
    · next hclose =>
      obtain ⟨hsymbol, rfl⟩ := hclose
      have hopen : t.isSymbol '(' = false := by
        simp only [Token.isSymbol, Bool.and_eq_true, beq_iff_eq] at hsymbol
        simp [Token.isSymbol, hsymbol]
      rw [Token.depthAfter, if_neg (by simp [hopen]), if_pos hsymbol, Nat.zero_add] at hlater
      exact ⟨_, rfl, hlater⟩
    · next hclose =>
      rw [depthAfter_add hclose] at hlater
      obtain ⟨r, hr, hbalanced⟩ := ih hlater
      exact ⟨_, Option.map_eq_some_iff.2 ⟨r, hr, rfl⟩, hbalanced⟩

/-- A group is two parentheses around a balanced run. -/
structure Group.Sound (g : Group) : Prop where
  opening : g.opening.isSymbol '('
  balanced : Balanced 0 g.inside
  closing : g.closing.isSymbol ')'

theorem readGroup_sound {g : Group} (h : readGroup ts = some (g, rest)) : g.Sound := by
  cases ts with
  | nil => cases h
  | cons t ts =>
    rw [readGroup] at h
    split at h
    · next hopen =>
      obtain ⟨r, hr, he⟩ := Option.map_eq_some_iff.1 h
      cases he
      obtain ⟨hbalanced, hclose⟩ := closeGroup_balanced hr
      exact ⟨hopen, hbalanced, hclose⟩
    · cases h

/-- A balanced run that begins with a parenthesis is a group and another balanced run, which closes
the parentheses that were open before. -/
theorem Balanced.exists_group (h : Balanced depth (t :: ts)) (hopen : t.isSymbol '(' = true) :
    ∃ (g : Group) (rest : List Token),
      g.Sound ∧ t :: ts = g.tokens ++ rest ∧ Balanced depth rest := by
  obtain ⟨-, hlater⟩ := h
  rw [Token.depthAfter, if_pos hopen, ← Nat.zero_add (depth + 1)] at hlater
  obtain ⟨r, hr, hrest⟩ := exists_closeGroup hlater
  have hread : readGroup (t :: ts) = some (⟨t, r.1, r.2.1⟩, r.2.2) := by
    rw [readGroup, if_pos hopen, hr]
    rfl
  exact ⟨_, _, readGroup_sound hread, readGroup_eq hread, hrest⟩

/-- **A group is read back, whatever follows it.** -/
theorem Group.Sound.readGroup {g : Group} (h : g.Sound) (rest : List Token) :
    readGroup (g.tokens ++ rest) = some (g, rest) := by
  have hclose : closeGroup 0 (g.closing :: rest) = some ([], g.closing, rest) := by
    rw [closeGroup, if_pos ⟨h.closing, rfl⟩]
  show Sql.readGroup (g.opening :: (g.inside ++ [g.closing] ++ rest)) = _
  rw [Sql.readGroup, if_pos h.opening, List.append_assoc, List.singleton_append,
    closeGroup_append h.balanced, hclose]
  simp

/-! ## Parts -/

theorem splitCommas_ne_nil (depth : Nat) (ts : List Token) : splitCommas depth ts ≠ [] := by
  induction ts generalizing depth with
  | nil => nofun
  | cons t ts ih =>
    rw [splitCommas]
    split
    · nofun
    · have hne := ih (t.depthAfter depth)
      cases hsplit : splitCommas (t.depthAfter depth) ts with
      | nil => exact absurd hsplit hne
      | cons p ps => nofun

/-- The parts of a run are pieces of it, and if it is balanced they are enclosed. -/
theorem splitCommas_pieces {p : List Token} {ps : List (List Token)}
    (h : splitCommas depth ts = p :: ps) :
    (p <+: ts ∧ ∀ q ∈ ps, q <:+: ts) ∧ (Balanced depth ts →
      (Balanced depth p ∧ splitCommas depth p = [p]) ∧ ∀ q ∈ ps, Enclosed q) := by
  induction ts generalizing depth p ps with
  | nil =>
    cases h
    exact ⟨⟨List.prefix_refl _, nofun⟩, fun hbalanced => ⟨⟨hbalanced, rfl⟩, nofun⟩⟩
  | cons t ts ih =>
    rw [splitCommas] at h
    split at h
    · next hcomma =>
      -- a comma outside parentheses: an empty part before it, the others behind it
      obtain ⟨hcomma, rfl⟩ := hcomma
      cases h
      obtain ⟨q, qs, hsplit⟩ := List.exists_cons_of_ne_nil (splitCommas_ne_nil 0 ts)
      obtain ⟨⟨hfront, hpiece⟩, henclosed⟩ := ih hsplit
      rw [hsplit]
      refine ⟨⟨List.nil_prefix, ?_⟩, ?_⟩
      · intro r hr
        rcases List.mem_cons.1 hr with rfl | hr
        · exact hfront.isInfix.trans (List.suffix_cons t ts).isInfix
        · exact (hpiece r hr).trans (List.suffix_cons t ts).isInfix
      · intro hbalanced
        have hdepth : t.depthAfter 0 = 0 := by
          have hnot : t.isSymbol '(' = false ∧ t.isSymbol ')' = false := by
            simp only [Token.isSymbol, Bool.and_eq_true, beq_iff_eq] at hcomma
            simp [Token.isSymbol, hcomma]
          simp [Token.depthAfter, hnot]
        rw [Balanced, hdepth] at hbalanced
        obtain ⟨hfirst, hlater⟩ := henclosed hbalanced.2
        refine ⟨⟨rfl, rfl⟩, ?_⟩
        intro r hr
        rcases List.mem_cons.1 hr with rfl | hr
        · exact ⟨hfirst.1, hfirst.2⟩
        · exact hlater r hr
    · next hcomma =>
      -- any other token belongs to the first part
      obtain ⟨q, qs, hsplit⟩ :=
        List.exists_cons_of_ne_nil (splitCommas_ne_nil (t.depthAfter depth) ts)
      rw [hsplit] at h
      cases h
      obtain ⟨⟨hfront, hpiece⟩, henclosed⟩ := ih hsplit
      refine ⟨⟨List.cons_prefix_cons.2 ⟨rfl, hfront⟩, ?_⟩, ?_⟩
      · intro r hr
        exact (hpiece r hr).trans (List.suffix_cons t ts).isInfix
      · intro hbalanced
        obtain ⟨hfirst, hlater⟩ := henclosed hbalanced.2
        refine ⟨⟨⟨hbalanced.1, hfirst.1⟩, ?_⟩, hlater⟩
        rw [splitCommas, if_neg hcomma, hfirst.2]
        rfl

theorem infix_of_mem_parts {p : List Token} (h : p ∈ parts ts) : p <:+: ts := by
  obtain ⟨q, qs, hsplit⟩ := List.exists_cons_of_ne_nil (splitCommas_ne_nil 0 ts)
  obtain ⟨⟨hfront, hpiece⟩, -⟩ := splitCommas_pieces hsplit
  rw [parts, hsplit] at h
  rcases List.mem_cons.1 h with rfl | h
  · exact hfront.isInfix
  · exact hpiece p h

theorem Balanced.parts_enclosed {p : List Token} (hts : Balanced 0 ts) (h : p ∈ parts ts) :
    Enclosed p := by
  obtain ⟨q, qs, hsplit⟩ := List.exists_cons_of_ne_nil (splitCommas_ne_nil 0 ts)
  obtain ⟨hfirst, hlater⟩ := (splitCommas_pieces hsplit).2 hts
  rw [parts, hsplit] at h
  rcases List.mem_cons.1 h with rfl | h
  · exact ⟨hfirst.1, hfirst.2⟩
  · exact hlater p h

/-- What is behind the first token of a run with no comma of its own has no comma of its own. -/
theorem splitCommas_tail (h : splitCommas depth (t :: us) = [t :: us]) :
    ¬(t.isSymbol ',' = true ∧ depth = 0) ∧ splitCommas (t.depthAfter depth) us = [us] := by
  rw [splitCommas] at h
  split at h
  · cases h
  · next hcomma =>
    obtain ⟨q, qs, hsplit⟩ :=
      List.exists_cons_of_ne_nil (splitCommas_ne_nil (t.depthAfter depth) us)
    rw [hsplit] at h ⊢
    cases h
    exact ⟨hcomma, rfl⟩

/-- A run with no comma of its own goes to the front of the first part. -/
theorem splitCommas_append (h : Balanced depth us) (hsingle : splitCommas depth us = [us]) :
    splitCommas depth (us ++ rest) = (splitCommas 0 rest).modifyHead (us ++ ·) := by
  induction us generalizing depth with
  | nil =>
    obtain rfl : depth = 0 := h
    rw [List.nil_append]
    cases splitCommas 0 rest <;> rfl
  | cons t us ih =>
    obtain ⟨hcomma, hlater⟩ := splitCommas_tail hsingle
    rw [List.cons_append, splitCommas, if_neg hcomma, ih h.2 hlater]
    cases splitCommas 0 rest <;> rfl

/-- Commas in parentheses do not count. -/
theorem splitCommas_deep {k : Nat} (h : Balanced depth us) :
    splitCommas (depth + (k + 1)) (us ++ rest) =
      (splitCommas (k + 1) rest).modifyHead (us ++ ·) := by
  induction us generalizing depth with
  | nil =>
    obtain rfl : depth = 0 := h
    rw [Nat.zero_add, List.nil_append]
    cases splitCommas (k + 1) rest <;> rfl
  | cons t us ih =>
    obtain ⟨hclose, hlater⟩ := h
    rw [List.cons_append, splitCommas, if_neg (by rintro ⟨-, hzero⟩; omega), depthAfter_add hclose,
      ih hlater]
    cases splitCommas (k + 1) rest <;> rfl

theorem Enclosed.nil : Enclosed [] := ⟨rfl, rfl⟩

theorem Enclosed.append (hts : Enclosed ts) (hus : Enclosed us) : Enclosed (ts ++ us) := by
  refine ⟨hts.balanced.append hus.balanced, ?_⟩
  have hsingle : splitCommas 0 us = [us] := hus.single
  rw [parts, splitCommas_append hts.balanced hts.single, hsingle]
  rfl

theorem Enclosed.flatMap {α : Type} {l : List α} {f : α → List Token}
    (h : ∀ a ∈ l, Enclosed (f a)) : Enclosed (l.flatMap f) := by
  induction l with
  | nil => exact .nil
  | cons a l ih =>
    rw [List.flatMap_cons]
    exact (h a (by simp)).append (ih fun b hb => h b (List.mem_cons_of_mem _ hb))

/-- A token that is no parenthesis and no comma is enclosed. -/
theorem Enclosed.token (hopen : t.isSymbol '(' = false) (hclose : t.isSymbol ')' = false)
    (hcomma : t.isSymbol ',' = false) : Enclosed [t] := by
  constructor
  · simp [Balanced, Token.depthAfter, hopen, hclose]
  · simp [parts, splitCommas, hcomma]

theorem isSymbol_ne {c d : Char} (h : t.isSymbol c = true) (hne : c ≠ d) :
    t.isSymbol d = false := by
  simp only [Token.isSymbol, Bool.and_eq_true, beq_iff_eq] at h
  simp [Token.isSymbol, h, hne]

/-- A group is enclosed, whatever commas are in it. -/
theorem Group.Sound.enclosed {g : Group} (h : g.Sound) : Enclosed g.tokens := by
  have hopen : g.opening.depthAfter 0 = 1 := by simp [Token.depthAfter, h.opening]
  have hclose : g.closing.depthAfter 1 = 0 := by
    simp [Token.depthAfter, h.closing, isSymbol_ne h.closing (d := '(') (by decide)]
  have hlast : Balanced 1 [g.closing] := by
    simp [Balanced, hclose]
  constructor
  · refine ⟨?_, ?_⟩
    · rintro ⟨hsymbol, -⟩
      exact absurd hsymbol (by simp [isSymbol_ne h.opening (d := ')') (by decide)])
    · rw [hopen]
      exact h.balanced.append hlast
  · have hcomma : ¬(g.opening.isSymbol ',' ∧ 0 = 0) := by
      simp [isSymbol_ne h.opening (d := ',') (by decide)]
    have hdeep : splitCommas 1 [g.closing] = [[g.closing]] := by
      simp [splitCommas]
    show splitCommas 0 (g.opening :: (g.inside ++ [g.closing])) = _
    rw [splitCommas, if_neg hcomma, hopen, splitCommas_deep (k := 0) h.balanced, hdeep]
    rfl

/-- The runs one after the other, with a token between neighbours. -/
def separate (comma : Token) : List (List Token) → List Token
  | [] => []
  | [ts] => ts
  | ts :: us :: tss => ts ++ comma :: separate comma (us :: tss)

/-! ## Series -/

/-- A comma. -/
abbrev Comma : Type := { t : Token // t.isSymbol ',' = true }

/-- One entry or more, with a comma in front of each but the first. -/
structure Series (α : Type) where
  first : α
  later : List (Comma × α)

namespace Series

variable {α : Type} {f : α → List Token}

/-- The entries of a series. -/
def entries (s : Series α) : List α := s.first :: s.later.map Prod.snd

/-- The tokens of a series whose entries are written like this. -/
def tokens (s : Series α) (f : α → List Token) : List Token :=
  f s.first ++ s.later.flatMap fun entry => entry.1.1 :: f entry.2

theorem tokens_cons (a b : α) (comma : Comma) (later : List (Comma × α)) :
    tokens ⟨a, (comma, b) :: later⟩ f = f a ++ comma.1 :: tokens ⟨b, later⟩ f := by
  simp [tokens]

/-- A comma in front of a balanced run leaves it balanced. -/
theorem balanced_comma (comma : Comma) (h : Balanced 0 ts) : Balanced 0 (comma.1 :: ts) := by
  have hdepth : comma.1.depthAfter 0 = 0 := by
    simp [Token.depthAfter, isSymbol_ne comma.2 (d := '(') (by decide)]
  refine ⟨?_, ?_⟩
  · rintro ⟨hclose, -⟩
    exact absurd hclose (by simp [isSymbol_ne comma.2 (d := ')') (by decide)])
  · rw [hdepth]
    exact h

/-- **The entries of a series are its parts**, if they have no comma of their own. -/
theorem parts_tokens (s : Series α) (h : ∀ a ∈ s.entries, Enclosed (f a)) :
    parts (s.tokens f) = s.entries.map f ∧ Balanced 0 (s.tokens f) := by
  obtain ⟨a, later⟩ := s
  induction later generalizing a with
  | nil =>
    have hfirst : Enclosed (f a) := h a List.mem_cons_self
    simp only [tokens, List.flatMap_nil, List.append_nil]
    exact ⟨hfirst.single, hfirst.balanced⟩
  | cons entry later ih =>
    obtain ⟨comma, b⟩ := entry
    have hfirst : Enclosed (f a) := h a List.mem_cons_self
    obtain ⟨hparts, hbalanced⟩ := ih b fun d hd => h d (List.mem_cons_of_mem a hd)
    rw [tokens_cons]
    refine ⟨?_, hfirst.balanced.append (balanced_comma comma hbalanced)⟩
    rw [parts, splitCommas_append hfirst.balanced hfirst.single, splitCommas,
      if_pos ⟨comma.2, rfl⟩]
    rw [parts] at hparts
    rw [hparts]
    simp [entries]

end Series

theorem separate_cons {comma : Comma} (ts : List Token) (tss : List (List Token)) :
    separate comma.1 (ts :: tss) = Series.tokens ⟨ts, tss.map (comma, ·)⟩ id := by
  induction tss generalizing ts with
  | nil => simp [separate, Series.tokens]
  | cons us tss ih => rw [separate, ih, List.map_cons, Series.tokens_cons, id]

/-- **Enclosed runs are the parts of what they make up with commas between them.** -/
theorem parts_separate {comma : Token} {tss : List (List Token)} (hcomma : comma.isSymbol ',')
    (hne : tss ≠ []) (h : ∀ ts ∈ tss, Enclosed ts) :
    parts (separate comma tss) = tss ∧ Balanced 0 (separate comma tss) := by
  obtain ⟨ts, tss, rfl⟩ := List.exists_cons_of_ne_nil hne
  have hentries : Series.entries ⟨ts, tss.map ((⟨comma, hcomma⟩ : Comma), ·)⟩ = ts :: tss := by
    simp [Series.entries, Function.comp_def]
  have hparts := Series.parts_tokens (f := id) ⟨ts, tss.map ((⟨comma, hcomma⟩ : Comma), ·)⟩
    (by rwa [hentries])
  rwa [hentries, List.map_id, ← separate_cons] at hparts

/-! ## Outside parentheses -/

/-- None of the tokens that stand outside parentheses has the property, with `depth` open at the
start. -/
def NoneOutside (p : Token → Bool) : Nat → List Token → Prop
  | _, [] => True
  | depth, t :: ts => (depth = 0 → p t = false) ∧ NoneOutside p (t.depthAfter depth) ts

instance decidableNoneOutside (p : Token → Bool) :
    (depth : Nat) → (ts : List Token) → Decidable (NoneOutside p depth ts)
  | _, [] => inferInstanceAs (Decidable True)
  | depth, t :: ts =>
    let := decidableNoneOutside p (t.depthAfter depth) ts
    inferInstanceAs (Decidable ((depth = 0 → p t = false) ∧ NoneOutside p (t.depthAfter depth) ts))

/-- A run is one part if no comma stands outside its parentheses. -/
theorem splitCommas_of_noneOutside (h : NoneOutside (·.isSymbol ',') depth ts) :
    splitCommas depth ts = [ts] := by
  induction ts generalizing depth with
  | nil => rfl
  | cons t ts ih =>
    have hcomma : ¬(t.isSymbol ',' = true ∧ depth = 0) := by
      rintro ⟨hsymbol, hzero⟩
      exact Bool.false_ne_true ((h.1 hzero).symm.trans hsymbol)
    rw [splitCommas, if_neg hcomma, ih h.2]
    rfl

/-- A keyword is looked for behind a balanced run that does not have it outside its parentheses. -/
theorem afterKeywordFrom_append {keyword : Text} (hbalanced : Balanced depth us)
    (hnone : NoneOutside (·.isKeyword keyword) depth us) :
    afterKeywordFrom keyword depth (us ++ rest) = afterKeywordFrom keyword 0 rest := by
  induction us generalizing depth with
  | nil =>
    obtain rfl : depth = 0 := hbalanced
    rfl
  | cons t us ih =>
    have hkeyword : ¬(t.isKeyword keyword = true ∧ depth = 0) := by
      rintro ⟨hword, hzero⟩
      exact Bool.false_ne_true ((hnone.1 hzero).symm.trans hword)
    rw [List.cons_append, afterKeywordFrom, if_neg hkeyword, ih hbalanced.2 hnone.2]

end PgGateway.Sql
