import PgGateway.Proofs.InPlace.Recogniser
import PgGateway.Proofs.Sql.Matching

/-!
# Reading tokens in place

Reading tokens in place does not abort, and gives the tokens that the library reads, each with the
bytes it stands on (`InPlace.tokenize_completes`). The offsets at which texts are cut are the byte
lengths of texts in front of them, so no character is cut apart (`Text.cut?_append`); bytes are
looked up where the text goes on; and each round of a loop stands for characters that are read.
-/

namespace PgGateway

/-! ## Cutting texts -/

namespace Text

@[simp]
theorem cut?_zero (t : Text) : cut? 0 t = some ([], t) := by
  cases t <;> rfl

/-- **Texts are cut between characters.** -/
theorem cut?_append (front back : Text) :
    cut? (byteLength front) (front ++ back) = some (front, back) := by
  induction front with
  | nil => exact cut?_zero back
  | cons c front ih =>
    have hpos := c.utf8Size_pos
    obtain ⟨n, hn⟩ : ∃ n, byteLength (c :: front) = n + 1 :=
      ⟨byteLength (c :: front) - 1, by rw [byteLength]; omega⟩
    have hrest : n + 1 - c.utf8Size = byteLength front := by rw [← hn, byteLength]; omega
    rw [hn, List.cons_append, cut?, if_pos (by rw [← hn, byteLength]; omega), hrest, ih]
    rfl

theorem slice?_append (front middle back : Text) :
    slice? (byteLength front) (byteLength front + byteLength middle) (front ++ (middle ++ back)) =
      some middle := by
  rw [slice?, cut?_append, Option.bind_some, if_pos (Nat.le_add_right _ _), Nat.add_sub_cancel_left,
    cut?_append]
  rfl

theorem truncate?_append (front back : Text) :
    truncate? (byteLength front) (front ++ back) = some front := by
  have hle : ¬byteLength (front ++ back) < byteLength front := by
    rw [byteLength_append]
    omega
  rw [truncate?, if_neg hle, cut?_append]
  rfl

end Text

namespace Sql

namespace InPlace

variable {ε α α' β β' σ : Type} {a : α} {b : β} {e : ε} {i stop : Nat} {l : List α}

/-! ## Work that completes -/

/-- The work did not abort, and it ends as the outcome does: with a value related to its value, or
with the same failure. -/
def Completes (A : α → β → Prop) (c : InPlace ε α) (x : Except ε β) : Prop :=
  ∃ x', c = ExceptT.mk (some x') ∧ Agree Eq A x' x

namespace Completes

variable {A : α → β → Prop} {B : α' → β' → Prop} {c : InPlace ε α} {x : Except ε β}

theorem pure (h : A a b) : Completes A (Pure.pure a : InPlace ε α) (.ok b) := ⟨.ok a, rfl, .ok h⟩

theorem throw (e : ε) : Completes A (throw e) (.error e) := ⟨.error e, rfl, .error rfl⟩

theorem bind {f : α → InPlace ε α'} {g : β → Except ε β'} (h : Completes A c x)
    (hf : ∀ {a b}, A a b → Completes B (f a) (g b)) : Completes B (c >>= f) (x >>= g) := by
  obtain ⟨x', rfl, hagree⟩ := h
  cases hagree with
  | ok h => exact hf h
  | error h =>
    cases h
    exact .throw _

/-- More is done in place than in the outcome. -/
theorem bindLeft {B : α' → β → Prop} {f : α → InPlace ε α'} (h : Completes A c x)
    (hf : ∀ {a b}, A a b → Completes B (f a) (.ok b)) : Completes B (c >>= f) x := by
  have hbind := h.bind (g := Except.ok) hf
  cases x <;> exact hbind

theorem map {f : α → α'} {g : β → β'} (h : Completes A c x) (hf : ∀ {a b}, A a b → B (f a) (g b)) :
    Completes B (do return f (← c)) (x.map g) := by
  cases x with
  | ok b => exact h.bind (g := fun b => .ok (g b)) fun hab => .pure (hf hab)
  | error e => exact h.bind (g := fun b => .ok (g b)) fun hab => .pure (hf hab)

theorem imp {B : α → β → Prop} (h : Completes A c x) (hA : ∀ {a b}, A a b → B a b) :
    Completes B c x := by
  obtain ⟨x', hc, hagree⟩ := h
  exact ⟨x', hc, hagree.imp id hA⟩

theorem imp_map {B : α → β' → Prop} {g : β → β'} (h : Completes A c x)
    (hg : ∀ {a b}, A a b → B a (g b)) : Completes B c (x.map g) := by
  obtain ⟨x', hc, hagree⟩ := h
  cases hagree with
  | ok h => exact ⟨_, hc, .ok (hg h)⟩
  | error h => exact ⟨_, hc, .error h⟩

/-- The value is that of the outcome. -/
theorem results (h : Completes A c x) : Completes (fun a b => A a b ∧ x = .ok b) c x := by
  obtain ⟨x', hc, hagree⟩ := h
  exact ⟨x', hc, hagree.results.imp id fun h => ⟨h.1, h.2.2⟩⟩

theorem mapM {f : α → InPlace ε α'} {g : β → Except ε β'} {as : List α} {bs : List β}
    (h : List.Forall₂ A as bs) (hf : ∀ {a b}, A a b → Completes B (f a) (g b)) :
    Completes (List.Forall₂ B) (as.mapM f) (bs.mapM g) := by
  induction h with
  | nil => exact .pure .nil
  | cons hhead _ ih =>
    rw [List.mapM_cons, List.mapM_cons]
    exact (hf hhead).bind fun hb => ih.bind fun hbs => .pure (.cons hb hbs)

theorem of_ok (h : Completes A c (.ok b)) : ∃ a, c = Pure.pure a ∧ A a b := by
  obtain ⟨x', rfl, hagree⟩ := h
  cases hagree with
  | ok h => exact ⟨_, rfl, h⟩

theorem of_error (h : Completes A c (.error e)) : c = MonadExcept.throw e := by
  obtain ⟨x', rfl, hagree⟩ := h
  cases hagree with
  | error h =>
    cases h
    rfl

theorem run_eq {x : Except ε α} (h : Completes Eq c x) : c.run = some x := by
  obtain ⟨x', rfl, hagree⟩ := h
  cases hagree with
  | ok h =>
    cases h
    rfl
  | error h =>
    cases h
    rfl

end Completes

/-! ## Operations that are defined -/

theorem orAbort_eq {o : Option α} (h : o = some a) : (orAbort o : InPlace ε α) = pure a := by
  rw [h]
  rfl

theorem index_eq (h : l[i]? = some a) : (index l i : InPlace ε α) = pure a := orAbort_eq h

theorem slice_append (front middle back : List α) :
    (slice (front ++ (middle ++ back)) front.length (front.length + middle.length) :
      InPlace ε (List α)) = pure middle := by
  have hrange : front.length ≤ front.length + middle.length ∧
      front.length + middle.length ≤ (front ++ (middle ++ back)).length := by
    simp only [List.length_append]
    omega
  have htake : ((front ++ (middle ++ back)).take (front.length + middle.length)).drop front.length =
      middle := by
    rw [List.take_length_add_append, List.drop_left, List.take_left]
  exact orAbort_eq (by rw [if_pos hrange, htake])

theorem minus_eq {m n : Nat} (h : n ≤ m) : (minus m n : InPlace ε Nat) = pure (m - n) :=
  orAbort_eq (if_pos h)

/-! ## Indices and rests -/

section

variable {rest : List α}

theorem index_drop (h : l.drop i = a :: rest) : (index l i : InPlace ε α) = pure a :=
  index_eq (by rw [← List.head?_drop, h]; rfl)

theorem lt_of_drop (h : l.drop i = a :: rest) : i < l.length := by
  rw [← Nat.not_le, ← List.drop_eq_nil_iff, h]
  nofun

theorem drop_add (front : List α) (h : l.drop i = front ++ rest) :
    l.drop (i + front.length) = rest := by
  rw [← List.drop_drop, h, List.drop_left]

theorem drop_succ (h : l.drop i = a :: rest) : l.drop (i + 1) = rest := drop_add [a] h

variable {behind : Nat → σ → InPlace ε β} {step : Nat → σ → (Nat → σ → InPlace ε β) → InPlace ε β}
  {s : σ}

/-- What is done from a greater index on. -/
def onward (i : Nat) (loop : Nat → σ → InPlace ε β) (j : Nat) (s : σ) : InPlace ε β :=
  if i < j then loop j s else abort

theorem onward_eq {loop : Nat → σ → InPlace ε β} {j : Nat} (h : i < j) :
    onward i loop j s = loop j s := if_pos h

theorem whileBelow_below (h : i < stop) : whileBelow stop behind step i s =
    step i s (onward i (whileBelow stop behind step)) := by
  rw [whileBelow, if_pos h]
  rfl

theorem whileBelow_behind (h : stop ≤ i) : whileBelow stop behind step i s = behind i s := by
  rw [whileBelow, if_neg (Nat.not_lt.2 h)]

end

/-! ## The normal form -/

/-- **The normal form is cut off between characters.** -/
theorem normal_eq (sql : Text) : (normal sql : InPlace ε Text) = pure (normalize sql) := by
  rw [normal, normalize, dropSemicolon]
  generalize squeeze (.outside .start) sql = out
  split
  · next hsemicolon =>
    obtain ⟨front, rfl⟩ := List.getLast?_eq_some_iff.1 hsemicolon
    obtain ⟨blanks, hblanks⟩ := trimEnd_append front
    rw [List.dropLast_concat]
    nth_rewrite 2 [← hblanks]
    rw [List.append_assoc]
    exact orAbort_eq (Text.truncate?_append _ _)
  · rfl

/-! ## Bytes -/

section

variable {bytes bs : Bytes} {b q : UInt8}

theorem runEnd_eq (p : UInt8 → Bool) (h : bytes.drop i = bs) :
    (runEnd bytes p i : InPlace ε Nat) = pure (i + (bs.takeWhile p).length) := by
  induction bs generalizing i with
  | nil => exact whileBelow_behind (List.drop_eq_nil_iff.1 h)
  | cons b bs ih =>
    rw [runEnd, whileBelow_below (lt_of_drop h), index_drop h, pure_bind]
    by_cases hb : p b = true
    · rw [if_pos hb, onward_eq (Nat.lt_add_one i), ← runEnd, ih (drop_succ h),
        List.takeWhile_cons_of_pos hb, List.length_cons]
      congr 1
      omega
    · rw [if_neg hb, List.takeWhile_cons_of_neg hb]
      rfl

theorem closingQuote_nil (h : bytes.drop i = []) :
    (closingQuote bytes q i : InPlace ε (Option Nat)) = pure none :=
  whileBelow_behind (List.drop_eq_nil_iff.1 h)

theorem closingQuote_cons (h : bytes.drop i = b :: bs) :
    (closingQuote bytes q i : InPlace ε (Option Nat)) =
      if b = q then
        if bs.head? = some q then closingQuote bytes q (i + 2) else pure (some (i + 1))
      else closingQuote bytes q (i + 1) := by
  have hnext : bytes[i + 1]? = bs.head? := by rw [← List.head?_drop, drop_succ h]
  rw [closingQuote, whileBelow_below (lt_of_drop h), index_drop h, pure_bind, hnext,
    onward_eq (by omega), onward_eq (by omega)]
  rfl

theorem closingQuote_eq (h : bytes.drop i = bs) :
    (closingQuote bytes q i : InPlace ε (Option Nat)) =
      pure ((Bytewise.closeQuote q bs).map (i + ·)) := by
  fun_induction Bytewise.closeQuote q bs generalizing i with
  | case1 => exact closingQuote_nil h
  | case2 =>
    rw [closingQuote_cons h, if_pos rfl]
    rfl
  | case3 b hb =>
    rw [closingQuote_cons h, if_neg hb, closingQuote_nil (drop_succ h)]
    rfl
  | case4 bs ih =>
    rw [closingQuote_cons h, if_pos rfl, List.head?_cons, if_pos rfl, ih (drop_succ (drop_succ h)),
      Option.map_map]
    congr 2
    funext n
    exact Nat.add_right_comm i 2 n
  | case5 d bs hd =>
    rw [closingQuote_cons h, if_pos rfl, List.head?_cons,
      if_neg fun hhead => hd (Option.some.inj hhead)]
    rfl
  | case6 b d bs hb ih =>
    rw [closingQuote_cons h, if_neg hb, ih (drop_succ h), Option.map_map]
    congr 2
    funext n
    exact Nat.add_right_comm i 1 n

end

/-! ## Tokens -/

section

variable {sql front cs : Text} {c : Char} {b : UInt8} {more : Bytes}

theorem drop_encode (hsql : sql = front ++ cs) :
    (Utf8.encode sql).drop (Text.byteLength front) = Utf8.encode cs := by
  rw [hsql, Utf8.encode_append, ← Utf8.length_encode, List.drop_left]

/-- **One token.** Its kind and its end are those of the token that is read from the bytes. -/
theorem tokenEnd_eq (hsql : sql = front ++ c :: cs) (hc : String.utf8EncodeChar c = b :: more) :
    tokenEnd sql (Text.byteLength front) b =
      match Bytewise.readToken b (more ++ Utf8.encode cs) with
      | none => throw (.unclosedQuote (Text.byteLength front))
      | some r => pure (r.1, Text.byteLength front + (r.2 + 1)) := by
  have hdrop : (Utf8.encode sql).drop (Text.byteLength front + 1) = more ++ Utf8.encode cs := by
    refine drop_succ (a := b) ?_
    rw [drop_encode hsql, Bytewise.encode_cons, hc]
    rfl
  have hend : ∀ n, Text.byteLength front + 1 + n = Text.byteLength front + (n + 1) := fun n => by
    omega
  unfold tokenEnd Bytewise.readToken
  split
  · rw [closingQuote_eq hdrop, pure_bind]
    cases Bytewise.closeQuote b (more ++ Utf8.encode cs) with
    | none => rfl
    | some n =>
      rw [Option.map_some, hend]
      rfl
  split
  · rw [runEnd_eq _ hdrop, pure_bind, hend]
  split
  · rw [runEnd_eq _ hdrop, pure_bind, hend]
  · next hword =>
    -- a byte that begins no word is a character by itself
    have hsize : c.utf8Size = 1 := by
      have hmem : b ∈ String.utf8EncodeChar c := hc ▸ List.mem_cons_self
      rw [Bytewise.reads_beginsWord c b hmem] at hword
      rw [← String.length_utf8EncodeChar, hc, Bytewise.front_eq_nil_of_not_word hword hc]
      rfl
    rw [hsql, orAbort_eq (Text.cut?_append front (c :: cs)), pure_bind]
    show pure (TokenKind.symbol, Text.byteLength front + c.utf8Size) = _
    rw [hsize]

theorem utf8Size_of_isSpace (h : Sql.isSpace c = true) : c.utf8Size = 1 := by
  simp only [Sql.isSpace, Bool.or_eq_true, beq_iff_eq] at h
  rcases h with (((rfl | rfl) | rfl) | rfl) | rfl <;> rfl

/-- White space is passed over byte by byte. -/
theorem tokensFrom_space {space : Text} (hsql : sql = front ++ (space ++ cs))
    (hspace : ∀ d ∈ space, Sql.isSpace d = true) :
    tokensFrom sql (Text.byteLength front) = tokensFrom sql (Text.byteLength (front ++ space)) := by
  induction space generalizing front with
  | nil => rw [List.append_nil]
  | cons c space ih =>
    rw [List.forall_mem_cons] at hspace
    obtain ⟨b, more, hc⟩ := List.exists_cons_of_ne_nil (Bytewise.encodeChar_ne_nil c)
    have hdrop : (Utf8.encode sql).drop (Text.byteLength front) =
        b :: (more ++ Utf8.encode (space ++ cs)) := by
      rw [drop_encode hsql, List.cons_append, Bytewise.encode_cons, hc]
      rfl
    have hb : Bytewise.isSpace b = true :=
      (Bytewise.reads_isSpace c b (hc ▸ List.mem_cons_self)).trans hspace.1
    have hnext : Text.byteLength front + 1 = Text.byteLength (front ++ [c]) := by
      rw [Text.byteLength_append, Text.byteLength, utf8Size_of_isSpace hspace.1]
      rfl
    rw [tokensFrom, whileBelow_below (lt_of_drop hdrop), index_drop hdrop, pure_bind, if_pos hb,
      onward_eq (Nat.lt_add_one _), ← tokensFrom, hnext, ih (by simp [hsql]) hspace.2,
      List.append_assoc]
    rfl

theorem tokensFrom_nil (hsql : sql = front) : tokensFrom sql (Text.byteLength front) = pure [] := by
  rw [tokensFrom, whileBelow_behind (by rw [hsql, Utf8.length_encode])]

/-- The next round, where no white space is. -/
theorem tokensFrom_cons (hsql : sql = front ++ c :: cs) (hspace : Sql.isSpace c = false) :
    tokensFrom sql (Text.byteLength front) =
      match Sql.readToken c cs with
      | none => throw (.unclosedQuote (Text.byteLength front))
      | some r => do
        let later ← tokensFrom sql (Text.byteLength (front ++ r.2.1))
        return ⟨r.1, r.2.1, Text.byteLength front, Text.byteLength (front ++ r.2.1)⟩ :: later := by
  obtain ⟨b, more, hc⟩ := List.exists_cons_of_ne_nil (Bytewise.encodeChar_ne_nil c)
  have hdrop : (Utf8.encode sql).drop (Text.byteLength front) = b :: (more ++ Utf8.encode cs) := by
    rw [drop_encode hsql, Bytewise.encode_cons, hc]
    rfl
  have hb : ¬Bytewise.isSpace b = true := by
    rw [Bytewise.reads_isSpace c b (hc ▸ List.mem_cons_self), hspace]
    nofun
  rw [tokensFrom, whileBelow_below (lt_of_drop hdrop), index_drop hdrop, pure_bind, if_neg hb,
    tokenEnd_eq hsql hc, Bytewise.readToken_encode hc]
  cases hread : Sql.readToken c cs with
  | none => rfl
  | some r =>
    obtain ⟨kind, text, rest⟩ := r
    have hwhole : c :: cs = text ++ rest := readToken_eq hread
    have hpos := Text.byteLength_pos (List.length_pos_iff.1 (readToken_text_length_pos hread))
    have hstop : Text.byteLength front + (Text.byteLength text - 1 + 1) =
        Text.byteLength (front ++ text) := by
      rw [Text.byteLength_append, Nat.sub_add_cancel hpos]
    have hslice : Text.slice? (Text.byteLength front) (Text.byteLength (front ++ text)) sql =
        some text := by
      rw [hsql, hwhole, Text.byteLength_append, Text.slice?_append]
    have hlater : Text.byteLength front < Text.byteLength (front ++ text) := by
      rw [Text.byteLength_append]
      exact Nat.lt_add_of_pos_right hpos
    rw [Option.map_some]
    dsimp only
    rw [pure_bind, hstop, orAbort_eq hslice, pure_bind, onward_eq hlater]
    rfl

/-- The tokens in place, from the byte `pos` on. -/
def place : Nat → List Token → List Placed
  | _, [] => []
  | pos, t :: ts =>
    let start := pos + Text.byteLength t.gap
    let stop := start + Text.byteLength t.text
    ⟨t.kind, t.text, start, stop⟩ :: place stop ts

/-- **Reading tokens in place completes.** It gives the tokens of the text, or finds the quote that
is not closed. -/
theorem tokensFrom_completes (x : Text) : ∀ front, sql = front ++ x →
    Completes (fun ps ts => ps = place (Text.byteLength front) ts)
      (tokensFrom sql (Text.byteLength front))
      ((readTokens x).mapError fun rest =>
        .unclosedQuote (Text.byteLength sql - Text.byteLength rest)) := by
  induction x using readTokens_induction with
  | blank space hspace =>
    intro front hsql
    have hsql' : sql = front ++ (space ++ []) := by rw [hsql, List.append_nil]
    rw [tokensFrom_space hsql' hspace, ← hsql, tokensFrom_nil rfl]
    exact .pure rfl
  | unclosed space q cs hspace hquote hopen =>
    intro front hsql
    have hq : Sql.isSpace q = false := by
      rw [← Bool.not_eq_true]
      exact fun hspace => not_quote_of_isSpace hspace hquote
    have hnone : Sql.readToken q cs = none := by
      rw [Sql.readToken, if_pos hquote, closeQuote_eq_none_iff.2 hopen]
      rfl
    have hstart : Text.byteLength sql - Text.byteLength (q :: cs) =
        Text.byteLength (front ++ space) := by
      rw [hsql, ← List.append_assoc, Text.byteLength_append, Nat.add_sub_cancel]
    rw [tokensFrom_space hsql hspace,
      tokensFrom_cons (by rw [hsql, List.append_assoc]) hq, hnone, ← hstart]
    exact .throw _
  | token space c body kind rest hspace hwhole hstops hc ih =>
    intro front hsql
    have hread := hwhole.read_append hstops
    have hsql' : sql = (front ++ space) ++ c :: (body ++ rest) := by rw [hsql]; simp
    rw [tokensFrom_space hsql hspace, tokensFrom_cons hsql' hc, hread]
    have hcomm : ∀ {f : Text → Fault} {g : List Token → List Token} (r : Except Text (List Token)),
        (r.map g).mapError f = (r.mapError f).map g := fun r => by cases r <;> rfl
    rw [hcomm]
    refine (ih (front ++ space ++ c :: body) (by rw [hsql']; simp)).map ?_
    rintro ps ts rfl
    simp only [place, Text.byteLength_append]

/-- Where a run of tokens lies in a text: one behind the other and each where its text is. A quoted
name is between its quotes. -/
structure Lies (sql : Text) (ps : List Placed) (ts : List Token) : Prop where
  placed : ∃ front back, sql = front ++ (Token.render ts ++ back) ∧
    ps = place (Text.byteLength front) ts
  quoted : ∀ t ∈ ts, t.kind = .quotedName → ∃ body, t.text = '"' :: (body ++ ['"'])

theorem exists_render (x : Text) : ∀ ts, readTokens x = .ok ts →
    (∃ back, x = Token.render ts ++ back) ∧
      ∀ t ∈ ts, t.kind = .quotedName → ∃ body, t.text = '"' :: (body ++ ['"']) := by
  induction x using readTokens_induction with
  | blank space =>
    rintro ts ⟨⟩
    exact ⟨⟨space, rfl⟩, nofun⟩
  | unclosed => nofun
  | token space c body kind rest hspace hwhole hstops hc ih =>
    intro ts hread
    obtain ⟨us, hus, rfl⟩ := map_eq_ok.1 hread
    obtain ⟨⟨back, hback⟩, hquoted⟩ := ih us hus
    refine ⟨⟨back, ?_⟩, List.forall_mem_cons.2 ⟨?_, hquoted⟩⟩
    · rw [hback]
      simp
    · rintro (rfl : kind = .quotedName)
      rcases hwhole.quotation_or_plain with ⟨-, hbody, hkind⟩ | ⟨hplain, -⟩
      · have hc : c = '"' := by
          by_contra hc
          rw [if_neg hc] at hkind
          cases hkind
        obtain ⟨inside, rfl⟩ := List.getLast?_eq_some_iff.1 hbody.getLast?
        exact ⟨inside, by rw [hc]⟩
      · cases hplain

/-- **Tokens in place.** -/
theorem tokenize_completes (sql : Text) : Completes (Lies sql) (tokenize sql)
    ((readTokens sql).mapError fun rest =>
      .unclosedQuote (Text.byteLength sql - Text.byteLength rest)) := by
  refine (tokensFrom_completes sql [] rfl).results.imp ?_
  rintro ps ts ⟨rfl, hread⟩
  obtain ⟨⟨back, hback⟩, hquoted⟩ := exists_render sql ts (mapError_eq_ok.1 hread)
  exact ⟨⟨[], back, hback, rfl⟩, hquoted⟩

end

end InPlace

end Sql

end PgGateway
