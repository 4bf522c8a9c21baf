import PgGateway.Proofs.Sql.Bytewise

/-!
# Tokens account for their text

Where the tokens of a text stand in it (`Token.Stands`): each where its text is, one behind the
other, and with nothing but white space between them, in front of them and behind them
(`Tokenized`). The tokens of a text stand so unless a quote is left open in it, and its bytes are
read in the same way (`tokens_account_for_text`).
-/

namespace PgGateway.Sql

variable {front back t x : Text} {ts : List Token} {pos : Nat} {s : Span}

/-! ## Where tokens stand -/

/-- The token is one quotation, and no quote like its own follows it. -/
def Token.IsQuotation (u : Token) (back : Text) : Prop :=
  ∃ q body, u.text = q :: body ∧ (q = '\'' ∨ q = '"') ∧ Quoted q body ∧
    (∀ d ∈ back.head?, d ≠ q) ∧ u.kind = if q = '"' then .quotedName else .string

/-- The token stands in the text, on these bytes, between the two other parts. It begins outside
quotations, and is a whole one or holds no quote. -/
structure Token.Stands (u : Token) (t : Text) (s : Span) (front back : Text) : Prop where
  whole : t = front ++ (u.text ++ back)
  start : s.start = Text.byteLength front
  stop : s.stop = Text.byteLength (front ++ u.text)
  outside : OutsideQuotes t (u.text ++ back)
  quotes : u.IsQuotation back ∨ u.kind.isQuoted = false ∧ ∀ c ∈ u.text, ¬(c = '\'' ∨ c = '"')

/-- The tokens stand in the text one behind the other, and between them is only white space. -/
structure Tokenized (t : Text) (ts : List Token) : Prop where
  stands : List.Forall₂ (fun u s => ∃ front back, u.Stands t s front back) ts (Token.spans 0 ts)
  nonempty : ∀ s ∈ Token.spans 0 ts, s.start < s.stop
  ordered : (Token.spans 0 ts).Pairwise fun s s' => s.stop ≤ s'.start
  space : ∀ i b, (Utf8.encode t)[i]? = some b → (∀ s ∈ Token.spans 0 ts, ¬s.Covers i) →
    Bytewise.isSpace b = true

/-! ## Spans -/

theorem le_start_of_mem_spans (ts : List Token) :
    ∀ pos, ∀ s ∈ Token.spans pos ts, pos ≤ s.start := by
  induction ts with
  | nil => nofun
  | cons u ts ih =>
    intro pos s hs
    rcases List.mem_cons.1 hs with rfl | hs
    · exact Nat.le_add_right _ _
    · have hlater := ih _ s hs
      omega

/-- Spans follow one another whatever the tokens are. -/
theorem spans_ordered (pos : Nat) (ts : List Token) :
    (Token.spans pos ts).Pairwise fun s s' => s.stop ≤ s'.start := by
  induction ts generalizing pos with
  | nil => exact .nil
  | cons u ts ih => exact .cons (fun s' hs' => le_start_of_mem_spans ts _ s' hs') (ih _)

theorem start_lt_stop_of_mem_spans (htext : ∀ u ∈ ts, u.text ≠ []) :
    ∀ pos, ∀ s ∈ Token.spans pos ts, s.start < s.stop := by
  induction ts with
  | nil => nofun
  | cons u ts ih =>
    rw [List.forall_mem_cons] at htext
    intro pos s hs
    rcases List.mem_cons.1 hs with rfl | hs
    · exact Nat.lt_add_of_pos_right (Text.byteLength_pos htext.1)
    · exact ih htext.2 _ s hs

/-! ## The tokens of a text -/

theorem WholeToken.isQuotation_or {c : Char} {body : Text} {kind : TokenKind}
    (h : WholeToken c body kind) (hstops : ∀ d ∈ back.head?, kind.stops d = true) (gap : Text) :
    Token.IsQuotation ⟨gap, kind, c :: body⟩ back ∨
      kind.isQuoted = false ∧ ∀ d ∈ c :: body, ¬(d = '\'' ∨ d = '"') := by
  rcases h.quotation_or_plain with ⟨hquote, hbody, rfl⟩ | hplain
  · exact .inl ⟨c, body, rfl, hquote, hbody, ne_quote_of_stops hquote hstops, rfl⟩
  · exact .inr hplain

/-- A token that begins outside quotes is passed over. -/
theorem Token.IsQuotation.outside {u : Token} (h : u.IsQuotation back ∨
      u.kind.isQuoted = false ∧ ∀ c ∈ u.text, ¬(c = '\'' ∨ c = '"')) :
    OutsideQuotes (u.text ++ back) back := by
  rcases h with ⟨q, body, htext, hquote, hbody, hback, -⟩ | ⟨-, hplain⟩
  · rw [htext]
    exact .quotation hquote hbody hback (.here back)
  · exact .plain hplain back

/-- **Where the tokens of a rest stand**, with the text in front of it read already. -/
theorem stands_of_readTokens (x : Text) : ∀ front ts, OutsideQuotes (front ++ x) x →
    readTokens x = .ok ts →
      List.Forall₂ (fun u s => ∃ front' back, u.Stands (front ++ x) s front' back) ts
        (Token.spans (Text.byteLength front) ts) := by
  induction x using readTokens_induction with
  | blank =>
    rintro front ts houtside ⟨⟩
    exact .nil
  | unclosed => nofun
  | token space c body kind back hspace hwhole hstops _ ih =>
    intro front ts houtside hread
    obtain ⟨us, hus, rfl⟩ := map_eq_ok.1 hread
    have hquotes := hwhole.isQuotation_or hstops space
    have hhere := houtside.trans
      (.plain (fun d hd => not_quote_of_isSpace (hspace d hd)) (c :: body ++ back))
    have hlater := ih (front ++ space ++ (c :: body)) us
    simp only [List.append_assoc] at hhere hlater
    refine .cons ⟨front ++ space, back, ?_, ?_, ?_, hhere, hquotes⟩ ?_
    · simp
    · simp
    · simp [Nat.add_assoc]
    · simpa [Nat.add_assoc] using hlater (hhere.trans (Token.IsQuotation.outside hquotes)) hus

/-- **Only white space is outside the spans.** -/
theorem space_of_readTokens (x : Text) : ∀ pos ts i b, readTokens x = .ok ts →
    (Utf8.encode x)[i]? = some b → (∀ s ∈ Token.spans pos ts, ¬s.Covers (pos + i)) →
    Bytewise.isSpace b = true := by
  have hblank : ∀ {space : Text} {i : Nat} {b : UInt8}, (∀ d ∈ space, isSpace d = true) →
      (Utf8.encode space)[i]? = some b → Bytewise.isSpace b = true := by
    intro space i b hspace hb
    obtain ⟨d, hd, hb⟩ := List.mem_flatMap.1 (List.mem_of_getElem? hb)
    rw [Bytewise.reads_isSpace d b hb, hspace d hd]
  induction x using readTokens_induction with
  | blank space hspace =>
    intro pos ts i b _ hb _
    exact hblank hspace hb
  | unclosed => nofun
  | token space c body kind back hspace hwhole hstops _ ih =>
    intro pos ts i b hread hb hout
    obtain ⟨us, hus, rfl⟩ := map_eq_ok.1 hread
    obtain ⟨hhere, hlater⟩ := List.forall_mem_cons.1 hout
    rw [Utf8.encode_append, Utf8.encode_append] at hb
    -- the byte is one of the white space, of the token or of what follows it
    rcases Nat.lt_or_ge i (Text.byteLength space) with hgap | hgap
    · rw [List.getElem?_append_left (Utf8.length_encode space ▸ hgap)] at hb
      exact hblank hspace hb
    · rw [List.getElem?_append_right (Utf8.length_encode space ▸ hgap), Utf8.length_encode] at hb
      rcases Nat.lt_or_ge (i - Text.byteLength space) (Text.byteLength (c :: body))
        with htext | htext
      · refine absurd ⟨?_, ?_⟩ hhere
        · show pos + Text.byteLength space ≤ pos + i
          omega
        · show pos + i < pos + Text.byteLength space + Text.byteLength (c :: body)
          omega
      · rw [List.getElem?_append_right (Utf8.length_encode (c :: body) ▸ htext),
          Utf8.length_encode] at hb
        have hpos : pos + Text.byteLength space + Text.byteLength (c :: body) +
            (i - Text.byteLength space - Text.byteLength (c :: body)) = pos + i := by omega
        rw [← hpos] at hlater
        exact ih _ us _ b hus hb hlater

theorem text_ne_nil_of_readTokens (x : Text) :
    ∀ ts, readTokens x = .ok ts → ∀ u ∈ ts, u.text ≠ [] := by
  induction x using readTokens_induction with
  | blank =>
    rintro ts ⟨⟩
    nofun
  | unclosed => nofun
  | token space c body kind back hspace hwhole hstops _ ih =>
    intro ts hread
    obtain ⟨us, hus, rfl⟩ := map_eq_ok.1 hread
    exact List.forall_mem_cons.2 ⟨nofun, ih us hus⟩

/-- **The tokens that are read account for the text.** -/
theorem tokenized_of_readTokens (h : readTokens t = .ok ts) : Tokenized t ts where
  stands := stands_of_readTokens t [] ts (.here t) h
  nonempty := start_lt_stop_of_mem_spans (text_ne_nil_of_readTokens t ts h) 0
  ordered := spans_ordered 0 ts
  space i b hb hout := space_of_readTokens t 0 ts i b h hb (by simpa using hout)

/-- **Reading tokens loses nothing, and agrees with the normal form about quotes.** The tokens of a
text are read unless a quote outside other quotations is not closed. They stand in the text one
behind the other, each on the bytes of its own characters, a quotation whole in one token, and with
only white space besides. The bytes of the text are read as the same tokens on the same bytes. The
tokens of a normal form are read unless the scan that makes it ends in quotes. -/
theorem tokens_account_for_text (t : Text) :
    (Unreadable t ↔ ∃ rest, OutsideQuotes t rest ∧ OpensUnclosed rest) ∧
    (∀ ts, readTokens t = .ok ts → Tokenized t ts ∧
      Bytewise.readSpans 0 (Utf8.encode t) =
        .ok ((ts.map (·.kind)).zip (Token.spans 0 ts))) ∧
    (∀ rest, readTokens t = .error rest → OutsideQuotes t rest ∧ OpensUnclosed rest ∧
      Bytewise.readSpans 0 (Utf8.encode t) =
        .error (Text.byteLength t - Text.byteLength rest)) ∧
    (Unreadable (normalize t) ↔ ∃ q, Zone.behind .code t = .quoted q) := by
  have hbytes := Bytewise.readSpans_encode t 0
  refine ⟨exists_congr fun rest => readTokens_eq_error_iff, fun ts h => ?_, fun rest h => ?_,
    unreadable_normalize_iff t⟩
  · rw [h] at hbytes
    exact ⟨tokenized_of_readTokens h, hbytes⟩
  · rw [h, Bytewise.located, Nat.zero_add] at hbytes
    obtain ⟨houtside, hopen⟩ := readTokens_eq_error_iff.1 h
    exact ⟨houtside, hopen, hbytes⟩

/-- A word with characters of two bytes, and a string with a quote in it. -/
def accented : Text := "été = 'it''s'"

/-- Its tokens. -/
def accentedTokens : List Token :=
  [⟨"", .word, "été"⟩, ⟨" ", .symbol, "="⟩, ⟨" ", .string, "'it''s'"⟩]

/-- The string is one token with the quote in it; with one quote less, the last one is left open. -/
theorem tokens_account_for_text_accented :
    readTokens accented = .ok accentedTokens ∧ Tokenized accented accentedTokens ∧
    Bytewise.readSpans 0 (Utf8.encode accented) =
      .ok [(.word, ⟨0, 5⟩), (.symbol, ⟨6, 7⟩), (.string, ⟨8, 15⟩)] ∧
    readTokens "été = 'it's'" = .error "'" ∧ OpensUnclosed ("'" : Text) ∧
    Bytewise.readSpans 0 (Utf8.encode "été = 'it's'") = .error 13 := by
  have hread : readTokens accented = .ok accentedTokens := by decide +kernel
  have hopen : readTokens "été = 'it's'" = .error "'" := by decide +kernel
  obtain ⟨htokenized, hspans⟩ := (tokens_account_for_text accented).2.1 _ hread
  obtain ⟨-, hunclosed, herror⟩ := (tokens_account_for_text "été = 'it's'").2.2.1 _ hopen
  exact ⟨hread, htokenized, hspans, hopen, hunclosed, herror⟩

end PgGateway.Sql
