import PgGateway.Proofs.Sql.OpenQuotes
import PgGateway.Proofs.Text.Utf8

/-!
# Tokens read from bytes

The tokens of a text can be read from its UTF-8 bytes as well, byte by byte and without decoding a
character (`Bytewise.readSpans`). All bytes from `0x80` on count as letters, so a character of
several bytes is never taken apart, and the bytes of the tokens are those of the tokens that are
read from the characters (`Bytewise.readSpans_encode`).
-/

namespace PgGateway

/-- A run of bytes in a text: the number of its first byte, and that of the byte behind it. -/
structure Span where
  start : Nat
  stop : Nat
deriving DecidableEq, Repr

namespace Span

/-- The byte of that number is in the run. -/
def Covers (s : Span) (i : Nat) : Prop := s.start ≤ i ∧ i < s.stop

end Span

namespace Text

@[simp]
theorem byteLength_append (t u : Text) : byteLength (t ++ u) = byteLength t + byteLength u := by
  rw [← Utf8.length_encode, Utf8.encode_append, List.length_append, Utf8.length_encode,
    Utf8.length_encode]

theorem byteLength_pos {t : Text} (h : t ≠ []) : 0 < byteLength t := by
  cases t with
  | nil => exact absurd rfl h
  | cons c t => exact Nat.add_pos_left c.utf8Size_pos _

end Text

namespace Sql

variable {b q : UInt8} {bs : Bytes} {c : Char} {cs rest t : Text} {kind : TokenKind}
  {ts : List Token}

/-- The bytes that tokens stand on, from byte `pos` on. -/
def Token.spans : Nat → List Token → List Span
  | _, [] => []
  | pos, t :: ts =>
    let start := pos + Text.byteLength t.gap
    let stop := start + Text.byteLength t.text
    ⟨start, stop⟩ :: spans stop ts

namespace Bytewise

/-! ## Reading bytes -/

/-- White space of ASCII. -/
def isSpace (b : UInt8) : Bool := b == 0x20 || b == 0x09 || b == 0x0A || b == 0x0C || b == 0x0D

/-- A digit of ASCII. -/
def isDigit (b : UInt8) : Bool := 0x30 ≤ b && b ≤ 0x39

/-- A letter of ASCII. -/
def isLetter (b : UInt8) : Bool := (0x41 ≤ b && b ≤ 0x5A) || (0x61 ≤ b && b ≤ 0x7A)

/-- A letter, an underscore or a byte outside ASCII begins a word. -/
def beginsWord (b : UInt8) : Bool := b == 0x5F || isLetter b || 0x80 ≤ b

/-- Digits and dollar signs go on a word as well. -/
def continuesWord (b : UInt8) : Bool := beginsWord b || isDigit b || b == 0x24

/-- Digits and points go on a number. -/
def continuesNumber (b : UInt8) : Bool := isDigit b || b == 0x2E

/-- The number of bytes up to and with the first `q` that is not written twice. -/
def closeQuote (q : UInt8) : Bytes → Option Nat
  | [] => none
  | [b] => if b = q then some 1 else none
  | b :: d :: bs =>
    if b = q then if d = q then (closeQuote q bs).map (· + 2) else some 1
    else (closeQuote q (d :: bs)).map (· + 1)

/-- Reads the token that begins with `b`: its kind and the number of its bytes behind `b`. A symbol
has none: a byte that begins no word is a character by itself. -/
def readToken (b : UInt8) (bs : Bytes) : Option (TokenKind × Nat) :=
  if b = 0x27 ∨ b = 0x22 then
    (closeQuote b bs).map fun n => (if b = 0x22 then .quotedName else .string, n)
  else if isDigit b then some (.number, (bs.takeWhile continuesNumber).length)
  else if beginsWord b then some (.word, (bs.takeWhile continuesWord).length)
  else some (.symbol, 0)

/-- Reads the tokens of bytes of which the first has the number `pos`: the kind of each, and the
bytes it stands on. Fails with the number of a quote that is not closed. -/
def readSpans (pos : Nat) (bytes : Bytes) : Except Nat (List (TokenKind × Span)) :=
  match _h : bytes.dropWhile isSpace with
  | [] => .ok []
  | b :: bs =>
    let start := pos + (bytes.takeWhile isSpace).length
    match readToken b bs with
    | none => .error start
    | some (kind, n) =>
      (readSpans (start + (n + 1)) (bs.drop n)).map ((kind, ⟨start, start + (n + 1)⟩) :: ·)
termination_by bytes.length
decreasing_by
  have hdrop := (bytes.dropWhile_suffix isSpace).length_le
  simp only [_h, List.length_cons] at hdrop
  simp only [List.length_drop]
  omega

/-! ## Bytes and characters -/

/-- A character is one byte or none of its bytes is of ASCII. -/
theorem encodeChar_cases (c : Char) :
    (∃ n < 128, c = Char.ofNat n ∧ String.utf8EncodeChar c = [UInt8.ofNat n]) ∨
      (0x80 ≤ c.toNat ∧ ∀ b ∈ String.utf8EncodeChar c, 0x80 ≤ b) := by
  have hv : c.val.toNat = c.toNat := rfl
  have hwide : ∀ n, 0x80 ≤ n → n < 256 → (0x80 : UInt8) ≤ UInt8.ofNat n := by
    intro n hlow hhigh
    rw [UInt8.le_iff_toNat_le, UInt8.toNat_ofNat', Nat.mod_eq_of_lt hhigh]
    exact hlow
  unfold String.utf8EncodeChar
  simp only [hv]
  split
  · next hone =>
    exact .inl ⟨c.toNat, by omega, (Char.ofNat_toNat c).symm, rfl⟩
  · next hmore =>
    -- the first byte of several and the ones that go on all have their high bit set
    refine .inr ⟨by omega, ?_⟩
    repeat' split
    all_goals
      simp only [List.mem_cons, List.not_mem_nil, or_false, forall_eq_or_imp, forall_eq]
      and_intros <;> exact hwide _ (by omega) (by omega)

/-- What the condition says of a character, the other one says of each of its bytes. -/
def Reads (p' : UInt8 → Bool) (p : Char → Bool) : Prop :=
  ∀ c, ∀ b ∈ String.utf8EncodeChar c, p' b = p c

/-- A character is none of ASCII. -/
theorem beq_eq_false_of_wide {d : Char} (hc : 0x80 ≤ c.toNat) (hd : d.toNat < 0x80) :
    (c == d) = false := by
  rw [beq_eq_false_iff_ne]
  rintro rfl
  omega

theorem isDigit_of_wide (hc : 0x80 ≤ c.toNat) : c.isDigit = false := by
  rw [← Bool.not_eq_true]
  intro hdigit
  have hle := UInt32.le_iff_toNat_le.1 (by simpa [Char.isDigit] using hdigit : _ ∧ c.val ≤ 57).2
  have hv : c.val.toNat = c.toNat := rfl
  simp at hle
  omega

/-- Conditions that agree on ASCII, and say one thing of everything else. -/
theorem reads_of {p' : UInt8 → Bool} {p : Char → Bool} (wide : Bool)
    (hascii : ∀ n < 128, p' (UInt8.ofNat n) = p (Char.ofNat n))
    (hbyte : ∀ n < 128, p' (UInt8.ofNat (n + 128)) = wide)
    (hchar : ∀ c : Char, 0x80 ≤ c.toNat → p c = wide) : Reads p' p := by
  intro c b hb
  rcases encodeChar_cases c with ⟨n, hn, rfl, hone⟩ | ⟨hc, hwide⟩
  · rw [hone, List.mem_singleton] at hb
    rw [hb]
    exact hascii n hn
  · have hlow : 0x80 ≤ b.toNat := UInt8.le_iff_toNat_le.1 (hwide b hb)
    have hhigh := b.toNat_lt
    have hb := hbyte (b.toNat - 128) (by omega)
    rw [Nat.sub_add_cancel hlow, UInt8.ofNat_toNat] at hb
    rw [hb, hchar c hc]

theorem reads_isSpace : Reads isSpace Sql.isSpace := by
  refine reads_of false (by decide) (by decide) fun c hc => ?_
  simp [Sql.isSpace, beq_eq_false_of_wide hc]

theorem reads_isDigit : Reads isDigit Char.isDigit :=
  reads_of false (by decide) (by decide) fun _ hc => isDigit_of_wide hc

theorem reads_beginsWord : Reads beginsWord Sql.beginsWord := by
  refine reads_of true (by decide) (by decide) fun c hc => ?_
  have hwide : 0x80 ≤ c.val := UInt32.le_iff_toNat_le.2 hc
  simp [Sql.beginsWord, hwide]

theorem reads_continuesWord : Reads continuesWord Sql.continuesWord := by
  refine reads_of true (by decide) (by decide) fun c hc => ?_
  have hwide : 0x80 ≤ c.val := UInt32.le_iff_toNat_le.2 hc
  simp [Sql.continuesWord, Sql.beginsWord, hwide]

theorem reads_continuesNumber : Reads continuesNumber Sql.continuesNumber := by
  refine reads_of false (by decide) (by decide) fun c hc => ?_
  simp [Sql.continuesNumber, isDigit_of_wide hc, beq_eq_false_of_wide hc]

/-- A quote as a byte and as a character. -/
inductive IsQuote : UInt8 → Char → Prop
  | single : IsQuote 0x27 '\''
  | double : IsQuote 0x22 '"'

theorem IsQuote.encodeChar {q' : UInt8} {q : Char} (h : IsQuote q' q) :
    String.utf8EncodeChar q = [q'] := by
  cases h <;> rfl

theorem IsQuote.reads {q' : UInt8} {q : Char} (h : IsQuote q' q) : Reads (· == q') (· == q) := by
  cases h <;>
    exact reads_of false (by decide) (by decide) fun c hc => by simp [beq_eq_false_of_wide hc]

/-- A quote is read where it is written, and not within another character. -/
theorem IsQuote.eq_iff {q' : UInt8} {q : Char} (h : IsQuote q' q)
    (hb : b ∈ String.utf8EncodeChar c) : b = q' ↔ c = q := by
  rw [← beq_iff_eq, ← beq_iff_eq (a := c)]
  exact Eq.congr_left (h.reads c b hb)

/-! ## Runs of bytes -/

theorem encode_cons (c : Char) (t : Text) :
    Utf8.encode (c :: t) = String.utf8EncodeChar c ++ Utf8.encode t := rfl

theorem encodeChar_ne_nil (c : Char) : String.utf8EncodeChar c ≠ [] := by
  rw [← List.length_pos_iff, String.length_utf8EncodeChar]
  exact c.utf8Size_pos

/-- What is taken off the front of the bytes is what is taken off the front of the text. -/
theorem Reads.span {p' : UInt8 → Bool} {p : Char → Bool} (h : Reads p' p) (t : Text) :
    (Utf8.encode t).takeWhile p' = Utf8.encode (t.takeWhile p) ∧
      (Utf8.encode t).dropWhile p' = Utf8.encode (t.dropWhile p) := by
  induction t with
  | nil => exact ⟨rfl, rfl⟩
  | cons c t ih =>
    rw [encode_cons]
    cases hc : p c with
    | true =>
      have hall : ∀ b ∈ String.utf8EncodeChar c, p' b = true := fun b hb => (h c b hb).trans hc
      rw [List.takeWhile_append_of_pos hall, List.dropWhile_append_of_pos hall, ih.1, ih.2,
        List.takeWhile_cons_of_pos hc, List.dropWhile_cons_of_pos hc]
      exact ⟨rfl, rfl⟩
    | false =>
      obtain ⟨b, bs, hbytes⟩ := List.exists_cons_of_ne_nil (encodeChar_ne_nil c)
      have hb : ¬p' b = true := by
        rw [h c b (hbytes ▸ List.mem_cons_self), hc]
        nofun
      have hc' : ¬p c = true := by
        rw [hc]
        nofun
      rw [hbytes, List.cons_append, List.takeWhile_cons_of_neg hb, List.dropWhile_cons_of_neg hb,
        List.takeWhile_cons_of_neg hc', List.dropWhile_cons_of_neg hc', encode_cons, hbytes]
      exact ⟨rfl, rfl⟩

/-! ## Quotations -/

theorem closeQuote_cons_of_ne (h : b ≠ q) (bs : Bytes) :
    closeQuote q (b :: bs) = (closeQuote q bs).map (· + 1) := by
  cases bs with
  | nil => simp [closeQuote, h]
  | cons d bs => rw [closeQuote, if_neg h]

theorem closeQuote_append_of_ne {front : Bytes} (h : ∀ b ∈ front, b ≠ q) (bs : Bytes) :
    closeQuote q (front ++ bs) = (closeQuote q bs).map (· + front.length) := by
  induction front with
  | nil => simp
  | cons b front ih =>
    rw [List.forall_mem_cons] at h
    rw [List.cons_append, closeQuote_cons_of_ne h.1, ih h.2, Option.map_map]
    rfl

theorem closeQuote_of_last (h : ∀ b ∈ bs.head?, b ≠ q) : closeQuote q (q :: bs) = some 1 := by
  cases bs with
  | nil => simp [closeQuote]
  | cons b bs => rw [closeQuote, if_pos rfl, if_neg (h b rfl)]

/-- A quotation ends in the bytes of a text where it ends in the text. -/
theorem IsQuote.closeQuote_encode {q' : UInt8} {q : Char} (h : IsQuote q' q) (cs : Text) :
    closeQuote q' (Utf8.encode cs) =
      (Sql.closeQuote q cs).map fun r => Text.byteLength r.1 := by
  have hsize : q.utf8Size = 1 := by
    rw [← String.length_utf8EncodeChar, h.encodeChar]
    rfl
  have hne : ∀ {c : Char}, c ≠ q → ∀ b ∈ String.utf8EncodeChar c, b ≠ q' := fun hc b hb =>
    (h.eq_iff hb).not.2 hc
  fun_induction Sql.closeQuote q cs with
  | case1 => rfl
  | case2 =>
    rw [encode_cons, h.encodeChar]
    show closeQuote q' [q'] = some (q.utf8Size + 0)
    rw [hsize]
    apply closeQuote_of_last
    intro b hb
    cases hb
  | case3 c hc =>
    rw [encode_cons, closeQuote_append_of_ne (hne hc)]
    rfl
  | case4 cs ih =>
    rw [encode_cons, encode_cons, h.encodeChar]
    show closeQuote q' (q' :: q' :: Utf8.encode cs) = _
    rw [closeQuote, if_pos rfl, if_pos rfl, ih, Option.map_map, Option.map_map]
    congr 1
    funext r
    simp [Text.byteLength, hsize]
    omega
  | case5 d cs hd =>
    rw [encode_cons, h.encodeChar]
    show closeQuote q' (q' :: Utf8.encode (d :: cs)) = some (q.utf8Size + 0)
    rw [hsize]
    apply closeQuote_of_last
    intro b hb
    obtain ⟨b', bs, hbytes⟩ := List.exists_cons_of_ne_nil (encodeChar_ne_nil d)
    rw [encode_cons, hbytes] at hb
    cases hb
    exact hne hd _ (hbytes ▸ List.mem_cons_self)
  | case6 c d cs hc ih =>
    rw [encode_cons, closeQuote_append_of_ne (hne hc), ih, Option.map_map, Option.map_map]
    congr 1
    funext r
    simp [Text.byteLength, Nat.add_comm]

/-! ## Tokens -/

section

variable {front : Bytes}

theorem byteLength_cons (hc : String.utf8EncodeChar c = b :: front) (t : Text) :
    Text.byteLength (c :: t) = front.length + Text.byteLength t + 1 := by
  have hsize := String.length_utf8EncodeChar c
  rw [hc, List.length_cons] at hsize
  rw [Text.byteLength, ← hsize]
  omega

theorem length_takeWhile_behind {p' : UInt8 → Bool} {p : Char → Bool} (h : Reads p' p)
    (hc : String.utf8EncodeChar c = b :: front) (hp : p c = true) (cs : Text) :
    ((front ++ Utf8.encode cs).takeWhile p').length =
      Text.byteLength (c :: cs.takeWhile p) - 1 := by
  have hall : ∀ b' ∈ front, p' b' = true := fun b' hb' =>
    (h c b' (hc ▸ List.mem_cons_of_mem b hb')).trans hp
  rw [List.takeWhile_append_of_pos hall, List.length_append, (h.span cs).1, Utf8.length_encode,
    byteLength_cons hc, Nat.add_sub_cancel]

theorem front_eq_nil_of_quote (hquote : c = '\'' ∨ c = '"')
    (hc : String.utf8EncodeChar c = b :: front) : IsQuote b c ∧ front = [] := by
  rcases hquote with rfl | rfl
  · obtain ⟨rfl, rfl⟩ := List.cons.inj (hc.symm.trans IsQuote.single.encodeChar)
    exact ⟨.single, rfl⟩
  · obtain ⟨rfl, rfl⟩ := List.cons.inj (hc.symm.trans IsQuote.double.encodeChar)
    exact ⟨.double, rfl⟩

/-- A character that begins no word is one byte. -/
theorem front_eq_nil_of_not_word (hword : ¬Sql.beginsWord c = true)
    (hc : String.utf8EncodeChar c = b :: front) : front = [] := by
  rcases encodeChar_cases c with ⟨n, -, -, hone⟩ | ⟨hwide, -⟩
  · exact (List.cons.inj (hc.symm.trans hone)).2
  · have hval : 0x80 ≤ c.val := UInt32.le_iff_toNat_le.2 hwide
    exact absurd (by simp [Sql.beginsWord, hval]) hword

/-- **One token.** Where a text begins with a token, its bytes begin with a token of the same kind,
on as many bytes as that token has. -/
theorem readToken_encode (hc : String.utf8EncodeChar c = b :: front) (cs : Text) :
    readToken b (front ++ Utf8.encode cs) =
      (Sql.readToken c cs).map fun r => (r.1, Text.byteLength r.2.1 - 1) := by
  have hmem : b ∈ String.utf8EncodeChar c := hc ▸ List.mem_cons_self
  have hsingle := IsQuote.single.eq_iff hmem
  have hdouble := IsQuote.double.eq_iff hmem
  rw [readToken, Sql.readToken, reads_isDigit c b hmem, reads_beginsWord c b hmem]
  simp only [hsingle, hdouble]
  split
  · next hquote =>
    obtain ⟨hisQuote, rfl⟩ := front_eq_nil_of_quote hquote hc
    rw [List.nil_append, hisQuote.closeQuote_encode, Option.map_map, Option.map_map]
    congr 1
    funext r
    simp [byteLength_cons hc]
  · split
    · next hdigit =>
      have hnumber : Sql.continuesNumber c = true := by simp [Sql.continuesNumber, hdigit]
      rw [length_takeWhile_behind reads_continuesNumber hc hnumber]
      rfl
    · split
      · next hword =>
        have hcontinues : Sql.continuesWord c = true := by simp [Sql.continuesWord, hword]
        rw [length_takeWhile_behind reads_continuesWord hc hcontinues]
        rfl
      · next hword =>
        obtain rfl := front_eq_nil_of_not_word hword hc
        show some (TokenKind.symbol, 0) = some (.symbol, Text.byteLength [c] - 1)
        rw [byteLength_cons hc]
        rfl

end

theorem readSpans_eq (pos : Nat) (bytes : Bytes) :
    readSpans pos bytes = match bytes.dropWhile isSpace with
      | [] => .ok []
      | b :: bs =>
        let start := pos + (bytes.takeWhile isSpace).length
        match readToken b bs with
        | none => .error start
        | some (kind, n) =>
          (readSpans (start + (n + 1)) (bs.drop n)).map ((kind, ⟨start, start + (n + 1)⟩) :: ·) := by
  rw [readSpans]
  split <;> next h => rw [h]

/-- What the bytes of a text are read as, if this is read from the text: the kinds of the tokens and
the bytes they stand on, or the number of the byte that a quote which is not closed stands on. -/
def located (pos : Nat) (t : Text) : Except Text (List Token) → Except Nat (List (TokenKind × Span))
  | .ok ts => .ok ((ts.map (·.kind)).zip (Token.spans pos ts))
  | .error rest => .error (pos + (Text.byteLength t - Text.byteLength rest))

theorem located_token {pos : Nat} {gap text rest : Text} (r : Except Text (List Token))
    (hrest : ∀ x, r = .error x → Text.byteLength x ≤ Text.byteLength rest) :
    let start := pos + Text.byteLength gap
    let stop := start + Text.byteLength text
    (located stop rest r).map ((kind, ⟨start, stop⟩) :: ·) =
      located pos (gap ++ (text ++ rest)) (r.map (⟨gap, kind, text⟩ :: ·)) := by
  cases r with
  | ok ts => rfl
  | error x =>
    have hle := hrest x rfl
    show Except.error _ = Except.error _
    simp only [Text.byteLength_append]
    congr 1
    omega

/-- **Bytes are read as the text is.** -/
theorem readSpans_encode (t : Text) (pos : Nat) :
    readSpans pos (Utf8.encode t) = located pos t (readTokens t) := by
  have hspace : ∀ t : Text,
      (Utf8.encode t).dropWhile isSpace = Utf8.encode (t.dropWhile Sql.isSpace) :=
    fun t => (reads_isSpace.span t).2
  have hgap : ∀ t : Text, ((Utf8.encode t).takeWhile isSpace).length =
      Text.byteLength (t.takeWhile Sql.isSpace) := by
    intro t
    rw [(reads_isSpace.span t).1, Utf8.length_encode]
  have hsplit : ∀ {t x : Text}, t.dropWhile Sql.isSpace = x → t = t.takeWhile Sql.isSpace ++ x := by
    rintro t x rfl
    exact List.takeWhile_append_dropWhile.symm
  fun_induction readTokens t generalizing pos with
  | case1 t hdrop =>
    rw [readSpans_eq, hspace, hdrop]
    rfl
  | case2 t c rest hdrop htoken =>
    obtain ⟨b, front, hc⟩ := List.exists_cons_of_ne_nil (encodeChar_ne_nil c)
    have hbytes : (Utf8.encode t).dropWhile isSpace = b :: (front ++ Utf8.encode rest) := by
      rw [hspace, hdrop, encode_cons, hc]
      rfl
    have hnone : readToken b (front ++ Utf8.encode rest) = none := by
      rw [readToken_encode hc, htoken]
      rfl
    have hlength := congrArg Text.byteLength (hsplit hdrop)
    rw [Text.byteLength_append] at hlength
    rw [readSpans_eq, hbytes]
    simp only [hnone]
    rw [hgap, located, hlength, Nat.add_sub_cancel]
  | case3 t c rest hdrop kind text rest' htoken ih =>
    obtain ⟨b, front, hc⟩ := List.exists_cons_of_ne_nil (encodeChar_ne_nil c)
    have hencode : Utf8.encode (c :: rest) = b :: (front ++ Utf8.encode rest) := by
      rw [encode_cons, hc]
      rfl
    have hbytes : (Utf8.encode t).dropWhile isSpace = b :: (front ++ Utf8.encode rest) := by
      rw [hspace, hdrop, hencode]
    have hwhole : c :: rest = text ++ rest' := readToken_eq htoken
    obtain ⟨n, hn⟩ : ∃ n, Text.byteLength text = n + 1 := by
      have hpos := Text.byteLength_pos (List.length_pos_iff.1 (readToken_text_length_pos htoken))
      exact ⟨Text.byteLength text - 1, (Nat.sub_add_cancel hpos).symm⟩
    have hsome : readToken b (front ++ Utf8.encode rest) = some (kind, n) := by
      rw [readToken_encode hc, htoken]
      simp [hn]
    -- the token ends between two characters, so the rest is the bytes of a text again
    have hlater : (front ++ Utf8.encode rest).drop n = Utf8.encode rest' := by
      rw [← List.drop_succ_cons (a := b), ← hencode, hwhole, Utf8.encode_append, ← hn,
        ← Utf8.length_encode, List.drop_left]
    have hsuffix : ∀ x, readTokens rest' = .error x →
        Text.byteLength x ≤ Text.byteLength rest' := by
      intro x hx
      obtain ⟨front, hfront⟩ := (readTokens_eq_error_iff.1 hx).1.suffix
      rw [← hfront, Text.byteLength_append]
      exact Nat.le_add_left _ _
    rw [readSpans_eq, hbytes]
    simp only [hsome]
    rw [hgap, hlater, ih, ← hn, located_token _ hsuffix, ← hwhole, ← hsplit hdrop]

end Bytewise

end Sql

end PgGateway
