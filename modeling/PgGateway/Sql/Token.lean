import PgGateway.Text.Basic

/-!
# Tokens

A statement is read as words, quoted names, strings, numbers and single symbols. Every token
remembers the white space in front of it, so that any run of tokens can be written back exactly as
it stood in the statement.
-/

namespace PgGateway.Sql

/-- The kinds of token. -/
inductive TokenKind
  /-- A bare name or keyword. -/
  | word
  /-- A name in double quotes. -/
  | quotedName
  /-- A text in single quotes. -/
  | string
  | number
  /-- Any other single character. -/
  | symbol
deriving DecidableEq, Repr

/-- A token: its text, quotes included, and the white space between it and the token before. -/
structure Token where
  gap : Text
  kind : TokenKind
  text : Text
deriving DecidableEq, Repr

namespace Token

/-- The token is the keyword, in any letter case. A quoted name is never a keyword. -/
def isKeyword (t : Token) (keyword : Text) : Bool :=
  t.kind == .word && Text.lower t.text == Text.lower keyword

/-- The token is the symbol. -/
def isSymbol (t : Token) (c : Char) : Bool := t.kind == .symbol && t.text == [c]

/-- The token can be a name. -/
def isName (t : Token) : Bool := t.kind == .word || t.kind == .quotedName

/-- The name that a token stands for: a quoted name without its quotes, and with doubled quotes
inside read as one; any other text as it is. -/
def name (t : Token) : Text :=
  if t.kind = .quotedName then Text.halve '"' t.text.tail.dropLast else t.text

/-- The token is the first one, and it is the keyword. -/
def startsWith (keyword : Text) : List Token → Bool
  | t :: _ => t.isKeyword keyword
  | [] => false

/-- The symbol is the first token. -/
def opensWith (c : Char) : List Token → Bool
  | t :: _ => t.isSymbol c
  | [] => false

/-- The statement text that a run of tokens covers, from the first token to the last. -/
def verbatim : List Token → Text
  | [] => []
  | t :: ts => t.text ++ ts.flatMap fun u => u.gap ++ u.text

end Token

/-! ## Reading tokens -/

/-- White space between tokens. -/
def isSpace (c : Char) : Bool :=
  c == ' ' || c == '\t' || c == '\n' || c == '\x0c' || c == '\r'

/-- A letter, an underscore or any character outside ASCII begins a word. -/
def beginsWord (c : Char) : Bool := c.isAlpha || c == '_' || 0x80 ≤ c.val

/-- Digits and dollar signs go on a word as well. -/
def continuesWord (c : Char) : Bool := beginsWord c || c.isDigit || c == '$'

/-- Digits and points go on a number. -/
def continuesNumber (c : Char) : Bool := c.isDigit || c == '.'

/-- Splits after the first `q` that is not written twice: the text up to and with it, and the
rest. -/
def closeQuote (q : Char) : Text → Option (Text × Text)
  | [] => none
  | [c] => if c = q then some ([c], []) else none
  | c :: d :: cs =>
    if c = q then
      if d = q then (closeQuote q cs).map fun r => (c :: d :: r.1, r.2) else some ([c], d :: cs)
    else (closeQuote q (d :: cs)).map fun r => (c :: r.1, r.2)

/-- Reads the token that begins with `c`: its kind, its text and the rest. There is none when a
quote is not closed. -/
def readToken (c : Char) (cs : Text) : Option (TokenKind × Text × Text) :=
  if c = '\'' ∨ c = '"' then
    (closeQuote c cs).map fun r => (if c = '"' then .quotedName else .string, c :: r.1, r.2)
  else if c.isDigit then
    some (.number, c :: cs.takeWhile continuesNumber, cs.dropWhile continuesNumber)
  else if beginsWord c then
    some (.word, c :: cs.takeWhile continuesWord, cs.dropWhile continuesWord)
  else some (.symbol, [c], cs)

theorem length_dropWhile_le {α : Type} (p : α → Bool) (l : List α) :
    (l.dropWhile p).length ≤ l.length :=
  (l.dropWhile_suffix p).length_le

/-- Closing a quote splits the text and loses nothing of it. -/
theorem closeQuote_eq {q : Char} {cs : Text} {r : Text × Text} (h : closeQuote q cs = some r) :
    cs = r.1 ++ r.2 := by
  fun_induction closeQuote q cs generalizing r with
  | case1 => simp at h
  | case2 => cases h; rfl
  | case3 => simp at h
  | case4 c ih =>
    obtain ⟨s, hs, rfl⟩ := Option.map_eq_some_iff.1 h
    simp [← ih hs]
  | case5 => cases h; rfl
  | case6 c d cs _ ih =>
    obtain ⟨s, hs, rfl⟩ := Option.map_eq_some_iff.1 h
    simp [← ih hs]

/-- Reading a token splits the text and loses nothing of it. -/
theorem readToken_eq {c : Char} {cs : Text} {r : TokenKind × Text × Text}
    (h : readToken c cs = some r) : c :: cs = r.2.1 ++ r.2.2 := by
  unfold readToken at h
  split at h
  · obtain ⟨s, hs, rfl⟩ := Option.map_eq_some_iff.1 h
    rw [closeQuote_eq (r := s) hs]
    rfl
  · split at h
    · cases h
      simp [List.takeWhile_append_dropWhile]
    · split at h
      · cases h
        simp [List.takeWhile_append_dropWhile]
      · cases h
        rfl

/-- A token has at least one character. -/
theorem readToken_text_length_pos {c : Char} {cs : Text} {r : TokenKind × Text × Text}
    (h : readToken c cs = some r) : 0 < r.2.1.length := by
  unfold readToken at h
  split at h
  · obtain ⟨s, hs, rfl⟩ := Option.map_eq_some_iff.1 h
    exact Nat.succ_pos _
  · split at h
    · cases h; exact Nat.succ_pos _
    · split at h <;> cases h <;> exact Nat.succ_pos _

/-- Reading a token leaves no more than what followed its first character. -/
theorem readToken_length_le {c : Char} {cs : Text} {r : TokenKind × Text × Text}
    (h : readToken c cs = some r) : r.2.2.length ≤ cs.length := by
  have split := congrArg List.length (readToken_eq h)
  have nonempty := readToken_text_length_pos h
  simp only [List.length_cons, List.length_append] at split
  omega

/-- Reads all tokens of a text. Fails with the rest of the text from a quote that is not
closed. -/
def readTokens (cs : Text) : Except Text (List Token) :=
  match _h : cs.dropWhile isSpace with
  | [] => .ok []
  | c :: rest =>
    match _hr : readToken c rest with
    | none => .error (c :: rest)
    | some (kind, text, rest') =>
      (readTokens rest').map (⟨cs.takeWhile isSpace, kind, text⟩ :: ·)
termination_by cs.length
decreasing_by
  have h₁ := readToken_length_le _hr
  have h₂ := length_dropWhile_le isSpace cs
  simp only [_h, List.length_cons] at h₁ h₂
  omega

end PgGateway.Sql
