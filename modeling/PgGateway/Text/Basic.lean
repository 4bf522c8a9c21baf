/-!
# Texts

A text is a list of characters: SQL, names and messages are all read and written one
character at a time. This module holds the small operations the rest of the library needs:
folding of ASCII letters, doubling of quotes, search, and lengths in UTF-8 bytes.
-/

namespace PgGateway

/-- A text, one character after the other. -/
abbrev Text := List Char

/-- A string literal stands for the text of its characters. -/
instance : Coe String Text := ⟨String.toList⟩

namespace Text

/-- The text with its ASCII letters in upper case. -/
def upper (t : Text) : Text := t.map Char.toUpper

/-- The text with its ASCII letters in lower case. -/
def lower (t : Text) : Text := t.map Char.toLower

/-- Two texts are the same word when they differ at most in the case of ASCII letters. -/
def SameWord (a b : Text) : Prop := lower a = lower b

instance (a b : Text) : Decidable (SameWord a b) := inferInstanceAs (Decidable (lower a = lower b))

/-- Some part of the text is exactly `part`. -/
def Contains (part t : Text) : Prop := part <:+: t

instance (part t : Text) : Decidable (Contains part t) := inferInstanceAs (Decidable (part <:+: t))

/-- Writes every `q` twice. -/
def double (q : Char) (t : Text) : Text := t.flatMap fun c => if c = q then [q, q] else [c]

/-- Reads every pair of `q` as one, from the left. -/
def halve (q : Char) : Text → Text
  | [] => []
  | [c] => [c]
  | c :: d :: rest => if c = q ∧ d = q then q :: halve q rest else c :: halve q (d :: rest)

/-- The text between two `q`, the `q` inside it written twice. -/
def quote (q : Char) (t : Text) : Text := q :: double q t ++ [q]

/-- The length of a text in UTF-8 bytes. -/
def byteLength : Text → Nat
  | [] => 0
  | c :: cs => c.utf8Size + byteLength cs

/-- The text where the condition holds, and nothing otherwise. -/
def only (condition : Bool) (t : Text) : Text := if condition then t else []

/-- The texts one after the other, with `sep` between neighbours. -/
def join (sep : Text) (ts : List Text) : Text := sep.intercalate ts

end Text

end PgGateway
