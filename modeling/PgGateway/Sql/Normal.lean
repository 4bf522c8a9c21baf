import PgGateway.Text.Blank

/-!
# Normal form of a statement text

Before a statement is recognised its text is put into a normal form: outside quotes every run of
blanks and comments becomes one space, none is left at the start, and one semicolon at the end is
dropped together with the blanks before it. Text in quotes is kept as it is.
-/

namespace PgGateway.Sql

/-- What stands before the next character outside quotes. -/
inductive Gap
  /-- Nothing has been written yet. -/
  | start
  /-- The last character written is adjacent. -/
  | tight
  /-- Blanks or comments follow the last character written. -/
  | spaced
deriving DecidableEq, Repr

/-- The gap when blanks or a comment are added to it. -/
def Gap.widen : Gap → Gap
  | start => start
  | _ => spaced

/-- What is written for a gap when a character follows it. -/
def Gap.text : Gap → Text
  | spaced => [' ']
  | _ => []

/-- Where the reading of a statement stands. -/
inductive Scan
  /-- Outside quotes and comments. -/
  | outside (gap : Gap)
  /-- Between two characters `q`. -/
  | quoted (q : Char)
  /-- In a comment that ends with its line. -/
  | lineComment (gap : Gap)
  /-- In a comment that ends with a star and a slash. -/
  | blockComment (gap : Gap)
deriving DecidableEq, Repr

/-- The state after a character that is written outside quotes. -/
def Scan.after (c : Char) : Scan := if c = '\'' ∨ c = '"' then .quoted c else .outside .tight

/-- Writes a text with its blanks and comments outside quotes made into single spaces. -/
def squeeze : Scan → Text → Text
  | _, [] => []
  | .outside gap, '-' :: '-' :: cs => squeeze (.lineComment gap.widen) cs
  | .outside gap, '/' :: '*' :: cs => squeeze (.blockComment gap.widen) cs
  | .outside gap, c :: cs =>
    if isBlank c then squeeze (.outside gap.widen) cs
    else gap.text ++ c :: squeeze (.after c) cs
  | .quoted q, c :: cs => c :: squeeze (if c = q then .outside .tight else .quoted q) cs
  | .lineComment gap, c :: cs =>
    squeeze (if c = '\n' then .outside gap else .lineComment gap) cs
  | .blockComment gap, '*' :: '/' :: cs => squeeze (.outside gap) cs
  | .blockComment gap, _ :: cs => squeeze (.blockComment gap) cs

/-- Drops one semicolon at the end, and the blanks before it. -/
def dropSemicolon (t : Text) : Text :=
  if t.getLast? = some ';' then Text.trimEnd t.dropLast else t

/-- The normal form of a statement text. -/
def normalize (sql : Text) : Text := dropSemicolon (squeeze (.outside .start) sql)

end PgGateway.Sql
