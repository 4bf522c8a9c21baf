import PgGateway.Text.Basic
import PgGateway.Text.LetterCase

/-!
# Lower-casing

The full Unicode lower-casing of a text. Each character has its simple lower-case form, with two
exceptions: a capital I with a dot becomes two characters, and a capital sigma is written as a
final sigma at the end of a word.
-/

namespace PgGateway

namespace LetterCase

/-- The character lies in one of the ranges. -/
def inRanges (ranges : List (Nat × Nat)) (c : Char) : Bool :=
  ranges.any fun r => r.1 ≤ c.toNat && c.toNat ≤ r.2

/-- The property Cased. -/
def isCased (c : Char) : Bool := inRanges casedRanges c

/-- The property Case_Ignorable. -/
def isIgnorable (c : Char) : Bool := inRanges caseIgnorableRanges c

/-- The simple lower-case form of a character. -/
def lowerChar (c : Char) : Char :=
  match lowerRuns.find? (·.covers c.toNat) with
  | some r => Char.ofNat (r.image + (c.toNat - r.first))
  | none => c

/-- The first character that is not case-ignorable is cased. -/
def meetsCased (t : Text) : Bool :=
  match t.dropWhile isIgnorable with
  | [] => false
  | c :: _ => isCased c

/-- The lower-case form of a sigma between the characters `before`, nearest first, and `after`:
a final one when a cased character stands before it and none after it. -/
def lowerSigma (before after : Text) : Char :=
  if meetsCased before && !meetsCased after then 'ς' else 'σ'

/-- Lower-cases what follows `before`, whose characters are given nearest first. -/
def lowerAfter (before : Text) : Text → Text
  | [] => []
  | c :: cs =>
    (if c = 'Σ' then [lowerSigma before cs]
      else if c = 'İ' then ['i', '\u0307']
      else [lowerChar c]) ++ lowerAfter (c :: before) cs

end LetterCase

/-- The text in lower case, by the full Unicode mapping. -/
def Text.lowercase (t : Text) : Text := LetterCase.lowerAfter [] t

end PgGateway
