import PgGateway.Text.Basic

/-!
# Blanks

The characters with the Unicode property White_Space, and the two operations that look for
them: cutting the blanks at the end of a text, and splitting a text into words.
-/

namespace PgGateway

/-- The characters with the Unicode property White_Space. -/
def isBlank (c : Char) : Bool :=
  (0x09 ≤ c.val && c.val ≤ 0x0D) || c.val == 0x20 || c.val == 0x85 || c.val == 0xA0 ||
    c.val == 0x1680 || (0x2000 ≤ c.val && c.val ≤ 0x200A) || c.val == 0x2028 ||
    c.val == 0x2029 || c.val == 0x202F || c.val == 0x205F || c.val == 0x3000

namespace Text

/-- The text without the blanks at its end. -/
def trimEnd (t : Text) : Text := (t.reverse.dropWhile isBlank).reverse

/-- The maximal runs of characters that are not blanks. -/
def words (t : Text) : List Text := (t.splitOnP isBlank).filter (!·.isEmpty)

end Text

end PgGateway
