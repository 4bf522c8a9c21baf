import PgGateway.Binary64.Shortest
import PgGateway.Text.Numeral

/-!
# Doubles as text

The text form of a double in a result: its shortest digits, written out in full for exponents
from -4 to 14 and with an exponent otherwise.
-/

namespace PgGateway

/-- Where the layout of a number changes, and how wide its exponent is at least. -/
structure FloatLayout where
  /-- The least exponent of the leading digit that is written out in full. -/
  fullFrom : Int
  /-- The least exponent above those written out in full. -/
  fullBelow : Int
  /-- The least number of digits of an exponent. -/
  exponentWidth : Nat

/-- The layout of doubles in results. -/
def FloatLayout.result : FloatLayout := ⟨-4, 15, 2⟩

namespace Decimal

/-- The digits of the decimal, without the zeros at the end. -/
def digitText (d : Decimal) : Text :=
  ((Nat.toDigits 10 d.digits).reverse.dropWhile (· = '0')).reverse

/-- The exponent of ten that the first digit stands for. -/
def leading (d : Decimal) : Int := d.exponent + ((Nat.toDigits 10 d.digits).length - 1)

/-- The digits with a point after the first one, if there are more. -/
def pointed : Text → Text
  | [] => []
  | [c] => [c]
  | c :: rest => c :: '.' :: rest

/-- The digits written out in full, the first one standing for ten to the `e`. No point is
written after a whole number. -/
def written (digits : Text) (e : Int) : Text :=
  if e < 0 then '0' :: '.' :: List.replicate (-e - 1).toNat '0' ++ digits
  else if digits.length ≤ e.toNat + 1 then
    digits ++ List.replicate (e.toNat + 1 - digits.length) '0'
  else digits.take (e.toNat + 1) ++ '.' :: digits.drop (e.toNat + 1)

/-- The exponent part: its sign is always there. -/
def exponentText (layout : FloatLayout) (e : Int) : Text :=
  let digits := Numeral.ofNat e.natAbs
  'e' :: (if e < 0 then '-' else '+') ::
    List.replicate (layout.exponentWidth - digits.length) '0' ++ digits

/-- The text of a decimal other than zero. -/
def text (layout : FloatLayout) (d : Decimal) : Text :=
  if layout.fullFrom ≤ d.leading ∧ d.leading < layout.fullBelow then
    written d.digitText d.leading
  else pointed d.digitText ++ exponentText layout d.leading

end Decimal

/-- The text of a double. -/
def Binary64.text (x : Binary64) : Text :=
  if x.isNaN then "NaN"
  else
    let magnitude : Text :=
      if x.isInfinite then "Infinity"
      else if x.significand = 0 then "0"
      else x.shortest.text .result
    if x.negative then '-' :: magnitude else magnitude

end PgGateway
