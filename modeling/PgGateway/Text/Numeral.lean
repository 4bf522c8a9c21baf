import PgGateway.Text.Utf8

/-!
# Numerals

Whole numbers as decimal texts, bytes as hexadecimal texts, and the reading of port numbers.
-/

namespace PgGateway.Numeral

/-- The decimal digits of a number, without leading zeros. -/
def ofNat (n : Nat) : Text := Nat.toDigits 10 n

/-- The decimal text of an integer: a minus sign in front of a negative one. -/
def ofInt (i : Int) : Text := if i < 0 then '-' :: ofNat i.natAbs else ofNat i.natAbs

/-- The two lower-case hexadecimal digits of a byte. -/
def hexByte (b : UInt8) : Text := [Nat.digitChar (b.toNat / 16), Nat.digitChar (b.toNat % 16)]

/-- Two lower-case hexadecimal digits for each byte. -/
def hex (bytes : Bytes) : Text := bytes.flatMap hexByte

/-- Bytes as a text value: a backslash and an `x` in front of the hexadecimal digits. -/
def bytea (bytes : Bytes) : Text := '\\' :: 'x' :: hex bytes

/-- Reads a port number: at least one decimal digit, perhaps after a plus sign, and a value that
fits in sixteen bits. -/
def port? (t : Text) : Option UInt16 :=
  let digits := match t with
    | '+' :: rest => rest
    | _ => t
  let value := Nat.ofDigitChars 10 digits 0
  if !digits.isEmpty && digits.all Char.isDigit && value < 65536 then some (UInt16.ofNat value)
  else none

end PgGateway.Numeral
