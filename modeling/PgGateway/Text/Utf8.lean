import PgGateway.Text.Basic

/-!
# UTF-8

Texts as bytes and back. Writing is exact. Reading never fails: where the bytes are not UTF-8,
each longest part that could have begun a character is read as one replacement character.
-/

namespace PgGateway

/-- A byte string. -/
abbrev Bytes := List UInt8

namespace Utf8

/-- The UTF-8 bytes of a text. -/
def encode (t : Text) : Bytes := t.flatMap String.utf8EncodeChar

/-- What a malformed part is read as. -/
def replacement : Char := '\uFFFD'

/-- A character of which some bytes have been read: the bits so far, the range that the next byte
has to lie in, and how many more bytes follow that one. -/
structure Begun where
  bits : Nat
  low : UInt8
  high : UInt8
  owed : Nat
deriving DecidableEq, Repr

/-- Reads the first byte of a character: a character that is complete, the beginning of a longer
one, or a byte that begins none. -/
def lead (b : UInt8) : Text × Option Begun :=
  let n := b.toNat
  if n < 0x80 then ([Char.ofNat n], none)
  else if 0xC2 ≤ n ∧ n ≤ 0xDF then ([], some ⟨n - 0xC0, 0x80, 0xBF, 0⟩)
  else if n = 0xE0 then ([], some ⟨0, 0xA0, 0xBF, 1⟩)
  else if n = 0xED then ([], some ⟨0xD, 0x80, 0x9F, 1⟩)
  else if 0xE1 ≤ n ∧ n ≤ 0xEF then ([], some ⟨n - 0xE0, 0x80, 0xBF, 1⟩)
  else if n = 0xF0 then ([], some ⟨0, 0x90, 0xBF, 2⟩)
  else if 0xF1 ≤ n ∧ n ≤ 0xF3 then ([], some ⟨n - 0xF0, 0x80, 0xBF, 2⟩)
  else if n = 0xF4 then ([], some ⟨4, 0x80, 0x8F, 2⟩)
  else ([replacement], none)

/-- Reads bytes, with a character begun or not. A byte that cannot go on the character begun ends
it as malformed and is read afresh. -/
def decodeFrom : Option Begun → Bytes → Text
  | none, [] => []
  | some _, [] => [replacement]
  | none, b :: bs => (lead b).1 ++ decodeFrom (lead b).2 bs
  | some p, b :: bs =>
    if p.low ≤ b ∧ b ≤ p.high then
      let bits := p.bits * 64 + (b.toNat - 0x80)
      match p.owed with
      | 0 => Char.ofNat bits :: decodeFrom none bs
      | n + 1 => decodeFrom (some ⟨bits, 0x80, 0xBF, n⟩) bs
    else replacement :: (lead b).1 ++ decodeFrom (lead b).2 bs

/-- The text that the bytes stand for, malformed parts replaced. -/
def decode (bytes : Bytes) : Text := decodeFrom none bytes

end Utf8

end PgGateway
