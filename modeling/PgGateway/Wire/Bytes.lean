import PgGateway.Text.Utf8
import PgGateway.Wire.Error

/-!
# Fields of messages

Numbers travel with their highest byte first, strings as UTF-8 with a zero byte after them. Each
kind of field has a writer and a reader. A reader works on the bytes of a body that are still
unread.
-/

namespace PgGateway.Wire

/-! ## Writing -/

/-- A number in two bytes. -/
def bytes16 (n : UInt16) : Bytes := [UInt8.ofNat (n.toNat / 0x100), UInt8.ofNat n.toNat]

/-- A number in four bytes. -/
def bytes32 (n : UInt32) : Bytes :=
  [UInt8.ofNat (n.toNat / 0x1000000), UInt8.ofNat (n.toNat / 0x10000),
   UInt8.ofNat (n.toNat / 0x100), UInt8.ofNat n.toNat]

/-- A signed number in two bytes. -/
def int16 (i : Int16) : Bytes := bytes16 i.toUInt16

/-- A signed number in four bytes. -/
def int32 (i : Int32) : Bytes := bytes32 i.toUInt32

/-- A string and the zero byte that ends it. -/
def cstring (t : Text) : Bytes := Utf8.encode t ++ [0]

/-! ## Reading -/

/-- The number that the bytes write, highest first. -/
def number (bytes : Bytes) : Nat := bytes.foldl (fun n b => n * 0x100 + b.toNat) 0

/-- Reads from the unread bytes of a body and leaves the rest, or fails. -/
abbrev Reader (α : Type) := StateT Bytes (Except WireError) α

namespace Reader

/-- Fails with a violation of the protocol. -/
def violation {α : Type} (v : Violation) : Reader α := throw (.protocol v)

/-- There are at least `n` bytes. -/
def atLeast (n : Nat) (bytes : Bytes) : Bool := (bytes.take n).length == n

theorem atLeast_eq_true_iff {n : Nat} {bytes : Bytes} :
    atLeast n bytes = true ↔ n ≤ bytes.length := by
  rw [atLeast, beq_iff_eq, List.length_take]
  omega

/-- Fails unless `n` bytes of the part are there. -/
def need (part : Part) (n : Nat) : Reader Unit := fun bytes =>
  if atLeast n bytes then .ok ((), bytes) else .error (.protocol (.truncated part))

/-- The next `n` bytes. A read past the end of the body fails as if the peer were gone; readers
make sure with `need` that it never comes to that. -/
def take (n : Nat) : Reader Bytes := fun bytes =>
  if atLeast n bytes then .ok (bytes.take n, bytes.drop n) else .error .closed

/-- One byte. -/
def byte : Reader UInt8 := do return UInt8.ofNat (number (← take 1))

/-- A signed number of two bytes. -/
def int16 : Reader Int16 := do return (UInt16.ofNat (number (← take 2))).toInt16

/-- A signed number of four bytes. -/
def int32 : Reader Int32 := do return (UInt32.ofNat (number (← take 4))).toInt32

/-- A string, up to the zero byte that ends it. -/
def cstring : Reader Text := fun bytes =>
  match bytes.dropWhile (· != 0) with
  | [] => .error (.protocol .missingTerminator)
  | _ :: rest => .ok (Utf8.decode (bytes.takeWhile (· != 0)), rest)

/-- The same reader `n` times. -/
def times {α : Type} : Nat → Reader α → Reader (List α)
  | 0, _ => pure []
  | n + 1, r => do return (← r) :: (← times n r)

end Reader

end PgGateway.Wire
