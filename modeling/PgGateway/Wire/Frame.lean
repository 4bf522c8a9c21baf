import PgGateway.Wire.Bytes

/-!
# Frames

A message travels as a frame: a tag, the length of all that follows the tag, the payload, and for a
few tags a zero byte at the end. A frame is taken off the front of a buffer only when all of it is
there.
-/

namespace PgGateway

/-- What taking an item off the front of a buffer gave, and the buffer afterwards. The answer
`none` asks for more bytes. -/
structure Taken (α : Type) where
  answer : Except WireError (Option α)
  rest : Bytes

namespace Taken

variable {α β : Type}

/-- More bytes are needed; the buffer stays as it is. -/
def incomplete (buffer : Bytes) : Taken α := ⟨.ok none, buffer⟩

/-- The header is not acceptable; the buffer stays as it is. -/
def refused (e : WireError) (buffer : Bytes) : Taken α := ⟨.error e, buffer⟩

/-- The bytes of the item are gone from the buffer, whether they could be read or not. -/
def item (result : Except WireError α) (rest : Bytes) : Taken α := ⟨result.map some, rest⟩

/-- Reads the item that was taken further, without touching the buffer. -/
def bind (t : Taken α) (f : α → Except WireError β) : Taken β :=
  match t.answer with
  | .ok none => ⟨.ok none, t.rest⟩
  | .ok (some a) => item (f a) t.rest
  | .error e => ⟨.error e, t.rest⟩

theorem item_eq {result : Except WireError α} {rest rest' : Bytes} {a : α}
    (h : item result rest = ⟨.ok (some a), rest'⟩) : rest' = rest :=
  (congrArg Taken.rest h).symm

theorem bind_eq {t : Taken α} {f : α → Except WireError β} {b : β} {rest : Bytes}
    (h : t.bind f = ⟨.ok (some b), rest⟩) : ∃ a, t = ⟨.ok (some a), rest⟩ := by
  obtain ⟨answer, rest'⟩ := t
  unfold bind at h
  split at h
  · cases h
  · next a ha => cases item_eq h; exact ⟨a, by simp_all⟩
  · cases h

end Taken

namespace Wire

/-- Which side of a conversation sends a message. -/
inductive Origin
  | frontend
  | backend
deriving DecidableEq, Repr

/-- The number of zero bytes at the end of a frame. Tags are used in both directions with
different meanings, so it depends on the sender. -/
def Origin.trailer : Origin → UInt8 → Nat
  | .backend, tag => if tag = 'C'.toUInt8 ∨ tag = 'E'.toUInt8 then 1 else 0
  | .frontend, tag => if tag = 'Q'.toUInt8 then 1 else 0

/-- A message without its framing. -/
structure Frame where
  tag : UInt8
  payload : Bytes
deriving DecidableEq, Repr

namespace Frame

/-- The length that a frame declares: of the length field, the payload and the trailer. -/
def declaredLength (origin : Origin) (f : Frame) : Nat :=
  4 + f.payload.length + origin.trailer f.tag

/-- The bytes of a frame. -/
def encode (origin : Origin) (f : Frame) : Bytes :=
  f.tag :: int32 (Int32.ofNat (f.declaredLength origin)) ++ f.payload ++
    List.replicate (origin.trailer f.tag) 0

/-- The payload of a frame from what follows its length field. -/
def withoutTrailer (trailer : Nat) (tag : UInt8) (content : Bytes) : Except WireError Frame :=
  if trailer = 0 then .ok ⟨tag, content⟩
  else if content.getLast? = some 0 then .ok ⟨tag, content.dropLast⟩
  else .error (.protocol (.missingTrailer tag))

/-- Takes a frame off the front of a buffer, unless it declares more than `limit` bytes. -/
def take (origin : Origin) (limit : Nat) (buffer : Bytes) : Taken Frame :=
  match buffer with
  | tag :: a :: b :: c :: d :: body =>
    let declared := (UInt32.ofNat (number [a, b, c, d])).toInt32
    let trailer := origin.trailer tag
    if declared.toInt < 4 + trailer then
      .refused (.protocol (.messageLength declared tag)) buffer
    else
      let length := declared.toInt.toNat
      if limit < length then .refused (.tooLarge length limit) buffer
      else if body.length + 4 < length then .incomplete buffer
      else .item (withoutTrailer trailer tag (body.take (length - 4))) (body.drop (length - 4))
  | _ => .incomplete buffer

/-- A frame that was taken off leaves a shorter buffer. -/
theorem take_length_lt {origin : Origin} {limit : Nat} {buffer rest : Bytes} {f : Frame}
    (h : take origin limit buffer = ⟨.ok (some f), rest⟩) : rest.length < buffer.length := by
  unfold take at h
  split at h
  · dsimp only at h
    split at h
    · cases h
    · split at h
      · cases h
      · split at h
        · cases h
        · rw [Taken.item_eq h]
          simp only [List.length_drop, List.length_cons]
          omega
  · cases h

end Frame

end Wire

end PgGateway
