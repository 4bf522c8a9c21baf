import PgGateway.Wire.Frame

/-!
# Messages of a client

After startup a client sends queries, asks for pending answers, or ends the session. Any other
message is kept as it came.
-/

namespace PgGateway

/-- A message of a client after startup. -/
inductive Frontend
  /-- A query text to run. -/
  | query (sql : Text)
  /-- A request for everything that is still to be answered. -/
  | sync
  /-- The end of the session. -/
  | terminate
  /-- Any other message. -/
  | unknown (tag : UInt8) (payload : Bytes)
deriving DecidableEq, Repr

namespace Frontend

open Wire

/-- The tag that a message travels under. -/
def tag : Frontend → UInt8
  | query _ => 'Q'.toUInt8
  | sync => 'S'.toUInt8
  | terminate => 'X'.toUInt8
  | unknown tag _ => tag

/-- The frame of a message. -/
def toFrame : Frontend → Frame
  | query sql => ⟨'Q'.toUInt8, Utf8.encode sql⟩
  | sync => ⟨'S'.toUInt8, []⟩
  | terminate => ⟨'X'.toUInt8, []⟩
  | unknown tag payload => ⟨tag, payload⟩

/-- The bytes of a message. -/
def encode (m : Frontend) : Bytes := m.toFrame.encode .frontend

/-- The message in a frame. A query text ends at its first zero byte. -/
def ofFrame (f : Frame) : Frontend :=
  if f.tag = 'Q'.toUInt8 then query (Utf8.decode (f.payload.takeWhile (· != 0)))
  else if f.tag = 'S'.toUInt8 then sync
  else if f.tag = 'X'.toUInt8 then terminate
  else unknown f.tag f.payload

/-- Takes a message off the front of a buffer, unless it declares more than `limit` bytes. -/
def take (limit : Nat) (buffer : Bytes) : Taken Frontend :=
  (Frame.take .frontend limit buffer).bind fun f => .ok (ofFrame f)

/-- A message that was taken off leaves a shorter buffer. -/
theorem take_length_lt {limit : Nat} {buffer rest : Bytes} {m : Frontend}
    (h : take limit buffer = ⟨.ok (some m), rest⟩) : rest.length < buffer.length := by
  obtain ⟨f, hf⟩ := Taken.bind_eq h
  exact Frame.take_length_lt hf

end Frontend

end PgGateway
