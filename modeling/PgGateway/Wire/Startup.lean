import PgGateway.Wire.Frame

/-!
# Startup packets

The first packets of a client carry no tag. A version number, or one of a few codes in its place,
tells what the client wants.
-/

namespace PgGateway

/-- The pair of numbers that a session is known by, to cancel its queries. -/
structure SessionKey where
  processId : Int32
  secretKey : Int32
deriving DecidableEq, Repr

/-- What a client asks for before anything else. -/
inductive Startup
  /-- A session, with parameters in the order in which they were sent. -/
  | session (parameters : List (Text × Text))
  /-- TLS encryption. -/
  | ssl
  /-- GSSAPI encryption. -/
  | gssEncryption
  /-- The cancelling of another session's query. -/
  | cancel (key : SessionKey)
deriving DecidableEq, Repr

namespace Startup

open Wire

/-- The number of protocol version 3.0. -/
def version3 : Int32 := 196608

/-- The code of a request to cancel. -/
def cancelCode : Int32 := 80877102

/-- The code of a request for TLS. -/
def sslCode : Int32 := 80877103

/-- The code of a request for GSSAPI encryption. -/
def gssCode : Int32 := 80877104

/-! ## Writing -/

/-- A parameter: its name and its value. -/
def encodeParameter (p : Text × Text) : Bytes := cstring p.1 ++ cstring p.2

/-- What follows the length field of a packet. -/
def body : Startup → Bytes
  | session parameters => int32 version3 ++ parameters.flatMap encodeParameter ++ [0]
  | ssl => int32 sslCode
  | gssEncryption => int32 gssCode
  | cancel key => int32 cancelCode ++ int32 key.processId ++ int32 key.secretKey

/-- The bytes of a packet: the length of all of it, and the body. -/
def encode (s : Startup) : Bytes := int32 (Int32.ofNat (4 + s.body.length)) ++ s.body

/-- Writes over the bytes of a buffer that begin at a position. -/
def overwrite (buffer : Bytes) (position : Nat) (bytes : Bytes) : Bytes :=
  buffer.take position ++ bytes ++ buffer.drop (position + bytes.length)

/-- Puts a packet at the end of a buffer. Room is left for the length, which is written over when
the rest of the packet is there. -/
def appendTo (buffer : Bytes) (s : Startup) : Bytes :=
  let filled := buffer ++ int32 0 ++ s.body
  overwrite filled buffer.length (int32 (Int32.ofNat (filled.length - buffer.length)))

/-! ## Reading -/

/-- Reads parameters until an empty name or the end of the packet; every parameter takes at least
two bytes, so `fuel` of the packet's length is enough. -/
def readParameters : Nat → Reader (List (Text × Text))
  | 0 => pure []
  | fuel + 1 => do
    if (← get).isEmpty then return []
    let name ← Reader.cstring
    if name.isEmpty then return []
    let value ← Reader.cstring
    return (name, value) :: (← readParameters fuel)

/-- Reads what follows the length field. -/
def readBody : Reader Startup := do
  let version ← Reader.int32
  if version = version3 then return session (← readParameters (← get).length)
  else if version = sslCode then return ssl
  else if version = gssCode then return gssEncryption
  else if version = cancelCode then
    Reader.need .cancelRequest 8
    return cancel ⟨← Reader.int32, ← Reader.int32⟩
  else throw (.unsupportedVersion version)

/-- Reads the body of a packet; bytes that are left over do not matter. -/
def ofBody (body : Bytes) : Except WireError Startup := (readBody.run body).map Prod.fst

/-- Takes a startup packet off the front of a buffer, unless it declares more than `limit`
bytes. -/
def take (limit : Nat) (buffer : Bytes) : Taken Startup :=
  match buffer with
  | a :: b :: c :: d :: body =>
    let declared := (UInt32.ofNat (number [a, b, c, d])).toInt32
    if declared.toInt < 8 then .refused (.protocol (.packetLength declared)) buffer
    else
      let length := declared.toInt.toNat
      if limit < length then .refused (.tooLarge length limit) buffer
      else if body.length + 4 < length then .incomplete buffer
      else .item (ofBody (body.take (length - 4))) (body.drop (length - 4))
  | _ => .incomplete buffer

/-- A packet that was taken off leaves a shorter buffer. -/
theorem take_length_lt {limit : Nat} {buffer rest : Bytes} {s : Startup}
    (h : take limit buffer = ⟨.ok (some s), rest⟩) : rest.length < buffer.length := by
  unfold take at h
  split at h
  · dsimp only at h
    split at h
    · cases h
    · split at h
      · cases h
      · split at h
        · cases h
        · rw [Taken.item_eq h]
          simp only [List.length_drop, List.length_cons]
          omega
  · cases h

end Startup

end PgGateway
