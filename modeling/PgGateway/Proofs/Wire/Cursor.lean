import PgGateway.Proofs.Wire.AllOrNothing

/-!
# Decoding in place

A decoder can work on the buffer itself: it looks bytes up by their number, cuts runs off the front
and the end, and computes with the lengths that it reads. Each of these operations is defined on
some buffers only, and aborts on all others; conversions of numbers abort where they would wrap, and
a loop that makes no progress is not waited for. The decoders are written here with such operations
(`Cursor.frame`, `Cursor.startup`, `Cursor.message`, `Cursor.clientMessage`), in the order in which
they look at a buffer.
-/

namespace PgGateway

open Wire

/-- Works on the bytes of a buffer: it aborts, or fails, or gives a value, and leaves a buffer. -/
abbrev Cursor (α : Type) := ExceptT WireError (StateT Bytes Option) α

namespace Cursor

variable {α : Type}

/-- What comes of working on a buffer, and what is left of it. -/
def on (bytes : Bytes) (c : Cursor α) : Option (Except WireError α × Bytes) :=
  StateT.run (ExceptT.run c) bytes

/-! ## Operations that abort -/

/-- Aborts where there is no value. -/
def orAbort (value : Option α) : Cursor α :=
  ExceptT.mk fun bytes => value.map fun a => (.ok a, bytes)

/-- Cuts so many bytes off the front. -/
def split (n : Nat) : Cursor Bytes := ExceptT.mk fun bytes =>
  if n ≤ bytes.length then some (.ok (bytes.take n), bytes.drop n) else none

/-- The byte of that number. -/
def index (i : Nat) : Cursor UInt8 := do orAbort (← get)[i]?

/-- The bytes in front of the byte of that number. -/
def front (stop : Nat) : Cursor Bytes := do
  let bytes ← get
  orAbort (if stop ≤ bytes.length then some (bytes.take stop) else none)

/-- Drops so many bytes at the front. -/
def advance (n : Nat) : Cursor Unit := do
  let _ ← split n

/-- Keeps so many bytes, or all if there are no more. -/
def truncate (n : Nat) : Cursor Unit := modify (·.take n)

/-- One byte. -/
def byte : Cursor UInt8 := do return UInt8.ofNat (number (← split 1))

/-- A signed number of two bytes. -/
def int16 : Cursor Int16 := do return (UInt16.ofNat (number (← split 2))).toInt16

/-- A signed number of four bytes. -/
def int32 : Cursor Int32 := do return (UInt32.ofNat (number (← split 4))).toInt32

/-- A number as a length. A negative one would wrap. -/
def length (i : Int) : Cursor Nat := orAbort (if 0 ≤ i then some i.toNat else none)

/-- A length as a signed number of four bytes. -/
def narrow (n : Nat) : Cursor Int32 := orAbort (if n < 2 ^ 31 then some (Int32.ofNat n) else none)

/-- The sum of two lengths, in words of four bytes or more. -/
def add (m n : Nat) : Cursor Nat := orAbort (if m + n < 2 ^ 32 then some (m + n) else none)

/-- The difference of two lengths. -/
def sub (m n : Nat) : Cursor Nat := orAbort (if n ≤ m then some (m - n) else none)

/-- Works on other bytes, and leaves the buffer as it is. -/
def within (bytes : Bytes) (c : Cursor α) : Cursor α := ExceptT.mk fun buffer =>
  (c.on bytes).map fun (answer, _) => (answer, buffer)

/-- Rounds on a buffer, as long as bytes are left and a round gives something. One that gives
something and uses nothing up would be repeated for ever. -/
def roundsOn (round : Cursor (Option α)) (bytes : Bytes) :
    Option (Except WireError (List α) × Bytes) :=
  if bytes.isEmpty then some (.ok [], bytes)
  else
    match round.on bytes with
    | none => none
    | some (.error e, rest) => some (.error e, rest)
    | some (.ok none, rest) => some (.ok [], rest)
    | some (.ok (some a), rest) =>
      if rest.length < bytes.length then
        (roundsOn round rest).map (Prod.map (Except.map (a :: ·)) id)
      else none
termination_by bytes.length

/-- Repeats a round as long as bytes are left. -/
def whileLeft (round : Cursor (Option α)) : Cursor (List α) := ExceptT.mk (roundsOn round)

/-- Makes so many rounds. -/
def times : Nat → Cursor α → Cursor (List α)
  | 0, _ => pure []
  | n + 1, round => do return (← round) :: (← times n round)

/-! ## Parts of messages -/

/-- Fails unless `n` bytes of the part are there. -/
def ensure (part : Part) (n : Nat) : Cursor Unit := do
  if (← get).length < n then throw (.protocol (.truncated part))

/-- A string, up to the zero byte that ends it. -/
def cstring : Cursor Text := do
  match (← get).findIdx? (· == 0) with
  | none => throw (.protocol .missingTerminator)
  | some stop =>
    let bytes ← front stop
    advance (stop + 1)
    return Utf8.decode bytes

/-- A parameter of a startup packet; one without a name is the end. -/
def parameter : Cursor (Option (Text × Text)) := do
  let name ← cstring
  if name.isEmpty then return none
  return some (name, ← cstring)

/-- A field of an error report; one of kind zero is the end. -/
def errorField : Cursor (Option (UInt8 × Text)) := do
  let kind ← byte
  if kind = 0 then return none
  return some (kind, ← cstring)

/-- A column description. -/
def field : Cursor Field := do
  let name ← cstring
  ensure .rowField 18
  let tableOid ← int32
  let position ← int16
  let oid ← int32
  let size ← int16
  let modifier ← int32
  let format ← int16
  return ⟨name, tableOid, position, ⟨oid⟩, size, modifier, .ofNumber format⟩

/-- A value of a row. -/
def value : Cursor (Option Bytes) := do
  ensure .valueLength 4
  let declared ← int32
  if declared < 0 then return none
  ensure .value (← length declared.toInt)
  return some (← split (← length declared.toInt))

/-- A count and so many items; a negative count stands for none. -/
def counted (part : Part) (item : Cursor α) : Cursor (List α) := do
  ensure part 2
  let count ← int16
  times (← length (max count.toInt 0)) item

/-! ## Decoders -/

/-- What follows the header of a frame, without the trailer. -/
def payload (trailer : Nat) (tag : UInt8) : Cursor Frame := do
  if trailer = 1 then
    let bytes ← get
    if bytes.getLast? ≠ some 0 then throw (.protocol (.missingTrailer tag))
    truncate (← sub bytes.length 1)
  return ⟨tag, ← get⟩

/-- Takes an item off the front of the buffer: so many bytes as it declares, and those in front of
its length field. `short` is what is wrong with an item that declares less than the least. -/
def item (before least limit : Nat) (declared : Int32) (short : WireError) (read : Cursor α) :
    Cursor (Option α) := do
  let buffer ← get
  if declared < (← narrow least) then throw short
  let declared ← length declared.toInt
  if limit < declared then throw (.tooLarge declared limit)
  let total ← add before declared
  if buffer.length < total then
    let _missing ← sub total buffer.length
    return none
  return some (← within (← split total) read)

/-- Takes a frame off the front of the buffer. -/
def frame (origin : Origin) (limit : Nat) : Cursor (Option Frame) := do
  if (← get).length < 5 then return none
  let tag ← index 0
  let declared := (UInt32.ofNat
    (number [← index 1, ← index 2, ← index 3, ← index 4])).toInt32
  let trailer := origin.trailer tag
  item 1 (4 + trailer) limit declared (.protocol (.messageLength declared tag)) do
    advance 5
    payload trailer tag

/-- What follows the length field of a startup packet. -/
def request : Cursor Startup := do
  let version ← int32
  if version = Startup.version3 then return .session (← whileLeft parameter)
  else if version = Startup.sslCode then return .ssl
  else if version = Startup.gssCode then return .gssEncryption
  else if version = Startup.cancelCode then
    ensure .cancelRequest 8
    return .cancel ⟨← int32, ← int32⟩
  else throw (.unsupportedVersion version)

/-- Takes a startup packet off the front of the buffer. -/
def startup (limit : Nat) : Cursor (Option Startup) := do
  if (← get).length < 4 then return none
  let declared := (UInt32.ofNat
    (number [← index 0, ← index 1, ← index 2, ← index 3])).toInt32
  item 0 8 limit declared (.protocol (.packetLength declared)) do
    advance 4
    request

/-- Reads the payload of a message of the server with a given tag. -/
def message (tag : UInt8) : Cursor Backend := do
  if tag = 'R'.toUInt8 then
    ensure .authentication 4
    let method ← int32
    if method = 0 then return .authenticationOk
    else throw (.protocol (.unknownAuthentication method))
  else if tag = 'S'.toUInt8 then return .parameterStatus (← cstring) (← cstring)
  else if tag = 'K'.toUInt8 then
    ensure .backendKeyData 8
    return .backendKeyData ⟨← int32, ← int32⟩
  else if tag = 'Z'.toUInt8 then
    ensure .readyForQuery 1
    return .readyForQuery (.ofByte (← byte))
  else if tag = 'T'.toUInt8 then return .rowDescription (← counted .rowDescription field)
  else if tag = 'D'.toUInt8 then return .dataRow (← counted .dataRow value)
  else if tag = 'C'.toUInt8 then return .commandComplete (Utf8.decode (← get))
  else if tag = 'I'.toUInt8 then return .emptyQueryResponse
  else if tag = 'E'.toUInt8 then
    let fields ← whileLeft errorField
    return .errorResponse (Backend.lastField fields 'S') (Backend.lastField fields 'C')
      (Backend.lastField fields 'M')
  else throw (.protocol (.unknownTag tag))

/-- Reads the payload of a message of a client with a given tag. A query text ends at its first zero
byte, or with the payload. -/
def clientMessage (tag : UInt8) : Cursor Frontend := do
  if tag = 'Q'.toUInt8 then
    let bytes ← get
    return .query (Utf8.decode (← front ((bytes.findIdx? (· == 0)).getD bytes.length)))
  else if tag = 'S'.toUInt8 then return .sync
  else if tag = 'X'.toUInt8 then return .terminate
  else return .unknown tag (← get)

end Cursor

end PgGateway
