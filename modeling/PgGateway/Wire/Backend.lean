import PgGateway.SqlState
import PgGateway.Wire.Oid
import PgGateway.Wire.Startup

/-!
# Messages of the server

The answers of a session: the handshake, the description and the rows of a result, completions,
errors, and the sign that the next query may come. They are read as well as written, so that a
conversation can be followed from either end.
-/

namespace PgGateway

/-- How the values of a column travel. -/
inductive Format
  | text
  | binary
deriving DecidableEq, Repr

/-- The description of a column of a result. -/
structure Field where
  name : Text
  tableOid : Int32
  position : Int16
  oid : Oid
  size : Int16
  modifier : Int32
  format : Format
deriving DecidableEq, Repr

/-- A column whose values travel as text and that belongs to no table of a catalogue. -/
def Field.plain (name : Text) (position : Int16) (oid : Oid) : Field :=
  ⟨name, 0, position, oid, -1, -1, .text⟩

/-- Where a session stands with respect to transactions. -/
inductive TransactionStatus
  | idle
  | inTransaction
  | failed
deriving DecidableEq, Repr

/-- A message of the server. -/
inductive Backend
  | authenticationOk
  | parameterStatus (name value : Text)
  | backendKeyData (key : SessionKey)
  | readyForQuery (status : TransactionStatus)
  | rowDescription (fields : List Field)
  /-- One row; `none` is NULL. -/
  | dataRow (values : List (Option Bytes))
  | commandComplete (tag : Text)
  | emptyQueryResponse
  | errorResponse (severity code message : Text)
deriving DecidableEq, Repr

/-- The status as the byte it travels as. -/
def TransactionStatus.byte : TransactionStatus → UInt8
  | idle => 'I'.toUInt8
  | inTransaction => 'T'.toUInt8
  | failed => 'E'.toUInt8

/-- The status that a byte stands for; unknown bytes stand for an idle session. -/
def TransactionStatus.ofByte (b : UInt8) : TransactionStatus :=
  if b = 'T'.toUInt8 then inTransaction
  else if b = 'E'.toUInt8 then failed
  else idle

/-- The format as the number it travels as. -/
def Format.number : Format → Int16
  | text => 0
  | binary => 1

/-- The format that a number stands for: everything but zero is binary. -/
def Format.ofNumber (n : Int16) : Format := if n = 0 then text else binary

namespace Backend

open Wire

/-- The server is ready for the next query. -/
def ready : Backend := readyForQuery .idle

/-- An error report. -/
def report (severity : Severity) (state : SqlState) (message : Text) : Backend :=
  errorResponse severity.text state.code message

/-! ## Writing -/

/-- The bytes of a column description. -/
def encodeField (f : Field) : Bytes :=
  cstring f.name ++ int32 f.tableOid ++ int16 f.position ++ int32 f.oid.number ++ int16 f.size ++
    int32 f.modifier ++ int16 f.format.number

/-- The bytes of a value: its length and itself, or a negative length for NULL. -/
def encodeValue : Option Bytes → Bytes
  | some data => int32 (Int32.ofNat data.length) ++ data
  | none => int32 (-1)

/-- The frame of a message. The zero bytes that end a completion and a list of error fields belong
to the framing. -/
def toFrame : Backend → Frame
  | authenticationOk => ⟨'R'.toUInt8, int32 0⟩
  | parameterStatus name value => ⟨'S'.toUInt8, cstring name ++ cstring value⟩
  | backendKeyData key => ⟨'K'.toUInt8, int32 key.processId ++ int32 key.secretKey⟩
  | readyForQuery status => ⟨'Z'.toUInt8, [status.byte]⟩
  | rowDescription fields =>
    ⟨'T'.toUInt8, int16 (Int16.ofNat fields.length) ++ fields.flatMap encodeField⟩
  | dataRow values =>
    ⟨'D'.toUInt8, int16 (Int16.ofNat values.length) ++ values.flatMap encodeValue⟩
  | commandComplete tag => ⟨'C'.toUInt8, Utf8.encode tag⟩
  | emptyQueryResponse => ⟨'I'.toUInt8, []⟩
  | errorResponse severity code message =>
    ⟨'E'.toUInt8, 'S'.toUInt8 :: cstring severity ++ 'V'.toUInt8 :: cstring severity ++
      'C'.toUInt8 :: cstring code ++ 'M'.toUInt8 :: cstring message⟩

/-- The bytes of a message. -/
def encode (m : Backend) : Bytes := m.toFrame.encode .backend

/-- The bytes of messages, one after the other. -/
def encodeAll (ms : List Backend) : Bytes := ms.flatMap encode

/-! ## Reading -/

/-- Reads a column description. -/
def readField : Reader Field := do
  let name ← Reader.cstring
  Reader.need .rowField 18
  let tableOid ← Reader.int32
  let position ← Reader.int16
  let oid ← Reader.int32
  let size ← Reader.int16
  let modifier ← Reader.int32
  let format ← Reader.int16
  return ⟨name, tableOid, position, ⟨oid⟩, size, modifier, .ofNumber format⟩

/-- Reads a value. -/
def readValue : Reader (Option Bytes) := do
  Reader.need .valueLength 4
  let length ← Reader.int32
  if length < 0 then return none
  Reader.need .value length.toInt.toNat
  return some (← Reader.take length.toInt.toNat)

/-- Reads a count and then that many items; a negative count stands for none. -/
def readCounted {α : Type} (part : Part) (r : Reader α) : Reader (List α) := do
  Reader.need part 2
  let count ← Reader.int16
  Reader.times count.toInt.toNat r

/-- Reads the fields of an error report until a zero byte or the end of the body; every field takes
at least two bytes, so `fuel` of the body's length is enough. -/
def readErrorFields : Nat → Reader (List (UInt8 × Text))
  | 0 => pure []
  | fuel + 1 => do
    if (← get).isEmpty then return []
    let kind ← Reader.byte
    if kind = 0 then return []
    let value ← Reader.cstring
    return (kind, value) :: (← readErrorFields fuel)

/-- The last field of a kind, or nothing written. -/
def lastField (fields : List (UInt8 × Text)) (kind : Char) : Text :=
  ((fields.reverse.find? (·.1 = kind.toUInt8)).map Prod.snd).getD []

/-- Reads the payload of a message with a given tag. -/
def readPayload (tag : UInt8) : Reader Backend := do
  if tag = 'R'.toUInt8 then
    Reader.need .authentication 4
    let method ← Reader.int32
    if method = 0 then return authenticationOk
    else Reader.violation (.unknownAuthentication method)
  else if tag = 'S'.toUInt8 then return parameterStatus (← Reader.cstring) (← Reader.cstring)
  else if tag = 'K'.toUInt8 then
    Reader.need .backendKeyData 8
    return backendKeyData ⟨← Reader.int32, ← Reader.int32⟩
  else if tag = 'Z'.toUInt8 then
    Reader.need .readyForQuery 1
    return readyForQuery (.ofByte (← Reader.byte))
  else if tag = 'T'.toUInt8 then return rowDescription (← readCounted .rowDescription readField)
  else if tag = 'D'.toUInt8 then return dataRow (← readCounted .dataRow readValue)
  else if tag = 'C'.toUInt8 then return commandComplete (Utf8.decode (← get))
  else if tag = 'I'.toUInt8 then return emptyQueryResponse
  else if tag = 'E'.toUInt8 then
    let fields ← readErrorFields (← get).length
    return errorResponse (lastField fields 'S') (lastField fields 'C') (lastField fields 'M')
  else Reader.violation (.unknownTag tag)

/-- The message in a frame; bytes of the payload that are left over do not matter. -/
def ofFrame (f : Frame) : Except WireError Backend := ((readPayload f.tag).run f.payload).map Prod.fst

/-- Takes a message off the front of a buffer. Any length that can be declared is allowed. -/
def take (buffer : Bytes) : Taken Backend :=
  (Frame.take .backend 0x7FFFFFFF buffer).bind ofFrame

end Backend

end PgGateway
