import PgGateway.Text.Numeral

/-!
# Failures of a connection

Why a connection cannot go on: the transport failed, the peer broke the protocol, asked for another
version of it, or announced a message that is too long.
-/

namespace PgGateway

namespace Wire

/-- The parts of a message whose bytes can be missing. -/
inductive Part
  | cancelRequest
  | authentication
  | backendKeyData
  | readyForQuery
  | rowDescription
  | rowField
  | dataRow
  | valueLength
  | value
deriving DecidableEq, Repr

/-- The name of a part in messages. -/
def Part.name : Part → Text
  | cancelRequest => "CancelRequest"
  | authentication => "Authentication"
  | backendKeyData => "BackendKeyData"
  | readyForQuery => "ReadyForQuery"
  | rowDescription => "RowDescription"
  | rowField => "RowDescription field"
  | dataRow => "DataRow"
  | valueLength => "DataRow value length"
  | value => "DataRow value"

/-- The ways to break the protocol. -/
inductive Violation
  /-- A message declares a length that its own header does not fit in. -/
  | messageLength (declared : Int32) (tag : UInt8)
  /-- A startup packet declares a length that its own header does not fit in. -/
  | packetLength (declared : Int32)
  /-- A message that has to end with a zero byte does not. -/
  | missingTrailer (tag : UInt8)
  /-- No zero byte ends a string. -/
  | missingTerminator
  /-- The body ends before the part does. -/
  | truncated (part : Part)
  /-- The server asks for a form of authentication other than none. -/
  | unknownAuthentication (method : Int32)
  /-- No message of the server has this tag. -/
  | unknownTag (tag : UInt8)
  /-- A startup packet after startup. -/
  | lateStartup
  /-- A message before startup. -/
  | earlyMessage (tag : UInt8)
  /-- Anything else, in words. -/
  | other (text : Text)
deriving DecidableEq, Repr

/-- A byte shown as the character of the same number. -/
def byteChar (b : UInt8) : Char := Char.ofNat b.toNat

/-- What a violation is reported as. -/
def Violation.message : Violation → Text
  | messageLength declared tag =>
    "Invalid length " ++ Numeral.ofInt declared.toInt ++ " for message '" ++ [byteChar tag] ++ "'"
  | packetLength declared => "Invalid startup packet length: " ++ Numeral.ofInt declared.toInt
  | missingTrailer tag => "Missing null terminator in message '" ++ [byteChar tag] ++ "'"
  | missingTerminator => "Missing null terminator in string"
  | truncated part => "Truncated " ++ part.name ++ " message"
  | unknownAuthentication method => "Unknown authentication type: " ++ Numeral.ofInt method.toInt
  | unknownTag tag => "Unknown message type: " ++ [byteChar tag]
  | lateStartup => "Startup packet after startup completed"
  | earlyMessage tag => "Unexpected message '" ++ [byteChar tag] ++ "' before startup"
  | other text => text

end Wire

/-- Why a connection cannot go on. -/
inductive WireError
  /-- The transport failed. -/
  | io (text : Text)
  /-- The peer broke the protocol. -/
  | protocol (violation : Wire.Violation)
  /-- The client asks for another version of the protocol. -/
  | unsupportedVersion (version : Int32)
  /-- A message declares more bytes than are allowed. -/
  | tooLarge (length limit : Nat)
  /-- The peer is gone. -/
  | closed
deriving DecidableEq, Repr

namespace WireError

/-- What the failure is reported as. A version number carries the major version in its upper
sixteen bits and the minor one in its lower sixteen. -/
def message : WireError → Text
  | io text => "I/O error: " ++ text
  | protocol violation => "Protocol error: " ++ violation.message
  | unsupportedVersion version =>
    "Unsupported protocol version " ++ Numeral.ofInt (version.toInt / 65536) ++ "." ++
      Numeral.ofInt (version.toInt % 65536)
  | tooLarge length limit =>
    "Message too large: " ++ Numeral.ofNat length ++ " bytes (max " ++ Numeral.ofNat limit ++ ")"
  | closed => "Connection is closed"

/-- The peer is at fault, and is told so before the connection ends. -/
def isViolation : WireError → Bool
  | protocol _ => true
  | tooLarge _ _ => true
  | _ => false

end WireError

end PgGateway
