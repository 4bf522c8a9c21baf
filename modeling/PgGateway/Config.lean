import PgGateway.Text.Numeral

/-!
# Configuration

Where a server listens, which database it opens, what it tells its clients about itself, and how it
completes insertions that return rows.
-/

namespace PgGateway

/-- When the completion of an insertion that returns rows is sent. -/
inductive ReturningMode
  /-- When the client next asks for everything that is still to be answered. -/
  | deferred
  /-- Right after the rows. -/
  | immediate
deriving DecidableEq, Repr

/-- Why a configuration is not accepted. -/
inductive ConfigError
  /-- The address does not begin with the scheme. -/
  | unknownScheme (url : Text)
  | badPort (text : Text)
  | missingHost
  /-- There is no such mode; it is given in lower case. -/
  | unknownMode (mode : Text)
  /-- Anything else, in words. -/
  | other (text : Text)
deriving DecidableEq, Repr

/-- What a rejected configuration is reported as. -/
def ConfigError.message : ConfigError → Text
  | unknownScheme url => "Invalid URL scheme: " ++ url
  | badPort text => "Invalid port: " ++ text
  | missingHost => "Missing host"
  | unknownMode mode => "Invalid returning completion mode: " ++ mode
  | other text => text

namespace ReturningMode

/-- The name of a mode. -/
def name : ReturningMode → Text
  | deferred => "deferred"
  | immediate => "immediate"

/-- The mode of a name, in any letter case. -/
def ofName (t : Text) : Except ConfigError ReturningMode :=
  if Text.lower t = deferred.name then .ok deferred
  else if Text.lower t = immediate.name then .ok immediate
  else .error (.unknownMode (Text.lower t))

end ReturningMode

/-- The configuration of a server. -/
structure Config where
  host : Text := "localhost"
  port : UInt16 := 5432
  /-- The file of the database, or the name of the one in memory. -/
  database : Text := ":memory:"
  serverVersion : Text := "13.3"
  clientEncoding : Text := "UTF8"
  timeZone : Text := "UTC"
  /-- The greatest length that a message of a client may declare. -/
  maxMessageSize : Nat := 104857600
  returning : ReturningMode := .deferred
deriving DecidableEq, Repr

namespace Config

/-- The name of the database in memory. -/
def memory : Text := ":memory:"

/-- The address at which the server listens. -/
def listenAddress (c : Config) : Text := c.host ++ ":" ++ Numeral.ofNat c.port.toNat

/-- What clients are told about the server after startup, in order. -/
def statuses (c : Config) : List (Text × Text) :=
  [("server_version", c.serverVersion), ("client_encoding", c.clientEncoding),
   ("TimeZone", c.timeZone)]

/-! ## Addresses -/

/-- What every address begins with. -/
def scheme : Text := "pgmimic://"

/-- The parts of a text before and after its last colon. -/
def splitLastColon (t : Text) : Option (Text × Text) :=
  if t.contains ':' then
    some (((t.reverse.dropWhile (· != ':')).drop 1).reverse,
      (t.reverse.takeWhile (· != ':')).reverse)
  else none

/-- Reads a host and perhaps a port into a configuration. -/
def readAuthority (authority : Text) (c : Config) : Except ConfigError Config :=
  match splitLastColon authority with
  | some (host, portText) =>
    match Numeral.port? portText with
    | none => .error (.badPort portText)
    | some port => if host.isEmpty then .error .missingHost else .ok { c with host, port }
  | none => .ok (if authority.isEmpty then c else { c with host := authority })

/-- Reads an address: the scheme, a host and perhaps a port, and after the first slash the file of
the database. What is not said keeps its default. -/
def ofUrl (url : Text) : Except ConfigError Config :=
  if scheme.isPrefixOf url then
    let rest := url.drop scheme.length
    let path := (rest.dropWhile (· != '/')).drop 1
    readAuthority (rest.takeWhile (· != '/'))
      (if path.isEmpty then {} else { database := path })
  else .error (.unknownScheme url)

end Config

end PgGateway
