import PgGateway.Session

/-!
# Servers

A server opens its database, learns which tables it holds, and gives every client a session with a
number of its own.
-/

namespace PgGateway

/-- Why a server cannot go on. -/
inductive ServerError
  | config (error : ConfigError)
  | database (error : EngineError)
  | protocol (error : WireError)
  | io (text : Text)
deriving DecidableEq, Repr

/-- What the failure of a server is reported as. -/
def ServerError.message : ServerError → Text
  | config e => "Configuration error: " ++ e.message
  | database e => "Backing database error: " ++ e.message
  | protocol e => "Protocol error: " ++ e.message
  | io text => "I/O error: " ++ text

/-- A server that accepts clients. -/
structure Server where
  config : Config
  /-- The number of the next session. -/
  nextProcessId : Int32 := 1
deriving DecidableEq, Repr

namespace Server

/-- Starts a server on an engine. The tables of a database in a file are loaded; one in memory holds
none. -/
def start {σ : Type} (engine : Engine σ) (config : Config) (state : σ) :
    Except ServerError (Server × Shared σ) :=
  if config.database = Config.memory then .ok ({ config }, ⟨.empty, state⟩)
  else
    match Registry.load engine .empty state with
    | (.error e, _, _) => .error (.database e)
    | (.ok _, registry, state) => .ok ({ config }, ⟨registry, state⟩)

/-- A session for the next client, with a secret key drawn for it. -/
def newSession (server : Server) (secretKey : Int32) : Session × Server :=
  ({ config := server.config, key := ⟨server.nextProcessId, secretKey⟩ },
    { server with nextProcessId := server.nextProcessId + 1 })

end Server

end PgGateway
