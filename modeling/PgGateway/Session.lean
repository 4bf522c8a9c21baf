import PgGateway.Config
import PgGateway.Projection
import PgGateway.Wire.Frontend

/-!
# Sessions

A session is what one client has negotiated: how far it is, its parameters, its key, and the
completions that wait to be sent. It turns requests into the messages that answer them. The engine
and the registry are shared by all sessions; a query makes at most one call of the engine, and the
registry is brought up to date only after the engine has carried a statement out.
-/

namespace PgGateway

/-- How far a session is. -/
inductive Phase
  | awaitingStartup
  | ready
  | terminated
deriving DecidableEq, Repr

/-- How a statement was completed. -/
inductive Completion
  | created
  | dropped
  /-- So many rows were sent. -/
  | selected (rows : Nat)
  /-- So many rows were changed. -/
  | changed (kind : StatementKind) (rows : Nat)
deriving DecidableEq, Repr

/-- The words of a completion. -/
def Completion.tag : Completion → Text
  | created => StatementKind.createTable.keyword
  | dropped => StatementKind.drop.keyword
  | selected rows => StatementKind.select.keyword ++ " " ++ Numeral.ofNat rows
  | changed kind rows => kind.keyword ++ " 0 " ++ Numeral.ofNat rows

/-- The message of a completion. -/
def Completion.toMessage (c : Completion) : Backend := .commandComplete c.tag

/-- The session of one client. -/
structure Session where
  config : Config
  key : SessionKey
  phase : Phase := .awaitingStartup
  /-- The parameters of the startup request, in the order in which they were sent. -/
  parameters : List (Text × Text) := []
  /-- The completions that wait to be sent, the oldest first. -/
  pending : List Completion := []
deriving DecidableEq, Repr

/-- What all sessions share: the registry of tables, and the state of the engine. -/
structure Shared (σ : Type) where
  registry : Registry
  engine : σ

/-- The answer to a startup request. -/
inductive StartupReply
  /-- The session is open; these messages say so. -/
  | accepted (messages : List Backend)
  /-- There is no encryption; the client may go on without. -/
  | declined
  /-- The connection is closed without an answer. -/
  | close
deriving DecidableEq, Repr

/-- Why a statement failed. -/
inductive StatementError
  | sql (error : SqlError)
  | engine (error : EngineError)
deriving DecidableEq, Repr

/-- The class of a failed statement. -/
def StatementError.sqlState : StatementError → SqlState
  | sql e => e.sqlState
  | engine e => e.sqlState

/-- What a client is told about a failed statement. -/
def StatementError.message : StatementError → Text
  | sql e => e.message
  | engine e => e.clientMessage

/-- The answer to a failed statement. -/
def StatementError.reply (e : StatementError) : List Backend :=
  [.report .error e.sqlState e.message, .ready]

/-- How a query text is answered: at once, or by running a statement. -/
inductive Plan
  | reply (messages : List Backend)
  | run (statement : Translated)
deriving DecidableEq, Repr

/-- The plan for a query text. -/
def Plan.ofText (sql : Text) : Plan :=
  if (Sql.normalize sql).isEmpty then .reply [.emptyQueryResponse, .ready]
  else
    match Sql.translate sql with
    | .error e => .reply (StatementError.reply (.sql e))
    | .ok statement => .run statement

/-- The engine call that a statement needs. -/
def Translated.call (t : Translated) : Call := ⟨t.text, t.statement.counted⟩

namespace Session

/-- The last value sent for a parameter. -/
def parameter? (s : Session) (name : Text) : Option Text :=
  (s.parameters.reverse.find? fun p => p.1 == name).map Prod.snd

/-! ## Startup -/

/-- The messages that open a session. -/
def handshake (s : Session) : List Backend :=
  .authenticationOk :: (s.config.statuses.map fun p => .parameterStatus p.1 p.2) ++
    [.backendKeyData s.key, .ready]

/-- Answers a startup request. -/
def startup (s : Session) (request : Startup) : Except WireError (StartupReply × Session) :=
  match s.phase, request with
  | .awaitingStartup, .session parameters =>
    .ok (.accepted s.handshake, { s with phase := .ready, parameters })
  | .awaitingStartup, .ssl => .ok (.declined, s)
  | .awaitingStartup, .gssEncryption => .ok (.declined, s)
  | .awaitingStartup, .cancel _ => .ok (.close, { s with phase := .terminated })
  | _, _ => .error (.protocol .lateStartup)

/-! ## Queries -/

/-- The messages of a result, described with what the registry knows. -/
def resultMessages (statement : Statement) (result : ResultSet) (registry : Registry) :
    List Backend :=
  (Projection.ofResult result statement.sourceTable registry).messages

/-- Answers a statement that the engine has carried out. The completion of an insertion that
returns rows waits, if the configuration says so; all other statements are completed at once. -/
def succeed (s : Session) (statement : Statement) (result : ResultSet) (registry : Registry) :
    List Backend × Session :=
  match statement with
  | .createTable _ => ([Completion.created.toMessage, .ready], s)
  | .drop _ _ => ([Completion.dropped.toMessage, .ready], s)
  | .select _ =>
    (resultMessages statement result registry ++
      [(Completion.selected result.rows.length).toMessage, .ready], s)
  | .insert insertion =>
    let completion := Completion.changed .insert result.changed
    if insertion.returning.isSome then
      let rows := resultMessages statement result registry
      match s.config.returning with
      | .deferred => (rows, { s with pending := s.pending ++ [completion] })
      | .immediate => (rows ++ [completion.toMessage, .ready], s)
    else ([completion.toMessage, .ready], s)
  | .update _ => ([(Completion.changed .update result.changed).toMessage, .ready], s)
  | .delete _ => ([(Completion.changed .delete result.changed).toMessage, .ready], s)

/-- Answers a statement when the engine has answered its call, and brings the registry up to
date. -/
def complete (s : Session) (statement : Statement) (outcome : Outcome) (registry : Registry) :
    List Backend × Session × Registry :=
  match outcome with
  | .error e => (StatementError.reply (.engine e), s, registry)
  | .ok result =>
    let (messages, s) := s.succeed statement result registry
    (messages, s, registry.record statement)

/-- Answers a query text. -/
def query {σ : Type} (engine : Engine σ) (s : Session) (sql : Text) (shared : Shared σ) :
    List Backend × Session × Shared σ :=
  match Plan.ofText sql with
  | .reply messages => (messages, s, shared)
  | .run t =>
    let (outcome, state) := engine t.call shared.engine
    let (messages, s, registry) := s.complete t.statement outcome shared.registry
    (messages, s, ⟨registry, state⟩)

/-! ## Messages -/

/-- Answers a message. A message before startup is an error that ends the connection, and one after
the end is not answered. -/
def receive {σ : Type} (engine : Engine σ) (s : Session) (message : Frontend) (shared : Shared σ) :
    Except WireError (List Backend × Session × Shared σ) :=
  match s.phase with
  | .terminated => .ok ([], s, shared)
  | .awaitingStartup => .error (.protocol (.earlyMessage message.tag))
  | .ready =>
    match message with
    | .query sql => .ok (s.query engine sql shared)
    | .sync => .ok (s.pending.map Completion.toMessage ++ [.ready], { s with pending := [] }, shared)
    | .terminate => .ok ([], { s with phase := .terminated, pending := [] }, shared)
    | .unknown _ _ => .ok ([], s, shared)

end Session

end PgGateway
