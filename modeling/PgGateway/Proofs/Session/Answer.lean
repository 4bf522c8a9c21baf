import PgGateway.Session

/-!
# What a session does with a request or a message

A session that awaits startup answers every request of startup (`startup_fresh`). A ready session
answers every message, `answer` tells how; only the message that terminates it ends it. The calls of
the engine that a message makes are known from the message alone, and an engine that keeps its calls
shows it (`answer_recording`).
-/

namespace PgGateway

variable {σ : Type}

/-! ## Calls of the engine -/

/-- An engine that also keeps the calls that it was given, in order. -/
def Engine.recording (engine : Engine σ) : Engine (List Call × σ) := fun call state =>
  let (outcome, next) := engine call state.2
  (outcome, state.1 ++ [call], next)

/-- What sessions share when the engine keeps its calls. -/
def Shared.recording (calls : List Call) (shared : Shared σ) : Shared (List Call × σ) :=
  ⟨shared.registry, calls, shared.engine⟩

/-- The call that a plan makes, if it makes one. -/
def Plan.calls : Plan → List Call
  | .reply _ => []
  | .run statement => [statement.call]

/-- The calls that a message makes when the session is ready. -/
def Frontend.calls : Frontend → List Call
  | query sql => (Plan.ofText sql).calls
  | _ => []

namespace Session

variable {engine : Engine σ} {s : Session} {message : Frontend} {shared : Shared σ}

/-- The session that a client opens with its parameters. -/
def opened (s : Session) (parameters : List (Text × Text)) : Session :=
  { s with phase := .ready, parameters }

theorem startup_fresh {request : Startup} (fresh : s.phase = .awaitingStartup) :
    s.startup request = .ok (match request with
      | .session parameters => (.accepted s.handshake, s.opened parameters)
      | .ssl | .gssEncryption => (.declined, s)
      | .cancel _ => (.close, { s with phase := .terminated })) := by
  unfold startup
  rw [fresh]
  cases request <;> rfl

/-- What a ready session does with a message. -/
def answer (engine : Engine σ) (s : Session) (message : Frontend) (shared : Shared σ) :
    List Backend × Session × Shared σ :=
  match message with
  | .query sql => s.query engine sql shared
  | .sync => (s.pending.map Completion.toMessage ++ [.ready], { s with pending := [] }, shared)
  | .terminate => ([], { s with phase := .terminated, pending := [] }, shared)
  | .unknown _ _ => ([], s, shared)

theorem receive_ready (ready : s.phase = .ready) :
    s.receive engine message shared = .ok (s.answer engine message shared) := by
  obtain ⟨config, key, phase, parameters, pending⟩ := s
  subst ready
  cases message <;> rfl

/-! ## Queries -/

theorem succeed_session (statement : Statement) (result : ResultSet) (registry : Registry) :
    ∃ pending, (s.succeed statement result registry).2 = { s with pending } := by
  unfold succeed
  repeat' split
  all_goals exact ⟨_, rfl⟩

theorem complete_session (statement : Statement) (outcome : Outcome) (registry : Registry) :
    ∃ pending, (s.complete statement outcome registry).2.1 = { s with pending } := by
  cases outcome with
  | error e => exact ⟨s.pending, rfl⟩
  | ok result => exact succeed_session statement result registry

/-- A query changes nothing in its session but the completions that wait. -/
theorem query_session (engine : Engine σ) (s : Session) (sql : Text) (shared : Shared σ) :
    ∃ pending, (s.query engine sql shared).2.1 = { s with pending } := by
  unfold query
  cases Plan.ofText sql with
  | reply messages => exact ⟨s.pending, rfl⟩
  | run t => exact complete_session t.statement _ shared.registry

theorem query_recording (sql : Text) (calls : List Call) :
    s.query engine.recording sql (shared.recording calls) =
      ((s.query engine sql shared).1, (s.query engine sql shared).2.1,
        (s.query engine sql shared).2.2.recording (calls ++ (Plan.ofText sql).calls)) := by
  unfold query
  cases Plan.ofText sql with
  | reply messages =>
    rw [Plan.calls, List.append_nil]
  | run t => rfl

/-! ## Answers -/

/-- A message changes nothing in its session but how far it is and the completions that wait. -/
theorem answer_session (engine : Engine σ) (s : Session) (message : Frontend) (shared : Shared σ) :
    ∃ phase pending, (s.answer engine message shared).2.1 = { s with phase, pending } := by
  cases message with
  | query sql =>
    obtain ⟨pending, h⟩ := query_session engine s sql shared
    exact ⟨s.phase, pending, h⟩
  | sync | terminate | unknown => exact ⟨_, _, rfl⟩

theorem answer_config : (s.answer engine message shared).2.1.config = s.config := by
  obtain ⟨phase, pending, h⟩ := answer_session engine s message shared
  rw [h]

theorem answer_phase : (s.answer engine message shared).2.1.phase =
    if message = .terminate then .terminated else s.phase := by
  cases message with
  | query sql =>
    obtain ⟨pending, h⟩ := query_session engine s sql shared
    exact congrArg (·.phase) h
  | sync | terminate | unknown => rfl

theorem answer_ready (ready : s.phase = .ready) (goesOn : message ≠ .terminate) :
    (s.answer engine message shared).2.1.phase = .ready := by
  rw [answer_phase, if_neg goesOn, ready]

theorem answer_terminated : (s.answer engine .terminate shared).2.1.phase = .terminated := rfl

/-- An engine that keeps its calls changes no answer, and keeps the calls of the message. -/
theorem answer_recording (calls : List Call) :
    s.answer engine.recording message (shared.recording calls) =
      ((s.answer engine message shared).1, (s.answer engine message shared).2.1,
        (s.answer engine message shared).2.2.recording (calls ++ message.calls)) := by
  cases message with
  | query sql => exact query_recording sql calls
  | sync | terminate | unknown =>
    simp only [Frontend.calls, List.append_nil]
    rfl

end Session

end PgGateway
