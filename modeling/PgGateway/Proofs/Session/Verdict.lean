import PgGateway.Proofs.Session.Answer

/-!
# How queries come out

A query text holds no statement, or its statement fails, or the engine carries it out. This verdict
decides all that comes of the query: the reply, the completions that are left for later, and the
registry (`query_eq`). A run of messages moves the engine on by the calls of its messages only.
-/

namespace PgGateway

variable {σ : Type}

/-- How a query comes out. -/
inductive Verdict
  /-- The text holds no statement. -/
  | empty
  | failed (error : StatementError)
  | done (statement : Statement) (result : ResultSet)

namespace Engine

/-- How a query comes out when the engine is in this state. -/
def verdict (engine : Engine σ) (state : σ) (sql : Text) : Verdict :=
  if (Sql.normalize sql).isEmpty then .empty
  else
    match Sql.translate sql with
    | .error e => .failed (.sql e)
    | .ok t =>
      match (engine t.call state).1 with
      | .error e => .failed (.engine e)
      | .ok result => .done t.statement result

/-- The state of the engine after calls. -/
def after (engine : Engine σ) (state : σ) (calls : List Call) : σ :=
  calls.foldl (fun state call => (engine call state).2) state

end Engine

namespace Statement

/-- The statement is an insertion that returns rows. -/
def insertsReturning : Statement → Bool
  | insert insertion => insertion.returning.isSome
  | _ => false

/-- How a statement is completed that had this result. -/
def completion (result : ResultSet) : Statement → Completion
  | createTable _ => .created
  | drop _ _ => .dropped
  | select _ => .selected result.rows.length
  | insert _ => .changed .insert result.changed
  | update _ => .changed .update result.changed
  | delete _ => .changed .delete result.changed

theorem returnsRows_of_insertsReturning {statement : Statement}
    (h : statement.insertsReturning = true) : statement.returnsRows = true := by
  cases statement with
  | insert insertion => exact h
  | createTable | select | update | delete | drop => cases h

end Statement

namespace Verdict

/-- The completion of an insertion that returned rows, if the query came out as one. -/
def returned : Verdict → List Completion
  | done statement result =>
    if statement.insertsReturning then [statement.completion result] else []
  | _ => []

/-- The completions that a query leaves for later. -/
def deferred (mode : ReturningMode) (v : Verdict) : List Completion :=
  match mode with
  | .deferred => v.returned
  | .immediate => []

/-- What is said at the end of a statement whose completion does not wait. -/
def closing (mode : ReturningMode) (statement : Statement) (result : ResultSet) : List Backend :=
  if mode = .deferred ∧ statement.insertsReturning then []
  else [(statement.completion result).toMessage, .ready]

/-- The messages that answer a query. -/
def reply (mode : ReturningMode) (registry : Registry) : Verdict → List Backend
  | empty => [.emptyQueryResponse, .ready]
  | failed e => e.reply
  | done statement result =>
    (if statement.returnsRows then Session.resultMessages statement result registry else []) ++
      closing mode statement result

/-- The registry after a query. -/
def registry (r : Registry) : Verdict → Registry
  | done statement _ => r.record statement
  | _ => r

end Verdict

namespace Session

variable {engine : Engine σ} {s : Session} {message : Frontend} {shared : Shared σ}

theorem succeed_eq (statement : Statement) (result : ResultSet) (registry : Registry) :
    s.succeed statement result registry =
      ((Verdict.done statement result).reply s.config.returning registry,
        { s with pending :=
            s.pending ++ (Verdict.done statement result).deferred s.config.returning }) := by
  obtain ⟨config, key, phase, parameters, pending⟩ := s
  cases hmode : config.returning <;> cases statement with
  | insert insertion =>
    cases hreturning : insertion.returning <;>
      simp [succeed, Verdict.reply, Verdict.closing, Verdict.deferred, Verdict.returned,
        Statement.returnsRows, Statement.insertsReturning, Statement.completion, hmode, hreturning]
  | createTable | select | update | delete | drop =>
    simp [succeed, Verdict.reply, Verdict.closing, Verdict.deferred, Verdict.returned,
      Statement.returnsRows, Statement.insertsReturning, Statement.completion]

/-- **The verdict decides what comes of a query.** Nothing of the session changes but the
completions that wait, and nothing that is shared but the registry and the state of the engine. -/
theorem query_eq (engine : Engine σ) (s : Session) (sql : Text) (shared : Shared σ) :
    s.query engine sql shared =
      ((engine.verdict shared.engine sql).reply s.config.returning shared.registry,
        { s with pending :=
            s.pending ++ (engine.verdict shared.engine sql).deferred s.config.returning },
        ⟨(engine.verdict shared.engine sql).registry shared.registry,
          engine.after shared.engine (Plan.ofText sql).calls⟩) := by
  have unchanged : ∀ v : Verdict, v.returned = [] →
      ({ s with pending := s.pending ++ v.deferred s.config.returning } : Session) = s := by
    intro v hv
    have hnone : v.deferred s.config.returning = [] := by
      unfold Verdict.deferred
      split
      · exact hv
      · rfl
    rw [hnone, List.append_nil]
  unfold query Plan.ofText Engine.verdict
  by_cases hempty : (Sql.normalize sql).isEmpty = true
  · simp only [hempty, if_true]
    rw [unchanged .empty rfl]
    rfl
  · simp only [hempty, if_false, Bool.false_eq_true]
    cases Sql.translate sql with
    | error e =>
      dsimp only
      rw [unchanged (.failed (.sql e)) rfl]
      rfl
    | ok t =>
      dsimp only [Plan.calls, Engine.after, List.foldl]
      cases houtcome : (engine t.call shared.engine).1 with
      | error e =>
        dsimp only [complete]
        rw [unchanged (.failed (.engine e)) rfl]
        rfl
      | ok result =>
        dsimp only [complete]
        rw [succeed_eq]
        rfl

theorem receive_query (engine : Engine σ) (ready : s.phase = .ready) (sql : Text)
    (shared : Shared σ) :
    s.receive engine (.query sql) shared =
      .ok ((engine.verdict shared.engine sql).reply s.config.returning shared.registry,
        { s with pending :=
            s.pending ++ (engine.verdict shared.engine sql).deferred s.config.returning },
        ⟨(engine.verdict shared.engine sql).registry shared.registry,
          engine.after shared.engine (Plan.ofText sql).calls⟩) := by
  rw [receive_ready ready, ← query_eq]
  rfl

/-! ## Messages -/

/-- What a message leaves behind: the engine moved on by the calls of the message. -/
theorem answer_engine :
    (s.answer engine message shared).2.2.engine = engine.after shared.engine message.calls := by
  cases message with
  | query sql =>
    rw [answer, query_eq]
    rfl
  | sync | terminate | unknown => rfl

end Session

/-- The completions that a message adds for insertions that returned rows. -/
def Frontend.returned (engine : Engine σ) (state : σ) : Frontend → List Completion
  | query sql => (engine.verdict state sql).returned
  | _ => []

/-- The completions of the insertions of a run of messages that returned rows, in order. -/
def Engine.returned (engine : Engine σ) : List Frontend → σ → List Completion
  | [], _ => []
  | message :: messages, state =>
    message.returned engine state ++
      engine.returned messages (engine.after state message.calls)

end PgGateway
