import PgGateway.Proofs.Session.Answer

/-!
# The replies of a session

A session serves the messages of its client one after the other. None of its replies, and no message
of the handshake, is a fatal error: those are left to the connection.
-/

namespace PgGateway

variable {σ : Type}

/-- The message reports a fatal error. -/
def Backend.IsFatal : Backend → Prop
  | errorResponse severity _ _ => severity = Severity.fatal.text
  | _ => False

instance : DecidablePred Backend.IsFatal
  | .errorResponse severity _ _ => inferInstanceAs (Decidable (severity = Severity.fatal.text))
  | .authenticationOk | .parameterStatus _ _ | .backendKeyData _ | .readyForQuery _
  | .rowDescription _ | .dataRow _ | .commandComplete _ | .emptyQueryResponse =>
    inferInstanceAs (Decidable False)

theorem Backend.isFatal_report {severity : Severity} {state : SqlState} {message : Text} :
    (report severity state message).IsFatal ↔ severity = .fatal := by
  cases severity with
  | error =>
    have hother : Severity.error.text ≠ Severity.fatal.text := by decide
    exact ⟨fun h => absurd h hother, nofun⟩
  | fatal => exact ⟨fun _ => rfl, fun _ => rfl⟩

theorem Backend.not_isFatal_ready : ¬ready.IsFatal := id

theorem Completion.not_isFatal (completion : Completion) : ¬completion.toMessage.IsFatal := id

theorem StatementError.reply_not_fatal (e : StatementError) : ∀ m ∈ e.reply, ¬m.IsFatal := by
  simp [reply, Backend.isFatal_report, Backend.not_isFatal_ready]

theorem Projection.messages_not_fatal (p : Projection) : ∀ m ∈ p.messages, ¬m.IsFatal := by
  simp [messages, Backend.IsFatal]

theorem Plan.reply_not_fatal {sql : Text} {messages : List Backend}
    (h : Plan.ofText sql = .reply messages) : ∀ m ∈ messages, ¬m.IsFatal := by
  unfold Plan.ofText at h
  split at h
  · cases h
    exact List.forall_mem_cons.2 ⟨id, List.forall_mem_singleton.2 Backend.not_isFatal_ready⟩
  · split at h
    · cases h
      exact StatementError.reply_not_fatal _
    · cases h

namespace Session

variable {engine : Engine σ} {s : Session} {message : Frontend} {shared : Shared σ}

/-! ## No reply is fatal -/

theorem handshake_not_fatal : ∀ m ∈ s.handshake, ¬m.IsFatal := by
  simp only [handshake, List.forall_mem_append, List.forall_mem_cons, List.forall_mem_map]
  exact ⟨⟨id, fun _ _ => id⟩, id, Backend.not_isFatal_ready, nofun⟩

theorem resultMessages_not_fatal (statement : Statement) (result : ResultSet)
    (registry : Registry) : ∀ m ∈ resultMessages statement result registry, ¬m.IsFatal :=
  Projection.messages_not_fatal _

theorem succeed_not_fatal (statement : Statement) (result : ResultSet) (registry : Registry) :
    ∀ m ∈ (s.succeed statement result registry).1, ¬m.IsFatal := by
  have hrows := resultMessages_not_fatal statement result registry
  have hcompleted : ∀ completion : Completion,
      ∀ m ∈ [completion.toMessage, .ready], ¬m.IsFatal := by
    simp [Completion.not_isFatal, Backend.not_isFatal_ready]
  have happend : ∀ completion : Completion,
      ∀ m ∈ resultMessages statement result registry ++ [completion.toMessage, .ready],
        ¬m.IsFatal := fun completion => List.forall_mem_append.2 ⟨hrows, hcompleted completion⟩
  unfold succeed
  split
  · exact hcompleted _
  · exact hcompleted _
  · exact happend _
  · dsimp only
    split
    · split
      · exact hrows
      · exact happend _
    · exact hcompleted _
  · exact hcompleted _
  · exact hcompleted _

theorem complete_not_fatal (statement : Statement) (outcome : Outcome) (registry : Registry) :
    ∀ m ∈ (s.complete statement outcome registry).1, ¬m.IsFatal := by
  cases outcome with
  | error e => exact StatementError.reply_not_fatal (.engine e)
  | ok result => exact succeed_not_fatal statement result registry

theorem query_not_fatal (sql : Text) : ∀ m ∈ (s.query engine sql shared).1, ¬m.IsFatal := by
  unfold query
  cases hplan : Plan.ofText sql with
  | reply messages => exact Plan.reply_not_fatal hplan
  | run t => exact complete_not_fatal t.statement _ shared.registry

theorem answer_not_fatal : ∀ m ∈ (s.answer engine message shared).1, ¬m.IsFatal := by
  cases message with
  | query sql => exact query_not_fatal sql
  | sync =>
    simp only [answer, List.forall_mem_append, List.forall_mem_map, List.forall_mem_singleton]
    exact ⟨fun completion _ => completion.not_isFatal, Backend.not_isFatal_ready⟩
  | terminate | unknown => exact nofun

/-! ## Serving a client -/

/-- What comes of messages: all replies, the session after them, and what it leaves behind. A
session that fails says nothing more. -/
def serve (engine : Engine σ) (s : Session) :
    List Frontend → Shared σ → List Backend × Session × Shared σ
  | [], shared => ([], s, shared)
  | message :: messages, shared =>
    match s.receive engine message shared with
    | .error _ => ([], s, shared)
    | .ok (replies, next, shared) =>
      let (more, last, shared) := serve engine next messages shared
      (replies ++ more, last, shared)

theorem serve_cons (ready : s.phase = .ready) (messages : List Frontend) :
    s.serve engine (message :: messages) shared =
      ((s.answer engine message shared).1 ++
          ((s.answer engine message shared).2.1.serve engine messages
            (s.answer engine message shared).2.2).1,
        ((s.answer engine message shared).2.1.serve engine messages
          (s.answer engine message shared).2.2).2) := by
  rw [serve, receive_ready ready]

/-- A session that was terminated serves nobody. -/
theorem serve_terminated (terminated : s.phase = .terminated) (messages : List Frontend) :
    s.serve engine messages shared = ([], s, shared) := by
  induction messages with
  | nil => rfl
  | cons message messages ih =>
    have hreceive : s.receive engine message shared = .ok ([], s, shared) := by
      unfold receive
      rw [terminated]
    rw [serve, hreceive]
    dsimp only
    rw [ih]
    rfl

/-- **No reply is fatal**, whatever the client says and the engine answers. -/
theorem serve_not_fatal (ready : s.phase = .ready) (messages : List Frontend) :
    ∀ m ∈ (s.serve engine messages shared).1, ¬m.IsFatal := by
  induction messages generalizing s shared with
  | nil => exact nofun
  | cons message messages ih =>
    rw [serve_cons ready]
    refine List.forall_mem_append.2 ⟨answer_not_fatal, ?_⟩
    by_cases hterminate : message = .terminate
    · -- nothing is said after the end
      subst hterminate
      rw [serve_terminated answer_terminated]
      exact nofun
    · exact ih (answer_ready ready hterminate)

end Session

end PgGateway
