import PgGateway.Proofs.Session.QueryCycle

/-!
# Completions that wait

The completion of an insertion that returns rows waits until the client asks for what is still to be
answered. None is lost on the way, sent twice or overtaken by another: what was sent so far and what
waits are together the completions of the run (`completions_conserved`).
-/

namespace PgGateway

variable {σ : Type}

/-- The message completes a statement. -/
def Backend.isCompletion : Backend → Bool
  | commandComplete _ => true
  | _ => false

namespace Session

variable {engine : Engine σ} {s : Session} {message : Frontend} {shared : Shared σ}

/-- The sessions that requests and messages can lead to. -/
inductive Reachable : Session → Prop
  | fresh (config : Config) (key : SessionKey) : Reachable { config, key }
  | startup {s next : Session} {request : Startup} {reply : StartupReply} :
      Reachable s → s.startup request = .ok (reply, next) → Reachable next
  | receive {σ : Type} {engine : Engine σ} {s next : Session} {message : Frontend}
      {shared after : Shared σ} {replies : List Backend} :
      Reachable s → s.receive engine message shared = .ok (replies, next, after) → Reachable next

/-- The completions that the answer to a message sends because the client asked for them. -/
def flush (engine : Engine σ) (s : Session) (message : Frontend) (shared : Shared σ) :
    List Backend :=
  if message = .sync then (s.answer engine message shared).1.filter Backend.isCompletion else []

/-- The completions that are sent when the client asks for them, over a run of messages. -/
def flushed (engine : Engine σ) (s : Session) : List Frontend → Shared σ → List Backend
  | [], _ => []
  | message :: messages, shared =>
    s.flush engine message shared ++
      (s.answer engine message shared).2.1.flushed engine messages
        (s.answer engine message shared).2.2

/-! ## One message -/

theorem answer_query_pending (sql : Text) :
    (s.answer engine (.query sql) shared).2.1.pending =
      s.pending ++ (engine.verdict shared.engine sql).deferred s.config.returning := by
  rw [answer, query_eq]

theorem flush_sync : s.flush engine .sync shared = s.pending.map Completion.toMessage := by
  have hcompletions : (s.pending.map Completion.toMessage).filter Backend.isCompletion =
      s.pending.map Completion.toMessage := by
    rw [List.filter_eq_self]
    intro m hm
    obtain ⟨completion, -, rfl⟩ := List.mem_map.1 hm
    rfl
  rw [flush, if_pos rfl, answer, List.filter_append, hcompletions]
  exact List.append_nil _

/-- What is sent and what waits after a message are what waited before and what the message adds. -/
theorem flush_append_pending (engine : Engine σ) (shared : Shared σ)
    (hdeferred : s.config.returning = .deferred) (goesOn : message ≠ .terminate) :
    s.flush engine message shared ++
        (s.answer engine message shared).2.1.pending.map Completion.toMessage =
      (s.pending ++ message.returned engine shared.engine).map Completion.toMessage := by
  cases message with
  | query sql =>
    rw [answer_query_pending, hdeferred]
    rfl
  | sync =>
    rw [flush_sync]
    simp [answer, Frontend.returned]
  | terminate => exact absurd rfl goesOn
  | unknown tag payload => simp [flush, answer, Frontend.returned]

/-! ## A run of messages -/

theorem flushed_append_pending (ready : s.phase = .ready)
    (hdeferred : s.config.returning = .deferred) {messages : List Frontend}
    (goesOn : .terminate ∉ messages) :
    s.flushed engine messages shared ++
        (s.serve engine messages shared).2.1.pending.map Completion.toMessage =
      (s.pending ++ engine.returned messages shared.engine).map Completion.toMessage := by
  induction messages generalizing s shared with
  | nil => simp [flushed, serve, Engine.returned]
  | cons message messages ih =>
    have hmessage : message ≠ .terminate := fun h => goesOn (h ▸ List.mem_cons_self)
    have hmessages : .terminate ∉ messages := fun h => goesOn (List.mem_cons_of_mem _ h)
    have hfirst := flush_append_pending engine shared hdeferred hmessage
    have hnext : (s.answer engine message shared).2.1.phase = .ready := answer_ready ready hmessage
    have hconfig : (s.answer engine message shared).2.1.config.returning = .deferred := by
      rw [answer_config, hdeferred]
    have hrest := @ih _ (s.answer engine message shared).2.2 hnext hconfig hmessages
    rw [serve_cons ready, flushed, Engine.returned]
    dsimp only
    rw [List.append_assoc, hrest, List.map_append, ← List.append_assoc, hfirst, answer_engine]
    simp

theorem startup_late {request : Startup} (late : s.phase ≠ .awaitingStartup) :
    s.startup request = .error (.protocol .lateStartup) := by
  unfold Session.startup
  split <;> simp_all

/-- A session that completes everything at once never has a completion to wait. -/
theorem Reachable.pending_eq_nil (h : Reachable s) (himmediate : s.config.returning = .immediate) :
    s.pending = [] := by
  induction h with
  | fresh config key => rfl
  | @startup s next request reply _ hstartup ih =>
    by_cases hphase : s.phase = .awaitingStartup
    · rw [startup_fresh hphase] at hstartup
      cases request <;> cases hstartup <;> exact ih himmediate
    · rw [startup_late hphase] at hstartup
      cases hstartup
  | @receive σ engine s next message shared after replies _ hreceive ih =>
    cases hphase : s.phase with
    | awaitingStartup =>
      unfold Session.receive at hreceive
      rw [hphase] at hreceive
      cases hreceive
    | terminated =>
      unfold Session.receive at hreceive
      rw [hphase] at hreceive
      cases hreceive
      exact ih himmediate
    | ready =>
      rw [receive_ready hphase] at hreceive
      injection hreceive with hanswer
      obtain rfl : (s.answer engine message shared).2.1 = next := by rw [hanswer]
      rw [answer_config] at himmediate
      cases message with
      | query sql =>
        rw [answer_query_pending, ih himmediate, himmediate]
        rfl
      | sync | terminate => rfl
      | unknown tag payload => exact ih himmediate

/-- **No completion is lost, sent twice or overtaken.** If insertions that return rows are completed
later, what a ready session has sent at the requests of its client and what still waits are together
what waited at first and the completions of the run, in order. A request sends all that waits and one
sign, and nothing waits then; only an insertion that returns rows adds a completion. If everything is
completed at once, nothing ever waits; and nothing waits behind the message that terminates the
session, nor is it sent. -/
theorem completions_conserved (engine : Engine σ) (s : Session) (ready : s.phase = .ready) :
    (s.config.returning = .deferred → ∀ messages shared, .terminate ∉ messages →
      s.flushed engine messages shared ++
          (s.serve engine messages shared).2.1.pending.map Completion.toMessage =
        (s.pending ++ engine.returned messages shared.engine).map Completion.toMessage) ∧
    (∀ shared, s.receive engine .sync shared =
      .ok (s.pending.map Completion.toMessage ++ [.ready], { s with pending := [] }, shared)) ∧
    (∀ sql shared,
      (¬∃ insertion result, engine.verdict shared.engine sql = .done (.insert insertion) result ∧
        insertion.returning.isSome = true) →
      (s.answer engine (.query sql) shared).2.1.pending = s.pending) ∧
    (∀ tag payload shared, s.receive engine (.unknown tag payload) shared = .ok ([], s, shared)) ∧
    (∀ t : Session, Reachable t → t.config.returning = .immediate → t.pending = []) ∧
    ∀ shared, s.receive engine .terminate shared =
      .ok ([], { s with phase := .terminated, pending := [] }, shared) := by
  refine ⟨fun hdeferred messages shared goesOn => flushed_append_pending ready hdeferred goesOn,
    fun shared => receive_ready ready, fun sql shared hother => ?_,
    fun tag payload shared => receive_ready ready, fun t ht => ht.pending_eq_nil,
    fun shared => receive_ready ready⟩
  have hnone : (engine.verdict shared.engine sql).returned = [] := by
    exact Decidable.by_contra fun hreturned => hother (Verdict.returned_ne_nil.1 hreturned)
  rw [answer_query_pending]
  unfold Verdict.deferred
  rw [hnone]
  split <;> exact List.append_nil _

/-- An insertion that returns a row, one that fails, one that returns nothing, and a request. -/
def mixedInsertions : List Frontend :=
  [.query "INSERT INTO t VALUES (1) RETURNING a;", .query "INSERT INTO t VALUES (1) RETURNING b",
    .query "INSERT INTO t VALUES (2)", .sync, .query "INSERT INTO t VALUES (3) RETURNING a"]

/-- The answers to them. -/
def mixedAnswers : Script := [.ok insertedRow, .error .closed, .ok insertedRow, .ok insertedRow]

theorem completions_conserved_mixedInsertions :
    readySession.phase = .ready ∧ readySession.config.returning = .deferred ∧
      .terminate ∉ mixedInsertions ∧
      readySession.flushed Script.engine mixedInsertions ⟨.empty, mixedAnswers⟩ ++
          (readySession.serve Script.engine mixedInsertions
            ⟨.empty, mixedAnswers⟩).2.1.pending.map Completion.toMessage =
        [.commandComplete "INSERT 0 1", .commandComplete "INSERT 0 1"] ∧
      Reachable { config := { returning := .immediate }, key := ⟨1, 2⟩ } := by
  have goesOn : Frontend.terminate ∉ mixedInsertions := by decide
  have hreturned : Script.engine.returned mixedInsertions mixedAnswers =
      [.changed .insert 1, .changed .insert 1] := by decide +kernel
  have hconserved := (completions_conserved Script.engine readySession rfl).1 rfl mixedInsertions
    ⟨.empty, mixedAnswers⟩ goesOn
  rw [hreturned] at hconserved
  exact ⟨rfl, rfl, goesOn, hconserved, .fresh _ _⟩

end Session

end PgGateway
