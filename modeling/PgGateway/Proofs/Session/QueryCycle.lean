import Mathlib.Logic.ExistsUnique
import PgGateway.Proofs.Connection.Heard
import PgGateway.Proofs.Session.Replies
import PgGateway.Proofs.Session.Verdict

/-!
# The query cycle

Every query is answered in one of five shapes. All but one of them end with the sign that the next
query may come; the one without it is left to insertions that return rows and are completed later.
So a client that counts these signs knows which of its queries are answered (`reply_grammar`).
-/

namespace PgGateway

variable {σ : Type}

/-- The message says that the next query may come. -/
def Backend.isReady : Backend → Bool
  | readyForQuery _ => true
  | _ => false

/-- The message is a row of a result. -/
def Backend.isRow : Backend → Bool
  | dataRow _ => true
  | _ => false

/-- The client waits for the sign that the next query may come. -/
def Frontend.awaitsReady : Frontend → Bool
  | query _ | sync => true
  | _ => false

/-! ## The shapes of replies -/

/-- The shapes of the replies to queries. -/
inductive ReplyShape
  | empty
  | failed
  | completed
  | rows
  /-- Rows whose completion comes later. -/
  | rowsOnly
deriving DecidableEq, Repr

namespace ReplyShape

/-- The reply has the shape. -/
def Fits : ReplyShape → List Backend → Prop
  | empty, reply => reply = [.emptyQueryResponse, .ready]
  | failed, reply => ∃ state message, reply = [.report .error state message, .ready]
  | completed, reply => ∃ tag, reply = [.commandComplete tag, .ready]
  | rows, reply => ∃ (fields : List Field) (values : List (List (Option Bytes))) (tag : Text),
      reply = .rowDescription fields :: values.map .dataRow ++ [.commandComplete tag, .ready]
  | rowsOnly, reply => ∃ (fields : List Field) (values : List (List (Option Bytes))),
      reply = .rowDescription fields :: values.map .dataRow

/-- The shape that a reply can have at most, by its first message and its last. -/
def ofReply : List Backend → Option ReplyShape
  | .emptyQueryResponse :: _ => some empty
  | .errorResponse _ _ _ :: _ => some failed
  | .commandComplete _ :: _ => some completed
  | .rowDescription _ :: rest => some (if rest.getLast? = some .ready then rows else rowsOnly)
  | _ => none

theorem Fits.ofReply_eq {shape : ReplyShape} {reply : List Backend} (h : shape.Fits reply) :
    ofReply reply = some shape := by
  cases shape with
  | empty =>
    rw [show reply = [.emptyQueryResponse, .ready] from h]
    rfl
  | failed =>
    obtain ⟨state, message, rfl⟩ := h
    rfl
  | completed =>
    obtain ⟨tag, rfl⟩ := h
    rfl
  | rows =>
    obtain ⟨fields, values, tag, rfl⟩ := h
    simp [ofReply]
  | rowsOnly =>
    obtain ⟨fields, values, rfl⟩ := h
    have hlast : (values.map Backend.dataRow).getLast? ≠ some .ready := by
      rw [List.getLast?_map]
      cases values.getLast? with
      | none => nofun
      | some row => simp [Backend.ready]
    rw [ofReply, if_neg hlast]

theorem Fits.unique {a b : ReplyShape} {reply : List Backend} (ha : a.Fits reply)
    (hb : b.Fits reply) : a = b := by
  have hab := ha.ofReply_eq.symm.trans hb.ofReply_eq
  exact Option.some.inj hab

end ReplyShape

/-- A reply opens with a description in two of the shapes. -/
theorem ReplyShape.Fits.opens_iff {shape : ReplyShape} {reply : List Backend}
    (h : shape.Fits reply) :
    (∃ fields rest, reply = .rowDescription fields :: rest) ↔ shape = .rows ∨ shape = .rowsOnly := by
  constructor
  · rintro ⟨fields, rest, rfl⟩
    have hshape : some shape = some (if rest.getLast? = some .ready then rows else rowsOnly) :=
      h.ofReply_eq.symm
    rw [Option.some.inj hshape]
    split
    · exact .inl rfl
    · exact .inr rfl
  · rintro (rfl | rfl)
    · obtain ⟨fields, values, tag, rfl⟩ := h
      exact ⟨fields, _, rfl⟩
    · obtain ⟨fields, values, rfl⟩ := h
      exact ⟨fields, _, rfl⟩

namespace Verdict

variable {mode : ReturningMode} {registry : Registry} {v : Verdict}

/-- The shape of the reply. -/
def shape (mode : ReturningMode) : Verdict → ReplyShape
  | empty => .empty
  | failed _ => .failed
  | done statement _ =>
    if !statement.returnsRows then .completed
    else if mode = .deferred ∧ statement.insertsReturning then .rowsOnly
    else .rows

theorem shape_fits (mode : ReturningMode) (registry : Registry) (v : Verdict) :
    (v.shape mode).Fits (v.reply mode registry) := by
  cases v with
  | empty => exact (rfl : _ = _)
  | failed e => exact ⟨e.sqlState, e.message, rfl⟩
  | done statement result =>
    by_cases hrows : statement.returnsRows = true
    · by_cases hwaits : mode = .deferred ∧ statement.insertsReturning = true
      · simp only [shape, reply, closing, hrows, hwaits, and_self, if_true, Bool.not_true,
          Bool.false_eq_true, if_false, List.append_nil]
        exact ⟨_, _, rfl⟩
      · simp only [shape, reply, closing, hrows, hwaits, if_true, Bool.not_true,
          Bool.false_eq_true, if_false]
        exact ⟨_, _, _, rfl⟩
    · have hwaits : ¬(mode = .deferred ∧ statement.insertsReturning = true) := fun h =>
        hrows (Statement.returnsRows_of_insertsReturning h.2)
      simp only [shape, reply, closing, hrows, hwaits, if_false, Bool.not_false, if_true]
      exact ⟨_, rfl⟩

theorem shape_eq_rowsOnly : v.shape mode = .rowsOnly ↔ mode = .deferred ∧ v.returned ≠ [] := by
  cases v with
  | empty | failed => simp [shape, returned]
  | done statement result =>
    have hrows := @Statement.returnsRows_of_insertsReturning statement
    cases mode <;> cases hinserts : statement.insertsReturning <;>
      cases hreturns : statement.returnsRows <;> simp_all [shape, returned]

theorem returned_ne_nil : v.returned ≠ [] ↔ ∃ insertion result,
    v = .done (.insert insertion) result ∧ insertion.returning.isSome = true := by
  cases v with
  | empty | failed => simp [returned]
  | done statement result =>
    cases statement with
    | insert insertion =>
      cases hreturning : insertion.returning <;>
        simp [returned, Statement.insertsReturning, hreturning]
    | createTable | select | update | delete | drop => simp [returned, Statement.insertsReturning]

theorem shape_opens_rows : (v.shape mode = .rows ∨ v.shape mode = .rowsOnly) ↔
    ∃ statement result, v = .done statement result ∧ statement.returnsRows = true := by
  cases v with
  | empty | failed => simp [shape]
  | done statement result =>
    cases hreturns : statement.returnsRows with
    | false => simp [shape, hreturns]
    | true =>
      by_cases hwaits : mode = .deferred ∧ statement.insertsReturning = true <;>
        simp [shape, hreturns, hwaits]

/-! ## What is in a reply -/

theorem countP_isRow_reply (statement : Statement) (result : ResultSet) :
    ((done statement result).reply mode registry).countP Backend.isRow =
      if statement.returnsRows then result.rows.length else 0 := by
  have hclosing : (closing mode statement result).countP Backend.isRow = 0 := by
    unfold closing
    split <;> rfl
  have hmessages : (Session.resultMessages statement result registry).countP Backend.isRow =
      result.rows.length := by
    simp [Session.resultMessages, Projection.messages, Projection.ofResult, Backend.isRow,
      List.countP_map, Function.comp_def]
  rw [reply, List.countP_append, hclosing]
  split
  · exact hmessages
  · rfl

/-- The only completion in a reply is that of its statement. -/
theorem tag_of_mem_reply {statement : Statement} {result : ResultSet} {tag : Text}
    (h : .commandComplete tag ∈ (done statement result).reply mode registry) :
    tag = (statement.completion result).tag := by
  have hmessages : Backend.commandComplete tag ∉ Session.resultMessages statement result registry := by
    simp [Session.resultMessages, Projection.messages]
  rw [reply, List.mem_append] at h
  rcases h with hrows | hclosing
  · split at hrows
    · exact absurd hrows hmessages
    · cases hrows
  · unfold closing at hclosing
    split at hclosing
    · cases hclosing
    · simpa [Completion.toMessage, Backend.ready] using hclosing

/-- A reply without its last sign holds no other. -/
theorem reply_eq_append_ready (registry : Registry) (h : v.deferred mode = []) :
    ∃ before, v.reply mode registry = before ++ [.ready] ∧ before.countP Backend.isReady = 0 := by
  cases v with
  | empty => exact ⟨[.emptyQueryResponse], rfl, rfl⟩
  | failed e => exact ⟨[.report .error e.sqlState e.message], rfl, rfl⟩
  | done statement result =>
    have hwaits : ¬(mode = .deferred ∧ statement.insertsReturning = true) := by
      rintro ⟨rfl, hinserts⟩
      simp [deferred, returned, hinserts] at h
    have hmessages : (Session.resultMessages statement result registry).countP Backend.isReady =
        0 := by
      simp [Session.resultMessages, Projection.messages, Backend.isReady]
    rw [reply, closing, if_neg hwaits]
    refine ⟨(if statement.returnsRows then Session.resultMessages statement result registry
      else []) ++ [(statement.completion result).toMessage], by simp, ?_⟩
    rw [List.countP_append]
    split
    · rw [hmessages]
      rfl
    · rfl

/-- One sign for each query, unless its completion comes later. -/
theorem countP_isReady_reply (mode : ReturningMode) (registry : Registry) (v : Verdict) :
    (v.reply mode registry).countP Backend.isReady + (v.deferred mode).length = 1 := by
  by_cases hdeferred : v.deferred mode = []
  · obtain ⟨before, hreply, hbefore⟩ := reply_eq_append_ready registry hdeferred
    rw [hreply, List.countP_append, hbefore, hdeferred]
    rfl
  · cases v with
    | empty | failed => cases mode <;> exact absurd rfl hdeferred
    | done statement result =>
      cases mode with
      | immediate => exact absurd rfl hdeferred
      | deferred =>
        cases hinserts : statement.insertsReturning with
        | false => simp [deferred, returned, hinserts] at hdeferred
        | true =>
          simp [reply, closing, deferred, returned, hinserts,
            Statement.returnsRows_of_insertsReturning hinserts, Session.resultMessages,
            Projection.messages, Backend.isReady]

end Verdict

namespace Session

variable {engine : Engine σ} {s : Session} {message : Frontend} {shared : Shared σ}

/-! ## Counting the signs of a run -/

/-- The completions of a run that no reply to a query carries. -/
def deferredBy (s : Session) (engine : Engine σ) (messages : List Frontend) (state : σ) :
    List Completion :=
  match s.config.returning with
  | .deferred => engine.returned messages state
  | .immediate => []

theorem deferredBy_cons (messages : List Frontend) :
    (s.deferredBy engine (message :: messages) shared.engine).length =
      (s.deferredBy engine [message] shared.engine).length +
        ((s.answer engine message shared).2.1.deferredBy engine messages
          (s.answer engine message shared).2.2.engine).length := by
  unfold deferredBy
  rw [answer_config, answer_engine]
  cases s.config.returning <;> simp [Engine.returned]

theorem countP_isReady_answer (engine : Engine σ) (s : Session) (shared : Shared σ)
    (goesOn : message ≠ .terminate) :
    (s.answer engine message shared).1.countP Backend.isReady +
        (s.deferredBy engine [message] shared.engine).length =
      [message].countP Frontend.awaitsReady := by
  cases message with
  | query sql =>
    rw [answer, query_eq]
    have hdeferred : s.deferredBy engine [.query sql] shared.engine =
        (engine.verdict shared.engine sql).deferred s.config.returning := by
      unfold deferredBy Verdict.deferred
      cases s.config.returning <;> simp [Engine.returned, Frontend.returned]
    rw [hdeferred]
    exact Verdict.countP_isReady_reply _ _ _
  | sync =>
    have hnone : s.deferredBy engine [.sync] shared.engine = [] := by
      unfold deferredBy
      split <;> rfl
    have hpending : (s.pending.map Completion.toMessage).countP Backend.isReady = 0 := by
      simp [List.countP_map, Function.comp_def, Completion.toMessage, Backend.isReady]
    rw [hnone, answer, List.countP_append, hpending]
    rfl
  | terminate => exact absurd rfl goesOn
  | unknown tag payload =>
    have hnone : s.deferredBy engine [.unknown tag payload] shared.engine = [] := by
      unfold deferredBy
      split <;> rfl
    rw [hnone]
    rfl

/-- **The signs of a run are counted.** There is one for each query and each request for what is
still to be answered, less one for each completion that is left for later. -/
theorem countP_isReady_serve (engine : Engine σ) (shared : Shared σ) (ready : s.phase = .ready)
    (messages : List Frontend) :
    (s.serve engine messages shared).1.countP Backend.isReady +
        (s.deferredBy engine (messages.takeWhile (· ≠ .terminate)) shared.engine).length =
      (messages.takeWhile (· ≠ .terminate)).countP Frontend.awaitsReady := by
  induction messages generalizing s shared with
  | nil =>
    unfold deferredBy
    cases s.config.returning <;> rfl
  | cons message messages ih =>
    rw [serve_cons ready, List.countP_append]
    by_cases hterminate : message = .terminate
    · subst hterminate
      rw [serve_terminated answer_terminated, List.takeWhile_cons_of_neg (by simp)]
      unfold deferredBy
      cases s.config.returning <;> rfl
    · have hfirst := countP_isReady_answer engine s shared hterminate
      have hnext : (s.answer engine message shared).2.1.phase = .ready :=
        answer_ready ready hterminate
      have hlater := @ih _ (s.answer engine message shared).2.2 hnext
      rw [List.takeWhile_cons_of_pos (by simpa using hterminate), deferredBy_cons,
        List.countP_cons]
      rw [List.countP_cons, List.countP_nil] at hfirst
      omega

theorem returned_append (before after : List Frontend) (state : σ) :
    engine.returned (before ++ after) state = engine.returned before state ++
      engine.returned after (engine.after state (before.flatMap Frontend.calls)) := by
  induction before generalizing state with
  | nil => rfl
  | cons message before ih =>
    simp [Engine.returned, ih, Engine.after, List.foldl_append]

/-- The messages of a stream are those that a ready session hears, and perhaps the one that
terminates it. -/
theorem heard_eq_takeWhile (limit : Nat) (stream : Bytes) :
    ∃ last, (last = [] ∨ last = [Frontend.terminate]) ∧
      (Frontend.heard limit stream).1 =
        (Frontend.heard limit stream).1.takeWhile (· ≠ .terminate) ++ last := by
  induction stream using Frontend.stream_induction limit with
  | incomplete stream rest h =>
    rw [Frontend.heard_incomplete h]
    exact ⟨[], .inl rfl, rfl⟩
  | refused stream rest e h =>
    rw [Frontend.heard_refused h]
    exact ⟨[], .inl rfl, rfl⟩
  | item stream rest message h ih =>
    by_cases hterminate : message = .terminate
    · subst hterminate
      rw [Frontend.heard_terminate h]
      exact ⟨[.terminate], .inr rfl, rfl⟩
    · rw [Frontend.heard_message hterminate h]
      obtain ⟨last, hlast, heq⟩ := ih
      refine ⟨last, hlast, ?_⟩
      rw [List.takeWhile_cons_of_pos (by simpa using hterminate), List.cons_append, ← heq]

theorem countP_isReady_heard (ready : s.phase = .ready) (limit : Nat) (stream : Bytes) :
    (s.serve engine (Frontend.heard limit stream).1 shared).1.countP Backend.isReady +
        (s.deferredBy engine (Frontend.heard limit stream).1 shared.engine).length =
      (Frontend.heard limit stream).1.countP Frontend.awaitsReady := by
  obtain ⟨last, hlast, heq⟩ := heard_eq_takeWhile limit stream
  have hserve := countP_isReady_serve engine shared ready (Frontend.heard limit stream).1
  -- the message that terminates the session is not answered and makes no call
  have hcount : (Frontend.heard limit stream).1.countP Frontend.awaitsReady =
      ((Frontend.heard limit stream).1.takeWhile (· ≠ .terminate)).countP Frontend.awaitsReady := by
    refine (congrArg (List.countP Frontend.awaitsReady) heq).trans ?_
    rw [List.countP_append]
    rcases hlast with rfl | rfl <;> rfl
  have hreturned : engine.returned (Frontend.heard limit stream).1 shared.engine =
      engine.returned ((Frontend.heard limit stream).1.takeWhile (· ≠ .terminate))
        shared.engine := by
    refine (congrArg (engine.returned · shared.engine) heq).trans ?_
    rw [returned_append]
    rcases hlast with rfl | rfl <;> simp [Engine.returned, Frontend.returned]
  unfold deferredBy at hserve ⊢
  rw [hcount, hreturned]
  exact hserve

/-- **The grammar of replies.** A ready session answers every query in exactly one of five shapes,
and only an insertion that returns rows and is completed later goes without the last sign. The reply
opens with a description if and only if the engine carried out a statement that returns rows; then
there are as many rows as the engine gave, and the completion tells their number or the number of
changed rows. So over a run the signs number the queries and the requests for what is still to be
answered, less the completions left for later; nothing is answered once the session is terminated,
and a stream holds no message behind the one that does it. -/
theorem reply_grammar (engine : Engine σ) (s : Session) (ready : s.phase = .ready) :
    (∀ sql shared, ∃ reply next after,
      s.receive engine (.query sql) shared = .ok (reply, next, after) ∧
      (∃! shape : ReplyShape, shape.Fits reply) ∧
      (ReplyShape.rowsOnly.Fits reply ↔ s.config.returning = .deferred ∧ ∃ insertion result,
        engine.verdict shared.engine sql = .done (.insert insertion) result ∧
          insertion.returning.isSome = true) ∧
      ((∃ fields rest, reply = .rowDescription fields :: rest) ↔ ∃ statement result,
        engine.verdict shared.engine sql = .done statement result ∧
          statement.returnsRows = true) ∧
      (∀ statement result, engine.verdict shared.engine sql = .done statement result →
        reply.countP Backend.isRow = (if statement.returnsRows then result.rows.length else 0) ∧
        ∀ tag, .commandComplete tag ∈ reply → tag = match statement with
          | .createTable _ => ("CREATE TABLE" : Text)
          | .drop _ _ => "DROP"
          | .select _ => "SELECT " ++ Numeral.ofNat result.rows.length
          | .insert _ => "INSERT 0 " ++ Numeral.ofNat result.changed
          | .update _ => "UPDATE 0 " ++ Numeral.ofNat result.changed
          | .delete _ => "DELETE 0 " ++ Numeral.ofNat result.changed) ∧
      (s.config.returning = .immediate →
        ∃ before, reply = before ++ [.ready] ∧ before.countP Backend.isReady = 0)) ∧
    (∀ messages shared,
      (s.serve engine messages shared).1.countP Backend.isReady +
          (s.deferredBy engine (messages.takeWhile (· ≠ .terminate)) shared.engine).length =
        (messages.takeWhile (· ≠ .terminate)).countP Frontend.awaitsReady) ∧
    ∀ limit stream shared,
      (s.serve engine (Frontend.heard limit stream).1 shared).1.countP Backend.isReady +
          (s.deferredBy engine (Frontend.heard limit stream).1 shared.engine).length =
        (Frontend.heard limit stream).1.countP Frontend.awaitsReady := by
  refine ⟨fun sql shared => ?_, fun messages shared => countP_isReady_serve engine shared ready messages,
    fun limit stream shared => countP_isReady_heard ready limit stream⟩
  have hfits := (engine.verdict shared.engine sql).shape_fits s.config.returning shared.registry
  refine ⟨_, _, _, receive_query engine ready sql shared, ?_, ?_, ?_, ?_, ?_⟩
  · exact ⟨_, hfits, fun other hother => hother.unique hfits⟩
  · rw [← Verdict.returned_ne_nil, ← Verdict.shape_eq_rowsOnly]
    exact ⟨fun h => hfits.unique h, fun h => h ▸ hfits⟩
  · rw [hfits.opens_iff, Verdict.shape_opens_rows]
  · intro statement result hverdict
    rw [hverdict]
    refine ⟨Verdict.countP_isRow_reply statement result, fun tag htag => ?_⟩
    rw [Verdict.tag_of_mem_reply htag]
    cases statement <;> rfl
  · intro himmediate
    refine Verdict.reply_eq_append_ready _ ?_
    rw [himmediate]
    rfl

/-- A session whose insertions are completed later. -/
def readySession : Session := { config := {}, key := ⟨1, 2⟩, phase := .ready }

/-- An insertion that returns a row, a request for its completion, and the end. -/
def insertThenSync : List Frontend :=
  [.query "INSERT INTO t VALUES (1) RETURNING a;", .sync, .terminate, .sync]

/-- One row was inserted, and is returned. -/
def insertedRow : ResultSet := ⟨["a"], [some "INTEGER"], [[.integer 7]], 1⟩

theorem reply_grammar_insertThenSync :
    readySession.phase = .ready ∧
      (readySession.serve Script.engine insertThenSync ⟨.empty, [.ok insertedRow]⟩).1.countP
        Backend.isReady = 1 := by
  have hcount := (reply_grammar Script.engine readySession rfl).2.1 insertThenSync
    ⟨.empty, [.ok insertedRow]⟩
  have hdeferred : readySession.deferredBy Script.engine
      (insertThenSync.takeWhile (· ≠ .terminate)) [.ok insertedRow] = [.changed .insert 1] := by
    decide +kernel
  have hawaits : (insertThenSync.takeWhile (· ≠ .terminate)).countP Frontend.awaitsReady = 2 := by
    decide
  rw [hdeferred, hawaits] at hcount
  exact ⟨rfl, Nat.succ.inj hcount⟩

end Session

end PgGateway
