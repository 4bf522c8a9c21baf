import PgGateway.Proofs.Session.QueryCycle

/-!
# Failed statements

A statement that fails changes nothing of its session and nothing in the registry, and its client is
told why (`failure_changes_nothing`). The registry changes under the name of one table only: the one
that was created or dropped.
-/

namespace PgGateway

variable {σ : Type}

/-- The message reports an error. -/
def Backend.isError : Backend → Bool
  | errorResponse _ _ _ => true
  | _ => false

namespace Verdict

variable {mode : ReturningMode} {registry : Registry} {v : Verdict}

theorem not_isError_closing (statement : Statement) (result : ResultSet) :
    ∀ m ∈ closing mode statement result, m.isError = false := by
  intro m hm
  unfold closing at hm
  split at hm
  · cases hm
  · rcases List.mem_cons.1 hm with rfl | hm
    · rfl
    · rw [List.mem_singleton.1 hm]
      rfl

theorem not_isError_resultMessages (statement : Statement) (result : ResultSet) :
    ∀ m ∈ Session.resultMessages statement result registry, m.isError = false := by
  simp [Session.resultMessages, Projection.messages, Backend.isError]

/-- Only a failure is answered with an error. -/
theorem failed_of_isError {m : Backend} (hm : m ∈ v.reply mode registry) (herror : m.isError) :
    ∃ e, v = .failed e := by
  cases v with
  | failed e => exact ⟨e, rfl⟩
  | empty =>
    rcases List.mem_cons.1 hm with rfl | hm
    · cases herror
    · rw [List.mem_singleton.1 hm] at herror
      cases herror
  | done statement result =>
    have hno : m.isError = false := by
      rw [reply, List.mem_append] at hm
      rcases hm with hrows | hclosing
      · split at hrows
        · exact not_isError_resultMessages statement result m hrows
        · cases hrows
      · exact not_isError_closing statement result m hclosing
    rw [hno] at herror
    cases herror

end Verdict

/-! ## Calls -/

/-- A query makes a call if its statement was translated, and then exactly that one. -/
theorem Plan.calls_ofText (engine : Engine σ) (state : σ) (sql : Text) :
    ((engine.verdict state sql = .empty ∨ ∃ e, engine.verdict state sql = .failed (.sql e)) ∧
        (Plan.ofText sql).calls = []) ∨
      (¬(engine.verdict state sql = .empty ∨ ∃ e, engine.verdict state sql = .failed (.sql e)) ∧
        ∃ t, Sql.translate sql = .ok t ∧ (Plan.ofText sql).calls = [t.call]) := by
  unfold Engine.verdict Plan.ofText
  by_cases hempty : (Sql.normalize sql).isEmpty = true
  · simp [hempty, Plan.calls]
  · cases htranslate : Sql.translate sql with
    | error e => simp [hempty, Plan.calls]
    | ok t =>
      cases houtcome : (engine t.call state).1 <;> simp [hempty, Plan.calls, houtcome]

/-! ## The registry -/

namespace Registry

/-- What is known of the table under a key after a statement was recorded. A definition that leaves
a known table alone changes nothing. -/
def entryAfter (k : Text) (entry : Option TableInfo) : Statement → Option TableInfo
  | .createTable c =>
    if key c.table = k ∧ ¬(c.ifNotExists = true ∧ entry.isSome = true) then some c.info else entry
  | .drop _ (some table) => if key table = k then none else entry
  | _ => entry

theorem find?_record_eq (r : Registry) (statement : Statement) (k : Text) :
    (r.record statement).find? k = entryAfter k (r.find? k) statement := by
  cases statement with
  | createTable c =>
    show (r.register c).find? k =
      if key c.table = k ∧ ¬(c.ifNotExists = true ∧ (r.find? k).isSome = true) then some c.info
      else r.find? k
    unfold register table?
    by_cases hk : key c.table = k
    · subst hk
      by_cases hkept : c.ifNotExists = true ∧ (r.find? (key c.table)).isSome = true
      · rw [if_pos (by simpa using hkept), if_neg (fun h => h.2 hkept)]
      · rw [if_neg (by simpa using hkept), if_pos ⟨rfl, hkept⟩, find?_insert, if_pos rfl]
    · rw [if_neg (fun h : key c.table = k ∧ _ => hk h.1)]
      split
      · rfl
      · rw [find?_insert, if_neg (Ne.symm hk)]
  | drop object table =>
    cases table with
    | none => rfl
    | some table =>
      show (r.erase (key table)).find? k = if key table = k then none else r.find? k
      rw [find?_erase]
      by_cases hk : key table = k
      · rw [if_pos hk, if_pos hk.symm]
      · rw [if_neg hk, if_neg (Ne.symm hk)]
  | select | insert | update | delete => rfl

/-- What is known of the table under a key after a statement was answered like this. -/
def entryOn (k : Text) (entry : Option TableInfo) (statement : Statement) :
    Outcome → Option TableInfo
  | .ok _ => entryAfter k entry statement
  | .error _ => entry

/-- A statement that was carried out changes at most the entry of the table that it creates or
drops. -/
theorem find?_record (r : Registry) (statement : Statement) (k : Text)
    (h : (r.record statement).find? k ≠ r.find? k) :
    (∃ c, statement = .createTable c ∧ k = key c.table ∧
      (r.record statement).find? k = some c.info) ∨
    ∃ object table, statement = .drop object (some table) ∧ k = key table ∧
      (r.record statement).find? k = none := by
  rw [find?_record_eq] at h ⊢
  cases statement with
  | createTable c =>
    left
    unfold entryAfter at h ⊢
    dsimp only at h ⊢
    split at h
    · next hmade => exact ⟨c, rfl, hmade.1.symm, if_pos hmade⟩
    · exact absurd rfl h
  | drop object table =>
    right
    cases table with
    | none => exact absurd rfl h
    | some table =>
      unfold entryAfter at h ⊢
      dsimp only at h ⊢
      split at h
      · next hk => exact ⟨object, table, rfl, hk.symm, if_pos hk⟩
      · exact absurd rfl h
  | select | insert | update | delete => exact absurd rfl h

end Registry

namespace Session

theorem find?_complete (s : Session) (statement : Statement) (outcome : Outcome) (r : Registry)
    (k : Text) : (s.complete statement outcome r).2.2.find? k =
      Registry.entryOn k (r.find? k) statement outcome := by
  cases outcome with
  | error e => rfl
  | ok result => exact Registry.find?_record_eq r statement k

/-- **A failed statement changes nothing.** A ready session answers every query. If it answers with
an error, the statement failed, the error tells the class and the message of the failure and nothing
else, and the session and the registry are what they were. No call is made for a text without a
statement or one that is not passed on, and exactly one for any other. What is found in the registry
changes only under the name of a table that was created, where its definition is found then, or
dropped, where nothing is. -/
theorem failure_changes_nothing (engine : Engine σ) (s : Session) (ready : s.phase = .ready)
    (sql : Text) (shared : Shared σ) :
    ∃ reply next after calls,
      s.receive engine (.query sql) shared = .ok (reply, next, after) ∧
      s.receive engine.recording (.query sql) (shared.recording []) =
        .ok (reply, next, after.recording calls) ∧
      ((∃ m ∈ reply, m.isError) → next = s ∧ after.registry = shared.registry ∧
        ∃ e, engine.verdict shared.engine sql = .failed e ∧
          reply = [.report .error e.sqlState e.message, .ready]) ∧
      (∀ e, engine.verdict shared.engine sql = .failed e →
        reply = [.report .error e.sqlState e.message, .ready]) ∧
      (engine.verdict shared.engine sql = .empty ∨
          (∃ e, engine.verdict shared.engine sql = .failed (.sql e)) → calls = []) ∧
      (¬(engine.verdict shared.engine sql = .empty ∨
          ∃ e, engine.verdict shared.engine sql = .failed (.sql e)) →
        ∃ t, Sql.translate sql = .ok t ∧ calls = [t.call]) ∧
      ∀ k, after.registry.find? k ≠ shared.registry.find? k →
        (∃ c result, engine.verdict shared.engine sql = .done (.createTable c) result ∧
          k = Registry.key c.table ∧ after.registry.find? k = some c.info) ∨
        ∃ object table result,
          engine.verdict shared.engine sql = .done (.drop object (some table)) result ∧
            k = Registry.key table ∧ after.registry.find? k = none := by
  refine ⟨_, _, _, (Plan.ofText sql).calls, receive_query engine ready sql shared, ?_, ?_, ?_, ?_,
    ?_, ?_⟩
  · rw [receive_ready ready]
    show Except.ok (s.query engine.recording sql (shared.recording [])) = _
    rw [query_recording, query_eq, List.nil_append]
  · rintro ⟨m, hm, herror⟩
    obtain ⟨e, he⟩ := Verdict.failed_of_isError hm herror
    have hnone : (Verdict.failed e).deferred s.config.returning = [] := by
      cases s.config.returning <;> rfl
    refine ⟨?_, ?_, e, he, ?_⟩
    · rw [he, hnone, List.append_nil]
    · rw [he]
      rfl
    · rw [he]
      rfl
  · intro e he
    rw [he]
    rfl
  · intro hsql
    rcases Plan.calls_ofText engine shared.engine sql with ⟨-, hcalls⟩ | ⟨hother, -⟩
    · exact hcalls
    · exact absurd hsql hother
  · intro hother
    rcases Plan.calls_ofText engine shared.engine sql with ⟨hsql, -⟩ | ⟨-, hcalls⟩
    · exact absurd hsql hother
    · exact hcalls
  · intro k hk
    cases hverdict : engine.verdict shared.engine sql with
    | empty | failed =>
      rw [hverdict] at hk
      exact absurd rfl hk
    | done statement result =>
      rw [hverdict] at hk
      rcases Registry.find?_record shared.registry statement k hk with
        ⟨c, rfl, hkey, hfound⟩ | ⟨object, table, rfl, hkey, hfound⟩
      · exact .inl ⟨c, result, rfl, hkey, hfound⟩
      · exact .inr ⟨object, table, result, rfl, hkey, hfound⟩

theorem failure_changes_nothing_unsupported :
    readySession.phase = .ready ∧
      (∃ m ∈ (readySession.answer Script.engine (.query "BEGIN") ⟨.empty, []⟩).1, m.isError) ∧
      (readySession.answer Script.engine (.query "BEGIN") ⟨.empty, []⟩).2.1 = readySession := by
  obtain ⟨reply, next, after, calls, hreceive, -, hfailed, -⟩ :=
    failure_changes_nothing Script.engine readySession rfl "BEGIN" ⟨.empty, []⟩
  rw [receive_ready rfl] at hreceive
  injection hreceive with hanswer
  have herror : ∃ m ∈ reply, m.isError := by
    have hreply : (readySession.answer Script.engine (.query "BEGIN") ⟨.empty, []⟩).1 =
        StatementError.reply (.sql (.unsupported "BEGIN")) := by decide +kernel
    rw [hanswer] at hreply
    rw [show reply = _ from hreply]
    exact ⟨_, List.mem_cons_self, rfl⟩
  rw [hanswer]
  exact ⟨rfl, herror, (hfailed herror).1⟩

end Session

end PgGateway
