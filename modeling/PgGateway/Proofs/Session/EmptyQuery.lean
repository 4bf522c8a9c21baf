import PgGateway.Proofs.Session.Failure
import PgGateway.Proofs.Sql.EmptyText

/-!
# Empty queries

A query of blanks, comments and at most one semicolon is answered as empty, and no other is
(`empty_queries`). With a second semicolon it is refused, although there is no statement in it
either. Every other query makes a call of the engine or is refused, and a kind of statement that is
not supported is named by its first token.
-/

namespace PgGateway

open Sql

variable {σ : Type} {engine : Engine σ} {e : SqlError} {sql : Text}

theorem isEmpty_normalize_iff : (normalize sql).isEmpty = true ↔ Hollow 0 sql ∨ Hollow 1 sql := by
  rw [List.isEmpty_iff, normalize_eq_nil_iff]

theorem Verdict.reply_eq_empty_iff {mode : ReturningMode} {registry : Registry} {v : Verdict} :
    v.reply mode registry = [.emptyQueryResponse, .ready] ↔ v = .empty := by
  constructor
  · intro h
    have hshape : v.shape mode = .empty := (v.shape_fits mode registry).unique h
    cases v with
    | empty => rfl
    | failed => cases hshape
    | done statement result =>
      unfold Verdict.shape at hshape
      dsimp only at hshape
      split at hshape
      · cases hshape
      · split at hshape <;> cases hshape
  · rintro rfl
    rfl

namespace Engine

theorem verdict_eq_empty_iff (engine : Engine σ) (state : σ) (sql : Text) :
    engine.verdict state sql = .empty ↔ Hollow 0 sql ∨ Hollow 1 sql := by
  rw [← isEmpty_normalize_iff]
  unfold verdict
  split
  · next hnone => exact iff_of_true rfl hnone
  · next hsome =>
    refine iff_of_false ?_ hsome
    split
    · nofun
    · split <;> nofun

theorem verdict_refused (state : σ) (hempty : ¬(Hollow 0 sql ∨ Hollow 1 sql))
    (h : translate sql = .error e) : engine.verdict state sql = .failed (.sql e) := by
  rw [verdict, if_neg (mt isEmpty_normalize_iff.1 hempty), h]

end Engine

namespace Plan

theorem calls_of_empty (h : Hollow 0 sql ∨ Hollow 1 sql) : (ofText sql).calls = [] := by
  rw [ofText, if_pos (isEmpty_normalize_iff.2 h)]
  rfl

theorem calls_of_refused (hempty : ¬(Hollow 0 sql ∨ Hollow 1 sql))
    (h : translate sql = .error e) : (ofText sql).calls = [] := by
  rw [ofText, if_neg (mt isEmpty_normalize_iff.1 hempty), h]
  rfl

theorem calls_of_translate {t : Translated} (hempty : ¬(Hollow 0 sql ∨ Hollow 1 sql))
    (h : translate sql = .ok t) : (ofText sql).calls = [t.call] := by
  rw [ofText, if_neg (mt isEmpty_normalize_iff.1 hempty), h]
  rfl

end Plan

namespace Session

/-- **Which queries are answered as empty.** A ready session answers every query. The answer is that
the query is empty exactly for a text of blanks, comments and at most one semicolon, and then no
call of the engine is made. Every other text makes the call of its statement or is answered with the
error that it is refused with; if that is for its kind, the error names its first token. A text of
blanks, comments and two semicolons or more is refused too, as several statements. -/
theorem empty_queries (engine : Engine σ) (s : Session) (ready : s.phase = .ready) (sql : Text)
    (shared : Shared σ) :
    ∃ reply next after calls,
      s.receive engine (.query sql) shared = .ok (reply, next, after) ∧
      s.receive engine.recording (.query sql) (shared.recording []) =
        .ok (reply, next, after.recording calls) ∧
      (reply = [.emptyQueryResponse, .ready] ↔ Hollow 0 sql ∨ Hollow 1 sql) ∧
      (Hollow 0 sql ∨ Hollow 1 sql → calls = []) ∧
      (¬(Hollow 0 sql ∨ Hollow 1 sql) →
        (∃ t, translate sql = .ok t ∧ calls = [t.call]) ∨
        ∃ e, translate sql = .error e ∧ calls = [] ∧ reply = StatementError.reply (.sql e) ∧
          ∀ token, e = .unsupported token →
            ∃ t ts, readTokens (normalize sql) = .ok (t :: ts) ∧ token = t.text) ∧
      ∀ n, Hollow (n + 2) sql → calls = [] ∧
        reply = StatementError.reply (.sql (.malformed .statement .severalStatements)) := by
  refine ⟨_, _, _, (Plan.ofText sql).calls, receive_query engine ready sql shared, ?_, ?_,
    Plan.calls_of_empty, ?_, ?_⟩
  · rw [receive_ready ready]
    show Except.ok (s.query engine.recording sql (shared.recording [])) = _
    rw [query_recording, query_eq, List.nil_append]
  · rw [Verdict.reply_eq_empty_iff, Engine.verdict_eq_empty_iff]
  · intro hempty
    cases htranslate : translate sql with
    | ok t => exact .inl ⟨t, rfl, Plan.calls_of_translate hempty htranslate⟩
    | error e =>
      right
      refine ⟨e, rfl, Plan.calls_of_refused hempty htranslate, ?_, ?_⟩
      · rw [Engine.verdict_refused shared.engine hempty htranslate]
        rfl
      · rintro token rfl
        exact translate_unsupported (mt normalize_eq_nil_iff.1 hempty) htranslate
  · intro n hhollow
    have hrefused := translate_of_hollow hhollow
    refine ⟨Plan.calls_of_refused hhollow.not_empty hrefused, ?_⟩
    rw [Engine.verdict_refused shared.engine hhollow.not_empty hrefused]
    rfl

/-- A blank, a semicolon and an open comment. -/
def emptyText : Text := [' '] ++ ';' :: ('-' :: '-' :: "none")

theorem empty_queries_emptyText : readySession.phase = .ready ∧ Hollow 1 emptyText ∧
    ∃ next after, readySession.receive Script.engine (.query emptyText) ⟨.empty, []⟩ =
      .ok ([.emptyQueryResponse, .ready], next, after) := by
  have hhollow : Hollow 1 emptyText :=
    .separator (.blank ' ' (by decide)) (.semicolon (.openComment (.line "none" (by decide))))
  obtain ⟨reply, next, after, calls, hreceive, -, hempty, -⟩ :=
    empty_queries Script.engine readySession rfl emptyText ⟨.empty, []⟩
  rw [hempty.2 (.inr hhollow)] at hreceive
  exact ⟨rfl, hhollow, next, after, hreceive⟩

/-- Two semicolons are no statement, and are refused as several. -/
theorem two_semicolons_refused : Hollow 2 ";;" ∧
    (readySession.query Script.engine ";;" ⟨.empty, []⟩).1 =
      [.report .error .syntaxError
        "Malformed statement statement: multiple statements in one query are not supported",
        .ready] := by
  constructor
  · exact .semicolon (.semicolon .nil)
  · decide +kernel

end Session

end PgGateway
