import PgGateway.Proofs.Connection.Discipline
import PgGateway.Proofs.Session.Failure
import PgGateway.Proofs.Sql.Refusals
import PgGateway.Proofs.Wire.Reports

/-!
# What the reports of a connection say

A connection reports how a query failed, and at the end how its client broke the protocol. What it
says is made of what it was sent: tokens and names of a query, the tag of a frame. A query text ends
at its first zero, so what is said of it can be told; the tag of a frame is shown as it is. So every
report is read as it was made, but for the last one when it shows the tag zero (`reports_read_back`,
`report_misread`).
-/

namespace PgGateway

variable {σ : Type} {limit : Nat} {buffer stream rest : Bytes} {sql : Text} {e : WireError}

/-! ## What is heard -/

theorem Wire.Frame.length_payload_le {origin : Origin} {f : Frame}
    (h : take origin limit buffer = ⟨.ok (some f), rest⟩) : f.payload.length ≤ limit := by
  unfold take at h
  split at h
  · next tag a b c d body =>
    dsimp only at h
    split at h
    · cases h
    · split at h
      · cases h
      · split at h
        · cases h
        · unfold withoutTrailer at h
          split at h
          · cases h
            simp only [List.length_take]
            omega
          · split at h
            · cases h
              simp only [List.length_dropLast, List.length_take]
              omega
            · cases h
  · cases h

namespace Frontend

/-- A query text ends at its first zero, and is no longer than a message may be. -/
theorem take_query (h : take limit buffer = ⟨.ok (some (query sql)), rest⟩) :
    '\x00' ∉ sql ∧ sql.length ≤ limit := by
  obtain ⟨f, hf⟩ := Taken.bind_eq h
  have hquery : ofFrame f = query sql := by
    rw [take, hf] at h
    exact Option.some.inj (Except.ok.inj (congrArg Taken.answer h))
  unfold ofFrame at hquery
  split at hquery
  · cases hquery
    constructor
    · exact Utf8.zero_not_mem_decode_takeWhile f.payload
    · have hpayload := Wire.Frame.length_payload_le hf
      have htext := Utf8.length_decode_le (f.payload.takeWhile (· != 0))
      have hpart := (List.takeWhile_prefix (· != 0) (l := f.payload)).length_le
      omega
  · split at hquery
    · cases hquery
    · split at hquery <;> cases hquery

theorem heard_query (h : query sql ∈ (heard limit stream).1) :
    '\x00' ∉ sql ∧ sql.length ≤ limit := by
  induction stream using stream_induction limit with
  | incomplete stream rest htake =>
    rw [heard_incomplete htake] at h
    cases h
  | refused stream rest e htake =>
    rw [heard_refused htake] at h
    cases h
  | item stream rest message htake ih =>
    by_cases hterminate : message = terminate
    · subst hterminate
      rw [heard_terminate htake] at h
      cases List.mem_singleton.1 h
    · rw [heard_message hterminate htake] at h
      rcases List.mem_cons.1 h with rfl | hlater
      · exact take_query htake
      · exact ih hlater

/-- A stream that breaks the protocol does so where its next message should be. -/
theorem heard_error (h : (heard limit stream).2 = .error e) :
    ∃ buffer rest, take limit buffer = ⟨.error e, rest⟩ := by
  induction stream using stream_induction limit with
  | incomplete stream rest htake =>
    rw [heard_incomplete htake] at h
    cases h
  | refused stream rest e' htake =>
    rw [heard_refused htake] at h
    cases h
    exact ⟨stream, rest, htake⟩
  | item stream rest message htake ih =>
    by_cases hterminate : message = terminate
    · subst hterminate
      rw [heard_terminate htake] at h
      cases h
    · rw [heard_message hterminate htake] at h
      exact ih h

end Frontend

/-! ## What the engine says -/

namespace Engine

variable {engine : Engine σ} {state : σ} {calls more : List Call} {e : StatementError}

theorem after_append : engine.after state (calls ++ more) =
    engine.after (engine.after state calls) more :=
  List.foldl_append

/-- What the engine says of a failure can be told, whatever it was called for before. -/
def Tells (engine : Engine σ) (state : σ) : Prop :=
  ∀ calls call error, (engine call (engine.after state calls)).1 = .error error →
    error.clientMessage.Tellable Backend.longestMessage

/-- What is said of a failed query can be told. -/
theorem Tells.failed (h : engine.Tells state) (hsql : '\x00' ∉ sql)
    (hlength : sql.length ≤ 104857600)
    (hfailed : engine.verdict (engine.after state calls) sql = .failed e) :
    e.message.Tellable Backend.longestMessage := by
  unfold verdict at hfailed
  split at hfailed
  · cases hfailed
  · split at hfailed
    · next error htranslate =>
      cases hfailed
      exact (Sql.tellable_refusal hsql hlength htranslate).mono (by decide)
    · split at hfailed
      · next error hcall =>
        cases hfailed
        exact h calls _ error hcall
      · cases hfailed

end Engine

theorem Script.after_suffix (script : Script) (calls : List Call) :
    Script.engine.after script calls <:+ script := by
  induction calls generalizing script with
  | nil => exact List.suffix_refl _
  | cons call calls ih =>
    cases script with
    | nil => exact ih []
    | cons outcome script => exact (ih script).trans (List.suffix_cons outcome script)

/-- A script tells what can be told if its answers do. -/
theorem Script.tells {script : Script}
    (h : ∀ error, .error error ∈ script → error.clientMessage.Tellable Backend.longestMessage) :
    Script.engine.Tells script := by
  intro calls call error herror
  have hsuffix := after_suffix script calls
  cases hafter : Script.engine.after script calls with
  | nil =>
    rw [hafter] at herror
    cases herror
    have hclosed : Text.Tellable 17 "Connection closed" := by decide
    exact hclosed.mono (by decide)
  | cons outcome later =>
    rw [hafter] at herror hsuffix
    obtain rfl : outcome = .error error := herror
    exact h error (hsuffix.subset List.mem_cons_self)

/-! ## What is replied -/

namespace Session

variable {engine : Engine σ} {s : Session} {shared : Shared σ} {m : Backend}

theorem not_isError_handshake : ∀ m ∈ s.handshake, m.isError = false := by
  simp only [handshake, List.forall_mem_append, List.forall_mem_cons, List.forall_mem_map]
  exact ⟨⟨rfl, fun _ _ => rfl⟩, rfl, rfl, List.forall_mem_nil _⟩

/-- Only a query that fails is answered with an error, and that reports the failure. -/
theorem report_of_isError {message : Frontend} (hm : m ∈ (s.answer engine message shared).1)
    (herror : m.isError) : ∃ sql e, message = .query sql ∧
      engine.verdict shared.engine sql = .failed e ∧ m = .report .error e.sqlState e.message := by
  cases message with
  | query sql =>
    rw [answer, query_eq] at hm
    obtain ⟨e, hfailed⟩ := Verdict.failed_of_isError hm herror
    rw [hfailed] at hm
    rcases List.mem_cons.1 hm with rfl | hready
    · exact ⟨sql, e, rfl, hfailed, rfl⟩
    · rw [List.mem_singleton.1 hready] at herror
      cases herror
  | sync =>
    rcases List.mem_append.1 hm with hcompleted | hready
    · obtain ⟨completion, -, rfl⟩ := List.mem_map.1 hcompleted
      cases herror
    · rw [List.mem_singleton.1 hready] at herror
      cases herror
  | terminate | unknown => cases hm

/-- **Every error among the replies reports how one of the queries failed**, on the engine as it was
after the calls before that query. -/
theorem reported_serve (ready : s.phase = .ready) {messages : List Frontend}
    (hm : m ∈ (s.serve engine messages shared).1) (herror : m.isError) :
    ∃ before sql later e, messages = before ++ .query sql :: later ∧
      engine.verdict (engine.after shared.engine (before.flatMap Frontend.calls)) sql = .failed e ∧
      m = .report .error e.sqlState e.message := by
  induction messages generalizing s shared with
  | nil => cases hm
  | cons message messages ih =>
    rw [serve_cons ready] at hm
    rcases List.mem_append.1 hm with hfirst | hlater
    · obtain ⟨sql, e, rfl, hfailed, hreport⟩ := report_of_isError hfirst herror
      exact ⟨[], sql, messages, e, rfl, hfailed, hreport⟩
    · by_cases hterminate : message = .terminate
      · -- nothing is said after the end
        subst hterminate
        rw [serve_terminated answer_terminated] at hlater
        cases hlater
      · obtain ⟨before, sql, later, e, rfl, hfailed, hreport⟩ :=
          ih (answer_ready ready hterminate) hlater
        refine ⟨message :: before, sql, later, e, rfl, ?_, hreport⟩
        rw [List.flatMap_cons, Engine.after_append, ← answer_engine]
        exact hfailed

end Session

/-! ## What a connection reports -/

theorem Ending.mem_lastWords {ending : Ending} {m : Backend} (h : m ∈ lastWords ending) :
    ∃ e, ending = .error e ∧ m = .report .fatal .protocolViolation e.message := by
  cases ending with
  | ok => cases h
  | error e =>
    rw [lastWords, WireError.lastWords] at h
    split at h
    · exact ⟨e, rfl, List.mem_singleton.1 h⟩
    · cases h

/-- What is said at the end is read as it was made, unless it shows the tag zero. -/
theorem Frontend.readsBack_ending (hlimit : limit ≤ 104857600)
    (h : (heard limit stream).2 = .error e) :
    Backend.ReadsBack .fatal .protocolViolation e.message ↔ ¬e.IsZeroTag := by
  constructor
  · intro hread hzero
    exact Backend.readsBack_zeroTag hzero hread
  · intro hother
    obtain ⟨buffer, rest, htake⟩ := heard_error h
    exact Backend.readsBack_report
      ((WireError.tellable_message hlimit htake hother).mono (by decide))

namespace Connection

/-- **The reports of a connection are read as they were made**, when what the engine says can be
told and no message is longer than by default. Of what is written once the session is open, an error
among the replies reports how one of the queries failed, and is read as that, with no further field.
What is said at the end is how the client broke the protocol, and it is read as that unless it shows
the tag zero. -/
theorem reports_read_back (engine : Engine σ) (config : Config) (key : SessionKey)
    (shared : Shared σ) (chunks : List Bytes) (nonempty : ∀ chunk ∈ chunks, chunk ≠ [])
    (hlimit : config.maxMessageSize ≤ 104857600) (tells : engine.Tells shared.engine) :
    let limit := config.maxMessageSize
    let seen := transcript engine (chunks.map .data) config key shared
    match Opening.ofStream limit chunks.flatten with
    | (declines, .closed _) => seen.written = List.replicate declines declined
    | (declines, .accepted parameters rest) =>
      let s := ({ config, key } : Session).opened parameters
      let (messages, ending) := Frontend.heard limit rest
      let replies := s.handshake ++ (s.serve engine messages shared).1
      seen.written = List.replicate declines declined ++
          Backend.encodeAll (replies ++ Ending.lastWords ending) ∧
      seen.ending = ending ∧
      (∀ m ∈ replies, m.isError → ∃ before sql later e,
        messages = before ++ .query sql :: later ∧
        engine.verdict (engine.after shared.engine (before.flatMap Frontend.calls)) sql =
          .failed e ∧
        m = .report .error e.sqlState e.message ∧
        Backend.ReadsBack .error e.sqlState e.message) ∧
      ∀ m ∈ Ending.lastWords ending, ∃ e, ending = .error e ∧
        m = .report .fatal .protocolViolation e.message ∧
        (Backend.ReadsBack .fatal .protocolViolation e.message ↔ ¬e.IsZeroTag) := by
  intro limit seen
  have hseen : seen = Opening.transcript engine { config, key } shared
      (Opening.ofStream limit chunks.flatten) := transcript_opening nonempty
  cases hopening : Opening.ofStream limit chunks.flatten with
  | mk declines opening =>
    rw [hopening] at hseen
    cases opening with
    | closed ending => exact congrArg (·.written) hseen
    | accepted parameters rest =>
      let s := ({ config, key } : Session).opened parameters
      refine ⟨?_, congrArg (·.ending) hseen, ?_, ?_⟩
      · rw [hseen]
        -- the handshake is said before the session is opened, but does not depend on that
        simp only [Opening.transcript, Session.exchange, Transcript.after, Backend.encodeAll,
          List.flatMap_append, List.append_assoc]
        rfl
      · intro m hm herror
        rcases List.mem_append.1 hm with hhandshake | hreply
        · rw [Session.not_isError_handshake m hhandshake] at herror
          cases herror
        · obtain ⟨before, sql, later, e, hmessages, hfailed, hreport⟩ :=
            Session.reported_serve rfl hreply herror
          have hheard : .query sql ∈ (Frontend.heard limit rest).1 := by
            rw [hmessages]
            exact List.mem_append_right _ List.mem_cons_self
          obtain ⟨hsql, hlength⟩ := Frontend.heard_query hheard
          have htold := tells.failed hsql (Nat.le_trans hlength hlimit) hfailed
          exact ⟨before, sql, later, e, hmessages, hfailed, hreport,
            Backend.readsBack_report htold⟩
      · intro m hm
        obtain ⟨e, hending, hreport⟩ := Ending.mem_lastWords hm
        exact ⟨e, hending, hreport, Frontend.readsBack_ending hlimit hending⟩

/-- A session is opened and two queries fail, one for its kind and one for its table; then comes a
frame of length zero under the tag. -/
def badVisit (tag : UInt8) : List Bytes :=
  [[0, 0, 0, 8, 0, 3, 0, 0], (Frontend.query "BEGIN").encode,
    (Frontend.query "SELECT a FROM t").encode, [tag, 0, 0, 0, 0]]

/-- An engine without the table. -/
def noTable : Script := [.error (.engine (.described "no such table: t"))]

theorem opening_badVisit (tag : UInt8) : Opening.ofStream 104857600 (badVisit tag).flatten =
    (0, .accepted [] (badVisit tag).tail.flatten) :=
  Opening.ofStream_session rfl

theorem heard_badVisit (tag : UInt8) : Frontend.heard 104857600 (badVisit tag).tail.flatten =
    ([.query "BEGIN", .query "SELECT a FROM t"], .error (.protocol (.messageLength 0 tag))) := by
  have hbegin : Frontend.take 104857600 (badVisit tag).tail.flatten =
      ⟨.ok (some (.query "BEGIN")), (badVisit tag).tail.tail.flatten⟩ := by rfl
  have hselect : Frontend.take 104857600 (badVisit tag).tail.tail.flatten =
      ⟨.ok (some (.query "SELECT a FROM t")), [tag, 0, 0, 0, 0]⟩ := by rfl
  have hframe : Frontend.take 104857600 [tag, 0, 0, 0, 0] =
      ⟨.error (.protocol (.messageLength 0 tag)), [tag, 0, 0, 0, 0]⟩ := by
    have hshort : (0 : Int) < 4 + (Wire.Origin.frontend.trailer tag : Int) := by omega
    have hrefused : Wire.Frame.take .frontend 104857600 [tag, 0, 0, 0, 0] =
        .refused (.protocol (.messageLength 0 tag)) [tag, 0, 0, 0, 0] := if_pos hshort
    rw [Frontend.take, hrefused]
    rfl
  rw [Frontend.heard_message (by decide) hbegin, Frontend.heard_message (by decide) hselect,
    Frontend.heard_refused hframe]

theorem reports_read_back_badVisit :
    let s := ({ config := {}, key := ⟨7, 42⟩ } : Session).opened []
    let messages : List Frontend := [.query "BEGIN", .query "SELECT a FROM t"]
    let replies := s.handshake ++ (s.serve Script.engine messages ⟨.empty, noTable⟩).1
    (∀ chunk ∈ badVisit 'Z'.toUInt8, chunk ≠ []) ∧ ({} : Config).maxMessageSize ≤ 104857600 ∧
      Script.engine.Tells noTable ∧ replies.countP Backend.isError = 2 ∧
      (∀ m ∈ replies, m.isError → ∃ e : StatementError, m = .report .error e.sqlState e.message ∧
        Backend.ReadsBack .error e.sqlState e.message) ∧
      Backend.ReadsBack .fatal .protocolViolation
        "Protocol error: Invalid length 0 for message 'Z'" := by
  have nonempty : ∀ chunk ∈ badVisit 'Z'.toUInt8, chunk ≠ [] := by decide
  have tells : Script.engine.Tells noTable := by
    apply Script.tells
    intro error herror
    cases List.mem_singleton.1 herror
    exact Text.Tellable.mono (by decide : Text.Tellable 20 "no such table: t") (by decide)
  have hreports := reports_read_back Script.engine {} ⟨7, 42⟩ ⟨.empty, noTable⟩
    (badVisit 'Z'.toUInt8) nonempty (Nat.le_refl _) tells
  dsimp only at hreports
  rw [opening_badVisit] at hreports
  dsimp only at hreports
  rw [heard_badVisit] at hreports
  obtain ⟨-, -, hreplies, hlast⟩ := hreports
  refine ⟨nonempty, Nat.le_refl _, tells, by decide +kernel, ?_, ?_⟩
  · intro m hm herror
    obtain ⟨-, -, -, e, -, -, hreport, hread⟩ := hreplies m hm herror
    exact ⟨e, hreport, hread⟩
  · obtain ⟨e, he, -, hread⟩ := hlast _ List.mem_cons_self
    cases he
    exact hread.2 (by rintro ⟨declared, hzero⟩; cases hzero)

/-- **A report that is misread.** A frame of length zero under the tag zero is reported in the words
of the failure that the connection ends with. They are cut off at the tag, and what stands behind it
is read as one more field. -/
theorem report_misread :
    let seen := transcript Script.engine ((badVisit 0).map .data) {} ⟨7, 42⟩ ⟨.empty, noTable⟩
    let e : WireError := .protocol (.messageLength 0 0)
    let made := Backend.report .fatal .protocolViolation e.message
    let misread : Text := "Protocol error: Invalid length 0 for message '"
    seen.ending = .error e ∧ (∃ before, seen.written = before ++ made.encode) ∧
      e.message ≠ misread ∧
      Backend.take made.encode = ⟨.ok (some (.report .fatal .protocolViolation misread)), []⟩ ∧
      (Backend.readErrorFields made.toFrame.payload.length).run made.toFrame.payload =
        .ok (Backend.errorFields Severity.fatal.text SqlState.protocolViolation.code misread ++
          [('\''.toUInt8, [])], []) := by
  intro seen e made misread
  have nonempty : ∀ chunk ∈ badVisit 0, chunk ≠ [] := by decide
  have hseen : seen = Opening.transcript Script.engine { config := {}, key := ⟨7, 42⟩ }
      ⟨.empty, noTable⟩ (Opening.ofStream 104857600 (badVisit 0).flatten) :=
    transcript_opening nonempty
  rw [opening_badVisit] at hseen
  dsimp only [Opening.transcript] at hseen
  rw [heard_badVisit] at hseen
  have hcut : WireError.beforeTag 0 = misread := by decide
  obtain ⟨htaken, hfields⟩ := Backend.read_zeroTag .fatal .protocolViolation 0
  rw [hcut] at htaken hfields
  refine ⟨congrArg (·.ending) hseen, ?_, by decide, ?_, hfields⟩
  · rw [hseen]
    simp only [Session.exchange, Transcript.after, Backend.encodeAll, List.flatMap_append]
    exact ⟨_, (List.append_assoc _ _ _).symm.trans (congrArg _ (List.append_nil made.encode))⟩
  · have hnothing := htaken []
    rwa [List.append_nil] at hnothing

end Connection

end PgGateway
