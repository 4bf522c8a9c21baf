import PgGateway.Proofs.Connection.Heard
import PgGateway.Proofs.Connection.Transcript
import PgGateway.Proofs.Session.Replies

/-!
# What a connection writes

A connection declines encryption as often as it is asked for it. If startup comes out without a
session, that is all. Otherwise the handshake follows, the replies of the session, and at the very
end, if the client broke the protocol, one fatal error that says how. Nothing comes of the bytes
behind the message that terminates the session.
-/

namespace PgGateway

variable {σ : Type}

/-- What a client is told at the end of a session: how it broke the protocol, if it did. -/
def Ending.lastWords : Ending → List Backend
  | .ok () => []
  | .error e => e.lastWords

theorem Ending.isFatal_lastWords (ending : Ending) :
    (∃ m ∈ lastWords ending, m.IsFatal) ↔
      (∃ violation, ending = .error (.protocol violation)) ∨
        ∃ length limit, ending = .error (.tooLarge length limit) := by
  rcases ending with (_ | _ | _ | _ | _) | _ <;>
    simp [lastWords, WireError.lastWords, WireError.isViolation, Backend.isFatal_report]

/-- The transcript with something written, and calls made for it, before all else. -/
def Transcript.after (written : Bytes) (calls : List Call) (t : Transcript σ) : Transcript σ :=
  { t with written := written ++ t.written, calls := calls ++ t.calls }

variable {engine : Engine σ} {s : Session} {shared : Shared σ} {stream rest : Bytes} {read : Nat}

/-! ## Sessions -/

/-- What is seen of a ready session whose client says these messages and leaves in this way. -/
def Session.exchange (engine : Engine σ) (s : Session) (shared : Shared σ)
    (heard : List Frontend × Ending) : Transcript σ :=
  let (replies, _, after) := s.serve engine heard.1 shared
  ⟨Backend.encodeAll (replies ++ Ending.lastWords heard.2), heard.2,
    heard.1.flatMap Frontend.calls, after⟩

theorem Session.exchange_cons {message : Frontend} (ready : s.phase = .ready)
    (messages : List Frontend) (ending : Ending) :
    s.exchange engine shared (message :: messages, ending) =
      ((s.answer engine message shared).2.1.exchange engine (s.answer engine message shared).2.2
        (messages, ending)).after (Backend.encodeAll (s.answer engine message shared).1)
          message.calls := by
  simp [exchange, Session.serve_cons ready, Transcript.after, Backend.encodeAll]

namespace Conversation

theorem transcript_ofMessages (ready : s.phase = .ready) :
    (ofMessages engine s shared read stream).transcript =
      s.exchange engine shared (Frontend.heard s.config.maxMessageSize stream) := by
  generalize hlimit : s.config.maxMessageSize = limit
  induction stream using Frontend.stream_induction limit generalizing s shared read with
  | incomplete stream rest h =>
    subst hlimit
    rw [ofMessages_incomplete h, Frontend.heard_incomplete h]
    rfl
  | refused stream rest e h =>
    subst hlimit
    rw [ofMessages_refused h, Frontend.heard_refused h]
    simp [transcript, written, after, hungUp, Session.exchange, Session.serve, Ending.lastWords]
  | item stream rest message h ih =>
    subst hlimit
    rw [ofMessages_item ready h]
    by_cases hterminate : message = .terminate
    · subst hterminate
      rw [if_pos rfl, Frontend.heard_terminate h, Session.exchange_cons ready]
      rfl
    · rw [if_neg hterminate, Frontend.heard_message hterminate h, Session.exchange_cons ready,
        ← ih (Session.answer_ready ready hterminate) (by rw [Session.answer_config])]
      rfl

end Conversation

/-! ## Startup -/

/-- What is seen of a session that awaits startup, when startup comes out like this. -/
def Opening.transcript (engine : Engine σ) (s : Session) (shared : Shared σ) :
    Nat × Opening → Transcript σ
  | (declines, closed ending) => ⟨List.replicate declines Connection.declined, ending, [], shared⟩
  | (declines, accepted parameters rest) =>
    ((s.opened parameters).exchange engine shared
      (Frontend.heard s.config.maxMessageSize rest)).after
        (List.replicate declines Connection.declined ++ Backend.encodeAll s.handshake) []

theorem Opening.transcript_succ (declines : Nat) (opening : Opening) :
    transcript engine s shared (declines + 1, opening) =
      (transcript engine s shared (declines, opening)).after [Connection.declined] [] := by
  cases opening with
  | accepted parameters rest => simp [transcript, Transcript.after, List.replicate_succ]
  | closed ending => rfl

namespace Conversation

theorem transcript_ofStream (fresh : s.phase = .awaitingStartup) :
    (ofStream engine s shared read stream).transcript =
      Opening.transcript engine s shared (Opening.ofStream s.config.maxMessageSize stream) := by
  induction stream using Startup.stream_induction s.config.maxMessageSize generalizing read with
  | incomplete stream rest h =>
    rw [ofStream_incomplete h, Opening.ofStream_incomplete h]
    rfl
  | refused stream rest e h =>
    rw [ofStream_refused h, Opening.ofStream_refused h]
    rfl
  | item stream rest request h ih =>
    cases request with
    | session parameters =>
      rw [ofStream_session fresh h, Opening.ofStream_session h, Opening.transcript,
        show s.config = (s.opened parameters).config from rfl, ← transcript_ofMessages rfl]
      rfl
    | ssl | gssEncryption =>
      rw [ofStream_encryption fresh (by simp) h, Opening.ofStream_encryption (by simp) h,
        Opening.transcript_succ, ← ih]
      rfl
    | cancel key =>
      rw [ofStream_cancel fresh h, Opening.ofStream_cancel h]
      rfl

end Conversation

namespace Connection

/-- These bytes open a session and terminate it. -/
def HangsUp (limit : Nat) (bytes : Bytes) : Prop :=
  ∃ declines parameters rest,
    Opening.ofStream limit bytes = (declines, .accepted parameters rest) ∧
      .terminate ∈ (Frontend.heard limit rest).1

theorem transcript_opening {config : Config} {key : SessionKey} {chunks : List Bytes}
    (nonempty : ∀ chunk ∈ chunks, chunk ≠ []) :
    transcript engine (chunks.map .data) config key shared =
      Opening.transcript engine { config, key } shared
        (Opening.ofStream config.maxMessageSize chunks.flatten) := by
  rw [transcript_chunks nonempty, Conversation.transcript_ofStream rfl]

theorem HangsUp.ne_nil {limit : Nat} {bytes : Bytes} (h : HangsUp limit bytes) : bytes ≠ [] := by
  rintro rfl
  obtain ⟨declines, parameters, rest, hopening, -⟩ := h
  have hnone : Startup.take limit [] = ⟨.ok none, []⟩ := rfl
  rw [Opening.ofStream_incomplete hnone] at hopening
  cases hopening

/-- What comes of bytes that terminate the session does not depend on the bytes behind them. -/
theorem HangsUp.transcript_append (engine : Engine σ) (shared : Shared σ) {bytes : Bytes}
    (h : HangsUp s.config.maxMessageSize bytes) (later : Bytes) :
    Opening.transcript engine s shared
        (Opening.ofStream s.config.maxMessageSize (bytes ++ later)) =
      Opening.transcript engine s shared (Opening.ofStream s.config.maxMessageSize bytes) ∧
    (Opening.transcript engine s shared
      (Opening.ofStream s.config.maxMessageSize bytes)).ending = .ok () := by
  obtain ⟨declines, parameters, rest, hopening, hterminate⟩ := h
  obtain ⟨hheard, hending⟩ := Frontend.heard_append hterminate later
  rw [Opening.ofStream_append hopening, hopening]
  dsimp only [Opening.transcript]
  rw [hheard]
  exact ⟨rfl, hending⟩

/-- **The discipline of a transcript.** A connection writes one byte for every request for
encryption. If startup comes out without a session it writes nothing else, makes no call and leaves
all as it was. Otherwise it writes the handshake, the replies to what it hears, none of them fatal,
and then one fatal error if and only if the client broke the protocol; the calls are those of the
messages. Once the session is terminated the connection is closed, and the bytes behind have no
effect. -/
theorem transcript_discipline (engine : Engine σ) (config : Config) (key : SessionKey)
    (shared : Shared σ) (chunks : List Bytes) (nonempty : ∀ chunk ∈ chunks, chunk ≠ []) :
    let limit := config.maxMessageSize
    let seen := transcript engine (chunks.map .data) config key shared
    (match Opening.ofStream limit chunks.flatten with
      | (declines, .closed ending) =>
        seen = ⟨List.replicate declines declined, ending, [], shared⟩
      | (declines, .accepted parameters rest) =>
        let s := ({ config, key } : Session).opened parameters
        let (messages, ending) := Frontend.heard limit rest
        let (replies, _, after) := s.serve engine messages shared
        seen = ⟨List.replicate declines declined ++
            Backend.encodeAll (s.handshake ++ replies ++ Ending.lastWords ending),
          ending, messages.flatMap Frontend.calls, after⟩ ∧
        (∀ m ∈ s.handshake ++ replies, ¬m.IsFatal) ∧
        ((∃ m ∈ Ending.lastWords ending, m.IsFatal) ↔
          (∃ violation, ending = .error (.protocol violation)) ∨
            ∃ length limit, ending = .error (.tooLarge length limit))) ∧
    ∀ before later, chunks.flatten = before ++ later → HangsUp limit before →
      seen.ending = .ok () ∧ seen = transcript engine [.data before] config key shared := by
  intro limit seen
  have hseen : seen = Opening.transcript engine { config, key } shared
      (Opening.ofStream limit chunks.flatten) := transcript_opening nonempty
  refine ⟨?_, ?_⟩
  · cases hopening : Opening.ofStream limit chunks.flatten with
    | mk declines opening =>
      rw [hopening] at hseen
      cases opening with
      | closed ending => exact hseen
      | accepted parameters rest =>
        let s := ({ config, key } : Session).opened parameters
        have hreplies : ∀ m ∈ (s.serve engine (Frontend.heard limit rest).1 shared).1, ¬m.IsFatal :=
          Session.serve_not_fatal rfl _
        refine ⟨?_, List.forall_mem_append.2 ⟨Session.handshake_not_fatal, hreplies⟩,
          Ending.isFatal_lastWords _⟩
        rw [hseen]
        -- the handshake is said before the session is opened, but does not depend on that
        simp only [Opening.transcript, Session.exchange, Transcript.after, Backend.encodeAll,
          List.flatMap_append, List.append_assoc, List.nil_append]
        rfl
  · intro before later hflatten hhangsUp
    have hbefore : ∀ chunk ∈ [before], chunk ≠ [] :=
      List.forall_mem_singleton.2 hhangsUp.ne_nil
    obtain ⟨hsame, hending⟩ :=
      HangsUp.transcript_append (s := { config, key }) engine shared hhangsUp later
    rw [← hflatten] at hsame
    have hfirst : transcript engine [.data before] config key shared = _ :=
      transcript_opening hbefore
    rw [List.flatten_singleton] at hfirst
    rw [hseen, hfirst, hsame]
    exact ⟨hending, rfl⟩

/-- A request for encryption, a request of startup, and the message that terminates the session. -/
def briefVisit : Bytes :=
  [0, 0, 0, 8, 4, 210, 22, 47, 0, 0, 0, 9, 0, 3, 0, 0, 0, 'X'.toUInt8, 0, 0, 0, 4]

theorem hangsUp_briefVisit : HangsUp 104857600 briefVisit := by
  refine ⟨1, [], briefVisit.drop 17, ?_, ?_⟩
  · have hssl : Startup.take 104857600 briefVisit = ⟨.ok (some .ssl), briefVisit.drop 8⟩ := by rfl
    have hsession : Startup.take 104857600 (briefVisit.drop 8) =
        ⟨.ok (some (.session [])), briefVisit.drop 17⟩ := by rfl
    rw [Opening.ofStream_encryption (.inl rfl) hssl, Opening.ofStream_session hsession]
  · have hterminate : Frontend.take 104857600 (briefVisit.drop 17) =
        ⟨.ok (some .terminate), []⟩ := by rfl
    rw [Frontend.heard_terminate hterminate]
    exact List.mem_singleton_self _

theorem transcript_discipline_briefVisit :
    (∀ chunk ∈ [briefVisit, [255]], chunk ≠ []) ∧ HangsUp 104857600 briefVisit ∧
      transcript Script.engine [.data briefVisit, .data [255]] {} ⟨1, 2⟩ ⟨.empty, []⟩ =
        transcript Script.engine [.data briefVisit] {} ⟨1, 2⟩ ⟨.empty, []⟩ :=
  have nonempty : ∀ chunk ∈ [briefVisit, [255]], chunk ≠ [] := by decide
  ⟨nonempty, hangsUp_briefVisit,
    ((transcript_discipline Script.engine {} ⟨1, 2⟩ ⟨.empty, []⟩ [briefVisit, [255]] nonempty).2
      briefVisit [255] rfl hangsUp_briefVisit).2⟩

end Connection

end PgGateway
