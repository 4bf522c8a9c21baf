import PgGateway.Connection
import PgGateway.Proofs.Session.Answer
import PgGateway.Proofs.Wire.Measured

/-!
# Conversations

What comes of a whole stream when there are no deliveries, only the stream: packets of startup are
taken off it one by one and answered until one is accepted, then messages, until something fails,
the session ends, or what is left is no whole item. A conversation also tells after how many bytes
of the stream each answer falls due, and which calls of the engine were made.
-/

namespace PgGateway

variable {σ : Type}

/-! ## Answers and what they are made of -/

/-- What is written when so many bytes of the stream are there. -/
structure Answer where
  position : Nat
  written : Bytes
deriving DecidableEq, Repr

/-- All that comes of a stream. -/
structure Conversation (σ : Type) where
  answers : List Answer
  calls : List Call
  /-- The number of bytes with which the conversation is over, if it does not last as long as the
  stream. -/
  endsAt : Option Nat
  ending : Ending
  shared : Shared σ

/-- What a client is told at the end: how it broke the protocol, if it did. -/
def WireError.lastWords (e : WireError) : List Backend :=
  if e.isViolation then [.report .fatal .protocolViolation e.message] else []

namespace Conversation

/-- The stream is at its end. -/
def atEnd (shared : Shared σ) : Conversation σ := ⟨[], [], none, .ok (), shared⟩

/-- The conversation is over, whatever else the stream holds. -/
def hungUp (position : Nat) (ending : Ending) (shared : Shared σ) : Conversation σ :=
  ⟨[], [], some position, ending, shared⟩

/-- An answer comes first, with the calls that were made for it. -/
def after (position : Nat) (written : Bytes) (calls : List Call) (v : Conversation σ) :
    Conversation σ :=
  { v with answers := ⟨position, written⟩ :: v.answers, calls := calls ++ v.calls }

/-- What comes of messages, when `read` bytes of the stream came before them. -/
def ofMessages (engine : Engine σ) (s : Session) (shared : Shared σ) (read : Nat)
    (stream : Bytes) : Conversation σ :=
  match _h : Frontend.take s.config.maxMessageSize stream with
  | ⟨.ok none, _⟩ => atEnd shared
  | ⟨.error e, rest⟩ =>
    let position := read + Taken.used Wire.Frame.headerLength stream rest
    (hungUp position (.error e) shared).after position (Backend.encodeAll e.lastWords) []
  | ⟨.ok (some message), rest⟩ =>
    let position := read + Taken.used Wire.Frame.headerLength stream rest
    match s.receive engine message shared with
    | .error e =>
      (hungUp position (.error e) shared).after position (Backend.encodeAll e.lastWords) []
    | .ok (replies, next, shared) =>
      (if next.phase = .terminated then hungUp position (.ok ()) shared
        else ofMessages engine next shared position rest).after position
          (Backend.encodeAll replies) message.calls
termination_by stream.length
decreasing_by exact Frontend.take_length_lt _h

/-- What comes of a stream from startup on, when `read` bytes came before. -/
def ofStream (engine : Engine σ) (s : Session) (shared : Shared σ) (read : Nat)
    (stream : Bytes) : Conversation σ :=
  match _h : Startup.take s.config.maxMessageSize stream with
  | ⟨.ok none, _⟩ => atEnd shared
  | ⟨.error e, rest⟩ =>
    hungUp (read + Taken.used Startup.headerLength stream rest) (.error e) shared
  | ⟨.ok (some request), rest⟩ =>
    let position := read + Taken.used Startup.headerLength stream rest
    match s.startup request with
    | .error e => hungUp position (.error e) shared
    | .ok (.close, _) => hungUp position (.ok ()) shared
    | .ok (.declined, next) =>
      (ofStream engine next shared position rest).after position [Connection.declined] []
    | .ok (.accepted messages, next) =>
      (ofMessages engine next shared position rest).after position
        (Backend.encodeAll messages) []
termination_by stream.length
decreasing_by exact Startup.take_length_lt _h

/-! ## What is written, and when -/

/-- All that is written. -/
def written (v : Conversation σ) : Bytes := v.answers.flatMap Answer.written

/-- What falls due when the stream grows from `start` bytes to `stop`. -/
def due (v : Conversation σ) (start stop : Nat) : Bytes :=
  (v.answers.filter fun a => start < a.position ∧ a.position ≤ stop).flatMap Answer.written

/-- With so many bytes the conversation is over. -/
def EndedBy (v : Conversation σ) (stop : Nat) : Prop := ∃ position ∈ v.endsAt, position ≤ stop

instance (v : Conversation σ) (stop : Nat) : Decidable (v.EndedBy stop) :=
  match h : v.endsAt with
  | none => .isFalse fun ⟨p, hp, _⟩ => by simp [h] at hp
  | some p => if hp : p ≤ stop then .isTrue ⟨p, h, hp⟩ else .isFalse fun ⟨q, hq, hle⟩ => by
      cases h.symm.trans hq
      exact hp hle

/-- What is written after each delivery, when the first `start` bytes of the stream were delivered
before: what falls due with it, as long as the conversation is not over. -/
def filed (v : Conversation σ) : Nat → List Bytes → List Bytes
  | _, [] => []
  | start, chunk :: chunks =>
    let stop := start + chunk.length
    v.due start stop :: if v.EndedBy stop then [] else v.filed stop chunks

/-! ## What comes of a stream, item by item -/

variable {engine : Engine σ} {s : Session} {shared : Shared σ} {v : Conversation σ}
  {stream rest : Bytes} {read start stop position : Nat}

theorem ofMessages_incomplete
    (h : Frontend.take s.config.maxMessageSize stream = ⟨.ok none, rest⟩) :
    ofMessages engine s shared read stream = atEnd shared := by
  rw [ofMessages]
  split <;> simp_all

theorem ofMessages_refused {e : WireError}
    (h : Frontend.take s.config.maxMessageSize stream = ⟨.error e, rest⟩) :
    ofMessages engine s shared read stream =
      (hungUp (read + Taken.used Wire.Frame.headerLength stream rest) (.error e) shared).after
        (read + Taken.used Wire.Frame.headerLength stream rest)
        (Backend.encodeAll e.lastWords) [] := by
  rw [ofMessages]
  split <;> simp_all

/-- A message is answered, and ends the conversation or leaves it to the rest of the stream. -/
theorem ofMessages_item {message : Frontend} (ready : s.phase = .ready)
    (h : Frontend.take s.config.maxMessageSize stream = ⟨.ok (some message), rest⟩) :
    ofMessages engine s shared read stream =
      (if message = .terminate then
          hungUp (read + (stream.length - rest.length)) (.ok ())
            (s.answer engine message shared).2.2
        else ofMessages engine (s.answer engine message shared).2.1
          (s.answer engine message shared).2.2 (read + (stream.length - rest.length)) rest).after
        (read + (stream.length - rest.length))
        (Backend.encodeAll (s.answer engine message shared).1) message.calls := by
  have hphase : (s.answer engine message shared).2.1.phase = .terminated ↔
      message = .terminate := by
    rw [Session.answer_phase, ready]
    split <;> simp_all
  rw [ofMessages, ← Taken.used_of_lt Wire.Frame.headerLength (Frontend.take_length_lt h)]
  split
  · simp_all
  · simp_all
  · next heq =>
    cases h.symm.trans heq
    simp only [Session.receive_ready ready, hphase]

theorem ofStream_incomplete
    (h : Startup.take s.config.maxMessageSize stream = ⟨.ok none, rest⟩) :
    ofStream engine s shared read stream = atEnd shared := by
  rw [ofStream]
  split <;> simp_all

theorem ofStream_refused {e : WireError}
    (h : Startup.take s.config.maxMessageSize stream = ⟨.error e, rest⟩) :
    ofStream engine s shared read stream =
      hungUp (read + Taken.used Startup.headerLength stream rest) (.error e) shared := by
  rw [ofStream]
  split <;> simp_all

theorem ofStream_session {parameters : List (Text × Text)} (fresh : s.phase = .awaitingStartup)
    (h : Startup.take s.config.maxMessageSize stream = ⟨.ok (some (.session parameters)), rest⟩) :
    ofStream engine s shared read stream =
      (ofMessages engine (s.opened parameters) shared (read + (stream.length - rest.length))
        rest).after (read + (stream.length - rest.length)) (Backend.encodeAll s.handshake) [] := by
  rw [ofStream, ← Taken.used_of_lt Startup.headerLength (Startup.take_length_lt h)]
  split <;> simp_all [Session.startup_fresh]

theorem ofStream_encryption {request : Startup} (fresh : s.phase = .awaitingStartup)
    (encryption : request = .ssl ∨ request = .gssEncryption)
    (h : Startup.take s.config.maxMessageSize stream = ⟨.ok (some request), rest⟩) :
    ofStream engine s shared read stream =
      (ofStream engine s shared (read + (stream.length - rest.length)) rest).after
        (read + (stream.length - rest.length)) [Connection.declined] [] := by
  rw [ofStream, ← Taken.used_of_lt Startup.headerLength (Startup.take_length_lt h)]
  rcases encryption with rfl | rfl <;> split <;> simp_all [Session.startup_fresh]

theorem ofStream_cancel {key : SessionKey} (fresh : s.phase = .awaitingStartup)
    (h : Startup.take s.config.maxMessageSize stream = ⟨.ok (some (.cancel key)), rest⟩) :
    ofStream engine s shared read stream =
      hungUp (read + (stream.length - rest.length)) (.ok ()) shared := by
  rw [ofStream, ← Taken.used_of_lt Startup.headerLength (Startup.take_length_lt h)]
  split <;> simp_all [Session.startup_fresh]

/-! ## The order of answers -/

/-- The answers fall due in order, between `start` and `stop`, and none after the conversation is
over. -/
structure Within (v : Conversation σ) (start stop : Nat) : Prop where
  sorted : v.answers.Pairwise fun a b => a.position ≤ b.position
  between : ∀ a ∈ v.answers, start ≤ a.position ∧ a.position ≤ stop
  endsAt : ∀ p ∈ v.endsAt, start ≤ p ∧ ∀ a ∈ v.answers, a.position ≤ p

theorem within_atEnd : (atEnd shared).Within start stop := by
  constructor <;> simp [atEnd]

theorem within_hungUp {ending : Ending} : (hungUp start ending shared).Within start stop := by
  constructor <;> simp [hungUp]

theorem Within.mono (h : v.Within start stop) (hle : read ≤ start) : v.Within read stop where
  sorted := h.sorted
  between a ha := ⟨Nat.le_trans hle (h.between a ha).1, (h.between a ha).2⟩
  endsAt p hp := ⟨Nat.le_trans hle (h.endsAt p hp).1, (h.endsAt p hp).2⟩

theorem Within.after (h : v.Within start stop) (hle : start ≤ stop) (written : Bytes)
    (calls : List Call) : (v.after start written calls).Within start stop where
  sorted := List.pairwise_cons.2 ⟨fun a ha => (h.between a ha).1, h.sorted⟩
  between := by
    intro a ha
    rcases List.mem_cons.1 ha with rfl | ha
    · exact ⟨Nat.le_refl _, hle⟩
    · exact h.between a ha
  endsAt := by
    intro p hp
    obtain ⟨hstart, hlast⟩ := h.endsAt p hp
    refine ⟨hstart, fun a ha => ?_⟩
    rcases List.mem_cons.1 ha with rfl | ha
    · exact hstart
    · exact hlast a ha

/-- The answer to a message comes first, when its last byte is there. -/
theorem within_item {message : Frontend} (ready : s.phase = .ready)
    (h : Frontend.take s.config.maxMessageSize stream = ⟨.ok (some message), rest⟩)
    (hstop : read + stream.length = stop)
    (hrest : message ≠ .terminate →
      (ofMessages engine (s.answer engine message shared).2.1 (s.answer engine message shared).2.2
        (read + (stream.length - rest.length)) rest).Within
          (read + (stream.length - rest.length) + 1) stop) :
    (ofMessages engine s shared read stream).Within (read + (stream.length - rest.length))
      stop := by
  rw [ofMessages_item ready h]
  refine Within.after ?_ (by omega) _ _
  split
  · exact within_hungUp
  · next goesOn => exact (hrest goesOn).mono (Nat.le_succ _)

theorem within_ofMessages (ready : s.phase = .ready) (hstop : read + stream.length = stop) :
    (ofMessages engine s shared read stream).Within (read + 1) stop := by
  generalize hlimit : s.config.maxMessageSize = limit
  induction stream using Frontend.stream_induction limit generalizing s shared read with
  | incomplete stream rest h =>
    subst hlimit
    rw [ofMessages_incomplete h]
    exact within_atEnd
  | refused stream rest e h =>
    have hused := (Frontend.take_local limit).used_pos stream rest
    have hle := (Frontend.take_local limit).used_le h nofun
    subst hlimit
    rw [ofMessages_refused h]
    exact (within_hungUp.after (by omega) _ _).mono (by omega)
  | item stream rest message h ih =>
    have hlt := Frontend.take_length_lt h
    subst hlimit
    refine (within_item ready h hstop fun goesOn => ?_).mono (by omega)
    exact ih (Session.answer_ready ready goesOn) (by omega) (by rw [Session.answer_config])

/-- The answer to a request of startup comes first, when its last byte is there. -/
theorem within_request {request : Startup} (fresh : s.phase = .awaitingStartup)
    (h : Startup.take s.config.maxMessageSize stream = ⟨.ok (some request), rest⟩)
    (hstop : read + stream.length = stop)
    (hrest : (ofStream engine s shared (read + (stream.length - rest.length)) rest).Within
      (read + (stream.length - rest.length) + 1) stop) :
    (ofStream engine s shared read stream).Within (read + (stream.length - rest.length)) stop := by
  have hlt := Startup.take_length_lt h
  cases request with
  | session parameters =>
    rw [ofStream_session fresh h]
    exact ((within_ofMessages rfl (by omega)).mono (Nat.le_succ _)).after (by omega) _ _
  | ssl | gssEncryption =>
    rw [ofStream_encryption fresh (by simp) h]
    exact (hrest.mono (Nat.le_succ _)).after (by omega) _ _
  | cancel key =>
    rw [ofStream_cancel fresh h]
    exact within_hungUp

theorem within_ofStream (fresh : s.phase = .awaitingStartup) (hstop : read + stream.length = stop) :
    (ofStream engine s shared read stream).Within (read + 1) stop := by
  induction stream using Startup.stream_induction s.config.maxMessageSize generalizing read with
  | incomplete stream rest h =>
    rw [ofStream_incomplete h]
    exact within_atEnd
  | refused stream rest e h =>
    have hused := (Startup.take_local s.config.maxMessageSize).used_pos stream rest
    rw [ofStream_refused h]
    exact within_hungUp.mono (by omega)
  | item stream rest request h ih =>
    have hlt := Startup.take_length_lt h
    exact (within_request fresh h hstop (ih (by omega))).mono (by omega)

/-! ## What is due -/

theorem Within.due_eq_nil (h : v.Within start stop) {n : Nat} (hn : n < start) :
    v.due 0 n = [] := by
  have hnone : ∀ a ∈ v.answers, ¬(0 < a.position ∧ a.position ≤ n) := by
    intro a ha
    have hstart := (h.between a ha).1
    omega
  rw [due, List.filter_eq_nil_iff.2 (by simpa using hnone)]
  rfl

theorem Within.not_endedBy (h : v.Within start stop) {n : Nat} (hn : n < start) : ¬v.EndedBy n := by
  rintro ⟨p, hp, hle⟩
  have hstart := (h.endsAt p hp).1
  omega

theorem due_after {n : Nat} (hpos : 0 < position) (hle : position ≤ n) (written : Bytes)
    (calls : List Call) : (v.after position written calls).due 0 n = written ++ v.due 0 n := by
  simp [due, after, hpos, hle]

theorem filter_sorted {answers : List Answer} {middle last : Nat} (hle : middle ≤ last)
    (sorted : answers.Pairwise fun a b => a.position ≤ b.position) :
    answers.filter (fun a => 0 < a.position ∧ a.position ≤ last) =
      answers.filter (fun a => 0 < a.position ∧ a.position ≤ middle) ++
        answers.filter (fun a => middle < a.position ∧ a.position ≤ last) := by
  induction answers with
  | nil => rfl
  | cons a answers ih =>
    obtain ⟨hfirst, hsorted⟩ := List.pairwise_cons.1 sorted
    by_cases hmiddle : a.position ≤ middle
    · have hlast : a.position ≤ last := Nat.le_trans hmiddle hle
      by_cases hpos : 0 < a.position <;>
        simpa [hmiddle, hlast, hpos, Nat.not_lt.2 hmiddle] using ih hsorted
    · -- from here on everything is due after `middle`
      have hlater : ∀ b ∈ a :: answers, middle < b.position := by
        intro b hb
        rcases List.mem_cons.1 hb with rfl | hb
        · omega
        · have hab := hfirst b hb
          omega
      have hnone : (a :: answers).filter (fun a => 0 < a.position ∧ a.position ≤ middle) = [] := by
        refine List.filter_eq_nil_iff.2 fun b hb => ?_
        have hmiddle := hlater b hb
        simp
        omega
      rw [hnone, List.nil_append]
      refine List.filter_congr fun b hb => ?_
      have hmiddle := hlater b hb
      simp [hmiddle, Nat.zero_lt_of_lt hmiddle]

/-- What is due is due in order: first what is due by `middle`, then what is due after. -/
theorem Within.due_append (h : v.Within start stop) {middle last : Nat} (hle : middle ≤ last) :
    v.due 0 last = v.due 0 middle ++ v.due middle last := by
  rw [due, filter_sorted hle h.sorted, List.flatMap_append]
  rfl

/-- By the end of the stream, or when the conversation is over, all is due. -/
theorem Within.due_eq_written (h : v.Within start stop) (hpos : 0 < start) {n : Nat}
    (hall : stop ≤ n ∨ v.EndedBy n) : v.due 0 n = v.written := by
  have hdue : ∀ a ∈ v.answers, 0 < a.position ∧ a.position ≤ n := by
    intro a ha
    have hbetween := h.between a ha
    rcases hall with hstop | ⟨p, hp, hle⟩
    · omega
    · have hlast := (h.endsAt p hp).2 a ha
      omega
  rw [due, List.filter_eq_self.2 (by simpa using hdue)]
  rfl

/-- What is filed under deliveries that bring the rest of the stream is all that was not due
before. -/
theorem Within.due_append_filed (h : v.Within start stop) (hpos : 0 < start) (n : Nat)
    (chunks : List Bytes) (hall : stop ≤ n + chunks.flatten.length) :
    v.due 0 n ++ (v.filed n chunks).flatten = v.written := by
  induction chunks generalizing n with
  | nil =>
    rw [filed, List.flatten_nil, List.append_nil]
    exact h.due_eq_written hpos (.inl hall)
  | cons chunk chunks ih =>
    rw [List.flatten_cons, List.length_append] at hall
    rw [filed, List.flatten_cons, ← List.append_assoc,
      ← h.due_append (Nat.le_add_right n chunk.length)]
    by_cases hover : v.EndedBy (n + chunk.length)
    · rw [if_pos hover, List.flatten_nil, List.append_nil]
      exact h.due_eq_written hpos (.inr hover)
    · rw [if_neg hover]
      exact ih _ (by omega)

/-! ## Calls -/

/-- The conversation with an engine that keeps its calls, and had kept some before. -/
def recording (calls : List Call) (v : Conversation σ) : Conversation (List Call × σ) :=
  { v with shared := v.shared.recording (calls ++ v.calls) }

theorem recording_after (before : List Call) (written : Bytes) (calls : List Call) :
    (v.after position written calls).recording before =
      (v.recording (before ++ calls)).after position written calls := by
  simp [recording, after]

/-- **An engine that keeps its calls keeps those of the conversation.** -/
theorem ofMessages_recording (ready : s.phase = .ready) (before : List Call) :
    ofMessages engine.recording s (shared.recording before) read stream =
      (ofMessages engine s shared read stream).recording before := by
  generalize hlimit : s.config.maxMessageSize = limit
  induction stream using Frontend.stream_induction limit generalizing s shared read before with
  | incomplete stream rest h =>
    subst hlimit
    rw [ofMessages_incomplete h, ofMessages_incomplete h]
    simp [recording, atEnd]
  | refused stream rest e h =>
    subst hlimit
    rw [ofMessages_refused h, ofMessages_refused h]
    simp [recording, after, hungUp]
  | item stream rest message h ih =>
    subst hlimit
    rw [ofMessages_item ready h, ofMessages_item ready h, Session.answer_recording, recording_after]
    by_cases hterminate : message = .terminate
    · rw [if_pos hterminate, if_pos hterminate]
      simp [recording, hungUp]
    · rw [if_neg hterminate, if_neg hterminate]
      dsimp only
      rw [ih (Session.answer_ready ready hterminate) _ (by rw [Session.answer_config])]

theorem ofStream_recording (fresh : s.phase = .awaitingStartup) (before : List Call) :
    ofStream engine.recording s (shared.recording before) read stream =
      (ofStream engine s shared read stream).recording before := by
  induction stream using Startup.stream_induction s.config.maxMessageSize generalizing read with
  | incomplete stream rest h =>
    rw [ofStream_incomplete h, ofStream_incomplete h]
    simp [recording, atEnd]
  | refused stream rest e h =>
    rw [ofStream_refused h, ofStream_refused h]
    simp [recording, hungUp]
  | item stream rest request h ih =>
    cases request with
    | session parameters =>
      rw [ofStream_session fresh h, ofStream_session fresh h, recording_after, List.append_nil,
        ofMessages_recording rfl]
    | ssl | gssEncryption =>
      rw [ofStream_encryption fresh (by simp) h, ofStream_encryption fresh (by simp) h,
        recording_after, List.append_nil, ih]
    | cancel key =>
      rw [ofStream_cancel fresh h, ofStream_cancel fresh h]
      simp [recording, hungUp]

end Conversation

end PgGateway
