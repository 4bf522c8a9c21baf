import PgGateway.Session

/-!
# Connections

A connection reads what its client sends, piece by piece as it is delivered, and writes the answers
of its session. What was read stays in a buffer until it makes up a startup packet or a message.
Before startup is accepted a failure ends the connection without a word; afterwards the client is
told how it broke the protocol.
-/

namespace PgGateway

/-- How a connection ended: it was closed, or it failed. -/
abbrev Ending := Except WireError Unit

/-- A connection that is open. -/
structure Connection (σ : Type) where
  session : Session
  /-- What was read and not used yet. -/
  buffer : Bytes
  shared : Shared σ

/-- What is done with the beginning of the buffer. -/
inductive Step (σ : Type)
  /-- More bytes are needed. -/
  | wait
  /-- These bytes are written, and the connection goes on. -/
  | proceed (written : Bytes) (next : Connection σ)
  /-- These bytes are written, and the connection ends. -/
  | finish (written : Bytes) (ending : Ending) (shared : Shared σ)

/-- Where a connection is after all that could be done was done. -/
inductive Status (σ : Type)
  | waiting (connection : Connection σ)
  | ended (ending : Ending) (shared : Shared σ)

/-- What is delivered by a read. -/
inductive Delivery
  | data (bytes : Bytes)
  | failure (text : Text)
deriving DecidableEq, Repr

namespace Connection

variable {σ : Type}

/-- The byte that declines encryption. -/
def declined : UInt8 := 'N'.toUInt8

/-- Writes bytes and goes on. If writing fails, with the text of `fault`, the connection ends;
writing nothing cannot fail. -/
def send (fault : Option Text) (bytes : Bytes) (next : Connection σ) : Step σ :=
  match fault, bytes with
  | some text, _ :: _ => .finish [] (.error (.io text)) next.shared
  | _, _ => .proceed bytes next

/-- What a client is told before the connection ends by a failure: how it broke the protocol, if it
did and can be told. -/
def farewell (fault : Option Text) (e : WireError) : Bytes :=
  if e.isViolation && fault.isNone then
    (Backend.report .fatal .protocolViolation e.message).encode
  else []

/-- Takes a startup packet off the buffer and answers it. -/
def startupStep (fault : Option Text) (c : Connection σ) : Step σ :=
  match Startup.take c.session.config.maxMessageSize c.buffer with
  | ⟨.ok none, _⟩ => .wait
  | ⟨.error e, _⟩ => .finish [] (.error e) c.shared
  | ⟨.ok (some request), rest⟩ =>
    match c.session.startup request with
    | .error e => .finish [] (.error e) c.shared
    | .ok (reply, session) =>
      let next : Connection σ := { c with session, buffer := rest }
      match reply with
      | .accepted messages => send fault (Backend.encodeAll messages) next
      | .declined => send fault [declined] next
      | .close => .finish [] (.ok ()) c.shared

/-- Takes a message off the buffer and answers it. -/
def messageStep (engine : Engine σ) (fault : Option Text) (c : Connection σ) : Step σ :=
  match Frontend.take c.session.config.maxMessageSize c.buffer with
  | ⟨.ok none, _⟩ => .wait
  | ⟨.error e, _⟩ => .finish (farewell fault e) (.error e) c.shared
  | ⟨.ok (some message), rest⟩ =>
    match c.session.receive engine message c.shared with
    | .error e => .finish (farewell fault e) (.error e) c.shared
    | .ok (messages, session, shared) =>
      send fault (Backend.encodeAll messages) { session, buffer := rest, shared }

/-- Does what the beginning of the buffer asks for. -/
def step (engine : Engine σ) (fault : Option Text) (c : Connection σ) : Step σ :=
  match c.session.phase with
  | .awaitingStartup => c.startupStep fault
  | .ready => c.messageStep engine fault
  | .terminated => .finish [] (.ok ()) c.shared

/-! ## Every step uses up some of the buffer -/

theorem send_buffer {fault : Option Text} {bytes written : Bytes} {next c : Connection σ}
    (h : send fault bytes next = .proceed written c) : c = next := by
  unfold send at h
  split at h <;> cases h
  rfl

theorem startupStep_buffer {fault : Option Text} {c next : Connection σ} {written : Bytes}
    (h : c.startupStep fault = .proceed written next) : next.buffer.length < c.buffer.length := by
  unfold startupStep at h
  split at h
  · cases h
  · cases h
  · next request rest ht =>
    have hlt := Startup.take_length_lt ht
    split at h
    · cases h
    · split at h
      · rw [send_buffer h]; exact hlt
      · rw [send_buffer h]; exact hlt
      · cases h

theorem messageStep_buffer {engine : Engine σ} {fault : Option Text} {c next : Connection σ}
    {written : Bytes} (h : c.messageStep engine fault = .proceed written next) :
    next.buffer.length < c.buffer.length := by
  unfold messageStep at h
  split at h
  · cases h
  · cases h
  · next message rest ht =>
    have hlt := Frontend.take_length_lt ht
    split at h
    · cases h
    · rw [send_buffer h]; exact hlt

theorem step_buffer {engine : Engine σ} {fault : Option Text} {c next : Connection σ}
    {written : Bytes} (h : c.step engine fault = .proceed written next) :
    next.buffer.length < c.buffer.length := by
  unfold step at h
  split at h
  · exact startupStep_buffer h
  · exact messageStep_buffer h
  · cases h

/-! ## Running a connection -/

/-- Does all that the buffer asks for: what is written, and where the connection is then. -/
def drain (engine : Engine σ) (fault : Option Text) (c : Connection σ) : Bytes × Status σ :=
  match _h : c.step engine fault with
  | .wait => ([], .waiting c)
  | .finish written ending shared => (written, .ended ending shared)
  | .proceed written next =>
    let (more, status) := drain engine fault next
    (written ++ more, status)
termination_by c.buffer.length
decreasing_by exact step_buffer _h

/-- Takes in what a read delivers. No bytes are the end of the stream. -/
def feed (engine : Engine σ) (fault : Option Text) (c : Connection σ) :
    Delivery → Bytes × Status σ
  | .data [] => ([], .ended (.ok ()) c.shared)
  | .data bytes => drain engine fault { c with buffer := c.buffer ++ bytes }
  | .failure text => ([], .ended (.error (.io text)) c.shared)

/-- Runs a connection on what its reads deliver and then the end of the stream. Tells what was
written after each delivery that was read, how the connection ended, and what it left behind. -/
def run (engine : Engine σ) (fault : Option Text) :
    List Delivery → Connection σ → List Bytes × Ending × Shared σ
  | [], c => ([], .ok (), c.shared)
  | d :: ds, c =>
    match feed engine fault c d with
    | (written, .ended ending shared) => ([written], ending, shared)
    | (written, .waiting next) =>
      let (outputs, result) := run engine fault ds next
      (written :: outputs, result)

end Connection

end PgGateway
