import PgGateway.Connection
import PgGateway.Proofs.Wire.Measured

/-!
# What a stream says

A stream opens with requests of startup and goes on with messages, until one of them terminates the
session or what is left is no whole message. What it says up to then is settled: no later byte
changes it (`Opening.ofStream_append`, `Frontend.heard_append`).
-/

namespace PgGateway

/-! ## Startup -/

/-- How the startup of a stream comes out. -/
inductive Opening
  /-- A session was asked for; the rest of the stream is for its messages. -/
  | accepted (parameters : List (Text × Text)) (rest : Bytes)
  /-- There is no session, and the connection ends like this. -/
  | closed (ending : Ending)

namespace Opening

/-- The number of requests for encryption with which a stream begins, and how its startup comes
out. -/
def ofStream (limit : Nat) (stream : Bytes) : Nat × Opening :=
  match _h : Startup.take limit stream with
  | ⟨.ok none, _⟩ => (0, closed (.ok ()))
  | ⟨.error e, _⟩ => (0, closed (.error e))
  | ⟨.ok (some (.session parameters)), rest⟩ => (0, accepted parameters rest)
  | ⟨.ok (some .ssl), rest⟩ | ⟨.ok (some .gssEncryption), rest⟩ =>
    let (declines, opening) := ofStream limit rest
    (declines + 1, opening)
  | ⟨.ok (some (.cancel _)), _⟩ => (0, closed (.ok ()))
termination_by stream.length
decreasing_by all_goals exact Startup.take_length_lt _h

variable {limit declines : Nat} {stream rest : Bytes} {parameters : List (Text × Text)}

theorem ofStream_incomplete (h : Startup.take limit stream = ⟨.ok none, rest⟩) :
    ofStream limit stream = (0, closed (.ok ())) := by
  rw [ofStream]
  split <;> simp_all

theorem ofStream_refused {e : WireError} (h : Startup.take limit stream = ⟨.error e, rest⟩) :
    ofStream limit stream = (0, closed (.error e)) := by
  rw [ofStream]
  split <;> simp_all

theorem ofStream_session
    (h : Startup.take limit stream = ⟨.ok (some (.session parameters)), rest⟩) :
    ofStream limit stream = (0, accepted parameters rest) := by
  rw [ofStream]
  split <;> simp_all

theorem ofStream_encryption {request : Startup}
    (encryption : request = .ssl ∨ request = .gssEncryption)
    (h : Startup.take limit stream = ⟨.ok (some request), rest⟩) :
    ofStream limit stream = ((ofStream limit rest).1 + 1, (ofStream limit rest).2) := by
  rw [ofStream]
  rcases encryption with rfl | rfl <;> split <;> simp_all

theorem ofStream_cancel {key : SessionKey}
    (h : Startup.take limit stream = ⟨.ok (some (.cancel key)), rest⟩) :
    ofStream limit stream = (0, closed (.ok ())) := by
  rw [ofStream]
  split <;> simp_all

/-- Later bytes belong to the messages once startup is accepted. -/
theorem ofStream_append (h : ofStream limit stream = (declines, accepted parameters rest))
    (later : Bytes) :
    ofStream limit (stream ++ later) = (declines, accepted parameters (rest ++ later)) := by
  have hlocal := Startup.take_local limit
  induction stream using Startup.stream_induction limit generalizing declines with
  | incomplete stream left htake =>
    rw [ofStream_incomplete htake] at h
    cases h
  | refused stream left e htake =>
    rw [ofStream_refused htake] at h
    cases h
  | item stream left request htake ih =>
    have happend := hlocal.append htake nofun later
    cases request with
    | session parameters =>
      rw [ofStream_session htake] at h
      cases h
      exact ofStream_session happend
    | ssl | gssEncryption =>
      rw [ofStream_encryption (by simp) htake, Prod.mk.injEq] at h
      obtain ⟨rfl, hopening⟩ := h
      rw [ofStream_encryption (by simp) happend, ih (Prod.ext rfl hopening)]
    | cancel key =>
      rw [ofStream_cancel htake] at h
      cases h

end Opening

/-! ## Messages -/

namespace Frontend

/-- The messages of a stream, up to the one that terminates the session, and how they end. -/
def heard (limit : Nat) (stream : Bytes) : List Frontend × Ending :=
  match _h : take limit stream with
  | ⟨.ok none, _⟩ => ([], .ok ())
  | ⟨.error e, _⟩ => ([], .error e)
  | ⟨.ok (some message), rest⟩ =>
    if message = terminate then ([terminate], .ok ())
    else
      let (messages, ending) := heard limit rest
      (message :: messages, ending)
termination_by stream.length
decreasing_by exact take_length_lt _h

variable {limit : Nat} {stream rest : Bytes} {message : Frontend}

theorem heard_incomplete (h : take limit stream = ⟨.ok none, rest⟩) :
    heard limit stream = ([], .ok ()) := by
  rw [heard]
  split <;> simp_all

theorem heard_refused {e : WireError} (h : take limit stream = ⟨.error e, rest⟩) :
    heard limit stream = ([], .error e) := by
  rw [heard]
  split <;> simp_all

theorem heard_terminate (h : take limit stream = ⟨.ok (some terminate), rest⟩) :
    heard limit stream = ([terminate], .ok ()) := by
  rw [heard]
  split <;> simp_all

theorem heard_message (goesOn : message ≠ terminate)
    (h : take limit stream = ⟨.ok (some message), rest⟩) :
    heard limit stream = (message :: (heard limit rest).1, (heard limit rest).2) := by
  rw [heard]
  split <;> simp_all

/-- **Nothing is heard behind the message that terminates the session.** The messages end there, in
order, and no later byte changes them. -/
theorem heard_append (hterminate : terminate ∈ (heard limit stream).1) (later : Bytes) :
    heard limit (stream ++ later) = heard limit stream ∧ (heard limit stream).2 = .ok () := by
  have hlocal := take_local limit
  induction stream using Frontend.stream_induction limit with
  | incomplete stream rest h =>
    rw [heard_incomplete h] at hterminate
    cases hterminate
  | refused stream rest e h =>
    rw [heard_refused h] at hterminate
    cases hterminate
  | item stream rest message h ih =>
    have happend := hlocal.append h nofun later
    by_cases hmessage : message = terminate
    · subst hmessage
      rw [heard_terminate h, heard_terminate happend]
      exact ⟨rfl, rfl⟩
    · -- the message that terminates comes later, and is still there when more bytes follow
      rw [heard_message hmessage h] at hterminate ⊢
      rw [heard_message hmessage happend]
      have hlater : terminate ∈ (heard limit rest).1 := by
        rcases List.mem_cons.1 hterminate with hfirst | hlater
        · exact absurd hfirst.symm hmessage
        · exact hlater
      obtain ⟨hsame, hending⟩ := ih hlater
      rw [hsame]
      exact ⟨rfl, hending⟩

end Frontend

end PgGateway
