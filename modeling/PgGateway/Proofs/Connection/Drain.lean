import PgGateway.Connection
import PgGateway.Proofs.Wire.Measured

/-!
# More bytes do not change what was done

A step that does something does the same when more bytes stand behind those it looks at
(`step_extend`). So a connection may stop in the middle of what it is sent and go on when the rest
is there: all that the buffer asks for is the same (`drain_extend`).
-/

namespace PgGateway.Connection

variable {σ : Type} {engine : Engine σ} {fault : Option Text} {c next : Connection σ}
  {written : Bytes}

/-- The connection with more bytes at the end of its buffer. -/
def extend (c : Connection σ) (more : Bytes) : Connection σ :=
  { c with buffer := c.buffer ++ more }

theorem extend_session (more : Bytes) : (c.extend more).session = c.session := rfl

theorem extend_buffer (more : Bytes) : (c.extend more).buffer = c.buffer ++ more := rfl

theorem extend_shared (more : Bytes) : (c.extend more).shared = c.shared := rfl

/-- The step with more bytes at the end of the buffer that it leaves. -/
def extendStep (more : Bytes) : Step σ → Step σ
  | .proceed written next => .proceed written (next.extend more)
  | s => s

theorem extendStep_send (fault : Option Text) (bytes more : Bytes) (next : Connection σ) :
    extendStep more (send fault bytes next) = send fault bytes (next.extend more) := by
  cases fault <;> cases bytes <;> rfl

/-! ## Steps -/

theorem startupStep_extend (more : Bytes) (h : c.startupStep fault ≠ .wait) :
    (c.extend more).startupStep fault = extendStep more (c.startupStep fault) := by
  have hlocal := Startup.take_local c.session.config.maxMessageSize
  unfold startupStep at h ⊢
  rw [extend_session, extend_buffer]
  cases htake : Startup.take c.session.config.maxMessageSize c.buffer with
  | mk answer rest =>
    rw [htake] at h
    rcases answer with e | _ | request
    · rw [hlocal.append htake nofun]
      rfl
    · exact absurd rfl h
    · rw [hlocal.append htake nofun]
      dsimp only
      rcases c.session.startup request with e | ⟨messages | _ | _, session⟩
      · rfl
      · exact (extendStep_send fault (Backend.encodeAll messages) more
          ⟨session, rest, c.shared⟩).symm
      · exact (extendStep_send fault [declined] more ⟨session, rest, c.shared⟩).symm
      · rfl

theorem messageStep_extend (more : Bytes) (h : c.messageStep engine fault ≠ .wait) :
    (c.extend more).messageStep engine fault = extendStep more (c.messageStep engine fault) := by
  have hlocal := Frontend.take_local c.session.config.maxMessageSize
  unfold messageStep at h ⊢
  rw [extend_session, extend_buffer, extend_shared]
  cases htake : Frontend.take c.session.config.maxMessageSize c.buffer with
  | mk answer rest =>
    rw [htake] at h
    rcases answer with e | _ | message
    · rw [hlocal.append htake nofun]
      rfl
    · exact absurd rfl h
    · rw [hlocal.append htake nofun]
      dsimp only
      rcases c.session.receive engine message c.shared with e | ⟨messages, session, shared⟩
      · rfl
      · exact (extendStep_send fault (Backend.encodeAll messages) more
          ⟨session, rest, shared⟩).symm

/-- A step that does something does the same when more bytes follow. -/
theorem step_extend (more : Bytes) (h : c.step engine fault ≠ .wait) :
    (c.extend more).step engine fault = extendStep more (c.step engine fault) := by
  unfold step at h ⊢
  rw [extend_session, extend_shared]
  generalize c.session.phase = phase at h ⊢
  cases phase with
  | awaitingStartup => exact startupStep_extend more h
  | ready => exact messageStep_extend more h
  | terminated => rfl

/-! ## All that the buffer asks for -/

theorem drain_wait (h : c.step engine fault = .wait) :
    drain engine fault c = ([], .waiting c) := by
  rw [drain]
  split <;> simp_all

theorem drain_finish {ending : Ending} {shared : Shared σ}
    (h : c.step engine fault = .finish written ending shared) :
    drain engine fault c = (written, .ended ending shared) := by
  rw [drain]
  split <;> simp_all

theorem drain_proceed (h : c.step engine fault = .proceed written next) :
    drain engine fault c =
      (written ++ (drain engine fault next).1, (drain engine fault next).2) := by
  rw [drain]
  split <;> simp_all

/-- What a connection does after more bytes, when it has done what the first ones asked for. -/
def resume (engine : Engine σ) (fault : Option Text) (more : Bytes) :
    Bytes × Status σ → Bytes × Status σ
  | (written, .waiting next) =>
    (written ++ (drain engine fault (next.extend more)).1,
      (drain engine fault (next.extend more)).2)
  | (written, .ended ending shared) => (written, .ended ending shared)

/-- **A connection may stop anywhere.** What a buffer asks for is done at once, or first for its
beginning and then for what that left and the rest. -/
theorem drain_extend (c : Connection σ) (more : Bytes) :
    drain engine fault (c.extend more) = resume engine fault more (drain engine fault c) := by
  -- every step that goes on uses up some of the buffer
  induction hn : c.buffer.length using Nat.strongRecOn generalizing c with
  | _ n ih =>
    cases hstep : c.step engine fault with
    | wait =>
      rw [drain_wait hstep]
      rfl
    | finish written ending shared =>
      have hmore := step_extend more (by rw [hstep]; nofun)
      rw [hstep] at hmore
      rw [drain_finish hstep, drain_finish hmore]
      rfl
    | proceed written next =>
      have hmore := step_extend more (by rw [hstep]; nofun)
      rw [hstep] at hmore
      have hlt := step_buffer hstep
      rw [drain_proceed hstep, drain_proceed hmore, ih next.buffer.length (by omega) next rfl]
      obtain ⟨more', status⟩ := drain engine fault next
      cases status with
      | waiting next' => simp only [resume, List.append_assoc]
      | ended ending shared => rfl

end PgGateway.Connection
