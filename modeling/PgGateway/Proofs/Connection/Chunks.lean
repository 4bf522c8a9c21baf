import PgGateway.Proofs.Connection.Conversation
import PgGateway.Proofs.Connection.Drain

/-!
# A stream may be cut anywhere

What a connection does with a stream is the conversation that the stream holds, however the stream
is cut into deliveries: the answers are written as they fall due, and the end is the same. The
proof keeps one invariant, `Conversation.Follows`: what a connection did with the first bytes of the
stream is what is due by then, and it waits if and only if the conversation is not over.
-/

namespace PgGateway

variable {σ : Type} {engine : Engine σ} {s : Session} {shared : Shared σ}
  {buffer rest : Bytes}

/-! ## Steps when writing does not fail -/

namespace Connection

theorem farewell_none (e : WireError) : farewell none e = Backend.encodeAll e.lastWords := by
  unfold farewell WireError.lastWords
  cases e.isViolation with
  | false => rfl
  | true =>
    exact (List.append_nil _).symm

theorem step_message_incomplete (ready : s.phase = .ready)
    (h : Frontend.take s.config.maxMessageSize buffer = ⟨.ok none, rest⟩) :
    step engine none ⟨s, buffer, shared⟩ = .wait := by
  rw [step, ready, messageStep, h]

theorem step_message_refused {e : WireError} (ready : s.phase = .ready)
    (h : Frontend.take s.config.maxMessageSize buffer = ⟨.error e, rest⟩) :
    step engine none ⟨s, buffer, shared⟩ =
      .finish (Backend.encodeAll e.lastWords) (.error e) shared := by
  rw [step, ready, messageStep, h, ← farewell_none]

theorem step_message_item {message : Frontend} (ready : s.phase = .ready)
    (h : Frontend.take s.config.maxMessageSize buffer = ⟨.ok (some message), rest⟩) :
    step engine none ⟨s, buffer, shared⟩ =
      .proceed (Backend.encodeAll (s.answer engine message shared).1)
        ⟨(s.answer engine message shared).2.1, rest, (s.answer engine message shared).2.2⟩ := by
  rw [step, ready, messageStep, h]
  simp only [Session.receive_ready ready]
  rfl

theorem step_terminated (terminated : s.phase = .terminated) :
    step engine none ⟨s, buffer, shared⟩ = .finish [] (.ok ()) shared := by
  rw [step, terminated]

theorem step_startup_incomplete (fresh : s.phase = .awaitingStartup)
    (h : Startup.take s.config.maxMessageSize buffer = ⟨.ok none, rest⟩) :
    step engine none ⟨s, buffer, shared⟩ = .wait := by
  rw [step, fresh, startupStep, h]

theorem step_startup_refused {e : WireError} (fresh : s.phase = .awaitingStartup)
    (h : Startup.take s.config.maxMessageSize buffer = ⟨.error e, rest⟩) :
    step engine none ⟨s, buffer, shared⟩ = .finish [] (.error e) shared := by
  rw [step, fresh, startupStep, h]

theorem step_startup_session {parameters : List (Text × Text)} (fresh : s.phase = .awaitingStartup)
    (h : Startup.take s.config.maxMessageSize buffer = ⟨.ok (some (.session parameters)), rest⟩) :
    step engine none ⟨s, buffer, shared⟩ =
      .proceed (Backend.encodeAll s.handshake) ⟨s.opened parameters, rest, shared⟩ := by
  rw [step, fresh, startupStep, h]
  simp only [Session.startup_fresh fresh]
  rfl

theorem step_startup_encryption {request : Startup} (fresh : s.phase = .awaitingStartup)
    (encryption : request = .ssl ∨ request = .gssEncryption)
    (h : Startup.take s.config.maxMessageSize buffer = ⟨.ok (some request), rest⟩) :
    step engine none ⟨s, buffer, shared⟩ = .proceed [declined] ⟨s, rest, shared⟩ := by
  rw [step, fresh, startupStep, h]
  rcases encryption with rfl | rfl <;> simp only [Session.startup_fresh fresh] <;> rfl

theorem step_startup_cancel {key : SessionKey} (fresh : s.phase = .awaitingStartup)
    (h : Startup.take s.config.maxMessageSize buffer = ⟨.ok (some (.cancel key)), rest⟩) :
    step engine none ⟨s, buffer, shared⟩ = .finish [] (.ok ()) shared := by
  rw [step, fresh, startupStep, h]
  simp only [Session.startup_fresh fresh]

end Connection

/-! ## A connection follows the conversation of its stream -/

namespace Conversation

open Connection

variable {v : Conversation σ} {read start stop position length : Nat}

/-- A connection did, with the first `stop` bytes of a stream of this length, what its conversation
asks for: it wrote what is due, it waits if the conversation is not over, and at the end of the
stream all that the conversation leaves behind is there. -/
structure Follows (v : Conversation σ) (stop length : Nat) (result : Bytes × Status σ) : Prop where
  written : result.1 = v.due 0 stop
  waiting : ∀ c, result.2 = .waiting c →
    ¬v.EndedBy stop ∧ (length ≤ stop → v.ending = .ok () ∧ v.shared = c.shared)
  ended : ∀ ending shared, result.2 = .ended ending shared →
    v.EndedBy stop ∧ v.ending = ending ∧ v.shared = shared

theorem follows_atEnd (c : Connection σ) :
    (atEnd c.shared).Follows stop length ([], .waiting c) where
  written := rfl
  waiting := by
    rintro _ ⟨rfl⟩
    exact ⟨nofun, fun _ => ⟨rfl, rfl⟩⟩
  ended := nofun

theorem follows_hungUp {ending : Ending} (hle : position ≤ stop) :
    (hungUp position ending shared).Follows stop length ([], .ended ending shared) where
  written := rfl
  waiting := nofun
  ended := by
    rintro _ _ ⟨rfl, rfl⟩
    exact ⟨⟨position, rfl, hle⟩, rfl, rfl⟩

theorem Within.follows_waiting (h : v.Within start length) (hearly : stop < start)
    (hle : start ≤ length) (c : Connection σ) : v.Follows stop length ([], .waiting c) where
  written := (h.due_eq_nil hearly).symm
  waiting := by
    rintro _ ⟨rfl⟩
    exact ⟨h.not_endedBy hearly, fun hall => absurd hall (by omega)⟩
  ended := nofun

theorem Follows.after {later : Bytes} {status : Status σ}
    (h : v.Follows stop length (later, status)) (hpos : 0 < position) (hle : position ≤ stop)
    (written : Bytes) (calls : List Call) :
    (v.after position written calls).Follows stop length (written ++ later, status) where
  written := by
    rw [due_after hpos hle, ← h.written]
  waiting := h.waiting
  ended := h.ended

/-- **Messages.** A ready connection follows the conversation of its messages. -/
theorem follows_ofMessages {stream : Bytes} {n : Nat} (ready : s.phase = .ready)
    (hstop : read + n = stop) (hlength : read + stream.length = length) :
    (ofMessages engine s shared read stream).Follows stop length
      (drain engine none ⟨s, stream.take n, shared⟩) := by
  generalize hlimit : s.config.maxMessageSize = limit
  have hlocal := Frontend.take_local limit
  induction stream using Frontend.stream_induction limit generalizing s shared read n with
  | incomplete stream rest h =>
    obtain ⟨rest', hwait⟩ := hlocal.take_incomplete h n
    subst hlimit
    rw [drain_wait (step_message_incomplete ready hwait), ofMessages_incomplete h]
    exact follows_atEnd ⟨s, stream.take n, shared⟩
  | refused stream rest e h =>
    have hused := hlocal.used_pos stream rest
    have hle := hlocal.used_le h nofun
    by_cases hn : n < Taken.used Wire.Frame.headerLength stream rest
    · have hwait := hlocal.early h nofun n hn
      subst hlimit
      rw [drain_wait (step_message_incomplete ready hwait), ofMessages_refused h]
      exact (within_hungUp.after (by omega) _ _).follows_waiting (by omega) (by omega) _
    · have hrefused := hlocal.enough h nofun n (by omega)
      subst hlimit
      have hover : (hungUp (read + Taken.used Wire.Frame.headerLength stream rest) (.error e)
          shared).Follows stop length ([], .ended (.error e) shared) := follows_hungUp (by omega)
      rw [drain_finish (step_message_refused ready hrefused), ofMessages_refused h]
      -- the last words are all that is written
      simpa using hover.after (by omega) (by omega) (Backend.encodeAll e.lastWords) []
  | item stream rest message h ih =>
    have hlt := Frontend.take_length_lt h
    have hused := Taken.used_of_lt Wire.Frame.headerLength hlt
    by_cases hn : n < stream.length - rest.length
    · -- the message is not whole yet: nothing is due, and the connection waits
      have hwait := hlocal.early h nofun n (by omega)
      subst hlimit
      rw [drain_wait (step_message_incomplete ready hwait)]
      refine (within_item ready h hlength fun goesOn => ?_).follows_waiting (by omega) (by omega) _
      exact within_ofMessages (Session.answer_ready ready goesOn) (by omega)
    · -- both sides answer the message and go on with what is behind it
      have hitem := hlocal.enough h nofun n (by omega)
      subst hlimit
      rw [drain_proceed (step_message_item ready hitem), ofMessages_item ready h]
      refine Follows.after ?_ (by omega) (by omega) _ _
      by_cases hterminate : message = .terminate
      · subst hterminate
        rw [if_pos rfl, drain_finish (step_terminated Session.answer_terminated)]
        exact follows_hungUp (by omega)
      · rw [if_neg hterminate]
        exact ih (Session.answer_ready ready hterminate) (by omega) (by omega)
          (by rw [Session.answer_config])

/-- **Streams.** A connection that awaits startup follows the conversation of its stream. -/
theorem follows_ofStream {stream : Bytes} {n : Nat} (fresh : s.phase = .awaitingStartup)
    (hstop : read + n = stop) (hlength : read + stream.length = length) :
    (ofStream engine s shared read stream).Follows stop length
      (drain engine none ⟨s, stream.take n, shared⟩) := by
  have hlocal := Startup.take_local s.config.maxMessageSize
  induction stream using Startup.stream_induction s.config.maxMessageSize generalizing read n with
  | incomplete stream rest h =>
    obtain ⟨rest', hwait⟩ := hlocal.take_incomplete h n
    rw [drain_wait (step_startup_incomplete fresh hwait), ofStream_incomplete h]
    exact follows_atEnd ⟨s, stream.take n, shared⟩
  | refused stream rest e h =>
    have hused := hlocal.used_pos stream rest
    have hle := hlocal.used_le h nofun
    rw [ofStream_refused h]
    by_cases hn : n < Taken.used Startup.headerLength stream rest
    · have hwait := hlocal.early h nofun n hn
      rw [drain_wait (step_startup_incomplete fresh hwait)]
      exact within_hungUp.follows_waiting (by omega) (by omega) _
    · have hrefused := hlocal.enough h nofun n (by omega)
      rw [drain_finish (step_startup_refused fresh hrefused)]
      exact follows_hungUp (by omega)
  | item stream rest request h ih =>
    have hlt := Startup.take_length_lt h
    have hused := Taken.used_of_lt Startup.headerLength hlt
    by_cases hn : n < stream.length - rest.length
    · have hwait := hlocal.early h nofun n (by omega)
      rw [drain_wait (step_startup_incomplete fresh hwait)]
      refine (within_request fresh h hlength ?_).follows_waiting (by omega) (by omega) _
      exact within_ofStream fresh (by omega)
    · have hitem := hlocal.enough h nofun n (by omega)
      cases request with
      | session parameters =>
        rw [drain_proceed (step_startup_session fresh hitem), ofStream_session fresh h]
        refine Follows.after ?_ (by omega) (by omega) _ _
        exact follows_ofMessages rfl (by omega) (by omega)
      | ssl | gssEncryption =>
        rw [drain_proceed (step_startup_encryption fresh (by simp) hitem),
          ofStream_encryption fresh (by simp) h]
        exact (ih (by omega) (by omega)).after (by omega) (by omega) _ _
      | cancel key =>
        rw [drain_finish (step_startup_cancel fresh hitem), ofStream_cancel fresh h]
        exact follows_hungUp (by omega)

end Conversation

/-! ## Deliveries -/

namespace Connection

open Conversation

variable {v : Conversation σ} {c next : Connection σ} {stream written later chunk : Bytes}
  {chunks : List Bytes} {deliveries : List Delivery} {delivery : Delivery} {start first last : Nat}
  {status : Status σ}

theorem run_waiting (h : feed engine none c delivery = (later, .waiting next)) :
    run engine none (delivery :: deliveries) c =
      (later :: (run engine none deliveries next).1, (run engine none deliveries next).2) := by
  rw [run, h]

theorem run_ended {ending : Ending}
    (h : feed engine none c delivery = (later, .ended ending shared)) :
    run engine none (delivery :: deliveries) c = ([later], ending, shared) := by
  rw [run, h]

theorem feed_data (nonempty : chunk ≠ []) (c : Connection σ) :
    feed engine none c (.data chunk) = drain engine none (c.extend chunk) := by
  cases chunk with
  | nil => exact absurd rfl nonempty
  | cons b bytes => rfl

/-- One more delivery leaves the connection where it would be if all had been delivered at once, and
writes what falls due with it. -/
theorem feed_follows
    (follows : ∀ n, v.Follows n stream.length (drain engine none ⟨s, stream.take n, shared⟩))
    (within : v.Within first last) (nonempty : chunk ≠ [])
    (hleft : stream.drop start = chunk ++ rest)
    (hdone : drain engine none ⟨s, stream.take start, shared⟩ = (written, .waiting c))
    (hfeed : feed engine none c (.data chunk) = (later, status)) :
    drain engine none ⟨s, stream.take (start + chunk.length), shared⟩ = (written ++ later, status) ∧
      later = v.due start (start + chunk.length) := by
  have hstream : stream.take (start + chunk.length) = stream.take start ++ chunk := by
    rw [List.take_add, hleft, List.take_left]
  have hmore : drain engine none ⟨s, stream.take (start + chunk.length), shared⟩ =
      (written ++ later, status) := by
    have hextend : drain engine none (extend ⟨s, stream.take start, shared⟩ chunk) = _ :=
      drain_extend ⟨s, stream.take start, shared⟩ chunk
    rw [feed_data nonempty] at hfeed
    rw [hdone, resume, hfeed] at hextend
    rw [hstream]
    exact hextend
  -- what was written before and after the delivery is judged by one and the same conversation
  have hbefore := (follows start).written
  have hafter := (follows (start + chunk.length)).written
  rw [hdone] at hbefore
  rw [hmore, within.due_append (Nat.le_add_right start chunk.length), ← hbefore] at hafter
  exact ⟨hmore, List.append_cancel_left hafter⟩

/-- **Deliveries.** A connection that has done what the first `start` bytes of its stream ask for
files the rest of the conversation under the deliveries that bring the rest of the stream. -/
theorem run_chunks
    (follows : ∀ n, v.Follows n stream.length (drain engine none ⟨s, stream.take n, shared⟩))
    (within : v.Within first last) (nonempty : ∀ chunk ∈ chunks, chunk ≠ [])
    (hleft : stream.drop start = chunks.flatten)
    (hdone : drain engine none ⟨s, stream.take start, shared⟩ = (written, .waiting c)) :
    run engine none (chunks.map .data) c = (v.filed start chunks, v.ending, v.shared) := by
  induction chunks generalizing start c written with
  | nil =>
    have hdue := follows start
    rw [hdone] at hdue
    obtain ⟨hending, hshared⟩ := (hdue.waiting c rfl).2 (List.drop_eq_nil_iff.1 hleft)
    rw [hending, hshared]
    rfl
  | cons chunk chunks ih =>
    obtain ⟨hchunk, hchunks⟩ := List.forall_mem_cons.1 nonempty
    cases hfeed : feed engine none c (.data chunk) with
    | mk later status =>
      obtain ⟨hmore, rfl⟩ := feed_follows follows within hchunk hleft hdone hfeed
      have hafter := follows (start + chunk.length)
      rw [hmore] at hafter
      have hrest : stream.drop (start + chunk.length) = chunks.flatten := by
        rw [← List.drop_drop, hleft, List.flatten_cons, List.drop_left]
      cases status with
      | waiting next =>
        rw [List.map_cons, run_waiting hfeed, ih hchunks hrest hmore, filed,
          if_neg (hafter.waiting next rfl).1]
      | ended ending shared =>
        obtain ⟨hover, rfl, rfl⟩ := hafter.ended ending shared rfl
        rw [List.map_cons, run_ended hfeed, filed, if_pos hover]

end Connection

end PgGateway
