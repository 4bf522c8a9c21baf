import PgGateway.Proofs.Connection.Chunks

/-!
# Transcripts

What is seen of a connection from outside, over a whole run: the bytes that it wrote, how it ended,
which calls it made, and what it left behind. A transcript depends on the bytes that were sent and
not on how they were cut.
-/

namespace PgGateway

variable {σ : Type}

/-- What is seen of a connection from outside. -/
structure Transcript (σ : Type) where
  written : Bytes
  ending : Ending
  calls : List Call
  shared : Shared σ

/-- What is seen of a conversation. -/
def Conversation.transcript (v : Conversation σ) : Transcript σ :=
  ⟨v.written, v.ending, v.calls, v.shared⟩

namespace Connection

/-- A connection to which nothing was sent. -/
def fresh (config : Config) (key : SessionKey) (shared : Shared σ) : Connection σ :=
  ⟨{ config, key }, [], shared⟩

/-- What is seen of a connection on which writing does not fail. The calls are those that an engine
keeps. -/
def transcript (engine : Engine σ) (deliveries : List Delivery) (config : Config)
    (key : SessionKey) (shared : Shared σ) : Transcript σ :=
  let (outputs, ending, after) := run engine none deliveries (fresh config key shared)
  let (_, _, kept) := run engine.recording none deliveries (fresh config key (shared.recording []))
  ⟨outputs.flatten, ending, kept.engine.1, after⟩

variable {engine : Engine σ} {config : Config} {key : SessionKey} {shared : Shared σ}
  {chunks : List Bytes}

open Conversation

theorem drain_fresh : drain engine none (fresh config key shared) =
    ([], .waiting (fresh config key shared)) :=
  drain_wait rfl

/-- A connection files the conversation of its stream under the deliveries that bring it. -/
theorem run_fresh (nonempty : ∀ chunk ∈ chunks, chunk ≠ []) :
    run engine none (chunks.map .data) (fresh config key shared) =
      ((ofStream engine { config, key } shared 0 chunks.flatten).filed 0 chunks,
        (ofStream engine { config, key } shared 0 chunks.flatten).ending,
        (ofStream engine { config, key } shared 0 chunks.flatten).shared) := by
  refine run_chunks (fun n => ?_) (within_ofStream rfl rfl) nonempty rfl drain_fresh
  exact follows_ofStream rfl (Nat.zero_add n) (Nat.zero_add _)

theorem transcript_chunks (nonempty : ∀ chunk ∈ chunks, chunk ≠ []) :
    transcript engine (chunks.map .data) config key shared =
      (ofStream engine { config, key } shared 0 chunks.flatten).transcript := by
  have within : (ofStream engine { config, key } shared 0 chunks.flatten).Within 1
      chunks.flatten.length := within_ofStream rfl (Nat.zero_add _)
  have hwritten : ((ofStream engine { config, key } shared 0 chunks.flatten).filed 0
      chunks).flatten = (ofStream engine { config, key } shared 0 chunks.flatten).written := by
    have hfiled := within.due_append_filed (by decide) 0 chunks (by omega)
    rwa [within.due_eq_nil (by decide), List.nil_append] at hfiled
  rw [transcript, run_fresh nonempty, run_fresh nonempty, ofStream_recording rfl]
  show Transcript.mk _ _ _ _ = _
  rw [hwritten]
  rfl

/-- **A stream may be cut anywhere.** A connection does what its stream asks for: it files every
answer under the delivery that brings the last byte of what is answered, and is seen to have the
conversation that the stream holds. So streams that differ only in how they are cut are not told
apart. -/
theorem run_eq_conversation (engine : Engine σ) (config : Config) (key : SessionKey)
    (shared : Shared σ) (chunks : List Bytes) (nonempty : ∀ chunk ∈ chunks, chunk ≠ []) :
    let v := ofStream engine { config, key } shared 0 chunks.flatten
    run engine none (chunks.map .data) (fresh config key shared) =
        (v.filed 0 chunks, v.ending, v.shared) ∧
      transcript engine (chunks.map .data) config key shared = v.transcript ∧
      ∀ others : List Bytes, (∀ chunk ∈ others, chunk ≠ []) → others.flatten = chunks.flatten →
        transcript engine (others.map .data) config key shared =
          transcript engine (chunks.map .data) config key shared := by
  refine ⟨run_fresh nonempty, transcript_chunks nonempty, fun others hothers hsame => ?_⟩
  rw [transcript_chunks nonempty, transcript_chunks hothers, hsame]

/-- A request for encryption, a request of startup, and messages, cut in the middle of each. -/
def cutStream : List Bytes :=
  [[0, 0], [0, 8, 4, 210, 22, 47, 0, 0, 0, 9, 0], [3, 0, 0, 0, 'S'.toUInt8, 0, 0],
    [0, 4, 'X'.toUInt8, 0, 0, 0], [4, 'S'.toUInt8]]

theorem run_eq_conversation_cutStream :
    (∀ chunk ∈ cutStream, chunk ≠ []) ∧
      (run Script.engine none (cutStream.map .data) (fresh {} ⟨1, 2⟩ ⟨.empty, []⟩)).1 =
        (ofStream Script.engine { config := {}, key := ⟨1, 2⟩ } ⟨.empty, []⟩ 0
          cutStream.flatten).filed 0 cutStream :=
  have nonempty : ∀ chunk ∈ cutStream, chunk ≠ [] := by decide
  ⟨nonempty, congrArg Prod.fst
    (run_eq_conversation Script.engine {} ⟨1, 2⟩ ⟨.empty, []⟩ cutStream nonempty).1⟩

end Connection

end PgGateway
