import PgGateway.Proofs.Wire.RoundTrip

/-!
# The stream of a client is read as it was written

A client sends packets of startup, which begin with their length, and then frames. Both are put at
the end of a buffer, and the length of a packet is written over when the packet is there
(`Startup.appendTo_eq`: in the packet's own bytes). Read in the same order, with as many calls, they
come back as they were, the parameters of a session with their order and their repetitions.
-/

namespace PgGateway

open Wire

namespace Startup

/-- No parameter has an empty name, and none holds a zero. -/
def WellFormed : Startup → Prop
  | session parameters => ∀ p ∈ parameters, p.1 ≠ [] ∧ '\x00' ∉ p.1 ∧ '\x00' ∉ p.2
  | _ => True

instance : DecidablePred WellFormed
  | session parameters =>
    inferInstanceAs (Decidable (∀ p ∈ parameters, p.1 ≠ [] ∧ '\x00' ∉ p.1 ∧ '\x00' ∉ p.2))
  | ssl | gssEncryption | cancel _ => inferInstanceAs (Decidable True)

/-- The length that a packet declares: of the length field and the body. -/
def declaredLength (s : Startup) : Nat := 4 + s.body.length

/-! ## Writing -/

/-- Bytes written over bytes of the same length stand in their place, and nothing else changes. -/
theorem overwrite_append {before old new : Bytes} (after : Bytes) (h : old.length = new.length) :
    overwrite (before ++ old ++ after) before.length new = before ++ new ++ after := by
  have hkept : (before ++ old ++ after).take before.length = before := by
    rw [List.append_assoc, List.take_left]
  have hrest : (before ++ old ++ after).drop (before.length + new.length) = after := by
    rw [← h, ← List.length_append, List.drop_left]
  rw [overwrite, hkept, hrest]

/-- The length is written over the room left for it, in the packet's own bytes. -/
theorem appendTo_eq (buffer : Bytes) (s : Startup) : appendTo buffer s = buffer ++ s.encode := by
  have hlen : (buffer ++ int32 0 ++ s.body).length - buffer.length = 4 + s.body.length := by
    simp only [List.length_append, length_int32]
    omega
  rw [appendTo, hlen, overwrite_append _ (by simp only [length_int32]), encode, List.append_assoc]

theorem foldl_appendTo (requests : List Startup) (buffer : Bytes) :
    requests.foldl appendTo buffer = buffer ++ requests.flatMap encode := by
  induction requests generalizing buffer with
  | nil => exact (List.append_nil buffer).symm
  | cons s requests ih =>
    rw [List.foldl_cons, ih, appendTo_eq, List.append_assoc]
    rfl

/-! ## Reading -/

/-- Parameters are read up to the empty name after them. -/
theorem reads_parameters (parameters : List (Text × Text)) (fuel : Nat)
    (hfuel : parameters.length < fuel)
    (h : ∀ p ∈ parameters, p.1 ≠ [] ∧ '\x00' ∉ p.1 ∧ '\x00' ∉ p.2) :
    Reader.Reads (readParameters fuel) (parameters.flatMap encodeParameter ++ [0]) parameters := by
  induction parameters generalizing fuel with
  | nil =>
    obtain ⟨fuel, rfl⟩ : ∃ k, fuel = k + 1 := ⟨fuel - 1, by simp at hfuel; omega⟩
    intro rest
    rfl
  | cons p parameters ih =>
    obtain ⟨name, value⟩ := p
    obtain ⟨hne, hname, hvalue⟩ := h (name, value) List.mem_cons_self
    obtain ⟨fuel, rfl⟩ : ∃ k, fuel = k + 1 := ⟨fuel - 1, by simp at hfuel; omega⟩
    have htail := ih fuel (Nat.lt_of_succ_lt_succ hfuel) fun q hq =>
      h q (List.mem_cons_of_mem _ hq)
    rw [List.flatMap_cons, encodeParameter]
    simp only [List.append_assoc]
    refine Reader.Reads.unlessEmpty (by simp [cstring]) ((Reader.Reads.cstring hname).bind ?_)
    -- the name is not empty, so the reader does not take it for the end
    rw [if_neg (by simpa using hne)]
    exact (Reader.Reads.cstring hvalue).bind htail.map

theorem length_le_parameters (parameters : List (Text × Text)) :
    parameters.length ≤ (parameters.flatMap encodeParameter).length := by
  induction parameters with
  | nil => exact Nat.le_refl 0
  | cons p parameters ih =>
    simp only [List.flatMap_cons, encodeParameter, cstring, List.length_append, List.length_cons,
      List.length_nil]
    omega

theorem reads_body {s : Startup} (wellFormed : s.WellFormed) :
    Reader.Reads readBody s.body s := by
  cases s with
  | session parameters =>
    rw [body, List.append_assoc]
    refine (Reader.Reads.int32 version3).bind ?_
    rw [if_pos rfl]
    refine Reader.Reads.withLength (r := fun n => do return session (← readParameters n))
      fun n hn => (reads_parameters parameters n ?_ wellFormed).map
    -- the fuel is the length of what is left, and every parameter takes some of it
    have hlen := length_le_parameters parameters
    rw [List.length_append, List.length_singleton] at hn
    omega
  | ssl =>
    rw [body, ← List.append_nil (int32 sslCode)]
    refine (Reader.Reads.int32 sslCode).bind ?_
    rw [if_neg (by decide), if_pos rfl]
    exact Reader.Reads.pure ssl
  | gssEncryption =>
    rw [body, ← List.append_nil (int32 gssCode)]
    refine (Reader.Reads.int32 gssCode).bind ?_
    rw [if_neg (by decide), if_neg (by decide), if_pos rfl]
    exact Reader.Reads.pure gssEncryption
  | cancel key =>
    rw [body, List.append_assoc]
    refine (Reader.Reads.int32 cancelCode).bind ?_
    rw [if_neg (by decide), if_neg (by decide), if_neg (by decide), if_pos rfl]
    refine Reader.Reads.need (Nat.le_refl 8) ?_
    exact (Reader.Reads.int32 key.processId).bind (Reader.Reads.int32 key.secretKey).map

theorem eight_le_declaredLength (s : Startup) : 8 ≤ s.declaredLength := by
  cases s <;> simp only [declaredLength, body, List.length_append, length_int32] <;> omega

/-- **Packets of startup.** A well-formed packet is taken off a buffer whatever follows it, if its
length fits in the length field and is within the limit. -/
theorem take_encode {limit : Nat} {s : Startup} (wellFormed : s.WellFormed)
    (hlimit : s.declaredLength ≤ limit) (hfit : s.declaredLength < 2147483648) (rest : Bytes) :
    take limit (s.encode ++ rest) = ⟨.ok (some s), rest⟩ := by
  have hdeclared : (Int32.ofNat s.declaredLength).toInt = s.declaredLength :=
    Int32.toInt_ofNat_of_lt hfit
  have hlong := eight_le_declaredLength s
  have hmeasure : measure limit (int32 (Int32.ofNat s.declaredLength)) =
      .ok (int32 (Int32.ofNat s.declaredLength) ++ s.body).length := by
    rw [measure, toInt32_number, hdeclared, Int.toNat_natCast, if_neg (by omega),
      if_neg (by omega), List.length_append, length_int32]
    rfl
  have hbody := reads_body wellFormed []
  rw [List.append_nil] at hbody
  rw [take_eq_measured]
  refine (Taken.measured_written rest hmeasure).trans ?_
  show Taken.item (ofBody s.body) rest = _
  rw [ofBody, hbody]
  rfl

end Startup

namespace Frontend

/-- A query text holds no zero, and an unknown message does not have the tag of a known one. -/
def WellFormed : Frontend → Prop
  | query sql => '\x00' ∉ sql
  | unknown tag _ => tag ≠ 'Q'.toUInt8 ∧ tag ≠ 'S'.toUInt8 ∧ tag ≠ 'X'.toUInt8
  | _ => True

instance : DecidablePred WellFormed
  | query sql => inferInstanceAs (Decidable ('\x00' ∉ sql))
  | unknown _ _ => inferInstanceAs (Decidable (_ ∧ _ ∧ _))
  | sync | terminate => inferInstanceAs (Decidable True)

/-- Puts a message at the end of a buffer. -/
def appendTo (buffer : Bytes) (m : Frontend) : Bytes := buffer ++ m.encode

theorem foldl_appendTo (messages : List Frontend) (buffer : Bytes) :
    messages.foldl appendTo buffer = buffer ++ messages.flatMap encode := by
  induction messages generalizing buffer with
  | nil => exact (List.append_nil buffer).symm
  | cons m messages ih =>
    rw [List.foldl_cons, ih, appendTo, List.append_assoc]
    rfl

theorem ofFrame_toFrame {m : Frontend} (wellFormed : m.WellFormed) : ofFrame m.toFrame = m := by
  cases m with
  | query sql =>
    have htext : (Utf8.encode sql).takeWhile (· != 0) = Utf8.encode sql := by
      have happend : (Utf8.encode sql ++ []).takeWhile (· != 0) = Utf8.encode sql ++ [] :=
        List.takeWhile_append_of_pos (Utf8.encode_ne_zero wellFormed)
      rwa [List.append_nil] at happend
    show query (Utf8.decode ((Utf8.encode sql).takeWhile (· != 0))) = query sql
    rw [htext, Utf8.decode_encode]
  | sync => rfl
  | terminate => rfl
  | unknown tag payload =>
    obtain ⟨hquery, hsync, hterminate⟩ := wellFormed
    show (if tag = _ then _ else if tag = _ then _ else if tag = _ then _ else _) = _
    rw [if_neg hquery, if_neg hsync, if_neg hterminate]
    rfl

/-- **Messages of the client.** A well-formed message is taken off a buffer whatever follows it, if
its length fits in the length field and is within the limit. -/
theorem take_encode {limit : Nat} {m : Frontend} (wellFormed : m.WellFormed)
    (hlimit : m.toFrame.declaredLength .frontend ≤ limit)
    (hfit : m.toFrame.declaredLength .frontend < 2147483648) (rest : Bytes) :
    take limit (m.encode ++ rest) = ⟨.ok (some m), rest⟩ := by
  rw [take, encode, Frame.take_encode hlimit hfit]
  show Taken.item (.ok (ofFrame m.toFrame)) rest = _
  rw [ofFrame_toFrame wellFormed]
  rfl

end Frontend

/-- **The stream of a client is read as it was written.** Packets of startup and then messages, put
at the end of a buffer, leave it as it was. Read from there on, with as many calls as there are
packets and then as many as there are messages, both lists come back in order and no byte is
left. -/
theorem read_written_conversation (requests : List Startup) (messages : List Frontend)
    (limit : Nat) (before : Bytes)
    (requests_ok : ∀ s ∈ requests,
      s.WellFormed ∧ s.declaredLength ≤ limit ∧ s.declaredLength ≤ 2147483647)
    (messages_ok : ∀ m ∈ messages, m.WellFormed ∧
      m.toFrame.declaredLength .frontend ≤ limit ∧
      m.toFrame.declaredLength .frontend ≤ 2147483647) :
    ∃ written rest,
      messages.foldl Frontend.appendTo (requests.foldl Startup.appendTo before) =
        before ++ written ∧
      Taken.items (Startup.take limit) requests.length written = some (requests, rest) ∧
      Taken.items (Frontend.take limit) messages.length rest = some (messages, []) := by
  refine ⟨requests.flatMap Startup.encode ++ messages.flatMap Frontend.encode,
    messages.flatMap Frontend.encode, ?_, ?_, ?_⟩
  · rw [Startup.foldl_appendTo, Frontend.foldl_appendTo, List.append_assoc]
  · refine Taken.items_written requests _ fun s hs rest => ?_
    obtain ⟨wellFormed, hlimit, hfit⟩ := requests_ok s hs
    exact Startup.take_encode wellFormed hlimit (Nat.lt_succ_of_le hfit) rest
  · rw [← List.append_nil (messages.flatMap Frontend.encode)]
    refine Taken.items_written messages [] fun m hm rest => ?_
    obtain ⟨wellFormed, hlimit, hfit⟩ := messages_ok m hm
    exact Frontend.take_encode wellFormed hlimit (Nat.lt_succ_of_le hfit) rest

/-- Requests of every kind; one parameter is sent three times. -/
def sampleRequests : List Startup :=
  [.ssl, .gssEncryption, .session [("user", "é"), ("user", ""), ("user", "é")], .cancel ⟨-1, 5⟩]

/-- Messages of every kind, among them a query without a text. -/
def sampleMessages : List Frontend :=
  [.query "SELECT '€'", .unknown 'H'.toUInt8 [0, 0], .query "", .sync, .terminate]

theorem read_written_sample :
    (∀ s ∈ sampleRequests, s.WellFormed ∧ s.declaredLength ≤ 64 ∧ s.declaredLength ≤ 2147483647) ∧
      (∀ m ∈ sampleMessages, m.WellFormed ∧ m.toFrame.declaredLength .frontend ≤ 64 ∧
        m.toFrame.declaredLength .frontend ≤ 2147483647) ∧
      ∃ written rest,
        sampleMessages.foldl Frontend.appendTo (sampleRequests.foldl Startup.appendTo [0, 1]) =
          [0, 1] ++ written ∧
        Taken.items (Startup.take 64) 4 written = some (sampleRequests, rest) ∧
        Taken.items (Frontend.take 64) 5 rest = some (sampleMessages, []) :=
  have requests_ok : ∀ s ∈ sampleRequests,
      s.WellFormed ∧ s.declaredLength ≤ 64 ∧ s.declaredLength ≤ 2147483647 := by decide
  have messages_ok : ∀ m ∈ sampleMessages, m.WellFormed ∧
      m.toFrame.declaredLength .frontend ≤ 64 ∧
      m.toFrame.declaredLength .frontend ≤ 2147483647 := by decide
  ⟨requests_ok, messages_ok,
    read_written_conversation sampleRequests sampleMessages 64 [0, 1] requests_ok messages_ok⟩

end PgGateway
