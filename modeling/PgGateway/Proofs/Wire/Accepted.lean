import PgGateway.Proofs.Wire.ClientStream
import PgGateway.Proofs.Wire.ServerStream

/-!
# What readers accept

A reader meets bytes of any kind, not only those that a writer made. `Reader.Yields P r` says how it
can end, whatever it meets: with a value that has `P`, or with a fault of the item that it reads,
and never past the item's end. Every reader yields only what its writer is faithful for, so every
message that is accepted is read back from what is written for it (`accepted_read_back`), however
much of it was left out, cut off or replaced when it was read.
-/

namespace PgGateway

open Wire

/-- The bytes of an item are there, but no message is read from them. -/
def WireError.OfItem : WireError → Prop
  | protocol (.missingTrailer _) | protocol .missingTerminator | protocol (.truncated _)
  | protocol (.unknownAuthentication _) | protocol (.unknownTag _) | unsupportedVersion _ => True
  | _ => False

namespace Wire.Reader

variable {α β : Type} {P : α → Prop} {Q : β → Prop} {r : Reader α} {f : α → Reader β}
  {part : Part} {n m : Nat}

/-! ## Readers of fixed size -/

/-- The reader takes `n` bytes, if there are so many, and gives a value with `P`. -/
def Takes (n : Nat) (P : α → Prop) (r : Reader α) : Prop :=
  ∀ bytes, n ≤ bytes.length → ∃ a, P a ∧ r.run bytes = .ok (a, bytes.drop n)

namespace Takes

theorem pure {a : α} (h : P a) : Takes 0 P (Pure.pure a) := fun _ _ => ⟨a, h, rfl⟩

theorem bind (hr : Takes n P r) (hf : ∀ a, P a → Takes m Q (f a)) : Takes (n + m) Q (r >>= f) := by
  intro bytes hlen
  obtain ⟨a, ha, hrun⟩ := hr bytes (by omega)
  obtain ⟨b, hb, hnext⟩ := hf a ha (bytes.drop n) (by rw [List.length_drop]; omega)
  exact ⟨b, hb, by rw [run_bind hrun, hnext, List.drop_drop]⟩

theorem take (n : Nat) : Takes n (·.length = n) (Reader.take n) := by
  intro bytes hlen
  refine ⟨bytes.take n, List.length_take_of_le hlen, ?_⟩
  exact if_pos (atLeast_eq_true_iff.2 hlen)

theorem map {g : α → β} (hr : Takes n P r) (hg : ∀ a, P a → Q (g a)) :
    Takes n Q (do return g (← r)) :=
  hr.bind fun a ha => .pure (hg a ha)

theorem byte : Takes 1 (fun _ => True) Reader.byte := (take 1).map fun _ _ => trivial

theorem int16 : Takes 2 (fun _ => True) Reader.int16 := (take 2).map fun _ _ => trivial

theorem int32 : Takes 4 (fun _ => True) Reader.int32 := (take 4).map fun _ _ => trivial

end Takes

/-! ## All readers -/

/-- The outcome is a value with `P` or a fault of the item. -/
def Sound (P : α → Prop) : Except WireError (α × Bytes) → Prop
  | .ok (a, _) => P a
  | .error e => e.OfItem

/-- Whatever it meets, the reader gives a value with `P` or finds a fault of the item. -/
def Yields (P : α → Prop) (r : Reader α) : Prop := ∀ bytes, Sound P (r.run bytes)

/-- What is read is what its reader gives; the bytes that are left over do not matter. -/
theorem Sound.map_fst {outcome : Except WireError (α × Bytes)} (h : Sound P outcome) :
    (∀ a, outcome.map Prod.fst = .ok a → P a) ∧
      ∀ e, outcome.map Prod.fst = .error e → e.OfItem := by
  cases outcome with
  | ok result => exact ⟨fun a ha => Except.ok.inj ha ▸ h, nofun⟩
  | error e => exact ⟨nofun, fun e he => Except.error.inj he ▸ h⟩

theorem Takes.sound {bytes : Bytes} (hr : Takes n P r) (hlen : n ≤ bytes.length) :
    Sound P (r.run bytes) := by
  obtain ⟨a, ha, hrun⟩ := hr bytes hlen
  rw [hrun]
  exact ha

theorem Sound.bind {bytes : Bytes} (hr : Sound P (r.run bytes)) (hf : ∀ a, P a → Yields Q (f a)) :
    Sound Q ((r >>= f).run bytes) := by
  rw [StateT.run_bind]
  cases hrun : r.run bytes with
  | error e =>
    rw [hrun] at hr
    exact hr
  | ok result =>
    rw [hrun] at hr
    exact hf result.1 hr result.2

namespace Yields

theorem pure {a : α} (h : P a) : Yields P (Pure.pure a) := fun _ => h

theorem bind (hr : Yields P r) (hf : ∀ a, P a → Yields Q (f a)) : Yields Q (r >>= f) :=
  fun bytes => (hr bytes).bind hf

theorem map {g : α → β} (hr : Yields P r) (hg : ∀ a, P a → Q (g a)) :
    Yields Q (do return g (← r)) :=
  hr.bind fun a ha => .pure (hg a ha)

theorem mono {P' : α → Prop} (hr : Yields P r) (h : ∀ a, P a → P' a) : Yields P' r := by
  have hmap := hr.map (g := id) h
  rwa [show (do return id (← r)) = r from bind_pure r] at hmap

theorem throw {e : WireError} (h : e.OfItem) : Yields P (throw e) := fun _ => h

/-- Bytes that were made sure of can be taken. -/
theorem need (hr : Takes n P r) : Yields P (do Reader.need part n; r) := by
  intro bytes
  by_cases hlen : n ≤ bytes.length
  · have hneed : (Reader.need part n).run bytes = .ok ((), bytes) :=
      if_pos (atLeast_eq_true_iff.2 hlen)
    rw [run_bind hneed]
    exact hr.sound hlen
  · have hneed : (Reader.need part n).run bytes = .error (.protocol (.truncated part)) :=
      if_neg fun h => hlen (atLeast_eq_true_iff.1 h)
    rw [StateT.run_bind, hneed]
    trivial

/-- The same where more is read behind these bytes. -/
theorem needThen (hr : Takes n P r) (hf : ∀ a, P a → Yields Q (f a)) :
    Yields Q (do Reader.need part n; let a ← r; f a) := by
  have hread : Yields Q ((do Reader.need part n; r) >>= f) := (Yields.need hr).bind hf
  rwa [bind_assoc] at hread

/-- A reader that looks at the unread bytes first. -/
theorem get {f : Bytes → Reader α} (h : ∀ bytes, Sound P ((f bytes).run bytes)) :
    Yields P (do f (← MonadState.get)) := h

/-- Nothing is read at the end of the body. -/
theorem unlessEmpty {c : α} (hc : P c) (hr : ∀ bytes ≠ [], Sound P (r.run bytes)) :
    Yields P (do if (← MonadState.get).isEmpty then return c else r) := by
  refine get fun bytes => ?_
  split
  · exact hc
  · next hbytes => exact hr bytes fun h => hbytes (List.isEmpty_iff.2 h)

theorem times (hr : Yields P r) (n : Nat) :
    Yields (fun as => as.length = n ∧ ∀ a ∈ as, P a) (Reader.times n r) := by
  induction n with
  | zero => exact .pure ⟨rfl, nofun⟩
  | succ n ih =>
    exact hr.bind fun a ha => ih.map fun as has =>
      ⟨congrArg (· + 1) has.1, List.forall_mem_cons.2 ⟨ha, has.2⟩⟩

/-- A string that is read holds no zero, whatever its bytes are. -/
theorem cstring : Yields ('\x00' ∉ ·) Reader.cstring := by
  intro bytes
  show Sound _ (Reader.cstring bytes)
  unfold Reader.cstring
  split
  · trivial
  · exact Utf8.zero_not_mem_decode_takeWhile bytes

end Yields

end Wire.Reader

/-! ## Messages of the server -/

namespace Backend

theorem yields_field : Reader.Yields (fun f => '\x00' ∉ f.name) readField := by
  refine Reader.Yields.cstring.bind fun name hname => Reader.Yields.need ?_
  refine Reader.Takes.int32.bind (m := 14) fun tableOid _ => ?_
  refine Reader.Takes.int16.bind (m := 12) fun position _ => ?_
  refine Reader.Takes.int32.bind (m := 8) fun oid _ => ?_
  refine Reader.Takes.int16.bind (m := 6) fun size _ => ?_
  refine Reader.Takes.int32.bind (m := 2) fun modifier _ => ?_
  exact Reader.Takes.int16.map fun format _ => hname

theorem yields_value :
    Reader.Yields (fun value => ∀ data ∈ value, data.length < 2147483648) readValue := by
  refine .needThen Reader.Takes.int32 fun length _ => ?_
  split
  · exact .pure nofun
  · refine .need ((Reader.Takes.take _).map fun data hdata => ?_)
    have hlength := length.toInt_lt
    rintro _ ⟨⟩
    omega

theorem yields_counted {α : Type} {P : α → Prop} {part : Part} {r : Reader α}
    (hr : Reader.Yields P r) :
    Reader.Yields (fun as => as.length ≤ 32767 ∧ ∀ a ∈ as, P a) (readCounted part r) := by
  refine .needThen Reader.Takes.int16 fun count _ => (hr.times _).mono fun as has => ?_
  have hcount := count.toInt_lt
  exact ⟨by omega, has.2⟩

theorem yields_errorFields (fuel : Nat) :
    Reader.Yields (fun fields => ∀ field ∈ fields, '\x00' ∉ field.2) (readErrorFields fuel) := by
  induction fuel with
  | zero => exact .pure nofun
  | succ fuel ih =>
    refine .unlessEmpty nofun fun bytes hbytes => ?_
    have hbyte : Reader.Sound _ (Reader.byte.run bytes) :=
      Reader.Takes.byte.sound (List.length_pos_iff.2 hbytes)
    refine hbyte.bind fun kind _ => ?_
    split
    · exact .pure nofun
    · refine Reader.Yields.cstring.bind fun value hvalue => ih.map fun fields hfields => ?_
      exact List.forall_mem_cons.2 ⟨hvalue, hfields⟩

/-- A field that is missing is read as an empty text. -/
theorem zero_not_mem_lastField {fields : List (UInt8 × Text)}
    (h : ∀ field ∈ fields, '\x00' ∉ field.2) (kind : Char) : '\x00' ∉ lastField fields kind := by
  unfold lastField
  cases hfind : fields.reverse.find? (·.1 = kind.toUInt8) with
  | none => exact List.not_mem_nil
  | some field => exact h field (List.mem_reverse.1 (List.mem_of_find?_eq_some hfind))

/-- **What is read is faithful to write**: it is well-formed, and its values are short. -/
theorem yields_payload (tag : UInt8) :
    Reader.Yields (fun m : Backend => m.WellFormed ∧ m.ShortValues) (readPayload tag) := by
  unfold readPayload
  split
  · refine .needThen Reader.Takes.int32 fun method _ => ?_
    split
    · exact .pure ⟨trivial, trivial⟩
    · exact .throw trivial
  split
  · refine Reader.Yields.cstring.bind fun name hname => ?_
    exact Reader.Yields.cstring.map fun value hvalue => ⟨⟨hname, hvalue⟩, trivial⟩
  split
  · refine .need (Reader.Takes.int32.bind (m := 4) fun processId _ => ?_)
    exact Reader.Takes.int32.map fun secretKey _ => ⟨trivial, trivial⟩
  split
  · exact .need (Reader.Takes.byte.map fun status _ => ⟨trivial, trivial⟩)
  split
  · exact (yields_counted yields_field).map fun fields hfields => ⟨hfields, trivial⟩
  split
  · exact (yields_counted yields_value).map fun values hvalues => ⟨hvalues.1, hvalues.2⟩
  split
  · exact .get fun bytes => ⟨trivial, trivial⟩
  split
  · exact .pure ⟨trivial, trivial⟩
  split
  · refine .get fun bytes => (yields_errorFields bytes.length).map (fun fields hfields => ?_) bytes
    have hunbroken := zero_not_mem_lastField hfields
    exact ⟨⟨hunbroken 'S', hunbroken 'C', hunbroken 'M'⟩, trivial⟩
  · exact .throw trivial

theorem sound_ofFrame (frame : Frame) :
    (∀ m, ofFrame frame = .ok m → m.WellFormed ∧ m.ShortValues) ∧
      ∀ e, ofFrame frame = .error e → e.OfItem :=
  (yields_payload frame.tag frame.payload).map_fst

end Backend

/-! ## Packets of startup -/

namespace Startup

theorem yields_parameters (fuel : Nat) :
    Reader.Yields (fun parameters => ∀ p ∈ parameters, p.1 ≠ [] ∧ '\x00' ∉ p.1 ∧ '\x00' ∉ p.2)
      (readParameters fuel) := by
  induction fuel with
  | zero => exact .pure nofun
  | succ fuel ih =>
    refine .unlessEmpty nofun fun bytes _ => ?_
    refine (Reader.Yields.cstring bytes).bind fun name hname => ?_
    split
    · exact .pure nofun
    · next hne =>
      refine Reader.Yields.cstring.bind fun value hvalue => ih.map fun parameters hparameters => ?_
      exact List.forall_mem_cons.2 ⟨⟨fun h => hne (List.isEmpty_iff.2 h), hname, hvalue⟩,
        hparameters⟩

/-- The body of a packet has room for its version number at least. -/
theorem sound_ofBody {body : Bytes} (hlen : 4 ≤ body.length) :
    (∀ s, ofBody body = .ok s → s.WellFormed) ∧ ∀ e, ofBody body = .error e → e.OfItem := by
  refine Reader.Sound.map_fst ((Reader.Takes.int32.sound hlen).bind fun version _ => ?_)
  split
  · exact .get fun bytes => (yields_parameters bytes.length).map (fun _ h => h) bytes
  split
  · exact .pure trivial
  split
  · exact .pure trivial
  split
  · refine .need (Reader.Takes.int32.bind (m := 4) fun processId _ => ?_)
    exact Reader.Takes.int32.map fun secretKey _ => trivial
  · exact .throw trivial

/-- A packet declares eight bytes at least. -/
theorem eight_le_measure {limit length : Nat} {head : Bytes}
    (h : measure limit head = .ok length) : 8 ≤ length := by
  unfold measure at h
  dsimp only at h
  split at h
  · cases h
  · split at h
    · cases h
    · cases h
      omega

theorem wellFormed_of_take {limit : Nat} {buffer rest : Bytes} {s : Startup}
    (h : take limit buffer = ⟨.ok (some s), rest⟩) : s.WellFormed := by
  rw [take_eq_measured] at h
  obtain ⟨-, ⟨e, -, hanswer, -⟩ | ⟨length, hmeasure, hall, hanswer, -⟩⟩ :=
    Taken.measured_answered h nofun
  · cases hanswer
  · have hlength := eight_le_measure hmeasure
    have hread : read (buffer.take length) = .ok s := by
      cases hpacket : read (buffer.take length) <;> rw [hpacket] at hanswer <;> cases hanswer
      rfl
    refine (sound_ofBody ?_).1 s hread
    rw [List.length_drop, List.length_take_of_le hall]
    omega

end Startup

/-! ## Messages of the client -/

namespace Frontend

theorem wellFormed_ofFrame (frame : Frame) : (ofFrame frame).WellFormed := by
  unfold ofFrame
  split
  · exact Utf8.zero_not_mem_decode_takeWhile frame.payload
  split
  · trivial
  split
  · trivial
  · exact ⟨‹_›, ‹_›, ‹_›⟩

end Frontend

/-! ## What was accepted is read back -/

/-- **Every message that is accepted is read back from what is written for it.** A frame of any tag
and any payload that is read as a message of the server is written anew as a frame that is read as
the same message. The same holds of the messages of the client, whose frames are always read; no
query text that is read holds a zero. A startup request that is taken off any buffer is taken off
what is written for it, whatever follows that, if its length fits in the length field and is within
the limit there. -/
theorem accepted_read_back :
    (∀ frame m, Backend.ofFrame frame = .ok m → Backend.ofFrame m.toFrame = .ok m) ∧
      (∀ frame, Frontend.ofFrame (Frontend.ofFrame frame).toFrame = Frontend.ofFrame frame) ∧
      (∀ frame sql, Frontend.ofFrame frame = .query sql → '\x00' ∉ sql) ∧
      ∀ limit buffer request rest, Startup.take limit buffer = ⟨.ok (some request), rest⟩ →
        ∀ limit' after, request.encode.length ≤ limit' → request.encode.length ≤ 2147483647 →
          Startup.take limit' (request.encode ++ after) = ⟨.ok (some request), after⟩ := by
  refine ⟨?_, ?_, ?_, ?_⟩
  · intro frame m haccepted
    obtain ⟨wellFormed, hshort⟩ := (Backend.sound_ofFrame frame).1 m haccepted
    exact Backend.ofFrame_toFrame wellFormed hshort
  · intro frame
    exact Frontend.ofFrame_toFrame (Frontend.wellFormed_ofFrame frame)
  · intro frame sql hquery
    have wellFormed := Frontend.wellFormed_ofFrame frame
    rwa [hquery] at wellFormed
  · intro limit buffer request rest haccepted limit' after hlimit hfit
    have hlength : request.encode.length = request.declaredLength := by
      rw [Startup.encode, List.length_append, length_int32, Startup.declaredLength]
    rw [hlength] at hlimit hfit
    exact Startup.take_encode (Startup.wellFormed_of_take haccepted) hlimit
      (Nat.lt_succ_of_le hfit) after

/-- A report without a class, with a kind of field that is not known, a message given twice that is
no UTF-8, and no zero byte behind the last field. -/
def wornReport : Frame :=
  ⟨'E'.toUInt8, ['M'.toUInt8, 'a'.toUInt8, 0, '?'.toUInt8, 0, 'M'.toUInt8, 0xC3, 0x28, 0]⟩

/-- A packet whose parameters end with the packet, with a value that is no UTF-8, and a byte behind
it. -/
def wornPacket : Bytes := [0, 0, 0, 12, 0, 3, 0, 0, 'k'.toUInt8, 0, 0xFF, 0, 7]

theorem accepted_read_back_worn :
    Backend.ofFrame wornReport = .ok (.errorResponse [] [] "\uFFFD(") ∧
      Backend.ofFrame (Backend.errorResponse [] [] "\uFFFD(").toFrame =
        .ok (.errorResponse [] [] "\uFFFD(") ∧
      Startup.take 12 wornPacket = ⟨.ok (some (.session [("k", "\uFFFD")])), [7]⟩ ∧
      Startup.take 15 ((Startup.session [("k", "\uFFFD")]).encode ++ [7]) =
        ⟨.ok (some (.session [("k", "\uFFFD")])), [7]⟩ := by
  have hreport : Backend.ofFrame wornReport = .ok (.errorResponse [] [] "\uFFFD(") := rfl
  have hpacket : Startup.take 12 wornPacket = ⟨.ok (some (.session [("k", "\uFFFD")])), [7]⟩ := rfl
  obtain ⟨hserver, -, -, hstartup⟩ := accepted_read_back
  exact ⟨hreport, hserver _ _ hreport, hpacket,
    hstartup _ _ _ _ hpacket 15 [7] (by decide) (by decide)⟩

end PgGateway
