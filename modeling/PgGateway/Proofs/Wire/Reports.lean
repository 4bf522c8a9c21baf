import PgGateway.Proofs.Wire.ServerStream

/-!
# Reports that are read as they were made

An error report says what it was made to say if its message can be told in a field: it holds no
zero, which would end the field, and is short enough for a frame (`readsBack_report`). What is said
of a frame under the tag zero cannot: the tag is shown as a character, so the message ends there and
what follows is read as a field of its own (`read_zeroTag`).
-/

namespace PgGateway

open Wire

namespace Backend

/-- The report is taken off a buffer as it was made, whatever follows it, and its body holds the
severity twice, the class and the message, and nothing else. -/
structure ReadsBack (severity : Severity) (state : SqlState) (message : Text) : Prop where
  taken : ∀ rest, take ((report severity state message).encode ++ rest) =
    ⟨.ok (some (report severity state message)), rest⟩
  fields : (readErrorFields (report severity state message).toFrame.payload.length).run
    (report severity state message).toFrame.payload =
      .ok (errorFields severity.text state.code message, [])

theorem length_payload_report (severity : Severity) (state : SqlState) (message : Text) :
    (report severity state message).toFrame.payload.length = 23 + (Utf8.encode message).length := by
  have hseverity : (Utf8.encode severity.text).length = 5 := by cases severity <;> rfl
  have hstate : (Utf8.encode state.code).length = 5 := by cases state <;> rfl
  show ((_ :: cstring _ ++ _ :: cstring _ ++ _ :: cstring _ ++ _ :: cstring _ : Bytes)).length = _
  simp only [cstring, List.length_append, List.length_cons, List.length_nil, hseverity, hstate]
  omega

/-- The number of bytes up to which a message fits in a report: with so many the frame declares the
greatest length that a length field holds. -/
def longestMessage : Nat := 2147483619

theorem declaredLength_report {severity : Severity} {state : SqlState} {message : Text} :
    (report severity state message).toFrame.declaredLength .backend < 2147483648 ↔
      (Utf8.encode message).length ≤ longestMessage := by
  have hlength := length_payload_report severity state message
  have htrailer : Origin.backend.trailer (report severity state message).toFrame.tag = 1 := rfl
  rw [Frame.declaredLength, hlength, htrailer, longestMessage]
  omega

/-- **A report whose message can be told is read as it was made.** -/
theorem readsBack_report {severity : Severity} {state : SqlState} {message : Text}
    (h : message.Tellable longestMessage) : ReadsBack severity state message := by
  have hseverity : '\x00' ∉ severity.text := by cases severity <;> decide
  have hstate : '\x00' ∉ state.code := by cases state <;> decide
  constructor
  · exact take_encode ⟨hseverity, hstate, h.unbroken⟩ (declaredLength_report.2 h.short)
  · have hfields := errorFields_unbroken hseverity hstate h.unbroken
    have hpayload := payload_errorResponse severity.text state.code message
    show (readErrorFields (errorResponse _ _ _).toFrame.payload.length).run
      (errorResponse _ _ _).toFrame.payload = _
    rw [hpayload]
    exact read_errorFields _ hfields

end Backend

/-! ## Frames that are refused -/

/-- The ways in which a frame can be refused. -/
theorem Wire.Frame.take_error {origin : Origin} {limit : Nat} {buffer rest : Bytes} {e : WireError}
    (h : take origin limit buffer = ⟨.error e, rest⟩) :
    (∃ declared tag, e = .protocol (.messageLength declared tag)) ∨
      (∃ length, e = .tooLarge length limit ∧ length < 2147483648) ∨
      ∃ tag, e = .protocol (.missingTrailer tag) ∧ origin.trailer tag ≠ 0 := by
  unfold take at h
  split at h
  · next tag a b c d body =>
    dsimp only at h
    split at h
    · cases h
      exact .inl ⟨_, _, rfl⟩
    · split at h
      · cases h
        have hdeclared := (UInt32.ofNat (number [a, b, c, d])).toInt32.toInt_lt
        exact .inr (.inl ⟨_, rfl, by omega⟩)
      · split at h
        · cases h
        · unfold withoutTrailer at h
          split at h
          · cases h
          · next htrailer =>
            split at h
            · cases h
            · cases h
              exact .inr (.inr ⟨_, rfl, htrailer⟩)
  · cases h

/-- A message of a client is refused for its frame only. -/
theorem Frontend.take_error {limit : Nat} {buffer rest : Bytes} {e : WireError}
    (h : take limit buffer = ⟨.error e, rest⟩) :
    Frame.take .frontend limit buffer = ⟨.error e, rest⟩ := by
  unfold take Taken.bind at h
  split at h
  · cases h
  · cases h
  · next hanswer =>
    cases h
    rw [← hanswer]

theorem Wire.byteChar_ne_zero {b : UInt8} (h : b ≠ 0) : byteChar b ≠ '\x00' := by
  intro hzero
  have hvalid : b.toNat.isValidChar := .inl (Nat.lt_trans b.toNat_lt (by decide))
  have htoNat := congrArg Char.toNat hzero
  rw [byteChar, Char.ofNat, dif_pos hvalid] at htoNat
  exact h (UInt8.toNat_inj.1 htoNat)

namespace WireError

/-- The frame has the tag zero and a length that its header does not fit in. -/
def IsZeroTag (e : WireError) : Prop := ∃ declared, e = .protocol (.messageLength declared 0)

/-- What is said of a frame of this length before its tag is shown. -/
def beforeTag (declared : Int32) : Text :=
  "Protocol error: " ++ ("Invalid length " ++ Numeral.ofInt declared.toInt ++ " for message '")

theorem message_messageLength (declared : Int32) (tag : UInt8) :
    (protocol (.messageLength declared tag)).message =
      beforeTag declared ++ [byteChar tag, '\''] := by
  have htag : ∀ front : Text, front ++ [byteChar tag] ++ "'" = front ++ [byteChar tag, '\''] :=
    fun front => List.append_assoc front [byteChar tag] _
  exact (congrArg _ (htag _)).trans (List.append_assoc _ _ _).symm

theorem tellable_beforeTag (declared : Int32) : (beforeTag declared).Tellable 100 := by
  have hprotocol : Text.Tellable 20 "Protocol error: " := by decide
  have hlength : Text.Tellable 20 "Invalid length " := by decide
  have hmessage : Text.Tellable 19 " for message '" := by decide
  have hnumber : Text.Tellable (1 + 4 * 10) (Numeral.ofInt declared.toInt) := by
    have hlow := declared.le_toInt
    have hhigh := declared.toInt_lt
    exact .ofInt (by decide) (by omega)
  exact hprotocol.append ((hlength.append hnumber).append hmessage)

theorem tellable_tag {tag : UInt8} (h : tag ≠ 0) : Text.Tellable 8 [byteChar tag, '\''] := by
  have hunbroken : '\x00' ∉ [byteChar tag, '\''] :=
    List.not_mem_cons_of_ne_of_not_mem (byteChar_ne_zero h).symm (by decide)
  exact .ofLength hunbroken (Nat.le_refl 2)

/-- **What is said of a refused frame can be told**, unless its tag is zero. -/
theorem tellable_message {limit : Nat} {buffer rest : Bytes} {e : WireError}
    (hlimit : limit ≤ 104857600) (h : Frontend.take limit buffer = ⟨.error e, rest⟩)
    (htag : ¬e.IsZeroTag) : e.message.Tellable 1000 := by
  rcases Frame.take_error (Frontend.take_error h) with
    ⟨declared, tag, rfl⟩ | ⟨length, rfl, hlength⟩ | ⟨tag, rfl, htrailer⟩
  · have hne : tag ≠ 0 := by
      rintro rfl
      exact htag ⟨declared, rfl⟩
    rw [message_messageLength]
    exact ((tellable_beforeTag declared).append (tellable_tag hne)).mono (by decide)
  · have hlarge : Text.Tellable 20 "Message too large: " := by decide
    have hbytes : Text.Tellable 20 " bytes (max " := by decide
    have hclose : Text.Tellable 20 ")" := by decide
    have hdeclared : Text.Tellable (4 * 10) (Numeral.ofNat length) :=
      .ofNat (by decide) (by omega)
    have hallowed : Text.Tellable (4 * 10) (Numeral.ofNat limit) := .ofNat (by decide) (by omega)
    exact ((((hlarge.append hdeclared).append hbytes).append hallowed).append hclose).mono
      (by decide)
  · -- only queries end with a zero byte
    have hquery : tag = 'Q'.toUInt8 := Decidable.by_contra fun hother => htrailer (if_neg hother)
    rw [hquery]
    decide

end WireError

namespace Backend

open WireError

/-- **The report of a frame under the tag zero is misread.** Its message is cut off before the tag,
and the quote behind the tag is read as a field of its own. -/
theorem read_zeroTag (severity : Severity) (state : SqlState) (declared : Int32) :
    let made := report severity state (WireError.protocol (.messageLength declared 0)).message
    (∀ rest, take (made.encode ++ rest) =
      ⟨.ok (some (report severity state (beforeTag declared))), rest⟩) ∧
    (readErrorFields made.toFrame.payload.length).run made.toFrame.payload =
      .ok (errorFields severity.text state.code (beforeTag declared) ++ [('\''.toUInt8, [])],
        []) := by
  intro made
  have htold := tellable_beforeTag declared
  let fields := errorFields severity.text state.code (beforeTag declared) ++ [('\''.toUInt8, [])]
  have hframe : made.toFrame = ⟨'E'.toUInt8, fields.flatMap encodeErrorField⟩ := by
    have hpayload : made.toFrame.payload = fields.flatMap encodeErrorField := by
      have htail : Utf8.encode [byteChar 0, '\''] = [0, '\''.toUInt8] := by decide
      have hnone : Utf8.encode [] = [] := rfl
      refine (payload_errorResponse _ _ _).trans ?_
      rw [message_messageLength]
      simp [fields, errorFields, encodeErrorField, cstring, Utf8.encode_append, htail, hnone]
    rw [← hpayload]
    rfl
  have hfields : ∀ field ∈ fields, field.1 ≠ 0 ∧ '\x00' ∉ field.2 := by
    have hseverity : '\x00' ∉ severity.text := by cases severity <;> decide
    have hstate : '\x00' ∉ state.code := by cases state <;> decide
    refine List.forall_mem_append.2 ⟨errorFields_unbroken hseverity hstate htold.unbroken, ?_⟩
    exact List.forall_mem_singleton.2 ⟨by decide, List.not_mem_nil⟩
  have hfit : made.toFrame.declaredLength .backend < 2147483648 := by
    have htail : (Utf8.encode [byteChar 0, '\'']).length = 2 := by decide
    have hshort := htold.short
    apply declaredLength_report.2
    rw [message_messageLength, Utf8.encode_append, List.length_append, longestMessage]
    omega
  constructor
  · intro rest
    rw [take, encode, Frame.take_encode (by omega) hfit]
    show Taken.item (ofFrame made.toFrame) rest = _
    rw [hframe, ofFrame_errorFields fields hfields]
    rfl
  · rw [hframe]
    exact read_errorFields fields hfields

theorem readsBack_zeroTag {severity : Severity} {state : SqlState} {e : WireError}
    (h : e.IsZeroTag) : ¬ReadsBack severity state e.message := by
  obtain ⟨declared, rfl⟩ := h
  intro hread
  have hfields := (read_zeroTag severity state declared).2
  rw [hread.fields] at hfields
  have hlength := congrArg (fun fields => fields.1.length) (Except.ok.inj hfields)
  simp [errorFields] at hlength

end Backend

end PgGateway
