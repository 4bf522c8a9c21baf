import PgGateway.Proofs.Wire.RoundTrip

/-!
# The stream of a server is read as it was written

Every message of the server whose strings hold no zero and whose counts fit is read back from its
frame (`Backend.ofFrame_toFrame`). Any list of them, at the end of any buffer and followed by any
bytes, is read back in order by as many calls as there are messages.
-/

namespace PgGateway

open Wire

theorem TransactionStatus.ofByte_byte (status : TransactionStatus) :
    ofByte status.byte = status := by
  cases status <;> rfl

theorem Format.ofNumber_number (format : Format) : ofNumber format.number = format := by
  cases format <;> rfl

namespace Backend

/-- The strings of the message that are ended by a zero byte hold none themselves, and its counts
fit in their fields. -/
def WellFormed : Backend → Prop
  | parameterStatus name value => '\x00' ∉ name ∧ '\x00' ∉ value
  | rowDescription fields => fields.length ≤ 32767 ∧ ∀ f ∈ fields, '\x00' ∉ f.name
  | dataRow values => values.length ≤ 32767
  | errorResponse severity code message => '\x00' ∉ severity ∧ '\x00' ∉ code ∧ '\x00' ∉ message
  | _ => True

instance : DecidablePred WellFormed
  | parameterStatus _ _ => inferInstanceAs (Decidable (_ ∧ _))
  | rowDescription _ => inferInstanceAs (Decidable (_ ∧ _))
  | dataRow _ => inferInstanceAs (Decidable (_ ≤ _))
  | errorResponse _ _ _ => inferInstanceAs (Decidable (_ ∧ _ ∧ _))
  | authenticationOk | backendKeyData _ | readyForQuery _ | commandComplete _
  | emptyQueryResponse => inferInstanceAs (Decidable True)

/-- Puts a message at the end of a buffer. -/
def appendTo (buffer : Bytes) (m : Backend) : Bytes := buffer ++ m.encode

theorem foldl_appendTo (messages : List Backend) (buffer : Bytes) :
    messages.foldl appendTo buffer = buffer ++ encodeAll messages := by
  induction messages generalizing buffer with
  | nil => exact (List.append_nil buffer).symm
  | cons m messages ih =>
    rw [List.foldl_cons, ih, appendTo, List.append_assoc]
    rfl

/-! ## Repeated parts -/

theorem reads_field {f : Field} (h : '\x00' ∉ f.name) :
    Reader.Reads readField (encodeField f) f := by
  have hformat := (Reader.Reads.int16 f.format.number).map
    (f := fun n => ({ f with format := .ofNumber n } : Field))
  rw [Format.ofNumber_number] at hformat
  rw [encodeField]
  simp only [List.append_assoc]
  refine (Reader.Reads.cstring h).bind (Reader.Reads.need (Nat.le_refl 18) ?_)
  refine (Reader.Reads.int32 f.tableOid).bind ?_
  refine (Reader.Reads.int16 f.position).bind ?_
  refine (Reader.Reads.int32 f.oid.number).bind ?_
  refine (Reader.Reads.int16 f.size).bind ?_
  exact (Reader.Reads.int32 f.modifier).bind hformat

theorem reads_value {value : Option Bytes} (h : ∀ data ∈ value, data.length < 2147483648) :
    Reader.Reads readValue (encodeValue value) value := by
  cases value with
  | none => exact ((Reader.Reads.int32 (-1)).bind (Reader.Reads.pure none)).need (Nat.le_refl 4)
  | some data =>
    have hlen : (Int32.ofNat data.length).toInt = data.length :=
      Int32.toInt_ofNat_of_lt (h data rfl)
    -- a negative length would be read as NULL
    have hnonneg : ¬Int32.ofNat data.length < 0 := by
      rw [Int32.lt_iff_toInt_lt, hlen]
      exact Int.not_lt.2 (Int.natCast_nonneg _)
    have hdata : Reader.Reads (do
        Reader.need .value (Int32.ofNat data.length).toInt.toNat
        return some (← Reader.take (Int32.ofNat data.length).toInt.toNat)) data (some data) := by
      rw [hlen, Int.toNat_natCast]
      exact (Reader.Reads.take rfl).map.need (Nat.le_refl _)
    refine Reader.Reads.need (w := encodeValue (some data)) ?_
      ((Reader.Reads.int32 (Int32.ofNat data.length)).bind ?_)
    · rw [encodeValue, List.length_append, length_int32]
      omega
    · rw [if_neg hnonneg]
      exact hdata

theorem reads_counted {α : Type} {part : Part} {r : Reader α} {write : α → Bytes} {items : List α}
    (hcount : items.length ≤ 32767) (h : ∀ a ∈ items, Reader.Reads r (write a) a) :
    Reader.Reads (readCounted part r)
      (int16 (Int16.ofNat items.length) ++ items.flatMap write) items := by
  have hlen : (Int16.ofNat items.length).toInt = items.length :=
    Int16.toInt_ofNat_of_lt (by omega)
  have hitems := Reader.Reads.times items h
  refine Reader.Reads.need ?_ ((Reader.Reads.int16 (Int16.ofNat items.length)).bind ?_)
  · rw [List.length_append, length_int16]
    omega
  · rw [hlen, Int.toNat_natCast]
    exact hitems

/-- The bytes of a field of an error report. -/
def encodeErrorField (field : UInt8 × Text) : Bytes := field.1 :: cstring field.2

/-- Fields of an error report that fill a body are read to its end. -/
theorem run_readErrorFields (fields : List (UInt8 × Text)) (fuel : Nat)
    (hfuel : fields.length ≤ fuel) (h : ∀ field ∈ fields, field.1 ≠ 0 ∧ '\x00' ∉ field.2) :
    (readErrorFields fuel).run (fields.flatMap encodeErrorField) = .ok (fields, []) := by
  induction fields generalizing fuel with
  | nil => cases fuel <;> rfl
  | cons field fields ih =>
    obtain ⟨kind, value⟩ := field
    obtain ⟨hkind, hvalue⟩ := h (kind, value) List.mem_cons_self
    cases fuel with
    | zero => exact absurd hfuel (by simp)
    | succ fuel =>
      have htail := ih fuel (Nat.le_of_succ_le_succ hfuel) fun f hf =>
        h f (List.mem_cons_of_mem _ hf)
      have hget : ∀ bytes : Bytes, (get : Reader Bytes).run bytes = .ok (bytes, bytes) :=
        fun _ => rfl
      rw [List.flatMap_cons, encodeErrorField, List.cons_append, readErrorFields,
        Reader.run_bind (hget _)]
      have hbyte := Reader.Reads.byte kind (cstring value ++ fields.flatMap encodeErrorField)
      have hcstring := Reader.Reads.cstring hvalue (fields.flatMap encodeErrorField)
      refine (Reader.run_bind hbyte).trans ?_
      -- a field of kind zero would be the end of them
      rw [if_neg hkind, Reader.run_bind hcstring, Reader.run_bind htail]
      rfl

/-- As much fuel as there are bytes is enough for them. -/
theorem read_errorFields (fields : List (UInt8 × Text))
    (h : ∀ field ∈ fields, field.1 ≠ 0 ∧ '\x00' ∉ field.2) :
    (readErrorFields (fields.flatMap encodeErrorField).length).run
      (fields.flatMap encodeErrorField) = .ok (fields, []) := by
  apply run_readErrorFields fields _ ?_ h
  clear h
  induction fields with
  | nil => exact Nat.zero_le _
  | cons field fields ih =>
    rw [List.flatMap_cons, List.length_append, encodeErrorField, List.length_cons,
      List.length_cons]
    omega

/-! ## Messages -/

/-- A message is read back from a payload that its reader reads. -/
theorem ofFrame_of_reads {m : Backend} {frame : Frame}
    (h : Reader.Reads (readPayload frame.tag) frame.payload m) : ofFrame frame = .ok m := by
  have hrun := h []
  rw [List.append_nil] at hrun
  rw [ofFrame, hrun]
  rfl

theorem ofFrame_rowDescription {fields : List Field} (hcount : fields.length ≤ 32767)
    (hnames : ∀ f ∈ fields, '\x00' ∉ f.name) :
    ofFrame (rowDescription fields).toFrame = .ok (rowDescription fields) :=
  ofFrame_of_reads (reads_counted hcount fun f hf => reads_field (hnames f hf)).map

/-- The length of every value of a row fits in the field in front of it. -/
def ShortValues : Backend → Prop
  | dataRow values => ∀ value ∈ values, ∀ data ∈ value, data.length < 2147483648
  | _ => True

/-- A value is part of its row, so it is short if the row fits. -/
theorem shortValues_of_fit {m : Backend}
    (hfit : m.toFrame.declaredLength .backend < 2147483648) : m.ShortValues := by
  cases m with
  | dataRow values =>
    rintro value hvalue data ⟨⟩
    have hlen := (List.sublist_flatten_of_mem
      (List.mem_map_of_mem (f := encodeValue) hvalue)).length_le
    simp only [toFrame, Frame.declaredLength, List.length_append, List.flatMap_def] at hfit
    rw [encodeValue, List.length_append] at hlen
    omega
  | authenticationOk | parameterStatus | backendKeyData | readyForQuery | rowDescription
  | commandComplete | emptyQueryResponse | errorResponse => trivial

theorem ofFrame_dataRow {values : List (Option Bytes)} (hcount : values.length ≤ 32767)
    (hshort : (dataRow values).ShortValues) :
    ofFrame (dataRow values).toFrame = .ok (dataRow values) :=
  ofFrame_of_reads (reads_counted hcount fun value hvalue => reads_value (hshort value hvalue)).map

/-- The fields of an error report, in the order in which they are written. -/
def errorFields (severity code message : Text) : List (UInt8 × Text) :=
  [('S'.toUInt8, severity), ('V'.toUInt8, severity), ('C'.toUInt8, code), ('M'.toUInt8, message)]

theorem payload_errorResponse (severity code message : Text) :
    (errorResponse severity code message).toFrame.payload =
      (errorFields severity code message).flatMap encodeErrorField := by
  simp [toFrame, errorFields, encodeErrorField]

/-- An error report is read from a body that its fields fill, whichever they are. -/
theorem ofFrame_errorFields (fields : List (UInt8 × Text))
    (h : ∀ field ∈ fields, field.1 ≠ 0 ∧ '\x00' ∉ field.2) :
    ofFrame ⟨'E'.toUInt8, fields.flatMap encodeErrorField⟩ =
      .ok (errorResponse (lastField fields 'S') (lastField fields 'C') (lastField fields 'M')) := by
  have hrun := read_errorFields fields h
  have hget : (get : Reader Bytes).run (fields.flatMap encodeErrorField) = .ok (_, _) := rfl
  rw [ofFrame]
  show Except.map _ ((get >>= fun bytes => readErrorFields bytes.length >>= _ : Reader Backend).run
    _) = _
  rw [Reader.run_bind hget, Reader.run_bind hrun]
  rfl

theorem errorFields_unbroken {severity code message : Text} (hseverity : '\x00' ∉ severity)
    (hcode : '\x00' ∉ code) (hmessage : '\x00' ∉ message) :
    ∀ field ∈ errorFields severity code message, field.1 ≠ 0 ∧ '\x00' ∉ field.2 := by
  simp only [errorFields, List.forall_mem_cons, List.not_mem_nil, false_implies, implies_true,
    and_true]
  exact ⟨⟨by decide, hseverity⟩, ⟨by decide, hseverity⟩, ⟨by decide, hcode⟩, by decide, hmessage⟩

theorem ofFrame_errorResponse {severity code message : Text} (hseverity : '\x00' ∉ severity)
    (hcode : '\x00' ∉ code) (hmessage : '\x00' ∉ message) :
    ofFrame (errorResponse severity code message).toFrame =
      .ok (errorResponse severity code message) := by
  have hfields := errorFields_unbroken hseverity hcode hmessage
  have hframe : (errorResponse severity code message).toFrame =
      ⟨'E'.toUInt8, (errorFields severity code message).flatMap encodeErrorField⟩ := by
    rw [← payload_errorResponse]
    rfl
  rw [hframe]
  exact ofFrame_errorFields _ hfields

/-- **Messages of the server.** A well-formed message is read back from its frame. -/
theorem ofFrame_toFrame {m : Backend} (wellFormed : m.WellFormed) (hshort : m.ShortValues) :
    ofFrame m.toFrame = .ok m := by
  cases m with
  | authenticationOk => rfl
  | parameterStatus name value =>
    exact ofFrame_of_reads
      ((Reader.Reads.cstring wellFormed.1).bind (Reader.Reads.cstring wellFormed.2).map)
  | backendKeyData key =>
    refine ofFrame_of_reads (Reader.Reads.need (Nat.le_refl 8) ?_)
    exact (Reader.Reads.int32 key.processId).bind (Reader.Reads.int32 key.secretKey).map
  | readyForQuery status =>
    have hstatus := (Reader.Reads.byte status.byte).map
      (f := fun b => readyForQuery (.ofByte b))
    rw [TransactionStatus.ofByte_byte] at hstatus
    exact ofFrame_of_reads (hstatus.need (Nat.le_refl 1))
  | rowDescription fields => exact ofFrame_rowDescription wellFormed.1 wellFormed.2
  | dataRow values => exact ofFrame_dataRow wellFormed hshort
  | commandComplete tag =>
    show Except.ok (commandComplete (Utf8.decode (Utf8.encode tag))) = _
    rw [Utf8.decode_encode]
  | emptyQueryResponse => rfl
  | errorResponse severity code message =>
    exact ofFrame_errorResponse wellFormed.1 wellFormed.2.1 wellFormed.2.2

/-- A well-formed message is taken off a buffer whatever follows it. -/
theorem take_encode {m : Backend} (wellFormed : m.WellFormed)
    (hfit : m.toFrame.declaredLength .backend < 2147483648) (rest : Bytes) :
    take (m.encode ++ rest) = ⟨.ok (some m), rest⟩ := by
  rw [take, encode, Frame.take_encode (by omega) hfit]
  show Taken.item (ofFrame m.toFrame) rest = _
  rw [ofFrame_toFrame wellFormed (shortValues_of_fit hfit)]
  rfl

/-- **The stream of a server is read as it was written.** Messages put at the end of a buffer leave
it as it was. Each takes as many bytes as it declares and one for its tag, and its length field
tells so. Read one after the other, with any bytes behind them, they come back in order, and those
bytes are left. -/
theorem read_written_stream (messages : List Backend) (before after : Bytes)
    (wellFormed : ∀ m ∈ messages, m.WellFormed)
    (fits : ∀ m ∈ messages, m.toFrame.declaredLength .backend ≤ 2147483647) :
    messages.foldl appendTo before = before ++ encodeAll messages ∧
      (∀ m ∈ messages, m.encode.length = 1 + m.toFrame.declaredLength .backend ∧
        number ((m.encode.drop 1).take 4) =
          4 + m.toFrame.payload.length + Origin.backend.trailer m.toFrame.tag) ∧
      Taken.items take messages.length (encodeAll messages ++ after) = some (messages, after) := by
  refine ⟨foldl_appendTo messages before, fun m hm => ⟨?_, ?_⟩, ?_⟩
  · exact Frame.length_encode .backend m.toFrame
  · exact Frame.number_encode (Nat.lt_succ_of_le (fits m hm))
  · exact Taken.items_written messages after fun m hm rest =>
      take_encode (wellFormed m hm) (Nat.lt_succ_of_le (fits m hm)) rest

/-- Messages of every shape, with payloads that end in zero bytes of their own. -/
def mixedStream : List Backend :=
  [authenticationOk, parameterStatus "TimeZone" "", backendKeyData ⟨7, -1⟩,
    rowDescription [Field.plain "é" 1 Oid.bytea, Field.plain "" (-1) ⟨-5⟩],
    dataRow [some [0, 0], none, some []], commandComplete ['\x00'], emptyQueryResponse,
    errorResponse "ERROR" "42601" "", readyForQuery .failed]

theorem read_written_mixedStream :
    (∀ m ∈ mixedStream, m.WellFormed) ∧
      (∀ m ∈ mixedStream, m.toFrame.declaredLength .backend ≤ 2147483647) ∧
      Taken.items take 9 (encodeAll mixedStream ++ ['Z'.toUInt8, 0]) =
        some (mixedStream, ['Z'.toUInt8, 0]) :=
  have wellFormed : ∀ m ∈ mixedStream, m.WellFormed := by decide
  have fits : ∀ m ∈ mixedStream, m.toFrame.declaredLength .backend ≤ 2147483647 := by decide
  ⟨wellFormed, fits, (read_written_stream mixedStream [0] ['Z'.toUInt8, 0] wellFormed fits).2.2⟩

end Backend

end PgGateway
