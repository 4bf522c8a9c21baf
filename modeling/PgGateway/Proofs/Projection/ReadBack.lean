import PgGateway.Proofs.Binary64.ReadBack
import PgGateway.Proofs.Projection.Legal
import PgGateway.Proofs.Wire.ServerStream

/-!
# Results survive the wire

A client that takes messages off what it was sent, until nothing is left, gets the description of
the columns and the rows as they were projected (`Backend.readAll_encodeAll`). From what stands in a
row it recovers the value, if it knows of which class the value is (`Value.RecoveredFrom`): nothing
stands for NULL and for NULL only, and integers, texts and byte strings are read by readers of their
own. So a whole result is read back from its bytes (`Projection.result_read_back`).
-/

namespace PgGateway

open Wire

/-! ## Texts of values -/

namespace Numeral

/-- Reads an integer of eight bytes. -/
def int64? (t : Text) : Option Int64 :=
  (int? t).bind fun i => if -2 ^ 63 ≤ i ∧ i < 2 ^ 63 then some (Int64.ofInt i) else none

theorem int64?_ofInt (i : Int64) : int64? (ofInt i.toInt) = some i := by
  rw [int64?, int?_ofInt, Option.bind_some, if_pos ⟨i.le_toInt, i.toInt_lt⟩, Int64.ofInt_toInt]

/-- The number that a hexadecimal digit stands for. -/
def hexDigit? (c : Char) : Option Nat :=
  if c.isDigit then some (c.toNat - '0'.toNat)
  else if 'a' ≤ c ∧ c ≤ 'f' then some (c.toNat - 'a'.toNat + 10)
  else none

/-- Reads two hexadecimal digits for each byte. -/
def unhex? : Text → Option Bytes
  | [] => some []
  | [_] => none
  | c :: d :: rest =>
    match hexDigit? c, hexDigit? d with
    | some high, some low => (unhex? rest).map (UInt8.ofNat (high * 16 + low) :: ·)
    | _, _ => none

/-- Reads a byte string: hexadecimal digits behind a backslash and an `x`. -/
def byteString? : Text → Option Bytes
  | '\\' :: 'x' :: digits => unhex? digits
  | _ => none

theorem hexDigit?_digitChar : ∀ n < 16, hexDigit? (Nat.digitChar n) = some n := by decide

theorem unhex?_hex (bytes : Bytes) : unhex? (hex bytes) = some bytes := by
  induction bytes with
  | nil => rfl
  | cons b bytes ih =>
    have hb := b.toNat_lt
    have hhigh := hexDigit?_digitChar (b.toNat / 16) (by omega)
    have hlow := hexDigit?_digitChar (b.toNat % 16) (by omega)
    have hwhole : b.toNat / 16 * 16 + b.toNat % 16 = b.toNat := by omega
    show unhex? (Nat.digitChar (b.toNat / 16) :: Nat.digitChar (b.toNat % 16) :: hex bytes) = _
    rw [unhex?, hhigh, hlow]
    show (unhex? (hex bytes)).map _ = _
    rw [ih, hwhole, UInt8.ofNat_toNat]
    rfl

theorem byteString?_bytea (bytes : Bytes) : byteString? (bytea bytes) = some bytes :=
  unhex?_hex bytes

end Numeral

/-! ## Values -/

/-- The classes of values. -/
inductive StorageClass
  | null
  | integer
  | real
  | text
  | blob
deriving DecidableEq, Repr

/-- The class that the engine keeps a value in. -/
def Value.storageClass : Value → StorageClass
  | null => .null
  | integer _ => .integer
  | real _ => .real
  | text _ => .text
  | blob _ => .blob

/-- Reads a value of a class from what stands for it in a row: integers by their decimal digits,
texts by their bytes, and byte strings by their hexadecimal digits. Doubles have a reader of their
own kind, because of rounding (`Binary64.ReadsAs`). -/
def StorageClass.read? : StorageClass → Option Bytes → Option Value
  | null, none => some .null
  | integer, some bytes => (Numeral.int64? (Utf8.decode bytes)).map .integer
  | text, some bytes => some (.text (Utf8.decode bytes))
  | blob, some bytes => (Numeral.byteString? (Utf8.decode bytes)).map .blob
  | _, _ => none

/-- What stands in a row tells whether the value is NULL, and gives the value to a client that knows
its class. -/
structure Value.RecoveredFrom (value : Value) (sent : Option Bytes) : Prop where
  missing : sent = none ↔ value = .null
  read : value.storageClass ≠ .real → value.storageClass.read? sent = some value
  utf8 : ∀ t, value = .text t → sent = some (Utf8.encode t)
  real : ∀ x, value = .real x → ∃ t, sent = some (Utf8.encode t) ∧ Binary64.ReadsAs t x ∧
    (x.isNaN = false → ∀ y, Binary64.ReadsAs t y → y = x)

theorem Value.recoveredFrom_wireText (value : Value) : value.RecoveredFrom value.wireText where
  missing := by cases value <;> simp [wireText]
  read hclass := by
    cases value with
    | null => rfl
    | integer i =>
      show (Numeral.int64? (Utf8.decode (Utf8.encode (Numeral.ofInt i.toInt)))).map _ = _
      rw [Utf8.decode_encode, Numeral.int64?_ofInt]
      rfl
    | real x => exact absurd rfl hclass
    | text t =>
      show some (Value.text (Utf8.decode (Utf8.encode t))) = _
      rw [Utf8.decode_encode]
    | blob bytes =>
      show (Numeral.byteString? (Utf8.decode (Utf8.encode (Numeral.bytea bytes)))).map _ = _
      rw [Utf8.decode_encode, Numeral.byteString?_bytea]
      rfl
  utf8 := by
    rintro t rfl
    rfl
  real := by
    rintro x rfl
    exact ⟨x.text, rfl, x.readsAs_text, fun hnumber y => Binary64.eq_of_readsAs_text hnumber⟩

/-! ## Messages -/

namespace Backend

/-- A message that was taken off leaves a shorter buffer. -/
theorem take_length_lt {buffer rest : Bytes} {m : Backend}
    (h : take buffer = ⟨.ok (some m), rest⟩) : rest.length < buffer.length := by
  obtain ⟨f, hf⟩ := Taken.bind_eq h
  exact Frame.take_length_lt hf

/-- Takes messages off the front of a buffer until it is used up. There is no answer if something is
left that no message is taken off. -/
def readAll (buffer : Bytes) : Option (List Backend) :=
  if buffer.isEmpty then some []
  else
    match _h : take buffer with
    | ⟨.ok (some m), rest⟩ => (readAll rest).map (m :: ·)
    | _ => none
termination_by buffer.length
decreasing_by exact take_length_lt _h

theorem readAll_of_take {buffer rest : Bytes} {m : Backend}
    (h : take buffer = ⟨.ok (some m), rest⟩) : readAll buffer = (readAll rest).map (m :: ·) := by
  have hsome : ¬buffer.isEmpty = true := by
    rw [List.isEmpty_iff]
    rintro rfl
    cases h
  rw [readAll, if_neg hsome]
  split
  · next m' rest' h' =>
    rw [h] at h'
    cases h'
    rfl
  · next hno => exact absurd h (hno m rest)

/-- **Messages are read until they are used up**, and come back in order. -/
theorem readAll_encodeAll {messages : List Backend} (wellFormed : ∀ m ∈ messages, m.WellFormed)
    (fits : ∀ m ∈ messages, m.toFrame.declaredLength .backend ≤ 2147483647) :
    readAll (encodeAll messages) = some messages := by
  induction messages with
  | nil =>
    rw [readAll]
    rfl
  | cons m messages ih =>
    rw [List.forall_mem_cons] at wellFormed fits
    have htake := take_encode wellFormed.1 (Nat.lt_succ_of_le fits.1) (encodeAll messages)
    show readAll (m.encode ++ encodeAll messages) = _
    rw [readAll_of_take htake, ih wellFormed.2 fits.2]
    rfl

end Backend

/-! ## Results -/

namespace ResultSet

variable (r : ResultSet) (table : Option TableInfo)

@[simp]
theorem length_fields : (r.fields table).length = r.columns.length := by
  simp [fields]

theorem names_fields : (r.fields table).map (·.name) = r.columns := by
  unfold fields
  rw [List.map_map]
  exact List.zipIdx_map_fst 0 r.columns

/-- Columns are numbered from one, as long as the numbers fit. -/
theorem positions_fields (hcount : r.columns.length ≤ 32767) :
    (r.fields table).map (fun field => field.position.toInt) =
      (List.range r.columns.length).map fun place : Nat => (place : Int) + 1 := by
  apply List.ext_getElem
  · simp
  · intro place hfield _
    rw [List.length_map, length_fields] at hfield
    have hposition : (Int16.ofNat (place + 1)).toInt = ((place + 1 : Nat) : Int) :=
      Int16.toInt_ofNat_of_lt (by omega)
    simpa [fields, Field.plain] using hposition

theorem format_fields : ∀ field ∈ r.fields table, field.format = .text := by
  intro field hfield
  obtain ⟨_, _, rfl⟩ := List.mem_map.1 hfield
  rfl

end ResultSet

namespace Projection

variable {r : ResultSet} {source : Option Text} {registry : Registry}

theorem wellFormed_of_mem_messages (hcount : r.columns.length ≤ 32767) (hwidth : r.FullWidth)
    (hnames : ∀ name ∈ r.columns, '\x00' ∉ name) :
    ∀ m ∈ (ofResult r source registry).messages, m.WellFormed := by
  refine List.forall_mem_cons.2 ⟨⟨?_, fun field hfield => ?_⟩, fun m hm => ?_⟩
  · exact (ResultSet.length_fields r _).trans_le hcount
  · exact hnames _ (ResultSet.names_fields r _ ▸ List.mem_map_of_mem hfield)
  · obtain ⟨row, hrow, rfl⟩ := List.mem_map.1 hm
    obtain ⟨values, hvalues, rfl⟩ := List.mem_map.1 hrow
    show (values.map Value.wireText).length ≤ 32767
    rw [List.length_map, hwidth values hvalues]
    exact hcount

/-- **A result survives projection and the wire.** The bytes of a projection are read, until they
are used up, as one description of the columns and one row for each row of the result, in order.
The description tells the names of the columns, numbers them from one and announces texts. Each
value is recovered from what stands for it in its row. -/
theorem result_read_back (r : ResultSet) (source : Option Text) (registry : Registry)
    (hcount : r.columns.length ≤ 32767) (hwidth : r.FullWidth)
    (hnames : ∀ name ∈ r.columns, '\x00' ∉ name)
    (hfits : ∀ m ∈ (ofResult r source registry).messages,
      m.toFrame.declaredLength .backend ≤ 2147483647) :
    ∃ fields rows,
      Backend.readAll (Backend.encodeAll (ofResult r source registry).messages) =
        some (.rowDescription fields :: rows.map .dataRow) ∧
      fields.map (·.name) = r.columns ∧
      fields.map (fun field => field.position.toInt) =
        (List.range r.columns.length).map (fun place : Nat => (place : Int) + 1) ∧
      (∀ field ∈ fields, field.format = .text) ∧
      List.Forall₂ (List.Forall₂ Value.RecoveredFrom) r.rows rows := by
  refine ⟨_, _, Backend.readAll_encodeAll (wellFormed_of_mem_messages hcount hwidth hnames) hfits,
    ResultSet.names_fields r _, ResultSet.positions_fields r _ hcount,
    ResultSet.format_fields r _, ?_⟩
  refine List.forall₂_map_right_iff.2 (List.forall₂_same.2 fun row _ => ?_)
  exact List.forall₂_map_right_iff.2
    (List.forall₂_same.2 fun value _ => value.recoveredFrom_wireText)

/-- NULL beside an empty text, and the least integer beside a byte string. -/
def contrasts : ResultSet :=
  { columns := ["n", ""], declared := [none], changed := 0
    rows := [[.null, .text []], [.integer (-9223372036854775808), .blob [0, 0xFF]],
      [.real ⟨0x8000000000000000⟩, .text "\x00é"]] }

theorem result_read_back_contrasts :
    contrasts.FullWidth ∧ ∃ fields rows,
      Backend.readAll (Backend.encodeAll (ofResult contrasts none .empty).messages) =
        some (.rowDescription fields :: rows.map .dataRow) ∧
      fields.map (·.name) = ["n".toList, []] ∧
      fields.map (fun field => field.position.toInt) = [1, 2] ∧
      (∀ field ∈ fields, field.format = .text) ∧
      List.Forall₂ (List.Forall₂ Value.RecoveredFrom) contrasts.rows rows := by
  have hwidth : contrasts.FullWidth := by unfold ResultSet.FullWidth; decide
  exact ⟨hwidth, result_read_back contrasts none .empty (by decide) hwidth (by decide)
    (by decide +kernel)⟩

end Projection

end PgGateway
