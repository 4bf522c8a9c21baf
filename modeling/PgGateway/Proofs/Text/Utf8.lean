import Mathlib.Algebra.Group.Nat.Defs
import Mathlib.Data.List.TakeWhile
import PgGateway.Text.Numeral

/-!
# Texts survive as bytes

Reading the bytes of a text gives the text back (`decode_encode`), and the bytes hold a zero exactly
when the text holds the character of that number (`zero_mem_encode`). Both go through one
character, whose bytes are a first byte and up to three that carry six bits each. Bytes that are not
UTF-8 are not read as a character of number zero either (`zero_not_mem_decode`).
-/

namespace PgGateway.Utf8

/-! ## The first byte of a character -/

theorem lead_one : ∀ k < 128, lead (UInt8.ofNat k) = ([Char.ofNat k], none) := by decide

theorem lead_two : ∀ k < 32, 2 ≤ k →
    lead (UInt8.ofNat (k + 192)) = ([], some ⟨k, 0x80, 0xBF, 0⟩) := by decide

/-- The second byte of three is held to a smaller range after two of the first bytes. -/
theorem lead_three : ∀ k < 16, lead (UInt8.ofNat (k + 224)) =
    ([], some ⟨k, if k = 0 then 0xA0 else 0x80, if k = 13 then 0x9F else 0xBF, 1⟩) := by decide

/-- The second byte of four is held to a smaller range after two of the first bytes. -/
theorem lead_four : ∀ k < 5, lead (UInt8.ofNat (k + 240)) =
    ([], some ⟨k, if k = 0 then 0x90 else 0x80, if k = 4 then 0x8F else 0xBF, 2⟩) := by decide

/-! ## The bytes after it -/

theorem toNat_tail {k : Nat} (hk : k < 64) : (UInt8.ofNat (k + 128)).toNat = k + 128 := by
  rw [UInt8.toNat_ofNat']
  omega

theorem decodeFrom_last {bits k : Nat} (hk : k < 64) (bs : Bytes) :
    decodeFrom (some ⟨bits, 0x80, 0xBF, 0⟩) (UInt8.ofNat (k + 128) :: bs) =
      Char.ofNat (bits * 64 + k) :: decodeFrom none bs := by
  have hlow : (0x80 : UInt8).toNat ≤ (UInt8.ofNat (k + 128)).toNat := by
    rw [toNat_tail hk]
    exact Nat.le_add_left 128 k
  have hhigh : (UInt8.ofNat (k + 128)).toNat ≤ (0xBF : UInt8).toNat := by
    rw [toNat_tail hk]
    exact Nat.add_le_add_right (Nat.le_of_lt_succ hk) 128
  rw [decodeFrom, if_pos ⟨UInt8.le_iff_toNat_le.2 hlow, UInt8.le_iff_toNat_le.2 hhigh⟩]
  simp only [toNat_tail hk, Nat.add_sub_cancel]

theorem decodeFrom_next {bits k n : Nat} {low high : UInt8} (hk : k < 64)
    (hlow : low.toNat ≤ k + 128) (hhigh : k + 128 ≤ high.toNat) (bs : Bytes) :
    decodeFrom (some ⟨bits, low, high, n + 1⟩) (UInt8.ofNat (k + 128) :: bs) =
      decodeFrom (some ⟨bits * 64 + k, 0x80, 0xBF, n⟩) bs := by
  rw [← toNat_tail hk] at hlow hhigh
  rw [decodeFrom, if_pos ⟨UInt8.le_iff_toNat_le.2 hlow, UInt8.le_iff_toNat_le.2 hhigh⟩]
  simp only [toNat_tail hk, Nat.add_sub_cancel]

/-! ## Characters and texts -/

theorem decodeFrom_encodeChar (c : Char) (bs : Bytes) :
    decodeFrom none (String.utf8EncodeChar c ++ bs) = c :: decodeFrom none bs := by
  have hvalid : c.toNat < 0xD800 ∨ 0xDFFF < c.toNat ∧ c.toNat < 0x110000 := c.valid
  have hv : c.val.toNat = c.toNat := rfl
  unfold String.utf8EncodeChar
  simp only [hv]
  split
  · next h1 =>
    rw [List.singleton_append, decodeFrom, lead_one _ (by omega), Char.ofNat_toNat]
    rfl
  · split
    · next h1 h2 =>
      have hk : c.toNat / 64 % 32 = c.toNat / 64 := by omega
      simp only [List.cons_append, List.nil_append]
      rw [decodeFrom, hk, lead_two _ (by omega) (by omega), List.nil_append,
        decodeFrom_last (by omega),
        show c.toNat / 64 * 64 + c.toNat % 64 = c.toNat from by omega, Char.ofNat_toNat]
    · split
      · next h1 h2 h3 =>
        -- the first bytes E0 and ED narrow the range of the byte behind them
        have hk : c.toNat / 4096 % 16 = c.toNat / 4096 := by omega
        simp only [List.cons_append, List.nil_append]
        rw [decodeFrom, hk, lead_three _ (by omega), List.nil_append,
          decodeFrom_next (by omega) (by split <;> simp; omega) (by split <;> simp <;> omega),
          decodeFrom_last (by omega),
          show (c.toNat / 4096 * 64 + c.toNat / 64 % 64) * 64 + c.toNat % 64 = c.toNat from by
            omega, Char.ofNat_toNat]
      · next h1 h2 h3 =>
        -- and so do F0 and F4
        have hk : c.toNat / 262144 % 8 = c.toNat / 262144 := by omega
        simp only [List.cons_append, List.nil_append]
        rw [decodeFrom, hk, lead_four _ (by omega), List.nil_append,
          decodeFrom_next (by omega) (by split <;> simp; omega) (by split <;> simp <;> omega),
          decodeFrom_next (by omega) (by simp) (by simp; omega),
          decodeFrom_last (by omega),
          show ((c.toNat / 262144 * 64 + c.toNat / 4096 % 64) * 64 + c.toNat / 64 % 64) * 64 +
            c.toNat % 64 = c.toNat from by omega, Char.ofNat_toNat]

/-- **Texts survive as bytes.** Reading the bytes of a text gives the text back. -/
@[simp]
theorem decode_encode (t : Text) : decode (encode t) = t := by
  unfold decode encode
  induction t with
  | nil => rfl
  | cons c t ih => rw [List.flatMap_cons, decodeFrom_encodeChar, ih]

theorem encode_append (t u : Text) : encode (t ++ u) = encode t ++ encode u := List.flatMap_append

theorem zero_mem_encodeChar {c : Char} : 0 ∈ String.utf8EncodeChar c ↔ c.toNat = 0 := by
  have hv : c.val.toNat = c.toNat := rfl
  have hzero : ∀ n, (0 : UInt8) = UInt8.ofNat n ↔ n % 256 = 0 := by
    intro n
    rw [← UInt8.toNat_inj, UInt8.toNat_ofNat', eq_comm]
    rfl
  unfold String.utf8EncodeChar
  simp only [hv]
  repeat' split
  all_goals
    simp only [List.mem_cons, List.not_mem_nil, or_false, hzero]
    omega

/-- The bytes of a text hold a zero exactly when the text holds the character of that number. -/
theorem zero_mem_encode {t : Text} : 0 ∈ encode t ↔ '\x00' ∈ t := by
  have hnul : ∀ c : Char, c.toNat = 0 ↔ c = '\x00' := fun c =>
    ⟨fun h => Char.toNat_inj.1 h, fun h => h ▸ rfl⟩
  simp only [encode, List.mem_flatMap, zero_mem_encodeChar, hnul]
  exact ⟨fun ⟨_, hmem, h⟩ => h ▸ hmem, fun h => ⟨_, h, rfl⟩⟩

/-- A text without that character is written in bytes without a zero. -/
theorem encode_ne_zero {t : Text} (h : '\x00' ∉ t) : ∀ b ∈ encode t, (b != 0) = true := by
  intro b hb
  rw [bne_iff_ne]
  rintro rfl
  exact h (zero_mem_encode.1 hb)

/-! ## Texts of any bytes -/

/-- What holds of the numbers below 256 holds of every byte. -/
theorem forall_byte {P : UInt8 → Prop} (h : ∀ n < 256, P (UInt8.ofNat n)) (b : UInt8) : P b := by
  have hb := h b.toNat b.toNat_lt
  rwa [UInt8.ofNat_toNat] at hb

/-- The characters that the one begun can come to lie between zero and the surrogates, or between
the surrogates and the last character. -/
structure Begun.InRange (p : Begun) : Prop where
  pos : 0 < p.bits * 64 + (p.low.toNat - 0x80)
  valid : (p.bits * 64 + (p.high.toNat - 0x80) + 1) * 64 ^ p.owed ≤ 0xD800 ∨
    0xE000 ≤ (p.bits * 64 + (p.low.toNat - 0x80)) * 64 ^ p.owed ∧
      (p.bits * 64 + (p.high.toNat - 0x80) + 1) * 64 ^ p.owed ≤ 0x110000

instance (p : Begun) : Decidable p.InRange :=
  decidable_of_iff (_ ∧ (_ ∨ _)) ⟨fun ⟨pos, valid⟩ => ⟨pos, valid⟩,
    fun ⟨pos, valid⟩ => ⟨pos, valid⟩⟩

theorem inRange_lead (b : UInt8) : ∀ p ∈ (lead b).2, p.InRange := by
  apply forall_byte (P := fun b => ∀ p ∈ (lead b).2, p.InRange)
  decide +kernel

variable {p : Begun} {b : UInt8}

/-- The value of the bits with the next byte lies between those with the bounds of that byte. -/
theorem Begun.bits_between (hlow : p.low ≤ b) (hhigh : b ≤ p.high) :
    p.bits * 64 + (p.low.toNat - 0x80) ≤ p.bits * 64 + (b.toNat - 0x80) ∧
      p.bits * 64 + (b.toNat - 0x80) ≤ p.bits * 64 + (p.high.toNat - 0x80) := by
  have hlow := UInt8.le_iff_toNat_le.1 hlow
  have hhigh := UInt8.le_iff_toNat_le.1 hhigh
  omega

theorem Begun.InRange.goesOn (h : p.InRange) (hlow : p.low ≤ b) (hhigh : b ≤ p.high) {n : Nat}
    (howed : p.owed = n + 1) :
    InRange ⟨p.bits * 64 + (b.toNat - 0x80), 0x80, 0xBF, n⟩ := by
  obtain ⟨hleast, hmost⟩ := Begun.bits_between hlow hhigh
  have hpos := h.pos
  have hvalid := h.valid
  clear hlow hhigh
  generalize p.bits * 64 + (b.toNat - 0x80) = bits at *
  generalize p.bits * 64 + (p.low.toNat - 0x80) = least at *
  generalize p.bits * 64 + (p.high.toNat - 0x80) = most at *
  rw [howed, Nat.pow_succ'] at hvalid
  have hfirst : least * (64 * 64 ^ n) ≤ bits * 64 * 64 ^ n := by
    rw [Nat.mul_assoc]
    exact Nat.mul_le_mul_right _ hleast
  have hlast : (bits * 64 + 63 + 1) * 64 ^ n ≤ (most + 1) * (64 * 64 ^ n) := by
    rw [← Nat.mul_assoc]
    exact Nat.mul_le_mul_right _ (by omega)
  have hlow : (0x80 : UInt8).toNat - 0x80 = 0 := by decide
  have hhigh : (0xBF : UInt8).toNat - 0x80 = 63 := by decide
  constructor
  · dsimp only
    rw [hlow]
    omega
  · dsimp only
    rw [hlow, hhigh, Nat.add_zero]
    rcases hvalid with hbefore | ⟨hbehind, hend⟩
    · exact .inl (Nat.le_trans hlast hbefore)
    · exact .inr ⟨Nat.le_trans hbehind hfirst, Nat.le_trans hlast hend⟩

theorem Begun.InRange.ofNat_ne_zero (h : p.InRange) (hlow : p.low ≤ b) (hhigh : b ≤ p.high)
    (howed : p.owed = 0) : Char.ofNat (p.bits * 64 + (b.toNat - 0x80)) ≠ '\x00' := by
  obtain ⟨hleast, hmost⟩ := Begun.bits_between hlow hhigh
  have hpos := h.pos
  have hvalid := h.valid
  rw [howed, Nat.pow_zero, Nat.mul_one, Nat.mul_one] at hvalid
  intro hzero
  have htoNat := congrArg Char.toNat hzero
  rw [Char.ofNat, dif_pos (by unfold Nat.isValidChar; omega)] at htoNat
  have hbits : p.bits * 64 + (b.toNat - 0x80) = 0 := htoNat
  omega

/-- What the first byte of a character is read as, if it is complete, is no zero but for the byte
zero. -/
theorem lead_ne_zero (hb : b ≠ 0) : '\x00' ∉ (lead b).1 := by
  revert hb
  apply forall_byte (P := fun b => b ≠ 0 → '\x00' ∉ (lead b).1)
  decide +kernel

theorem zero_not_mem_decodeFrom {bytes : Bytes} (h : 0 ∉ bytes) {begun : Option Begun}
    (hbegun : ∀ p ∈ begun, p.InRange) : '\x00' ∉ decodeFrom begun bytes := by
  have hreplacement : '\x00' ≠ replacement := by decide
  induction bytes generalizing begun with
  | nil =>
    cases begun with
    | none => exact List.not_mem_nil
    | some p => simpa [decodeFrom] using hreplacement
  | cons b bytes ih =>
    obtain ⟨hb, hbytes⟩ := List.ne_and_not_mem_of_not_mem_cons h
    have hafresh : '\x00' ∉ (lead b).1 ++ decodeFrom (lead b).2 bytes :=
      fun hmem => (List.mem_append.1 hmem).elim (lead_ne_zero hb.symm)
        (ih hbytes (inRange_lead b))
    cases begun with
    | none => exact hafresh
    | some p =>
      have hp := hbegun p rfl
      rw [decodeFrom]
      split
      · next hrange =>
        obtain ⟨hlow, hhigh⟩ := hrange
        dsimp only
        split
        · next howed =>
          exact List.not_mem_cons_of_ne_of_not_mem (hp.ofNat_ne_zero hlow hhigh howed).symm
            (ih hbytes nofun)
        · next n howed =>
          exact ih hbytes fun q hq => Option.mem_some_iff.1 hq ▸ hp.goesOn hlow hhigh howed
      · exact List.not_mem_cons_of_ne_of_not_mem hreplacement hafresh

/-- **Bytes without a zero are read as a text without the character of that number**, well-formed or
not. -/
theorem zero_not_mem_decode {bytes : Bytes} (h : 0 ∉ bytes) : '\x00' ∉ decode bytes :=
  zero_not_mem_decodeFrom h nofun

/-- A text that ends before the first zero holds none. -/
theorem zero_not_mem_decode_takeWhile (bytes : Bytes) :
    '\x00' ∉ decode (bytes.takeWhile (· != 0)) := by
  refine zero_not_mem_decode fun hmem => ?_
  have hzero := List.mem_takeWhile_imp hmem
  cases hzero

theorem length_decodeFrom_le (begun : Option Begun) (bytes : Bytes) :
    (decodeFrom begun bytes).length ≤ bytes.length + begun.toList.length := by
  have hlead : ∀ b, (lead b).1.length + (lead b).2.toList.length = 1 :=
    forall_byte (by decide +kernel)
  induction bytes generalizing begun with
  | nil => cases begun <;> simp [decodeFrom]
  | cons b bytes ih =>
    have hfirst := hlead b
    have hrest := ih (lead b).2
    cases begun with
    | none =>
      rw [decodeFrom, List.length_append, List.length_cons]
      omega
    | some p =>
      rw [decodeFrom]
      split
      · dsimp only
        split
        · have hlater := ih none
          simp only [List.length_cons, Option.toList] at hlater ⊢
          omega
        · next n _ =>
          refine Nat.le_trans (ih (some _)) ?_
          simp only [Option.toList, List.length_cons]
          omega
      · simp only [List.cons_append, List.length_cons, List.length_append, Option.toList]
        omega

/-- No byte is read as more than one character. -/
theorem length_decode_le (bytes : Bytes) : (decode bytes).length ≤ bytes.length :=
  length_decodeFrom_le none bytes

theorem length_encode (t : Text) : (encode t).length = Text.byteLength t := by
  induction t with
  | nil => rfl
  | cons c t ih =>
    rw [encode, List.flatMap_cons, List.length_append, String.length_utf8EncodeChar,
      Text.byteLength]
    exact congrArg (c.utf8Size + ·) ih

/-- No character is written in more than four bytes. -/
theorem length_encode_le (t : Text) : (encode t).length ≤ 4 * t.length := by
  rw [length_encode]
  induction t with
  | nil => exact Nat.zero_le _
  | cons c t ih =>
    have hchar := c.utf8Size_le_four
    rw [Text.byteLength, List.length_cons]
    omega

end PgGateway.Utf8

namespace PgGateway

/-! ## Texts that can be told -/

/-- The text can be told in a field: it holds no zero and takes at most so many bytes. -/
structure Text.Tellable (size : Nat) (t : Text) : Prop where
  unbroken : '\x00' ∉ t
  short : (Utf8.encode t).length ≤ size

namespace Text.Tellable

variable {size more : Nat} {s t : Text}

instance : Decidable (Tellable size t) :=
  decidable_of_iff (_ ∧ _) ⟨fun ⟨unbroken, short⟩ => ⟨unbroken, short⟩,
    fun ⟨unbroken, short⟩ => ⟨unbroken, short⟩⟩

theorem mono (h : Tellable size t) (hle : size ≤ more) : Tellable more t :=
  ⟨h.unbroken, Nat.le_trans h.short hle⟩

theorem append (hs : Tellable size s) (ht : Tellable more t) : Tellable (size + more) (s ++ t) := by
  constructor
  · rw [List.mem_append, not_or]
    exact ⟨hs.unbroken, ht.unbroken⟩
  · rw [Utf8.encode_append, List.length_append]
    exact Nat.add_le_add hs.short ht.short

/-- A text of so many characters other than zero. -/
theorem ofLength (hunbroken : '\x00' ∉ t) (hlength : t.length ≤ size) : Tellable (4 * size) t :=
  ⟨hunbroken, Nat.le_trans (Utf8.length_encode_le t) (Nat.mul_le_mul_left 4 hlength)⟩

/-- A number of so many digits. -/
theorem ofNat {n digits : Nat} (hpos : 0 < digits) (hn : n < 10 ^ digits) :
    Tellable (4 * digits) (Numeral.ofNat n) := by
  refine ofLength ?_ ((Nat.length_toDigits_le_iff (by decide) hpos).2 hn)
  intro hmem
  have hdigit := Nat.isDigit_of_mem_toDigits (by decide) (by decide) hmem
  cases hdigit

theorem ofInt {i : Int} {digits : Nat} (hpos : 0 < digits) (hi : i.natAbs < 10 ^ digits) :
    Tellable (1 + 4 * digits) (Numeral.ofInt i) := by
  have hsign : Tellable 1 "-" := by decide
  unfold Numeral.ofInt
  split
  · exact hsign.append (ofNat hpos hi)
  · exact (ofNat hpos hi).mono (Nat.le_add_left _ _)

end Text.Tellable

end PgGateway
