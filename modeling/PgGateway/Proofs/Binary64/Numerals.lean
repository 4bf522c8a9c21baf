import Mathlib.Data.Int.Log
import Mathlib.Data.Rat.Floor
import PgGateway.Proofs.Binary64.Shortest
import PgGateway.Proofs.Text.Numbers

/-!
# Decimals as texts

The text of a decimal is read as a decimal of the same value, written out in full or with an
exponent (`Decimal.unsigned?_text`). There is an exponent where the leading digit is outside the
range that is written out in full, and zeros at the end of a fraction are not written
(`Decimal.hasForm_text`).
-/

namespace PgGateway

open Text

variable {s t digits : Text}

/-! ## Reading -/

namespace Decimal

open Numeral

/-- Reads digits, perhaps with a point among them. They are counted in units of the last one. -/
def fixed? (t : Text) : Option Decimal :=
  match t.dropWhile (· ≠ '.') with
  | [] => (natural? t).map fun n => ⟨n, 0⟩
  | _ :: fraction =>
    let whole := t.takeWhile (· ≠ '.')
    if whole.isEmpty || fraction.isEmpty then none
    else (natural? (whole ++ fraction)).map fun n => ⟨n, -fraction.length⟩

/-- Reads an exponent with its sign. -/
def exponent? : Text → Option Int
  | '+' :: digits => (natural? digits).map fun n : Nat => (n : Int)
  | t => int? t

/-- Reads a number without a sign, perhaps with an exponent. -/
def unsigned? (t : Text) : Option Decimal :=
  match t.dropWhile (· ≠ 'e') with
  | [] => fixed? t
  | _ :: exponent => (fixed? (t.takeWhile (· ≠ 'e'))).bind fun d =>
    (exponent? exponent).map fun e => ⟨d.digits, d.exponent + e⟩

/-- Reads a number: whether there is a minus sign, and what is behind it. -/
def signed? : Text → Option (Bool × Decimal)
  | '-' :: t => (unsigned? t).map fun d => (true, d)
  | t => (unsigned? t).map fun d => (false, d)

theorem natural?_of_isDigits (h : IsDigits t) : natural? t = some (Nat.ofDigitChars 10 t 0) := by
  have hread : (!t.isEmpty && t.all Char.isDigit) = true := by
    rw [Bool.and_eq_true, List.all_eq_true]
    exact ⟨by simpa using h.1, h.2⟩
  rw [natural?, if_pos hread]

/-- A text is split at the first character that is not before it. -/
theorem split_at {c : Char} (hs : c ∉ s) (t : Text) :
    (s ++ c :: t).takeWhile (· ≠ c) = s ∧ (s ++ c :: t).dropWhile (· ≠ c) = c :: t := by
  have hall : ∀ a ∈ s, decide (a ≠ c) = true := by
    intro a ha
    exact decide_eq_true fun hac => hs (hac ▸ ha)
  constructor
  · rw [List.takeWhile_append_of_pos hall, List.takeWhile_cons_of_neg (by simp), List.append_nil]
  · rw [List.dropWhile_append_of_pos hall, List.dropWhile_cons_of_neg (by simp)]

theorem dropWhile_of_not_mem {c : Char} (hs : c ∉ s) : s.dropWhile (· ≠ c) = [] :=
  List.dropWhile_eq_nil_iff.2 fun _ ha => decide_eq_true fun hac => hs (hac ▸ ha)

theorem fixed?_of_isDigits (h : IsDigits t) :
    fixed? t = some ⟨Nat.ofDigitChars 10 t 0, 0⟩ := by
  rw [fixed?, dropWhile_of_not_mem (not_mem_of_isDigits h.2 rfl), natural?_of_isDigits h]
  rfl

theorem fixed?_point (hs : IsDigits s) (ht : IsDigits t) :
    fixed? (s ++ '.' :: t) = some ⟨Nat.ofDigitChars 10 (s ++ t) 0, -t.length⟩ := by
  obtain ⟨hwhole, hfraction⟩ := split_at (not_mem_of_isDigits hs.2 (c := '.') rfl) t
  have hsome : (s.isEmpty || t.isEmpty) = false := by
    rw [Bool.or_eq_false_iff, List.isEmpty_eq_false_iff, List.isEmpty_eq_false_iff]
    exact ⟨hs.1, ht.1⟩
  rw [fixed?, hfraction, hwhole]
  dsimp only
  rw [hsome, natural?_of_isDigits (hs.append ht.2)]
  rfl

/-! ## Digits -/

variable {d : Decimal}

/-- The zeros at the end of the digits are not written, and bring the exponent up. -/
theorem value_eq (d : Decimal) : d.value =
    Nat.ofDigitChars 10 d.digitText 0 * 10 ^ (d.leading + 1 - d.digitText.length) := by
  obtain ⟨n, hdigits⟩ : ∃ n, Nat.toDigits 10 d.digits = d.digitText ++ List.replicate n '0' := by
    have hsplit := List.takeWhile_append_dropWhile (p := (· = '0'))
      (l := (Nat.toDigits 10 d.digits).reverse)
    have hzeros := List.eq_replicate_of_mem fun c hc => of_decide_eq_true
      (List.mem_takeWhile_imp (p := (· = '0')) (l := (Nat.toDigits 10 d.digits).reverse) hc)
    rw [hzeros] at hsplit
    have hdigits := congrArg List.reverse hsplit
    rw [List.reverse_append, List.reverse_replicate, List.reverse_reverse] at hdigits
    exact ⟨_, hdigits.symm⟩
  have hvalue := Nat.ofDigitChars_ten_toDigits (n := d.digits)
  rw [hdigits, Nat.ofDigitChars_append, Nat.ofDigitChars_replicate_zero] at hvalue
  have hleading : d.leading + 1 - d.digitText.length = n + d.exponent := by
    rw [leading, hdigits, List.length_append, List.length_replicate]
    push_cast
    ring
  rw [value, hleading, ← hvalue, ← ten_pow_mul, Nat.cast_mul]
  ring

/-- The leading digit tells the size of a decimal. -/
theorem log_value (h : d.digits ≠ 0) : Int.log 10 d.value = d.leading := by
  obtain ⟨hfrom, hbelow⟩ := Numeral.ofNat_bounds h
  have hlength : 0 < (Numeral.ofNat d.digits).length := Nat.length_toDigits_pos
  have hleading : d.leading = d.exponent + ((Numeral.ofNat d.digits).length - 1) := rfl
  generalize (Numeral.ofNat d.digits).length = length at hfrom hbelow hlength hleading
  have hexponent : (0 : ℚ) < 10 ^ d.exponent := by positivity
  have hpos : 0 < d.value := mul_pos (Nat.cast_pos.2 (Nat.pos_of_ne_zero h)) hexponent
  apply le_antisymm
  · have hlast : d.leading + 1 = (length : ℤ) + d.exponent := by omega
    rw [← Int.lt_add_one_iff, ← Int.lt_zpow_iff_log_lt (by decide) hpos, hlast, Nat.cast_ofNat,
      ← ten_pow_mul]
    exact mul_lt_mul_of_pos_right (Nat.cast_lt.2 hbelow) hexponent
  · have hfirst : d.leading = (length - 1 : ℕ) + d.exponent := by omega
    rw [← Int.zpow_le_iff_le_log (by decide) hpos, hfirst, Nat.cast_ofNat, ← ten_pow_mul]
    exact mul_le_mul_of_nonneg_right (Nat.cast_le.2 hfrom) hexponent.le

/-! ## Writing -/

variable {layout : FloatLayout} {e : ℤ}

/-- Digits written out in full are read as they are, the first one standing for ten to the `e`. -/
theorem fixed?_written (h : IsDigits digits) (e : ℤ) : ∃ d, fixed? (written digits e) = some d ∧
    d.value = Nat.ofDigitChars 10 digits 0 * 10 ^ (e + 1 - digits.length) := by
  unfold written
  split
  · next hneg =>
    -- a point and zeros before the digits
    have hfraction : IsDigits (List.replicate (-e - 1).toNat '0' ++ digits) :=
      h.prepend isDigit_of_mem_zeros
    have hread := fixed?_point isDigits_zero hfraction
    have hexponent : -((List.replicate (-e - 1).toNat '0' ++ digits).length : ℤ) =
        e + 1 - digits.length := by
      rw [List.length_append, List.length_replicate]
      omega
    have hzeros : Nat.ofDigitChars 10
        (("0" : Text) ++ (List.replicate (-e - 1).toNat '0' ++ digits)) 0 =
        Nat.ofDigitChars 10 digits 0 := by
      show Nat.ofDigitChars 10 (List.replicate (-e - 1).toNat '0' ++ digits) 0 = _
      rw [Nat.ofDigitChars_append, Nat.ofDigitChars_replicate_zero, Nat.mul_zero]
    rw [hzeros, hexponent] at hread
    exact ⟨_, hread, rfl⟩
  · next hpos =>
    split
    · next hshort =>
      -- zeros behind the digits
      refine ⟨_, fixed?_of_isDigits (h.append isDigit_of_mem_zeros), ?_⟩
      have hexponent : e + 1 - digits.length = (e.toNat + 1 - digits.length : ℕ) := by omega
      rw [value, Nat.ofDigitChars_append, Nat.ofDigitChars_replicate_zero, hexponent, zpow_natCast]
      push_cast
      ring
    · next hlong =>
      -- the point among the digits
      have hwhole : IsDigits (digits.take (e.toNat + 1)) :=
        ⟨by simpa using h.1, fun c hc => h.2 c (List.mem_of_mem_take hc)⟩
      have hfraction : IsDigits (digits.drop (e.toNat + 1)) := by
        refine ⟨?_, fun c hc => h.2 c (List.mem_of_mem_drop hc)⟩
        rw [Ne, List.drop_eq_nil_iff]
        omega
      have hread := fixed?_point hwhole hfraction
      have hexponent : -((digits.drop (e.toNat + 1)).length : ℤ) = e + 1 - digits.length := by
        rw [List.length_drop]
        omega
      rw [List.take_append_drop, hexponent] at hread
      exact ⟨_, hread, rfl⟩

/-- Digits with a point after the first one. -/
theorem fixed?_pointed (h : IsDigits digits) :
    fixed? (pointed digits) = some ⟨Nat.ofDigitChars 10 digits 0, 1 - digits.length⟩ := by
  match digits with
  | [] => exact absurd rfl h.1
  | [c] => exact fixed?_of_isDigits h
  | c :: b :: rest =>
    obtain ⟨hc, hrest⟩ := List.forall_mem_cons.1 h.2
    have hone : IsDigits [c] := ⟨List.cons_ne_nil _ _, List.forall_mem_singleton.2 hc⟩
    have hfixed := fixed?_point hone ⟨List.cons_ne_nil b rest, hrest⟩
    have hexponent : -((b :: rest).length : ℤ) = 1 - (c :: b :: rest).length := by
      simp only [List.length_cons]
      omega
    rwa [hexponent] at hfixed

/-- An exponent is written with its sign and with digits enough, and is read as it is. -/
theorem exponentText_eq (layout : FloatLayout) (e : ℤ) : ∃ digits,
    exponentText layout e = 'e' :: (if e < 0 then '-' else '+') :: digits ∧
      layout.exponentWidth ≤ digits.length ∧ natural? digits = some e.natAbs ∧
      exponent? ((if e < 0 then '-' else '+') :: digits) = some e := by
  let zeros := List.replicate (layout.exponentWidth - (ofNat e.natAbs).length) '0'
  let digits := zeros ++ ofNat e.natAbs
  have hread : natural? digits = some e.natAbs := by
    rw [natural?_of_isDigits (IsDigits.prepend isDigit_of_mem_zeros (isDigits_ofNat _)),
      Nat.ofDigitChars_append, Nat.ofDigitChars_replicate_zero, Nat.mul_zero]
    exact congrArg some Nat.ofDigitChars_ten_toDigits
  refine ⟨digits, rfl, ?_, hread, ?_⟩
  · rw [List.length_append, List.length_replicate]
    omega
  · split
    · next hneg =>
      show (natural? digits).map _ = _
      rw [hread, Option.map_some]
      congr 1
      omega
    · next hpos =>
      show (natural? digits).map _ = _
      rw [hread, Option.map_some]
      congr 1
      omega

theorem unsigned?_of_not_mem (h : 'e' ∉ t) : unsigned? t = fixed? t := by
  rw [unsigned?, dropWhile_of_not_mem h]

theorem unsigned?_append (h : 'e' ∉ s) (t : Text) : unsigned? (s ++ 'e' :: t) =
    (fixed? s).bind fun d => (exponent? t).map fun e => ⟨d.digits, d.exponent + e⟩ := by
  obtain ⟨hbefore, hafter⟩ := split_at h t
  rw [unsigned?, hbefore, hafter]

theorem exponent_not_mem_written (h : IsDigits digits) (e : ℤ) : 'e' ∉ written digits e := by
  have hdigits := not_mem_of_isDigits h.2 (c := 'e') rfl
  unfold written
  split
  · simp [hdigits]
  · split
    · simp [hdigits]
    · have hwhole : 'e' ∉ digits.take (e.toNat + 1) := fun hc =>
        hdigits (List.mem_of_mem_take hc)
      have hfraction : 'e' ∉ digits.drop (e.toNat + 1) := fun hc =>
        hdigits (List.mem_of_mem_drop hc)
      simp [hwhole, hfraction]

theorem exponent_not_mem_pointed (h : IsDigits digits) : 'e' ∉ pointed digits := by
  have hdigits := not_mem_of_isDigits h.2 (c := 'e') rfl
  match digits with
  | [] => exact List.not_mem_nil
  | [c] => exact hdigits
  | c :: b :: rest => simpa [pointed] using hdigits

/-- **The text of a decimal is read as a decimal of the same value**, in either of its forms. -/
theorem unsigned?_text (layout : FloatLayout) (h : d.digits ≠ 0) :
    ∃ read, unsigned? (d.text layout) = some read ∧ read.value = d.value := by
  have hdigits : IsDigits d.digitText := ⟨digitText_ne_nil h, isDigit_of_mem_digitText⟩
  unfold text
  split
  · -- without an exponent the first digit has its place already
    rw [unsigned?_of_not_mem (exponent_not_mem_written hdigits _), value_eq d]
    exact fixed?_written hdigits _
  · -- with one it is a unit, and the exponent brings it there
    obtain ⟨digits, htext, -, -, hread⟩ := exponentText_eq layout d.leading
    refine ⟨⟨Nat.ofDigitChars 10 d.digitText 0, 1 - d.digitText.length + d.leading⟩, ?_, ?_⟩
    · rw [htext, unsigned?_append (exponent_not_mem_pointed hdigits), fixed?_pointed hdigits, hread]
      rfl
    · rw [value_eq d, value]
      congr 2
      ring

end Decimal

/-! ## Forms -/

namespace Text

/-- The number is written out in full, without a zero at the end of its fraction. -/
def IsFull (t : Text) : Prop := 'e' ∉ t ∧ ('.' ∈ t → t.getLast? ≠ some '0')

/-- The number is written with this exponent, which has its sign and this many digits at least. -/
def HasExponent (width : Nat) (e : Int) (t : Text) : Prop :=
  ∃ mantissa digits, t = mantissa ++ 'e' :: (if e < 0 then '-' else '+') :: digits ∧
    IsFull mantissa ∧ width ≤ digits.length ∧ Numeral.natural? digits = some e.natAbs

theorem IsFull.minus (h : IsFull t) : IsFull ('-' :: t) := by
  refine ⟨?_, fun hpoint => ?_⟩
  · simpa using h.1
  · have hpoint : '.' ∈ t := by simpa using hpoint
    rw [List.getLast?_cons_of_ne_nil (List.ne_nil_of_mem hpoint)]
    exact h.2 hpoint

theorem HasExponent.minus {width : Nat} {e : Int} (h : HasExponent width e t) :
    HasExponent width e ('-' :: t) := by
  obtain ⟨mantissa, digits, rfl, hfull, hdigits⟩ := h
  exact ⟨'-' :: mantissa, digits, rfl, hfull.minus, hdigits⟩

end Text

namespace Decimal

variable {d : Decimal} {layout : FloatLayout}

theorem getLast?_digitText (d : Decimal) : d.digitText.getLast? ≠ some '0' := by
  intro hzero
  rw [digitText, List.getLast?_reverse] at hzero
  have hfirst := List.head?_dropWhile_not (p := fun c => decide (c = '0'))
    (Nat.toDigits 10 d.digits).reverse
  rw [hzero] at hfirst
  cases hfirst

theorem isFull_written (h : IsDigits digits) (hlast : digits.getLast? ≠ some '0') (e : ℤ) :
    IsFull (written digits e) := by
  refine ⟨exponent_not_mem_written h e, ?_⟩
  unfold written
  split
  · intro _
    rwa [List.getLast?_append_of_ne_nil _ h.1]
  · split
    · -- a whole number has no point
      intro hpoint
      exact absurd hpoint (not_mem_of_isDigits (h.append isDigit_of_mem_zeros).2 rfl)
    · next hlong =>
      intro _
      have hfraction : digits.drop (e.toNat + 1) ≠ [] := by
        rw [Ne, List.drop_eq_nil_iff]
        omega
      rw [← List.take_append_drop (e.toNat + 1) digits,
        List.getLast?_append_of_ne_nil _ hfraction] at hlast
      rwa [List.getLast?_append_of_ne_nil _ (List.cons_ne_nil _ _),
        List.getLast?_cons_of_ne_nil hfraction]

theorem isFull_pointed (h : IsDigits digits) (hlast : digits.getLast? ≠ some '0') :
    IsFull (pointed digits) := by
  refine ⟨exponent_not_mem_pointed h, ?_⟩
  match digits with
  | [] => exact fun hpoint => absurd hpoint List.not_mem_nil
  | [c] => exact fun _ => hlast
  | c :: b :: rest =>
    intro _
    have hrest := List.cons_ne_nil b rest
    rw [List.getLast?_cons_of_ne_nil hrest] at hlast
    show (c :: '.' :: b :: rest).getLast? ≠ some '0'
    rwa [List.getLast?_cons_of_ne_nil (List.cons_ne_nil _ _), List.getLast?_cons_of_ne_nil hrest]

theorem isFull_text (h : d.digits ≠ 0)
    (hfull : layout.fullFrom ≤ d.leading ∧ d.leading < layout.fullBelow) :
    IsFull (d.text layout) := by
  rw [text, if_pos hfull]
  exact isFull_written ⟨digitText_ne_nil h, isDigit_of_mem_digitText⟩ d.getLast?_digitText _

theorem hasExponent_text (h : d.digits ≠ 0)
    (hfull : ¬(layout.fullFrom ≤ d.leading ∧ d.leading < layout.fullBelow)) :
    HasExponent layout.exponentWidth d.leading (d.text layout) := by
  obtain ⟨digits, htext, hwidth, hread, -⟩ := exponentText_eq layout d.leading
  rw [text, if_neg hfull, htext]
  exact ⟨_, digits, rfl, isFull_pointed ⟨digitText_ne_nil h, isDigit_of_mem_digitText⟩
    d.getLast?_digitText, hwidth, hread⟩

end Decimal

end PgGateway
