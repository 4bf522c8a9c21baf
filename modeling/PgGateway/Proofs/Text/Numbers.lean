import Mathlib.Data.List.TakeWhile
import PgGateway.Binary64.Printer

/-!
# Texts of numbers

What the text of a number looks like is said by a grammar that knows nothing of how numbers are
written. The text of an integer is read back as the integer (`Numeral.int?_ofInt`), and the text of
a double is a number of that grammar or one of three words (`Binary64.isFloat_text`).
-/

namespace PgGateway

/-! ## The grammar -/

namespace Text

variable {s t : Text}

/-- Decimal digits, and at least one. -/
def IsDigits (t : Text) : Prop := t ≠ [] ∧ ∀ c ∈ t, c.isDigit = true

/-- A point and the digits behind it, or nothing. -/
def IsFraction (t : Text) : Prop := t = [] ∨ ∃ digits, t = '.' :: digits ∧ IsDigits digits

/-- The exponent of a number, with its sign, or nothing. -/
def IsExponent (t : Text) : Prop :=
  t = [] ∨ ∃ sign digits, t = 'e' :: sign :: digits ∧ (sign = '+' ∨ sign = '-') ∧ IsDigits digits

/-- A number without a sign. -/
def IsUnsigned (t : Text) : Prop :=
  ∃ whole fraction exponent, t = whole ++ fraction ++ exponent ∧
    IsDigits whole ∧ IsFraction fraction ∧ IsExponent exponent

/-- A decimal or exponent number. -/
def IsNumber (t : Text) : Prop := IsUnsigned t ∨ ∃ u, t = '-' :: u ∧ IsUnsigned u

/-- A number as the type of doubles knows it. -/
def IsFloat (t : Text) : Prop :=
  IsNumber t ∨ t = ("NaN" : Text) ∨ t = ("Infinity" : Text) ∨ t = ("-Infinity" : Text)

/-- The hexadecimal form of bytes: two digits for each. -/
def IsByteString (t : Text) : Prop :=
  ∃ digits, t = '\\' :: 'x' :: digits ∧ digits.length % 2 = 0 ∧
    ∀ c ∈ digits, c ∈ ("0123456789abcdef" : Text)

theorem IsDigits.append (hs : IsDigits s) (ht : ∀ c ∈ t, c.isDigit = true) : IsDigits (s ++ t) :=
  ⟨List.append_ne_nil_of_left_ne_nil hs.1 t, List.forall_mem_append.2 ⟨hs.2, ht⟩⟩

theorem IsDigits.prepend (hs : ∀ c ∈ s, c.isDigit = true) (ht : IsDigits t) : IsDigits (s ++ t) :=
  ⟨List.append_ne_nil_of_right_ne_nil s ht.1, List.forall_mem_append.2 ⟨hs, ht.2⟩⟩

theorem isDigit_of_mem_zeros {n : Nat} : ∀ c ∈ List.replicate n '0', c.isDigit = true := by
  intro c hc
  rw [List.eq_of_mem_replicate hc]
  rfl

theorem not_mem_of_isDigits {c : Char} (h : ∀ d ∈ t, d.isDigit = true) (hc : c.isDigit = false) :
    c ∉ t := by
  intro hmem
  rw [h c hmem] at hc
  cases hc

theorem IsDigits.isUnsigned (h : IsDigits t) : IsUnsigned t :=
  ⟨t, [], [], by simp, h, .inl rfl, .inl rfl⟩

theorem isDigits_zero : IsDigits ("0" : Text) :=
  ⟨List.cons_ne_nil '0' [], List.forall_mem_singleton.2 rfl⟩

theorem isUnsigned_zero : IsUnsigned ("0" : Text) := isDigits_zero.isUnsigned

end Text

/-! ## Integers -/

namespace Numeral

open Text

/-- Reads decimal digits. -/
def natural? (t : Text) : Option Nat :=
  if !t.isEmpty && t.all Char.isDigit then some (Nat.ofDigitChars 10 t 0) else none

/-- Reads decimal digits, perhaps after a minus sign. -/
def int? : Text → Option Int
  | '-' :: digits => (natural? digits).map fun n : Nat => -(n : Int)
  | digits => (natural? digits).map fun n : Nat => (n : Int)

theorem isDigits_ofNat (n : Nat) : IsDigits (ofNat n) :=
  ⟨Nat.toDigits_ne_nil, fun _ hc => Nat.isDigit_of_mem_toDigits (by decide) (by decide) hc⟩

theorem natural?_ofNat (n : Nat) : natural? (ofNat n) = some n := by
  obtain ⟨hsome, hdigits⟩ := isDigits_ofNat n
  have hread : (!(ofNat n).isEmpty && (ofNat n).all Char.isDigit) = true := by
    rw [Bool.and_eq_true, List.all_eq_true]
    exact ⟨by simpa using hsome, hdigits⟩
  rw [natural?, if_pos hread, ofNat, Nat.ofDigitChars_ten_toDigits]

theorem int?_of_isDigits {t : Text} (h : IsDigits t) :
    int? t = (natural? t).map fun n : Nat => (n : Int) := by
  unfold int?
  split
  · -- a minus sign is no digit
    exact absurd (h.2 '-' List.mem_cons_self) (by decide)
  · rfl

/-- The text of an integer is read back as the integer. -/
theorem int?_ofInt (i : Int) : int? (ofInt i) = some i := by
  unfold ofInt
  split
  · next hneg =>
    show (natural? (ofNat i.natAbs)).map (fun n : Nat => -(n : Int)) = some i
    have hi : -(i.natAbs : Int) = i := by omega
    rw [natural?_ofNat, Option.map_some, hi]
  · next hpos =>
    have hi : (i.natAbs : Int) = i := by omega
    rw [int?_of_isDigits (isDigits_ofNat _), natural?_ofNat, Option.map_some, hi]

theorem isNumber_ofInt (i : Int) : IsNumber (ofInt i) := by
  unfold ofInt
  split
  · exact .inr ⟨_, rfl, (isDigits_ofNat _).isUnsigned⟩
  · exact .inl (isDigits_ofNat _).isUnsigned

/-! ## Bytes -/

theorem isByteString_bytea (bytes : Bytes) : IsByteString (bytea bytes) := by
  refine ⟨hex bytes, rfl, ?_⟩
  induction bytes with
  | nil => exact ⟨rfl, fun c hc => absurd hc List.not_mem_nil⟩
  | cons b bytes ih =>
    have hdigit : ∀ n < 16, Nat.digitChar n ∈ ("0123456789abcdef" : Text) := by decide
    have hb := b.toNat_lt
    rw [hex, List.flatMap_cons, ← hex]
    constructor
    · have hpair : (hexByte b).length = 2 := rfl
      have heven := ih.1
      rw [List.length_append]
      omega
    · rw [List.forall_mem_append]
      refine ⟨fun c hc => ?_, ih.2⟩
      rw [hexByte, List.mem_cons, List.mem_singleton] at hc
      obtain rfl | rfl := hc
      · exact hdigit _ (by omega)
      · exact hdigit _ (by omega)

end Numeral

/-! ## Doubles -/

namespace Decimal

open Text

variable {d : Decimal} {digits : Text}

theorem isDigit_of_mem_digitText : ∀ c ∈ d.digitText, c.isDigit = true := by
  intro c hc
  have hc := (List.dropWhile_sublist _).subset (List.mem_reverse.1 hc)
  exact Nat.isDigit_of_mem_toDigits (by decide) (by decide) (List.mem_reverse.1 hc)

/-- A number other than zero has a digit other than zero. -/
theorem digitText_ne_nil (h : d.digits ≠ 0) : d.digitText ≠ [] := by
  intro hnil
  have hzeros : ∀ c ∈ Nat.toDigits 10 d.digits, c = '0' := by
    intro c hc
    have hdrop := List.reverse_eq_nil_iff.1 hnil
    exact of_decide_eq_true (List.dropWhile_eq_nil_iff.1 hdrop c (List.mem_reverse.2 hc))
  have hvalue := Nat.ofDigitChars_ten_toDigits (n := d.digits)
  rw [List.eq_replicate_of_mem hzeros, Nat.ofDigitChars_replicate_zero] at hvalue
  exact h (by simpa using hvalue.symm)

theorem isUnsigned_written (h : IsDigits digits) (e : Int) : IsUnsigned (written digits e) := by
  obtain ⟨hsome, hdigits⟩ := h
  unfold written
  split
  · refine ⟨['0'], '.' :: (List.replicate (-e - 1).toNat '0' ++ digits), [], by simp, ?_, ?_,
      .inl rfl⟩
    · exact ⟨List.cons_ne_nil _ _, by simp⟩
    · exact .inr ⟨_, rfl, IsDigits.prepend isDigit_of_mem_zeros ⟨hsome, hdigits⟩⟩
  · split
    · exact (IsDigits.append ⟨hsome, hdigits⟩ isDigit_of_mem_zeros).isUnsigned
    · next hlong =>
      refine ⟨digits.take (e.toNat + 1), '.' :: digits.drop (e.toNat + 1), [], by simp, ?_, ?_,
        .inl rfl⟩
      · refine ⟨?_, fun c hc => hdigits c (List.mem_of_mem_take hc)⟩
        simpa using hsome
      · refine .inr ⟨_, rfl, ?_, fun c hc => hdigits c (List.mem_of_mem_drop hc)⟩
        rw [Ne, List.drop_eq_nil_iff]
        omega

theorem isExponent_exponentText (layout : FloatLayout) (e : Int) :
    IsExponent (exponentText layout e) := by
  refine .inr ⟨_, _, rfl, ?_, IsDigits.prepend isDigit_of_mem_zeros (Numeral.isDigits_ofNat _)⟩
  split
  · exact .inr rfl
  · exact .inl rfl

theorem isUnsigned_pointed (h : IsDigits digits) {exponent : Text} (he : IsExponent exponent) :
    IsUnsigned (pointed digits ++ exponent) := by
  obtain ⟨hsome, hdigits⟩ := h
  match digits with
  | [] => exact absurd rfl hsome
  | [c] => exact ⟨[c], [], exponent, by simp [pointed], ⟨hsome, hdigits⟩, .inl rfl, he⟩
  | c :: d :: rest =>
    rw [List.forall_mem_cons] at hdigits
    exact ⟨[c], '.' :: d :: rest, exponent, rfl, ⟨List.cons_ne_nil _ _, by simpa using hdigits.1⟩,
      .inr ⟨_, rfl, List.cons_ne_nil _ _, hdigits.2⟩, he⟩

theorem isUnsigned_text (layout : FloatLayout) (h : d.digits ≠ 0) : IsUnsigned (d.text layout) := by
  have hdigits : IsDigits d.digitText := ⟨digitText_ne_nil h, isDigit_of_mem_digitText⟩
  unfold text
  split
  · exact isUnsigned_written hdigits _
  · exact isUnsigned_pointed hdigits (isExponent_exponentText layout _)

end Decimal

namespace Binary64

open Text

variable {x : Binary64} {exponent : Int} {d : Decimal}

/-- A decimal on a grid is zero only where the double is: zero lies below the interval of numbers
that read back as the double. -/
theorem digits_ne_zero_of_onGrid? (hx : x.significand ≠ 0) (h : x.onGrid? exponent = some d) :
    d.digits ≠ 0 := by
  have hbelow : x.below ≤ 2 := by
    unfold below
    split <;> omega
  have hlow : 0 < 4 * x.significand - x.below := by omega
  unfold onGrid? at h
  extract_lets unit step value low high inside index down up at h
  have hunit : 0 < unit := Nat.mul_pos (Nat.pow_pos (by decide)) (Nat.pow_pos (by decide))
  have hinside : inside 0 = false := by
    have hlow : 0 < low := Nat.mul_pos hlow hunit
    show (if _ then _ else _) = false
    split
    · rw [decide_eq_false (Nat.not_le.2 hlow), Bool.false_and]
    · rw [decide_eq_false (Nat.not_lt.2 (Nat.zero_le low)), Bool.false_and]
  split at h
  · next hdown =>
    obtain rfl := Option.some.inj h
    intro hzero
    have hdown : inside down = true := (Bool.and_eq_true _ _ ▸ hdown).1
    rw [show down = 0 from (congrArg (· * step) hzero).trans (Nat.zero_mul step), hinside] at hdown
    cases hdown
  · split at h
    · obtain rfl := Option.some.inj h
      exact Nat.succ_ne_zero _
    · cases h

theorem shortest_eq_or (hx : x.significand ≠ 0) : x.shortest = ⟨0, 0⟩ ∨ x.shortest.digits ≠ 0 := by
  unfold shortest
  cases hfind : (List.range 17).findSome? fun (n : Nat) => x.onGrid? (x.leadingExponent - n) with
  | none => exact .inl rfl
  | some d =>
    obtain ⟨n, -, hgrid⟩ := List.exists_of_findSome?_eq_some hfind
    exact .inr (digits_ne_zero_of_onGrid? hx hgrid)

theorem isUnsigned_shortest (hx : x.significand ≠ 0) : IsUnsigned (x.shortest.text .result) := by
  obtain hzero | hdigits := shortest_eq_or hx
  · rw [hzero]
    exact isUnsigned_zero
  · exact Decimal.isUnsigned_text _ hdigits

/-- **The text of a double is a number, or one of the words for what is none.** -/
theorem isFloat_text (x : Binary64) : IsFloat x.text := by
  have hsign {magnitude : Text} (h : IsUnsigned magnitude) :
      IsNumber (if x.negative then '-' :: magnitude else magnitude) := by
    split
    · exact .inr ⟨_, rfl, h⟩
    · exact .inl h
  by_cases hnan : x.isNaN
  · exact .inr (.inl (if_pos hnan))
  · rw [text, if_neg hnan]
    extract_lets magnitude
    by_cases hinfinite : x.isInfinite
    · rw [show magnitude = ("Infinity" : Text) from if_pos hinfinite]
      split
      · exact .inr (.inr (.inr rfl))
      · exact .inr (.inr (.inl rfl))
    · refine .inl (hsign ?_)
      rw [show magnitude = if x.significand = 0 then _ else _ from if_neg hinfinite]
      split
      · exact isUnsigned_zero
      · next hx => exact isUnsigned_shortest hx

end Binary64

end PgGateway
