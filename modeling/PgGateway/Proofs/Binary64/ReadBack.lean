import PgGateway.Engine.Value
import PgGateway.Proofs.Binary64.Numerals
import PgGateway.Proofs.Text.Utf8

/-!
# Doubles read back from their texts

The text of a double denotes the shortest decimal that is rounded to it, with its sign. So whoever
reads the text and rounds correctly gets the double back, bit for bit, and no two numbers have one
text (`Binary64.text_reads_back`). Of a NaN only that it is none is left.
-/

namespace PgGateway.Binary64

open Text

variable {x y : Binary64} {t : Text} {d : Decimal}

/-! ## Readers -/

/-- The word for an infinity. -/
def infinityText (negative : Bool) : Text := if negative then "-Infinity" else "Infinity"

/-- A reader that rounds correctly makes the double of the text. The sign is the text's own, and
the words for what is no number are read as they are written. -/
def ReadsAs (t : Text) (x : Binary64) : Prop :=
  match Decimal.signed? t with
  | some (negative, d) => x.negative = negative ∧ Rounds d.value x
  | none => x.isNaN = true ∧ t = ("NaN" : Text) ∨
      x.isInfinite = true ∧ t = infinityText x.negative

theorem readsAs_of_signed? {negative : Bool} (h : Decimal.signed? t = some (negative, d)) :
    ReadsAs t x ↔ x.negative = negative ∧ Rounds d.value x := by
  rw [ReadsAs, h]

theorem readsAs_of_none (h : Decimal.signed? t = none) : ReadsAs t x ↔
    x.isNaN = true ∧ t = ("NaN" : Text) ∨ x.isInfinite = true ∧ t = infinityText x.negative := by
  rw [ReadsAs, h]

theorem signed?_sign (h : IsUnsigned t) (negative : Bool) :
    Decimal.signed? (if negative then '-' :: t else t) =
      (Decimal.unsigned? t).map fun d => (negative, d) := by
  cases negative with
  | true => rfl
  | false =>
    obtain ⟨whole, fraction, exponent, rfl, hwhole, -⟩ := h
    obtain ⟨c, rest, rfl⟩ := List.exists_cons_of_ne_nil hwhole.1
    have hminus : c ≠ '-' := by
      rintro rfl
      exact absurd (hwhole.2 '-' List.mem_cons_self) (by decide)
    show Decimal.signed? (c :: _) = _
    unfold Decimal.signed?
    split
    · next heq => exact absurd (List.cons.inj heq).1 hminus
    · rfl

/-! ## Finite doubles -/

/-- The decimal that is written for a finite double. -/
def decimal (x : Binary64) : Decimal := if x.significand = 0 then ⟨0, 0⟩ else x.shortest

theorem near_decimal (x : Binary64) : x.Near x.decimal.value := by
  unfold decimal
  split
  · next hzero =>
    have hvalue : Decimal.value ⟨0, 0⟩ = x.magnitude := by
      rw [Decimal.value, magnitude, hzero]
      simp
    rw [hvalue]
    exact x.near_magnitude
  · next hx => exact near_shortest hx

theorem shortest_digits_ne_zero (hx : x.significand ≠ 0) : x.shortest.digits ≠ 0 := by
  obtain ⟨n, hgrid, -⟩ := shortest_spec hx
  exact digits_ne_zero_of_onGrid? hx hgrid

/-- The text of a finite double without its sign. -/
def magnitudeText (x : Binary64) : Text :=
  if x.significand = 0 then "0" else x.shortest.text .result

theorem text_of_finite (hnumber : x.isNaN = false) (hfinite : x.isInfinite = false) :
    x.text = if x.negative then '-' :: x.magnitudeText else x.magnitudeText := by
  rw [text, hnumber, hfinite]
  rfl

theorem isUnsigned_magnitudeText (x : Binary64) : IsUnsigned x.magnitudeText := by
  unfold magnitudeText
  split
  · exact isUnsigned_zero
  · next hx => exact isUnsigned_shortest hx

theorem unsigned?_magnitudeText (x : Binary64) :
    ∃ d, Decimal.unsigned? x.magnitudeText = some d ∧ d.value = x.decimal.value := by
  unfold magnitudeText decimal
  split
  · exact ⟨_, rfl, rfl⟩
  · next hx => exact Decimal.unsigned?_text .result (shortest_digits_ne_zero hx)

/-- The text of a finite double denotes its decimal, with its sign. -/
theorem signed?_text (hnumber : x.isNaN = false) (hfinite : x.isInfinite = false) :
    ∃ d, Decimal.signed? x.text = some (x.negative, d) ∧ d.value = x.decimal.value := by
  obtain ⟨d, hread, hvalue⟩ := unsigned?_magnitudeText x
  rw [text_of_finite hnumber hfinite, signed?_sign x.isUnsigned_magnitudeText, hread]
  exact ⟨d, rfl, hvalue⟩

/-- A finite double is written with an exponent if its leading digit stands for less than ten to
the minus four, or for ten to the fifteen or more. -/
theorem form_text (hnumber : x.isNaN = false) (hfinite : x.isInfinite = false) :
    if x.significand ≠ 0 ∧ (Int.log 10 x.decimal.value < -4 ∨ 15 ≤ Int.log 10 x.decimal.value) then
      HasExponent 2 (Int.log 10 x.decimal.value) x.text
    else IsFull x.text := by
  have hfull (h : IsFull x.magnitudeText) : IsFull x.text := by
    rw [text_of_finite hnumber hfinite]
    split
    · exact h.minus
    · exact h
  by_cases hx : x.significand = 0
  · -- zero has no leading digit, and is written out in full
    have hzero : x.magnitudeText = ("0" : Text) := if_pos hx
    rw [if_neg (fun h => h.1 hx)]
    refine hfull ?_
    rw [hzero]
    exact ⟨by decide, by decide⟩
  · have htext : x.magnitudeText = x.shortest.text .result := if_neg hx
    have hdecimal : x.decimal = x.shortest := if_neg hx
    have hdigits := shortest_digits_ne_zero hx
    rw [hdecimal, Decimal.log_value hdigits]
    split
    · next hout =>
      have hform : HasExponent 2 x.shortest.leading (x.shortest.text .result) :=
        Decimal.hasExponent_text hdigits fun hin => hout.2.elim hin.1.not_gt hin.2.not_ge
      rw [text_of_finite hnumber hfinite, htext]
      split
      · exact hform.minus
      · exact hform
    · next hin =>
      refine hfull ?_
      rw [htext]
      have hin : -4 ≤ x.shortest.leading ∧ x.shortest.leading < 15 := by simpa [hx] using hin
      exact Decimal.isFull_text hdigits hin

/-! ## All numbers -/

/-- The words for the infinities are no numerals. -/
theorem text_of_infinite (hinfinite : x.isInfinite = true) :
    x.text = infinityText x.negative ∧ Decimal.signed? x.text = none := by
  have hnumber : x.isNaN = false := by
    rw [isNaN_eq_false_iff, isInfinite_iff.1 hinfinite]
  have htext : x.text = infinityText x.negative := by
    rw [text, hnumber, hinfinite]
    rfl
  refine ⟨htext, ?_⟩
  rw [htext]
  cases x.negative <;> decide

/-- The text of a double is read as the double, and that of a NaN as a NaN. -/
theorem readsAs_text (x : Binary64) : ReadsAs x.text x := by
  cases hnumber : x.isNaN with
  | true =>
    have htext : x.text = ("NaN" : Text) := if_pos hnumber
    rw [readsAs_of_none (by rw [htext]; decide)]
    exact .inl ⟨hnumber, htext⟩
  | false =>
    cases hfinite : x.isInfinite with
    | true =>
      obtain ⟨htext, hnone⟩ := text_of_infinite hfinite
      exact (readsAs_of_none hnone).2 (.inr ⟨hfinite, htext⟩)
    | false =>
      obtain ⟨d, hread, hvalue⟩ := signed?_text hnumber hfinite
      rw [readsAs_of_signed? hread, hvalue]
      exact ⟨rfl, x.near_decimal.rounds hnumber⟩

/-- The text of a number is read as no other double. -/
theorem eq_of_readsAs_text (hnumber : x.isNaN = false) (h : ReadsAs x.text y) : y = x := by
  cases hfinite : x.isInfinite with
  | true =>
    obtain ⟨htext, hnone⟩ := text_of_infinite hfinite
    rw [readsAs_of_none hnone, htext] at h
    obtain ⟨-, hword⟩ | ⟨hinfinite, hword⟩ := h
    · -- the words are different
      exfalso
      revert hword
      cases x.negative <;> decide
    · refine eq_of_pattern ((isInfinite_iff.1 hinfinite).trans (isInfinite_iff.1 hfinite).symm) ?_
      revert hword
      cases x.negative <;> cases y.negative <;> decide
  | false =>
    obtain ⟨d, hread, hvalue⟩ := signed?_text hnumber hfinite
    rw [readsAs_of_signed? hread, hvalue] at h
    exact eq_of_pattern (x.near_decimal.eq_of_rounds hnumber h.2) h.1

/-- **Numbers keep their values as texts.** The text of a double that is a number is read as the
double and no other, the sign of zero and the infinities included, so no other double has it, nor
travels as the same bytes. The text of a finite double denotes its decimal, and no decimal of fewer
digits is rounded to it. Its leading digit tells whether there is an exponent, and which one. -/
theorem text_reads_back (x : Binary64) (hnumber : x.isNaN = false) :
    (∀ y, ReadsAs x.text y ↔ y = x) ∧
    (∀ y : Binary64, y.text = x.text → y = x) ∧
    (∀ y, (Value.real y).wireText = (Value.real x).wireText → y = x) ∧
    (x.isInfinite = false →
      (∃ d, Decimal.signed? x.text = some (x.negative, d) ∧ d.value = x.decimal.value) ∧
      (∀ d : Decimal, Rounds d.value x →
        x.decimal.digitText.length ≤ (Numeral.ofNat d.digits).length) ∧
      if x.significand ≠ 0 ∧
          (Int.log 10 x.decimal.value < -4 ∨ 15 ≤ Int.log 10 x.decimal.value) then
        HasExponent 2 (Int.log 10 x.decimal.value) x.text
      else IsFull x.text) := by
  have hunique (y : Binary64) (htext : y.text = x.text) : y = x := by
    refine eq_of_readsAs_text hnumber ?_
    rw [← htext]
    exact readsAs_text y
  refine ⟨fun y => ⟨eq_of_readsAs_text hnumber, ?_⟩, hunique, ?_, fun hfinite => ⟨?_, ?_, ?_⟩⟩
  · rintro rfl
    exact readsAs_text y
  · intro y hbytes
    refine hunique y ?_
    rw [← Utf8.decode_encode y.text, ← Utf8.decode_encode x.text, Option.some.inj hbytes]
  · exact signed?_text hnumber hfinite
  · intro d hrounds
    unfold decimal
    split
    · exact Nat.zero_le _
    · next hx =>
      have hpos : 0 ≤ d.value := mul_nonneg (Nat.cast_nonneg _) (zpow_nonneg (by norm_num) _)
      exact shortest_le hx ((rounds_iff_near hnumber hfinite hpos).1 hrounds)
  · exact form_text hnumber hfinite

/-- A negative double with an exponent of one digit. -/
theorem text_reads_back_small :
    isNaN ⟨0xBE8421F5F40D8376⟩ = false ∧ text ⟨0xBE8421F5F40D8376⟩ = ("-1.5e-07" : Text) ∧
    ∀ y, ReadsAs "-1.5e-07" y ↔ y = ⟨0xBE8421F5F40D8376⟩ := by
  have hnumber : isNaN ⟨0xBE8421F5F40D8376⟩ = false := by decide
  have htext : text ⟨0xBE8421F5F40D8376⟩ = ("-1.5e-07" : Text) := by decide +kernel
  have hreads := (text_reads_back ⟨0xBE8421F5F40D8376⟩ hnumber).1
  rw [htext] at hreads
  exact ⟨hnumber, htext, hreads⟩

end PgGateway.Binary64
