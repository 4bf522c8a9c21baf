import Mathlib.Algebra.Order.Field.Power
import Mathlib.Data.Rat.Cast.Order
import Mathlib.Order.Monotone.Basic
import Mathlib.Tactic.Linarith
import Mathlib.Tactic.LinearCombination
import Mathlib.Tactic.Positivity
import Mathlib.Tactic.Ring
import PgGateway.Binary64.Shortest

/-!
# Rounding to doubles

A number is rounded to the double that is nearest to it, and to the even one where two are equally
near (`Binary64.Rounds`). But for their signs the doubles stand in the order of their bit patterns,
and from each to the next the distance is the last place of the first (`Binary64.unitsAt_succ`). So
the numbers that are rounded to a double are those of an interval around it, which is half as long
below a power of two (`Binary64.rounds_iff_near`).
-/

namespace PgGateway.Binary64

/-! ## Bit patterns -/

/-- The bit pattern without the sign. -/
def pattern (x : Binary64) : Nat := x.bits.toNat % 0x8000000000000000

/-- The double of a bit pattern, without a sign. -/
def ofPattern (n : Nat) : Binary64 := ⟨UInt64.ofNat (n % 0x8000000000000000)⟩

variable {x y : Binary64} {q r : ℚ}

theorem fraction_eq (x : Binary64) : x.fraction = x.pattern % 0x10000000000000 := by
  unfold fraction pattern
  omega

theorem biased_eq (x : Binary64) : x.biased = x.pattern / 0x10000000000000 := by
  unfold biased pattern
  omega

theorem isNaN_eq_false_iff : x.isNaN = false ↔ x.pattern ≤ 0x7FF0000000000000 := by
  have hbits := x.bits.toNat_lt
  rw [isNaN, fraction_eq, biased_eq, Bool.and_eq_false_iff, beq_eq_false_iff_ne,
    bne_eq_false_iff_eq]
  unfold pattern
  omega

theorem isInfinite_iff : x.isInfinite = true ↔ x.pattern = 0x7FF0000000000000 := by
  rw [isInfinite, fraction_eq, biased_eq, Bool.and_eq_true, beq_iff_eq, beq_iff_eq]
  omega

/-- The sign and the rest of the bit pattern tell the double. -/
theorem eq_of_pattern (hpattern : x.pattern = y.pattern) (hsign : x.negative = y.negative) :
    x = y := by
  have hx := x.bits.toNat_lt
  have hy := y.bits.toNat_lt
  unfold pattern at hpattern
  unfold negative at hsign
  rw [decide_eq_decide] at hsign
  have hbits : x.bits.toNat = y.bits.toNat := by omega
  cases x
  cases y
  exact congrArg mk (UInt64.toNat_inj.1 hbits)

/-- The bit patterns up to that of infinity are numbers. -/
theorem pattern_ofPattern {n : Nat} (h : n ≤ 0x7FF0000000000000) :
    (ofPattern n).pattern = n ∧ (ofPattern n).isNaN = false := by
  have hpattern : (ofPattern n).pattern = n := by
    unfold ofPattern pattern
    rw [UInt64.toNat_ofNat']
    omega
  exact ⟨hpattern, isNaN_eq_false_iff.2 (hpattern.trans_le h)⟩

/-- The neighbours of an even double are odd. -/
theorem odd_of_neighbour (h : y.pattern + 1 = x.pattern ∨ y.pattern = x.pattern + 1)
    (heven : x.significand % 2 = 0) : y.significand % 2 ≠ 0 := by
  have hparity (z : Binary64) : z.significand % 2 = z.pattern % 2 := by
    rw [significand, fraction_eq]
    split <;> omega
  rw [hparity] at heven ⊢
  omega

/-! ## The scale of the doubles -/

/-- The magnitude of a bit pattern, measured by the least double other than zero. -/
def unitsAt (n : Nat) : Nat :=
  (if n / 0x10000000000000 = 0 then n % 0x10000000000000
    else 0x10000000000000 + n % 0x10000000000000) * 2 ^ (n / 0x10000000000000 - 1)

/-- The last place of a bit pattern, in the same measure. -/
def gapAt (n : Nat) : Nat := 2 ^ (n / 0x10000000000000 - 1)

theorem gapAt_pos (n : Nat) : 0 < gapAt n := Nat.pow_pos (by decide)

/-- From one double to the next it is one last place, even where the exponent changes. -/
theorem unitsAt_succ (n : Nat) : unitsAt (n + 1) = unitsAt n + gapAt n := by
  unfold unitsAt gapAt
  by_cases hcarry : (n + 1) % 0x10000000000000 = 0
  · -- the fraction was full, and the carry goes into the exponent
    have hexponent : (n + 1) / 0x10000000000000 = n / 0x10000000000000 + 1 := by omega
    have hfraction : n % 0x10000000000000 = 0xFFFFFFFFFFFFF := by omega
    rw [hcarry, hexponent, hfraction, if_neg (Nat.succ_ne_zero _), Nat.add_sub_cancel]
    cases n / 0x10000000000000 with
    | zero =>
      -- the least exponents share their power of two
      rfl
    | succ k =>
      rw [if_neg (Nat.succ_ne_zero _), Nat.add_sub_cancel, Nat.pow_succ]
      ring
  · have hexponent : (n + 1) / 0x10000000000000 = n / 0x10000000000000 := by omega
    have hfraction : (n + 1) % 0x10000000000000 = n % 0x10000000000000 + 1 := by omega
    rw [hexponent, hfraction]
    split <;> ring

theorem unitsAt_strictMono : StrictMono unitsAt := by
  refine strictMono_nat_of_lt_succ fun n => ?_
  rw [unitsAt_succ]
  exact Nat.lt_add_of_pos_right (gapAt_pos n)

/-- The least double other than zero. -/
def least : ℚ := 2 ^ (-1074 : ℤ)

theorem least_pos : 0 < least := zpow_pos (by norm_num) _

/-- The magnitude of a double. An infinity stands for the power of two that would come next. -/
def magnitude (x : Binary64) : ℚ := x.significand * 2 ^ x.power

/-- The last place of a double. -/
def lastPlace (x : Binary64) : ℚ := 2 ^ x.power

theorem lastPlace_pos (x : Binary64) : 0 < x.lastPlace := zpow_pos (by norm_num) _

theorem lastPlace_eq (x : Binary64) : x.lastPlace = gapAt x.pattern * least := by
  have hpower : x.power = ((x.pattern / 0x10000000000000 - 1 : ℕ) : ℤ) + -1074 := by
    rw [power, biased_eq]
    split <;> omega
  rw [lastPlace, hpower, zpow_add₀ (by norm_num), zpow_natCast, gapAt]
  norm_cast

/-- The magnitude of a bit pattern. -/
def magnitudeAt (n : Nat) : ℚ := unitsAt n * least

theorem magnitudeAt_strictMono : StrictMono magnitudeAt := fun _ _ h =>
  mul_lt_mul_of_pos_right (Nat.cast_lt.2 (unitsAt_strictMono h)) least_pos

theorem magnitude_eq (x : Binary64) : x.magnitude = magnitudeAt x.pattern := by
  have hunits : unitsAt x.pattern = x.significand * gapAt x.pattern := by
    rw [unitsAt, significand, fraction_eq, biased_eq, gapAt]
  rw [magnitude, magnitudeAt, hunits, Nat.cast_mul, mul_assoc, ← lastPlace_eq]
  rfl

/-- A magnitude tells the bit pattern. -/
theorem magnitude_inj : x.magnitude = y.magnitude ↔ x.pattern = y.pattern := by
  rw [magnitude_eq, magnitude_eq, magnitudeAt_strictMono.injective.eq_iff]

/-- The next double lies one last place up, which is twice as far as `above` quarters. -/
theorem magnitudeAt_after (x : Binary64) :
    magnitudeAt (x.pattern + 1) = x.magnitude + 2 * (above / 4 * x.lastPlace) := by
  rw [magnitude_eq, lastPlace_eq, magnitudeAt, unitsAt_succ, magnitudeAt, above]
  push_cast
  ring

/-- The last place below a double is as large as its own, or half as large just above a power of
two. -/
theorem below_mul_gapAt {n : Nat} (h : x.pattern = n + 1) :
    x.below * gapAt x.pattern = 2 * gapAt n := by
  unfold below gapAt
  rw [fraction_eq, biased_eq, h]
  split
  · next hpower =>
    -- the double before has the exponent before
    obtain ⟨k, hk⟩ : ∃ k, n / 0x10000000000000 = k + 1 :=
      ⟨n / 0x10000000000000 - 1, by omega⟩
    have hexponent : (n + 1) / 0x10000000000000 = k + 2 := by omega
    rw [hexponent, hk]
    show 1 * 2 ^ (k + 1) = 2 * 2 ^ k
    ring
  · next hwithin =>
    -- both have one exponent, or the two least ones
    have hexponent : (n + 1) / 0x10000000000000 - 1 = n / 0x10000000000000 - 1 := by omega
    rw [hexponent]

/-- The double before lies twice as far down as `below` quarters of the last place. -/
theorem magnitudeAt_before {n : Nat} (h : x.pattern = n + 1) :
    magnitudeAt n = x.magnitude - 2 * (x.below / 4 * x.lastPlace) := by
  have hgap : (x.below : ℚ) * gapAt x.pattern = 2 * gapAt n := by
    exact_mod_cast below_mul_gapAt h
  have hunits : (unitsAt x.pattern : ℚ) = unitsAt n + gapAt n := by
    rw [h, unitsAt_succ, Nat.cast_add]
  rw [magnitude_eq, lastPlace_eq, magnitudeAt, magnitudeAt]
  linear_combination least / 2 * hgap - least * hunits

/-! ## Rounding -/

/-- The double is the number rounded: no other is nearer, and of two that are equally near it is
the even one. -/
structure Rounds (q : ℚ) (x : Binary64) : Prop where
  number : x.isNaN = false
  nearest : ∀ y : Binary64, y.isNaN = false → |q - x.magnitude| ≤ |q - y.magnitude|
  even : ∀ y : Binary64, y.isNaN = false → |q - x.magnitude| = |q - y.magnitude| →
    y.magnitude = x.magnitude ∨ x.significand % 2 = 0

/-- The number is no further from the double than halfway to the next ones, and nearer if the
double is odd. -/
def Near (x : Binary64) (q : ℚ) : Prop :=
  if x.significand % 2 = 0 then
    x.magnitude - x.below / 4 * x.lastPlace ≤ q ∧ q ≤ x.magnitude + above / 4 * x.lastPlace
  else x.magnitude - x.below / 4 * x.lastPlace < q ∧ q < x.magnitude + above / 4 * x.lastPlace

theorem quarters_pos (x : Binary64) :
    0 < (x.below : ℚ) / 4 * x.lastPlace ∧ 0 < (above : ℚ) / 4 * x.lastPlace := by
  have hbelow : 0 < x.below := by
    unfold below
    split <;> decide
  exact ⟨mul_pos (div_pos (Nat.cast_pos.2 hbelow) (by norm_num)) x.lastPlace_pos,
    mul_pos (by norm_num [above]) x.lastPlace_pos⟩

theorem Near.le (h : x.Near q) :
    x.magnitude - x.below / 4 * x.lastPlace ≤ q ∧ q ≤ x.magnitude + above / 4 * x.lastPlace := by
  unfold Near at h
  split at h
  · exact h
  · exact ⟨h.1.le, h.2.le⟩

/-- An end of the interval is near an even double only. -/
theorem Near.even_of_eq (h : x.Near q) (hend : q = x.magnitude - x.below / 4 * x.lastPlace ∨
    q = x.magnitude + above / 4 * x.lastPlace) : x.significand % 2 = 0 := by
  by_contra hodd
  rw [Near, if_neg hodd] at h
  obtain hend | hend := hend
  · exact h.1.ne' hend
  · exact h.2.ne hend

/-- What is between the ends is near, whether or not they are. -/
theorem near_of_lt (hlow : x.magnitude - x.below / 4 * x.lastPlace < q)
    (hhigh : q < x.magnitude + above / 4 * x.lastPlace) : x.Near q := by
  unfold Near
  split
  · exact ⟨hlow.le, hhigh.le⟩
  · exact ⟨hlow, hhigh⟩

theorem near_magnitude (x : Binary64) : x.Near x.magnitude := by
  obtain ⟨hlow, hhigh⟩ := x.quarters_pos
  exact near_of_lt (by linarith) (by linarith)

/-- What lies between two near numbers is near. -/
theorem Near.between {s : ℚ} (hq : x.Near q) (hs : x.Near s) (hqr : q ≤ r) (hrs : r ≤ s) :
    x.Near r := by
  unfold Near at hq hs ⊢
  split at hq
  · next heven =>
    rw [if_pos heven] at hs ⊢
    exact ⟨hq.1.trans hqr, hrs.trans hs.2⟩
  · next hodd =>
    rw [if_neg hodd] at hs ⊢
    exact ⟨hq.1.trans_le hqr, hrs.trans_lt hs.2⟩

/-- A number on this side of the middle is nearer to the end on this side. -/
theorem lt_or_halfway {m w d : ℚ} (hd : 0 < d) (hq : m - d ≤ q) (hw : w ≤ m - 2 * d) :
    |q - m| < |q - w| ∨ |q - m| = |q - w| ∧ q = m - d ∧ w = m - 2 * d := by
  have hpos : |q - w| = q - w := abs_of_pos (by linarith)
  rw [hpos]
  obtain hq | rfl := hq.lt_or_eq
  · exact .inl (abs_lt.2 ⟨by linarith, by linarith⟩)
  · have hneg : |m - d - m| = d := by
      rw [sub_sub_cancel_left, abs_neg, abs_of_pos hd]
    rw [hneg]
    obtain hw | rfl := hw.lt_or_eq
    · exact .inl (by linarith)
    · exact .inr ⟨by ring, rfl, rfl⟩

/-- A near number is nearer to the double than to any other, but for an end of the interval, which
is as near to the neighbour. -/
theorem Near.nearer (h : x.Near q) (hne : y.pattern ≠ x.pattern) :
    |q - x.magnitude| < |q - y.magnitude| ∨
      |q - x.magnitude| = |q - y.magnitude| ∧ x.significand % 2 = 0 ∧ y.significand % 2 ≠ 0 := by
  obtain hdown | hup := hne.lt_or_gt
  · obtain ⟨n, hn⟩ : ∃ n, x.pattern = n + 1 := ⟨x.pattern - 1, by omega⟩
    have hbefore := magnitudeAt_before hn
    have hy : y.magnitude ≤ magnitudeAt n := by
      rw [magnitude_eq]
      exact magnitudeAt_strictMono.monotone (by omega)
    obtain hlt | ⟨heq, hend, hneighbour⟩ :=
      lt_or_halfway x.quarters_pos.1 h.le.1 (hy.trans hbefore.le)
    · exact .inl hlt
    · have heven := h.even_of_eq (.inl hend)
      rw [← hbefore, magnitude_eq, magnitudeAt_strictMono.injective.eq_iff] at hneighbour
      exact .inr ⟨heq, heven, odd_of_neighbour (.inl (by omega)) heven⟩
  · have hafter := magnitudeAt_after x
    have hy : magnitudeAt (x.pattern + 1) ≤ y.magnitude := by
      rw [magnitude_eq]
      exact magnitudeAt_strictMono.monotone hup
    -- the same, seen from the other side
    have hmirror := lt_or_halfway (q := -q) (m := -x.magnitude) (w := -y.magnitude)
      x.quarters_pos.2 (by linarith [h.le.2]) (by linarith)
    rw [neg_sub_neg, neg_sub_neg, abs_sub_comm, abs_sub_comm y.magnitude] at hmirror
    obtain hlt | ⟨heq, hend, hneighbour⟩ := hmirror
    · exact .inl hlt
    · have heven := h.even_of_eq (.inr (by linarith))
      have hneighbour : y.magnitude = magnitudeAt (x.pattern + 1) := by linarith
      rw [magnitude_eq, magnitudeAt_strictMono.injective.eq_iff] at hneighbour
      exact .inr ⟨heq, heven, odd_of_neighbour (.inr hneighbour) heven⟩

/-- A near number is rounded to the double. -/
theorem Near.rounds (h : x.Near q) (hx : x.isNaN = false) : Rounds q x := by
  refine ⟨hx, fun y _ => ?_, fun y _ heq => ?_⟩
  · by_cases hne : y.pattern = x.pattern
    · rw [magnitude_inj.2 hne]
    · obtain hlt | ⟨heq, -, -⟩ := h.nearer hne
      · exact hlt.le
      · exact heq.le
  · by_cases hne : y.pattern = x.pattern
    · exact .inl (magnitude_inj.2 hne)
    · obtain hlt | ⟨-, heven, -⟩ := h.nearer hne
      · exact absurd heq hlt.ne
      · exact .inr heven

/-- A near number is rounded to no other double. -/
theorem Near.eq_of_rounds (h : x.Near q) (hx : x.isNaN = false) (hy : Rounds q y) :
    y.pattern = x.pattern := by
  by_contra hne
  obtain hlt | ⟨heq, -, hodd⟩ := h.nearer hne
  · exact (hy.nearest x hx).not_gt hlt
  · obtain hsame | heven := hy.even x hx heq.symm
    · exact hne (magnitude_inj.1 hsame.symm)
    · exact hodd heven

/-- A number is on this side of the middle between the double it is rounded to and another one, and
in the middle only if the double is even. -/
theorem Rounds.halfway (h : Rounds q x) (hy : y.isNaN = false) :
    (x.magnitude < y.magnitude → 2 * q ≤ x.magnitude + y.magnitude) ∧
    (y.magnitude < x.magnitude → x.magnitude + y.magnitude ≤ 2 * q) ∧
    (x.magnitude ≠ y.magnitude → 2 * q = x.magnitude + y.magnitude → x.significand % 2 = 0) := by
  have hnearest := sq_le_sq.2 (h.nearest y hy)
  refine ⟨fun hlt => ?_, fun hlt => ?_, fun hne hmiddle => ?_⟩
  · by_contra hbeyond
    have hproduct := mul_pos (sub_pos.2 hlt) (sub_pos.2 (not_le.1 hbeyond))
    linarith
  · by_contra hbeyond
    have hproduct := mul_pos (sub_pos.2 hlt) (sub_pos.2 (not_le.1 hbeyond))
    linarith
  · have hopposite : q - x.magnitude = -(q - y.magnitude) := by linarith
    have heq : |q - x.magnitude| = |q - y.magnitude| := by rw [hopposite, abs_neg]
    exact (h.even y hy heq).resolve_left (Ne.symm hne)

/-- No number that is rounded to a double lies below the interval, because the double before would
be nearer. -/
theorem Rounds.low_le (h : Rounds q x) (hq : 0 ≤ q) :
    x.magnitude - x.below / 4 * x.lastPlace ≤ q ∧
      (q = x.magnitude - x.below / 4 * x.lastPlace → x.significand % 2 = 0) := by
  have hquarters := x.quarters_pos.1
  cases hn : x.pattern with
  | zero =>
    have hzero : x.magnitude = 0 := by
      rw [magnitude_eq, hn, magnitudeAt]
      simp [unitsAt]
    exact ⟨by linarith, fun hend => by linarith⟩
  | succ n =>
    have hbefore := magnitudeAt_before hn
    have hrange := isNaN_eq_false_iff.1 h.number
    obtain ⟨hpattern, hnumber⟩ := pattern_ofPattern (n := n) (by omega)
    obtain ⟨-, hdown, heven⟩ := h.halfway hnumber
    rw [magnitude_eq (ofPattern n), hpattern, hbefore] at hdown heven
    exact ⟨by linarith [hdown (by linarith)], fun hend => heven (by linarith) (by linarith)⟩

/-- No number that is rounded to a finite double lies above the interval. -/
theorem Rounds.le_high (h : Rounds q x) (hfinite : x.isInfinite = false) :
    q ≤ x.magnitude + above / 4 * x.lastPlace ∧
      (q = x.magnitude + above / 4 * x.lastPlace → x.significand % 2 = 0) := by
  have hquarters := x.quarters_pos.2
  have hbelow : x.pattern < 0x7FF0000000000000 := by
    refine lt_of_le_of_ne (isNaN_eq_false_iff.1 h.number) fun heq => ?_
    rw [isInfinite_iff.2 heq] at hfinite
    cases hfinite
  obtain ⟨hpattern, hnumber⟩ := pattern_ofPattern (n := x.pattern + 1) (by omega)
  obtain ⟨hup, -, heven⟩ := h.halfway hnumber
  rw [magnitude_eq (ofPattern _), hpattern, magnitudeAt_after] at hup heven
  exact ⟨by linarith [hup (by linarith)], fun hend => heven (by linarith) (by linarith)⟩

/-- **The numbers that are rounded to a finite double are those near to it.** -/
theorem rounds_iff_near (hx : x.isNaN = false) (hfinite : x.isInfinite = false) (hq : 0 ≤ q) :
    Rounds q x ↔ x.Near q := by
  refine ⟨fun h => ?_, fun h => h.rounds hx⟩
  obtain ⟨hlow, hlowEven⟩ := h.low_le hq
  obtain ⟨hhigh, hhighEven⟩ := h.le_high hfinite
  unfold Near
  split
  · exact ⟨hlow, hhigh⟩
  · next hodd =>
    exact ⟨lt_of_le_of_ne hlow fun hend => hodd (hlowEven hend.symm),
      lt_of_le_of_ne hhigh fun hend => hodd (hhighEven hend)⟩

end PgGateway.Binary64
