import PgGateway.Binary64.Printer
import PgGateway.Proofs.Binary64.Rounding

/-!
# The shortest decimals read back

A grid of decimals has a number that is rounded to a double only if one of the two neighbours of the
double is such a number (`Binary64.onGrid?_spec`). The grid of seventeen digits always has one, so
the decimal that is found for a double is rounded to it (`Binary64.near_shortest`), and no decimal
of fewer digits is (`Binary64.shortest_le`).
-/

namespace PgGateway

/-- The number that a decimal denotes. -/
def Decimal.value (d : Decimal) : ℚ := d.digits * 10 ^ d.exponent

/-- The number of its digits bounds a number. -/
theorem Numeral.ofNat_bounds {n : ℕ} (hn : n ≠ 0) :
    10 ^ ((ofNat n).length - 1) ≤ n ∧ n < 10 ^ (ofNat n).length := by
  have hsome : 0 < (ofNat n).length := Nat.length_toDigits_pos
  refine ⟨?_, (Nat.length_toDigits_le_iff (by decide) hsome).1 le_rfl⟩
  obtain hone | hmore := Nat.eq_zero_or_pos ((ofNat n).length - 1)
  · rw [hone]
    exact Nat.pos_of_ne_zero hn
  · by_contra hlt
    have := (Nat.length_toDigits_le_iff (by decide) hmore).2 (not_le.1 hlt)
    unfold ofNat at this hsome
    omega

/-- A power of ten on a grid. -/
theorem ten_pow_mul (n : ℕ) (e : ℤ) : ((10 ^ n : ℕ) : ℚ) * 10 ^ e = 10 ^ (n + e) := by
  rw [Nat.cast_pow, Nat.cast_ofNat, ← zpow_natCast, ← zpow_add₀ (by norm_num)]

namespace Decimal

/-- A decimal is on every finer grid. -/
theorem value_on_grid {d : Decimal} {e : ℤ} (h : e ≤ d.exponent) :
    d.value = (d.digits * 10 ^ (d.exponent - e).toNat : ℕ) * 10 ^ e := by
  have hexponent : ((d.exponent - e).toNat : ℤ) + e = d.exponent := by omega
  rw [Nat.cast_mul, mul_assoc, ten_pow_mul, hexponent]
  rfl

/-- A zero at the end of a number is not written. -/
theorem digitText_ten_mul {n : ℕ} (hn : n ≠ 0) (e : ℤ) :
    digitText ⟨10 * n, e⟩ = digitText ⟨n, e⟩ := by
  have hdigits : Nat.toDigits 10 (10 * n) = Nat.toDigits 10 n ++ ['0'] :=
    (Nat.toDigits_append_toDigits (d := 0) (by decide) (Nat.pos_of_ne_zero hn) (by decide)).symm
  rw [digitText, hdigits, List.reverse_append]
  rfl

/-- The digits that are written up to a power of ten, which is written by a single one. -/
theorem length_digitText_le {n : ℕ} {d : Decimal} (h : d.digits ≤ 10 ^ (n + 1)) :
    d.digitText.length ≤ n + 1 := by
  have hall (d : Decimal) : d.digitText.length ≤ (Nat.toDigits 10 d.digits).length := by
    have hlength : (Nat.toDigits 10 d.digits).reverse.length = (Nat.toDigits 10 d.digits).length :=
      List.length_reverse
    rw [digitText, List.length_reverse, ← hlength]
    exact (List.dropWhile_sublist _).length_le
  have hdigits {d : Decimal} (h : d.digits < 10 ^ (n + 1)) : d.digitText.length ≤ n + 1 :=
    (hall d).trans ((Nat.length_toDigits_le_iff (by decide) (Nat.succ_pos n)).2 h)
  obtain hlt | heq := h.lt_or_eq
  · exact hdigits hlt
  · obtain ⟨digits, e⟩ := d
    obtain rfl : digits = 10 * 10 ^ n := heq.trans (Nat.pow_succ' ..)
    rw [digitText_ten_mul (Nat.pow_pos (by decide)).ne']
    exact hdigits (Nat.pow_lt_pow_right (by decide) (Nat.lt_succ_self n))

end Decimal

namespace Binary64

variable {x : Binary64} {e : ℤ} {d : Decimal} {q : ℚ}

/-! ## Grids -/

/-- A power whose exponent may be below zero, brought to whole numbers. -/
theorem pow_toNat {b : ℕ} (hb : b ≠ 0) (k : ℤ) :
    ((b ^ k.toNat : ℕ) : ℚ) = b ^ k * (b ^ (-k).toNat : ℕ) := by
  have hk : (k.toNat : ℤ) = k + (-k).toNat := by omega
  rw [Nat.cast_pow, Nat.cast_pow, ← zpow_natCast, ← zpow_natCast, hk,
    zpow_add₀ (Nat.cast_ne_zero.2 hb)]

/-- A quarter of the last place of a double, in the measure of a grid. -/
def gridUnit (x : Binary64) (e : ℤ) : ℕ :=
  Nat.pow 2 (x.power - 2).toNat * Nat.pow 10 (-e).toNat

/-- The width of a grid, in the same measure. -/
def gridStep (x : Binary64) (e : ℤ) : ℕ :=
  Nat.pow 10 e.toNat * Nat.pow 2 (2 - x.power).toNat

/-- A number in this measure is rounded to the double. -/
def inside (x : Binary64) (unit p : ℕ) : Bool :=
  if x.significand % 2 = 0 then
    (4 * x.significand - x.below) * unit ≤ p && p ≤ (4 * x.significand + above) * unit
  else (4 * x.significand - x.below) * unit < p && p < (4 * x.significand + above) * unit

/-- The number of the grid just below the double. -/
def gridIndex (x : Binary64) (e : ℤ) : ℕ :=
  4 * x.significand * x.gridUnit e / x.gridStep e

theorem onGrid?_eq (x : Binary64) (e : ℤ) : x.onGrid? e =
    let value := 4 * x.significand * x.gridUnit e
    let down := x.gridIndex e * x.gridStep e
    let up := down + x.gridStep e
    if x.inside (x.gridUnit e) down &&
        (!x.inside (x.gridUnit e) up || value - down < up - value) then
      some ⟨x.gridIndex e, e⟩
    else if x.inside (x.gridUnit e) up then some ⟨x.gridIndex e + 1, e⟩
    else none := rfl

/-- The measure of a grid is exact: both are whole in it, and nothing is cut off. -/
theorem exists_scale (x : Binary64) (e : ℤ) : ∃ scale : ℚ, 0 < scale ∧
    (x.gridUnit e : ℚ) = scale * (x.lastPlace / 4) ∧ (x.gridStep e : ℚ) = scale * 10 ^ e := by
  refine ⟨(2 ^ (2 - x.power).toNat : ℕ) * (10 ^ (-e).toNat : ℕ), ?_, ?_, ?_⟩
  · positivity
  · have hpower := pow_toNat (b := 2) (by decide) (x.power - 2)
    rw [neg_sub] at hpower
    show ((2 ^ (x.power - 2).toNat * 10 ^ (-e).toNat : ℕ) : ℚ) = _
    rw [Nat.cast_mul, hpower, lastPlace, zpow_sub₀ (by norm_num)]
    norm_num
    ring
  · show ((10 ^ e.toNat * 2 ^ (2 - x.power).toNat : ℕ) : ℚ) = _
    rw [Nat.cast_mul, pow_toNat (by decide) e]
    push_cast
    ring

section Scale

variable {scale : ℚ} {unit p : ℕ}

theorem cast_value (hunit : (unit : ℚ) = scale * (x.lastPlace / 4)) :
    ((4 * x.significand * unit : ℕ) : ℚ) = scale * x.magnitude := by
  push_cast
  rw [hunit, magnitude, lastPlace]
  ring

/-- What is inside is near, measured as the number that it is. -/
theorem inside_iff (hx : x.significand ≠ 0) (hscale : 0 < scale)
    (hunit : (unit : ℚ) = scale * (x.lastPlace / 4)) (hp : (p : ℚ) = scale * q) :
    x.inside unit p = true ↔ x.Near q := by
  have hmagnitude : x.magnitude = x.significand * x.lastPlace := rfl
  have hlow : (((4 * x.significand - x.below) * unit : ℕ) : ℚ) =
      scale * (x.magnitude - x.below / 4 * x.lastPlace) := by
    have hbelow : x.below ≤ 4 * x.significand := by
      unfold below
      split <;> omega
    rw [Nat.cast_mul, Nat.cast_sub hbelow, hunit, hmagnitude]
    push_cast
    ring
  have hhigh : (((4 * x.significand + above) * unit : ℕ) : ℚ) =
      scale * (x.magnitude + above / 4 * x.lastPlace) := by
    push_cast
    rw [hunit, hmagnitude]
    ring
  unfold inside Near
  split
  · rw [Bool.and_eq_true, decide_eq_true_iff, decide_eq_true_iff, ← Nat.cast_le (α := ℚ),
      ← Nat.cast_le (α := ℚ), hp, hlow, hhigh, mul_le_mul_iff_right₀ hscale,
      mul_le_mul_iff_right₀ hscale]
  · rw [Bool.and_eq_true, decide_eq_true_iff, decide_eq_true_iff, ← Nat.cast_lt (α := ℚ),
      ← Nat.cast_lt (α := ℚ), hp, hlow, hhigh, mul_lt_mul_iff_right₀ hscale,
      mul_lt_mul_iff_right₀ hscale]

end Scale

/-- **Of a grid, the neighbours of a double are tried.** One that is near is taken, and none if
neither is. -/
theorem onGrid?_spec (hx : x.significand ≠ 0) (e : ℤ) : ∃ k : ℕ,
    (k : ℚ) * 10 ^ e ≤ x.magnitude ∧ x.magnitude < ((k + 1 : ℕ) : ℚ) * 10 ^ e ∧
    ((∃ d, x.onGrid? e = some d ∧ d.exponent = e ∧ d.digits ≤ k + 1 ∧ x.Near d.value) ∨
      x.onGrid? e = none ∧ ¬x.Near (k * 10 ^ e) ∧ ¬x.Near ((k + 1 : ℕ) * 10 ^ e)) := by
  obtain ⟨scale, hscale, hunit, hstep⟩ := exists_scale x e
  rw [onGrid?_eq]
  extract_lets value down up
  have hvalue : (value : ℚ) = scale * x.magnitude := cast_value hunit
  have hdown : (down : ℚ) = scale * (x.gridIndex e * 10 ^ e) := by
    show ((x.gridIndex e * x.gridStep e : ℕ) : ℚ) = _
    rw [Nat.cast_mul, hstep]
    ring
  have hup : (up : ℚ) = scale * ((x.gridIndex e + 1 : ℕ) * 10 ^ e) := by
    show ((down + x.gridStep e : ℕ) : ℚ) = _
    rw [Nat.cast_add, hdown, hstep]
    push_cast
    ring
  have hwide : 0 < x.gridStep e := Nat.mul_pos (Nat.pow_pos (by decide)) (Nat.pow_pos (by decide))
  refine ⟨x.gridIndex e, ?_, ?_, ?_⟩
  · rw [← mul_le_mul_iff_right₀ hscale, ← hdown, ← hvalue, Nat.cast_le]
    exact Nat.div_mul_le_self value _
  · rw [← mul_lt_mul_iff_right₀ hscale, ← hup, ← hvalue, Nat.cast_lt]
    exact Nat.lt_div_mul_add hwide
  · have hlower := inside_iff hx hscale hunit hdown
    have hupper := inside_iff hx hscale hunit hup
    split
    · next htaken =>
      rw [Bool.and_eq_true] at htaken
      exact .inl ⟨_, rfl, rfl, Nat.le_succ _, hlower.1 htaken.1⟩
    · next hleft =>
      split
      · next htaken => exact .inl ⟨_, rfl, rfl, le_rfl, hupper.1 htaken⟩
      · next hnot =>
        refine .inr ⟨rfl, fun hnear => hleft ?_, fun hnear => hnot (hupper.2 hnear)⟩
        rw [hlower.2 hnear, Bool.eq_false_of_not_eq_true hnot]
        rfl

/-- What is found on a grid is near, and no further up than the neighbour above. -/
theorem near_of_onGrid? (hx : x.significand ≠ 0) (h : x.onGrid? e = some d) :
    x.Near d.value ∧ ∃ k : ℕ, (k : ℚ) * 10 ^ e ≤ x.magnitude ∧ d.digits ≤ k + 1 := by
  obtain ⟨k, hdown, -, ⟨_, hd, -, hle, hnear⟩ | ⟨hnone, -⟩⟩ := onGrid?_spec hx e
  · obtain rfl := Option.some.inj (h.symm.trans hd)
    exact ⟨hnear, k, hdown, hle⟩
  · rw [h] at hnone
    cases hnone

/-- A near number on a grid is found, or a better one. -/
theorem onGrid?_isSome (hx : x.significand ≠ 0) {k : ℕ} (h : x.Near (k * 10 ^ e)) :
    (x.onGrid? e).isSome = true := by
  obtain ⟨index, hdown, hup, ⟨d, hd, -⟩ | ⟨-, hnot, hnot'⟩⟩ := onGrid?_spec hx e
  · rw [hd]
    rfl
  · -- the neighbour on its side lies between the number and the double
    have hgrid : (0 : ℚ) < 10 ^ e := by positivity
    obtain hle | hlt := le_or_gt k index
    · refine absurd (h.between x.near_magnitude ?_ hdown) hnot
      exact mul_le_mul_of_nonneg_right (Nat.cast_le.2 hle) hgrid.le
    · refine absurd (x.near_magnitude.between h hup.le ?_) hnot'
      exact mul_le_mul_of_nonneg_right (Nat.cast_le.2 hlt) hgrid.le

/-! ## The leading digit -/

/-- The digits before the point tell the leading digit, once a power of ten has brought it there. -/
theorem leading_of_scaled {num den k : ℕ} (hden : 0 < den) (hq : (num : ℚ) = q * den)
    (hlarge : 1 ≤ q * 10 ^ (k : ℤ))
    (he : e = (Nat.toDigits 10 (num * Nat.pow 10 k / den)).length - (k + 1)) :
    10 ^ e ≤ q ∧ q < 10 ^ (e + 1) := by
  have hpos : (0 : ℚ) < den := Nat.cast_pos.2 hden
  have hscale : (0 : ℚ) < 10 ^ (k : ℤ) := by positivity
  have hnum : ((num * Nat.pow 10 k : ℕ) : ℚ) = q * 10 ^ (k : ℤ) * den := by
    rw [Nat.cast_mul, hq, Nat.pow_eq, zpow_natCast]
    push_cast
    ring
  generalize hscaled : num * Nat.pow 10 k / den = scaled at he
  have hle : (scaled : ℚ) ≤ q * 10 ^ (k : ℤ) := by
    rw [← mul_le_mul_iff_left₀ hpos, ← hnum, ← Nat.cast_mul, Nat.cast_le, ← hscaled]
    exact Nat.div_mul_le_self _ _
  have hlt : q * 10 ^ (k : ℤ) < ((scaled + 1 : ℕ) : ℚ) := by
    rw [← mul_lt_mul_iff_left₀ hpos, ← hnum, ← Nat.cast_mul, Nat.cast_lt, ← hscaled,
      Nat.mul_comm (_ + 1)]
    exact Nat.lt_mul_div_succ _ hden
  have hsome : scaled ≠ 0 := by
    have hone := Nat.one_lt_cast.1 (hlarge.trans_lt hlt)
    omega
  obtain ⟨hfrom, hbelow⟩ := Numeral.ofNat_bounds hsome
  have hlength : 0 < (Nat.toDigits 10 scaled).length := Nat.length_toDigits_pos
  unfold Numeral.ofNat at hfrom hbelow
  generalize (Nat.toDigits 10 scaled).length = length at hfrom hbelow hlength he
  constructor
  · have hexponent : e + k = (length - 1 : ℕ) := by omega
    rw [← mul_le_mul_iff_left₀ hscale, ← zpow_add₀ (by norm_num), hexponent, zpow_natCast]
    exact le_trans (by exact_mod_cast hfrom) hle
  · have hexponent : e + 1 + k = length := by omega
    rw [← mul_lt_mul_iff_left₀ hscale, ← zpow_add₀ (by norm_num), hexponent, zpow_natCast]
    exact hlt.trans_le (by exact_mod_cast hbelow)

theorem one_le_of_pow_le {j k : ℕ} (h : Nat.pow 2 j ≤ Nat.pow 10 k) :
    (1 : ℚ) ≤ 2 ^ (-(j : ℤ)) * 10 ^ (k : ℤ) := by
  have hpos : (0 : ℚ) < 2 ^ j := by positivity
  rw [zpow_neg, zpow_natCast, zpow_natCast, inv_mul_eq_div, le_div_iff₀ hpos, one_mul]
  exact_mod_cast h

theorem least_le_magnitude (hx : x.significand ≠ 0) : least ≤ x.magnitude := by
  have hone : (1 : ℚ) ≤ x.significand := Nat.one_le_cast.2 (Nat.pos_of_ne_zero hx)
  have hplace : least ≤ x.lastPlace := by
    rw [lastPlace_eq]
    exact le_mul_of_one_le_left least_pos.le (Nat.one_le_cast.2 (gapAt_pos _))
  calc least ≤ 1 * x.lastPlace := by rwa [one_mul]
    _ ≤ x.significand * x.lastPlace := mul_le_mul_of_nonneg_right hone x.lastPlace_pos.le

/-- The leading digit of a double stands for ten to the `leadingExponent`. -/
theorem leadingExponent_spec (hx : x.significand ≠ 0) :
    10 ^ x.leadingExponent ≤ x.magnitude ∧ x.magnitude < 10 ^ (x.leadingExponent + 1) := by
  have hnum : ((x.significand * Nat.pow 2 x.power.toNat : ℕ) : ℚ) =
      x.magnitude * (Nat.pow 2 (-x.power).toNat : ℕ) := by
    rw [Nat.cast_mul, Nat.pow_eq, Nat.pow_eq, pow_toNat (by decide), magnitude]
    push_cast
    ring
  have hlarge : (1 : ℚ) ≤ x.magnitude * 10 ^ ((324 : ℕ) : ℤ) :=
    (one_le_of_pow_le (j := 1074) (by decide +kernel)).trans
      (mul_le_mul_of_nonneg_right (least_le_magnitude hx) (by positivity))
  have hden : 0 < Nat.pow 2 (-x.power).toNat := Nat.pow_pos (by decide)
  exact leading_of_scaled hden hnum hlarge rfl

/-! ## Enough digits -/

/-- A significand is small enough for seventeen digits, and smaller still just above a power of two,
where the interval is shorter. -/
theorem significand_lt (x : Binary64) : 4 * x.significand < 10 ^ 16 * (x.below + above) := by
  unfold below above significand
  have hfraction : x.fraction < 0x10000000000000 := by
    rw [fraction_eq]
    exact Nat.mod_lt _ (by decide)
  split <;> split <;> omega

/-- **Seventeen digits are enough.** -/
theorem isSome_seventeen (hx : x.significand ≠ 0) :
    (x.onGrid? (x.leadingExponent - 16)).isSome = true := by
  obtain ⟨k, hdown, hup, ⟨d, hd, -⟩ | ⟨-, hnot, hnot'⟩⟩ :=
    onGrid?_spec hx (x.leadingExponent - 16)
  · rw [hd]
    rfl
  · -- the step of the grid is less than the interval is long
    have hstep : (10 : ℚ) ^ (x.leadingExponent - 16) < (x.below + above) / 4 * x.lastPlace := by
      have hleading := (leadingExponent_spec hx).1
      have hsplit : (10 : ℚ) ^ x.leadingExponent =
          (10 ^ 16 : ℕ) * 10 ^ (x.leadingExponent - 16) := by
        rw [ten_pow_mul]
        congr 1
        omega
      have hsignificand : (4 : ℚ) * x.significand < 10 ^ 16 * (x.below + above) := by
        exact_mod_cast x.significand_lt
      have hscaled := mul_lt_mul_of_pos_right hsignificand x.lastPlace_pos
      have hmagnitude : x.magnitude = x.significand * x.lastPlace := rfl
      push_cast at hsplit
      linarith
    obtain ⟨hbelow, habove⟩ := x.quarters_pos
    have hlow : (k : ℚ) * 10 ^ (x.leadingExponent - 16) ≤
        x.magnitude - x.below / 4 * x.lastPlace := by
      by_contra hlow
      exact hnot (near_of_lt (not_le.1 hlow) (by linarith))
    have hhigh : x.magnitude + above / 4 * x.lastPlace ≤
        ((k + 1 : ℕ) : ℚ) * 10 ^ (x.leadingExponent - 16) := by
      by_contra hhigh
      exact hnot' (near_of_lt (by linarith) (not_le.1 hhigh))
    push_cast at hhigh
    linarith

/-- A number for which something is found is the first one. -/
theorem first_of_findSome?_range {α : Type} {f : ℕ → Option α} {bound : ℕ} {a : α}
    (h : (List.range bound).findSome? f = some a) :
    ∃ n, f n = some a ∧ ∀ m < n, f m = none := by
  obtain ⟨before, n, after, hsplit, hn, hbefore⟩ := List.findSome?_eq_some_iff.1 h
  rw [List.range_eq_range'] at hsplit
  obtain ⟨k, -, rfl, hafter⟩ := List.range'_eq_append_iff.1 hsplit
  obtain rfl : n = k := by
    have hhead := congrArg List.head? hafter
    rw [List.head?_cons, List.head?_range'] at hhead
    split at hhead
    · cases hhead
    · simpa using hhead
  refine ⟨n, hn, fun m hm => hbefore m ?_⟩
  rw [List.mem_range'_1]
  omega

/-- The grids are tried from one digit on, and the first one that has a near number is taken. -/
theorem shortest_spec (hx : x.significand ≠ 0) : ∃ n : ℕ,
    x.onGrid? (x.leadingExponent - n) = some x.shortest ∧
      ∀ m < n, x.onGrid? (x.leadingExponent - (m : ℕ)) = none := by
  have hsome : ((List.range 17).findSome?
      fun n : ℕ => x.onGrid? (x.leadingExponent - n)).isSome = true :=
    List.findSome?_isSome_iff.2 ⟨16, by decide, isSome_seventeen hx⟩
  obtain ⟨d, hd⟩ := Option.isSome_iff_exists.1 hsome
  have hshortest : x.shortest = d := by
    rw [shortest, hd]
    rfl
  rw [hshortest]
  exact first_of_findSome?_range hd

/-- **The shortest decimal of a double is near to it.** -/
theorem near_shortest (hx : x.significand ≠ 0) : x.Near x.shortest.value := by
  obtain ⟨n, hgrid, -⟩ := shortest_spec hx
  exact (near_of_onGrid? hx hgrid).1

/-! ## No more digits than are needed -/

/-- A near decimal has a near number beside it on the grid of as many digits. -/
theorem exists_near_of_length (hx : x.significand ≠ 0) (h : x.Near d.value) {n : ℕ}
    (hn : d.digits < 10 ^ (n + 1)) : ∃ k : ℕ, x.Near (k * 10 ^ (x.leadingExponent - n)) := by
  obtain hle | hlt := le_or_gt (x.leadingExponent - n) d.exponent
  · exact ⟨_, Decimal.value_on_grid hle ▸ h⟩
  · -- the decimal is no more than ten to the leading exponent, which lies between
    have hleading : ((10 ^ n : ℕ) : ℚ) * 10 ^ (x.leadingExponent - n) = 10 ^ x.leadingExponent := by
      rw [ten_pow_mul, add_sub_cancel]
    have hdecimal : d.value ≤ 10 ^ x.leadingExponent := by
      calc d.value ≤ (10 ^ (n + 1) : ℕ) * 10 ^ d.exponent :=
            mul_le_mul_of_nonneg_right (Nat.cast_le.2 hn.le) (by positivity)
        _ = 10 ^ ((n + 1 : ℕ) + d.exponent) := ten_pow_mul _ _
        _ ≤ 10 ^ x.leadingExponent := zpow_le_zpow_right₀ (by norm_num) (by omega)
    refine ⟨10 ^ n, h.between x.near_magnitude ?_ ?_⟩
    · rwa [hleading]
    · rw [hleading]
      exact (leadingExponent_spec hx).1

/-- What is found on the grid of so many digits has no more of them, or is a power of ten. -/
theorem digits_le_of_onGrid? (hx : x.significand ≠ 0) {n : ℕ}
    (h : x.onGrid? (x.leadingExponent - n) = some d) : d.digits ≤ 10 ^ (n + 1) := by
  obtain ⟨-, k, hdown, hle⟩ := near_of_onGrid? hx h
  refine hle.trans (Nat.succ_le_of_lt ?_)
  have hsplit : (10 : ℚ) ^ (x.leadingExponent + 1) =
      (10 ^ (n + 1) : ℕ) * 10 ^ (x.leadingExponent - n) := by
    rw [ten_pow_mul]
    congr 1
    omega
  have hlt := hdown.trans_lt (leadingExponent_spec hx).2
  rw [hsplit, mul_lt_mul_iff_left₀ (by positivity), Nat.cast_lt] at hlt
  exact hlt

/-- **No decimal of fewer digits is near to the double.** -/
theorem shortest_le (hx : x.significand ≠ 0) (h : x.Near d.value) :
    x.shortest.digitText.length ≤ (Numeral.ofNat d.digits).length := by
  obtain ⟨n, hgrid, hfirst⟩ := shortest_spec hx
  obtain ⟨m, hm⟩ : ∃ m, (Numeral.ofNat d.digits).length = m + 1 :=
    Nat.exists_eq_succ_of_ne_zero Nat.length_toDigits_pos.ne'
  have hlong : d.digits < 10 ^ (m + 1) :=
    (Nat.length_toDigits_le_iff (by decide) (Nat.succ_pos m)).1 hm.le
  -- the grid of as many digits has a near number, so it is not before the first one that has
  obtain ⟨k, hk⟩ := exists_near_of_length hx h hlong
  have hnm : n ≤ m := by
    by_contra hlt
    have hsome := onGrid?_isSome hx hk
    rw [hfirst m (not_le.1 hlt)] at hsome
    cases hsome
  have hlength := Decimal.length_digitText_le (digits_le_of_onGrid? hx hgrid)
  omega

end Binary64

end PgGateway
