import Mathlib.Logic.Basic
import PgGateway.Text.Lowercase

/-!
# Letter case

What tells no capital letter of ASCII from its small one does not see letter case at all
(`toLower_invariant`). Two texts that are the same word are the same in capitals too, and so are
their full lower-case forms, which registries use as keys (`Text.lowercase_eq_of_sameWord`).
-/

namespace PgGateway

theorem toNat_toUpper (c : Char) :
    c.toUpper.toNat = if 97 ≤ c.toNat ∧ c.toNat ≤ 122 then c.toNat - 32 else c.toNat := by
  have hbounds : ('a'.val ≤ c.val ∧ c.val ≤ 'z'.val) ↔ 97 ≤ c.toNat ∧ c.toNat ≤ 122 := Iff.rfl
  unfold Char.toUpper
  split
  · next h =>
    obtain ⟨hlow, hhigh⟩ := hbounds.1 h
    have hval : c.val.toNat = c.toNat := rfl
    have hshift : ('A'.val - 'a'.val).toNat = 2 ^ 32 - 32 := rfl
    rw [if_pos (hbounds.1 h)]
    show (c.val + ('A'.val - 'a'.val)).toNat = c.toNat - 32
    rw [UInt32.toNat_add, hshift, hval]
    omega
  · next h => rw [if_neg (hbounds.not.1 h)]

theorem toNat_toLower (c : Char) :
    c.toLower.toNat = if 65 ≤ c.toNat ∧ c.toNat ≤ 90 then c.toNat + 32 else c.toNat := by
  have hbounds : (c.val ≥ 'A'.val ∧ c.val ≤ 'Z'.val) ↔ 65 ≤ c.toNat ∧ c.toNat ≤ 90 := Iff.rfl
  unfold Char.toLower
  split
  · next h =>
    obtain ⟨hlow, hhigh⟩ := hbounds.1 h
    have hval : c.val.toNat = c.toNat := rfl
    have hshift : ('a'.val - 'A'.val).toNat = 32 := rfl
    rw [if_pos (hbounds.1 h)]
    show (c.val + ('a'.val - 'A'.val)).toNat = c.toNat + 32
    rw [UInt32.toNat_add, hshift, hval]
    omega
  · next h => rw [if_neg (hbounds.not.1 h)]

theorem toUpper_eq_iff {c d : Char} : c.toUpper = d.toUpper ↔ c.toLower = d.toLower := by
  rw [← Char.toNat_inj, ← Char.toNat_inj, toNat_toUpper, toNat_toUpper, toNat_toLower,
    toNat_toLower]
  split <;> split <;> split <;> split <;> omega

/-- Texts that are the same word are so in capitals too. -/
theorem Text.sameWord_iff_upper {t w : Text} : SameWord t w ↔ upper t = upper w := by
  unfold SameWord lower upper
  induction t generalizing w with
  | nil => cases w <;> simp
  | cons c t ih =>
    cases w with
    | nil => simp
    | cons d w =>
      rw [List.map_cons, List.map_cons, List.map_cons, List.map_cons, List.cons.injEq,
        List.cons.injEq, ih, toUpper_eq_iff]

/-- **What tells no capital letter from its small one does not see letter case.** -/
theorem toLower_invariant {α : Type} {f : Char → α}
    (letters : ∀ n < 26, f (Char.ofNat (97 + n)) = f (Char.ofNat (65 + n))) (c : Char) :
    f c.toLower = f c := by
  by_cases hcapital : 65 ≤ c.toNat ∧ c.toNat ≤ 90
  · have hsmall : c.toLower = Char.ofNat (97 + (c.toNat - 65)) := by
      have htoNat : c.toLower.toNat = 97 + (c.toNat - 65) := by
        rw [toNat_toLower, if_pos hcapital]
        omega
      rw [← htoNat, Char.ofNat_toNat]
    have hletter : Char.ofNat (65 + (c.toNat - 65)) = c := by
      rw [Nat.add_sub_cancel' hcapital.1, Char.ofNat_toNat]
    rw [hsmall, letters _ (by omega), hletter]
  · have hsame : c.toLower = c := by
      rw [← Char.toNat_inj, toNat_toLower, if_neg hcapital]
    rw [hsame]

/-! ## Full lower-casing -/

namespace LetterCase

theorem isCased_toLower (c : Char) : isCased c.toLower = isCased c :=
  toLower_invariant (by decide +kernel) c

theorem isIgnorable_toLower (c : Char) : isIgnorable c.toLower = isIgnorable c :=
  toLower_invariant (by decide +kernel) c

theorem lowerChar_toLower (c : Char) : lowerChar c.toLower = lowerChar c :=
  toLower_invariant (by decide +kernel) c

theorem meetsCased_lower (t : Text) : meetsCased (t.map Char.toLower) = meetsCased t := by
  have hignorable : isIgnorable ∘ Char.toLower = isIgnorable := funext isIgnorable_toLower
  unfold meetsCased
  rw [List.dropWhile_map, hignorable]
  cases t.dropWhile isIgnorable with
  | nil => rfl
  | cons c rest => exact isCased_toLower c

theorem lowerAfter_lower (before cs : Text) :
    lowerAfter (before.map Char.toLower) (cs.map Char.toLower) = lowerAfter before cs := by
  have hsigma : ∀ c : Char, c.toLower = 'Σ' ↔ c = 'Σ' := fun c =>
    iff_of_eq (toLower_invariant (f := (· = 'Σ')) (by decide) c)
  have hdotted : ∀ c : Char, c.toLower = 'İ' ↔ c = 'İ' := fun c =>
    iff_of_eq (toLower_invariant (f := (· = 'İ')) (by decide) c)
  induction cs generalizing before with
  | nil => rfl
  | cons c cs ih =>
    have hrest := ih (c :: before)
    rw [List.map_cons] at hrest ⊢
    simp only [lowerAfter, lowerSigma, hsigma, hdotted, lowerChar_toLower, meetsCased_lower, hrest]

end LetterCase

/-- Texts that are the same word have one lower-case form. -/
theorem Text.lowercase_eq_of_sameWord {t w : Text} (h : SameWord t w) :
    lowercase t = lowercase w := by
  have hlower : ∀ t, lowercase (lower t) = lowercase t := fun t => LetterCase.lowerAfter_lower [] t
  rw [← hlower t, ← hlower w, h]

end PgGateway
