import DatagramTunnel.Decimal.Binary64
import Mathlib.Algebra.Order.Field.Rat
import Mathlib.Tactic.Linarith
import Mathlib.Tactic.Positivity

/-!
# The doubles above one

The significand of a double has 53 bits.  So a double that is above one is above it by at least
`1 / 2 ^ 52`: it is a whole number from two on, or a fraction whose denominator has fewer bits than
its numerator.
-/

namespace DatagramTunnel.Binary64

theorem significand_lt {word significand : Nat} {negative : Bool} {exponent : Int}
    (h : ofBits word = .finite negative significand exponent) : significand < 2 ^ 53 := by
  have hfraction : word % (1 <<< 52) < 2 ^ 52 := Nat.mod_lt _ (by decide)
  have hhidden : (1 <<< 52 : Nat) = 2 ^ 52 := by decide
  unfold ofBits at h
  dsimp only at h
  split at h
  · split at h <;> cases h
  · split at h
    · cases h
      omega
    · cases h
      omega

theorem le_zero_of_negative {significand : Nat} {exponent : Int} {value : Rat}
    (h : (finite true significand exponent).rational? = some value) : value ≤ 0 := by
  have hvalue := Option.some.inj h
  rw [← hvalue, if_pos rfl, neg_nonpos]
  cases exponent with
  | ofNat up => exact Nat.cast_nonneg _
  | negSucc down =>
    show (0 : Rat) ≤ mkRat significand (1 <<< (down + 1))
    rw [Rat.mkRat_eq_div]
    positivity

/-- A fraction above one with a numerator of 53 bits, over a power of two. -/
theorem fraction_spacing {significand digits : Nat} (hsmall : significand < 2 ^ 53)
    (habove : (1 : Rat) < significand / (2 ^ digits : Nat)) :
    (1 : Rat) + 1 / 2 ^ 52 ≤ significand / (2 ^ digits : Nat) := by
  have hscale : (0 : Rat) < (2 ^ digits : Nat) := by positivity
  have hmore : 2 ^ digits < significand := by
    have := (one_lt_div hscale).1 habove
    exact_mod_cast this
  have hdigits : digits ≤ 52 := by
    by_contra hlarge
    have : 2 ^ 53 ≤ 2 ^ digits := Nat.pow_le_pow_right (by decide) (by omega)
    omega
  have hgap : ((2 ^ digits : Nat) : Rat) + 1 ≤ significand := by exact_mod_cast hmore
  have hfine : (1 : Rat) / 2 ^ 52 ≤ 1 / (2 ^ digits : Nat) := by
    refine one_div_le_one_div_of_le hscale ?_
    exact_mod_cast Nat.pow_le_pow_right (by decide) hdigits
  calc (1 : Rat) + 1 / 2 ^ 52
      ≤ 1 + 1 / (2 ^ digits : Nat) := by linarith
    _ = (((2 ^ digits : Nat) : Rat) + 1) / (2 ^ digits : Nat) := by
      rw [add_div, div_self hscale.ne']
    _ ≤ significand / (2 ^ digits : Nat) := div_le_div_of_nonneg_right hgap hscale.le

/-- The doubles above one keep a distance from it. -/
theorem rational?_spacing {x : Float} {value : Rat} (h : (ofFloat x).rational? = some value)
    (habove : 1 < value) : 1 + 1 / 2 ^ 52 ≤ value := by
  cases hparts : ofFloat x with
  | nan =>
    rw [hparts] at h
    cases h
  | infinite negative =>
    rw [hparts] at h
    cases h
  | finite negative significand exponent =>
    rw [hparts] at h
    cases negative with
    | true => linarith [le_zero_of_negative h]
    | false =>
      have hvalue := Option.some.inj h
      cases exponent with
      | ofNat up =>
        have hwhole : value = ((significand <<< up : Nat) : Rat) := hvalue.symm
        rw [hwhole] at habove ⊢
        have htwo : 2 ≤ significand <<< up := by exact_mod_cast habove
        have htwo' : (2 : Rat) ≤ ((significand <<< up : Nat) : Rat) := by exact_mod_cast htwo
        exact le_trans (by norm_num) htwo'
      | negSucc down =>
        have hpart : value = mkRat significand (1 <<< (down + 1)) := hvalue.symm
        rw [Nat.shiftLeft_eq, Nat.one_mul, Rat.mkRat_eq_div] at hpart
        have hquotient : value = significand / (2 ^ (down + 1) : Nat) := hpart
        rw [hquotient] at habove ⊢
        exact fraction_spacing (significand_lt hparts) habove

end DatagramTunnel.Binary64
